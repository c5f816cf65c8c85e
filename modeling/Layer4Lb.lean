import Layer4Lb.Config
import Layer4Lb.Lib.Machine
import Layer4Lb.Lib.RoundRobin
import Layer4Lb.Lib.TokenBucket
import Layer4Lb.Lib.Intern
import Layer4Lb.Net.Addr
import Layer4Lb.Lib.Bytes
import Layer4Lb.Networking.Acl
import Layer4Lb.Networking.ProxyProtocol
import Layer4Lb.Balancer.Basic
import Layer4Lb.Balancer.Counters
import Layer4Lb.Balancer.Select
import Layer4Lb.Balancer.Concurrent
import Layer4Lb.Balancer.Overshoot
import Layer4Lb.Balancer.Reload
import Layer4Lb.Balancer.Gauges
import Layer4Lb.Traffic.Limiter
import Layer4Lb.Traffic.Bandwidth
import Layer4Lb.Traffic.Manager
import Layer4Lb.Traffic.Retry
import Layer4Lb.Lib.Utf8
import Layer4Lb.Health.Check
import Layer4Lb.Lib.Holders
import Layer4Lb.Networking.Proxy
import Layer4Lb.Server.Acceptor
import Layer4Lb.Server.Conservation
import Layer4Lb.Server.Main
import Layer4Lb.Server.Drain
import Layer4Lb.Server.Admission
import Layer4Lb.Server.Pacing
import Layer4Lb.Server.Quiesce
import Layer4Lb.Server.Projection
