import Layer4Lb.Balancer.Counters
import Layer4Lb.Networking.Acl
import Layer4Lb.Networking.Proxy
import Layer4Lb.Traffic.Retry
import Layer4Lb.Lib.Holders
import Mathlib

/-!
# The acceptors and the connection tasks of a rule

`main` starts, for each rule, acceptors that share the rule's load balancer,
rate limiter and bandwidth manager.  An acceptor checks a new connection's
client against the access control list, then against the rate limiter, and
spawns a task for it.  The task calls `next_backend`, asks the bandwidth manager
for its four limiters, makes the TLS handshake with its client when the rule
serves TLS, and calls `proxy_connection`; it holds the backend's
`ConnectionGuard` from `next_backend` until it ends.  Any number of tasks run at
once and each await lets the others move, so a step here is an acceptor's
decision on one connection, a task going from one await to the next, a call its
streams make on a limiter, or a health report or a reload reaching the load
balancer.

`next_backend` is one step, as in `Balancer.Basic` (`Balancer.Concurrent`
splits it).  What the network does, the result of the handshake or what the
copy returns, is an input of the step that awaits it.

The acceptors read `std`'s `Display` of the client's `IpAddr` to key the
backend limiters; it comes from outside the repository and is a field of the
`Listener`, as what the access list calls of `ipnet` is the fields of an
`IpParsers`.  The metrics of
a rule start from a fresh process and only this rule's tasks write its labels.
-/

open scoped List

namespace Layer4Lb

/-- Which of its four limiters a poll of a task's streams calls. -/
inductive StreamSide
  | clientRead
  | clientWrite
  | backendRead
  | backendWrite
  deriving DecidableEq, Repr

/-- The limiter of `ProxyConfig` that the polls of a side call, if there is one. -/
def BandwidthManager.ProxyLimiters.get (ls : BandwidthManager.ProxyLimiters) :
    StreamSide → Option Nat
  | .clientRead => ls.clientReadLimiter
  | .clientWrite => ls.clientWriteLimiter
  | .backendRead => ls.backendReadLimiter
  | .backendWrite => ls.backendWriteLimiter

/-- A call of `check_n` or a pass of `until_n_ready` on the limiter at address
`i` of the manager. -/
def BandwidthManager.call {Ip : Type} (m : BandwidthManager Ip) (i : Nat)
    (a : SimpleLimiter.Attempt) : BandwidthManager Ip :=
  { m with limiters := m.limiters.modify i fun l => (l.perform a).2 }

/-- Where the task of an accepted connection is. -/
inductive TaskPhase
  /-- Spawned by the acceptor, about to call `next_backend`. -/
  | spawned
  /-- Holding its backend's guard and its limiters, in the TLS handshake with
  its client. -/
  | handshake (g : ConnectionGuard) (limiters : BandwidthManager.ProxyLimiters)
  /-- Inside `proxy_connection`, past the increments of its metrics. -/
  | proxying (g : ConnectionGuard) (limiters : BandwidthManager.ProxyLimiters)
  /-- `proxy_connection` has returned, or the handshake failed: the task ends
  and drops its guard. -/
  | closing (g : ConnectionGuard)
  deriving DecidableEq, Repr

/-- The task of an accepted connection: its client's IP, and where it is. -/
structure ConnTask where
  clientIp : IpAddr
  phase : TaskPhase
  deriving DecidableEq

namespace ConnTask

/-- The guard a task holds, from the return of `next_backend` to its end. -/
def guard (t : ConnTask) : Option ConnectionGuard :=
  match t.phase with
  | .spawned => none
  | .handshake g _ => some g
  | .proxying g _ => some g
  | .closing g => some g

/-- The guard of a task inside `proxy_connection`. -/
def proxyGuard (t : ConnTask) : Option ConnectionGuard :=
  match t.phase with
  | .proxying g _ => some g
  | _ => none

variable (ip : IpAddr) (g : ConnectionGuard) (ls : BandwidthManager.ProxyLimiters)

@[simp] theorem guard_spawned : guard ⟨ip, .spawned⟩ = none := rfl
@[simp] theorem guard_handshake : guard ⟨ip, .handshake g ls⟩ = some g := rfl
@[simp] theorem guard_proxying : guard ⟨ip, .proxying g ls⟩ = some g := rfl
@[simp] theorem guard_closing : guard ⟨ip, .closing g⟩ = some g := rfl
@[simp] theorem proxyGuard_spawned : proxyGuard ⟨ip, .spawned⟩ = none := rfl
@[simp] theorem proxyGuard_handshake : proxyGuard ⟨ip, .handshake g ls⟩ = none := rfl
@[simp] theorem proxyGuard_proxying : proxyGuard ⟨ip, .proxying g ls⟩ = some g := rfl
@[simp] theorem proxyGuard_closing : proxyGuard ⟨ip, .closing g⟩ = none := rfl

end ConnTask

/-- What `main` gives the acceptors of a rule: the rule's name, its
`AccessControl` with the `IpNet::contains` it asks, whether it has a
`TlsAcceptor`, and the `Display` of `IpAddr`. -/
structure Listener where
  ruleName : String
  acl : AccessControl
  contains : IpNet → IpAddr → Bool
  tls : Bool
  display : IpAddr → String

/-- What `main` makes of a rule for its acceptors, once its TLS files load. -/
def Listener.ofRule (P : IpParsers) (display : IpAddr → String) (r : RuleConfig) : Listener where
  ruleName := r.name
  acl := AccessControl.new P r.allowList r.denyList
  contains := P.contains
  tls := match r.tls with
    | some t => t.enabled
    | none => false
  display := display

/-- `main`'s four getters for a connection from `ip`, the backend limiters keyed
by the client's IP as the listener's `Display` prints it. -/
def Listener.connectionLimiters (L : Listener) (m : BandwidthManager IpAddr) (ip : IpAddr)
    (now : ℚ) : BandwidthManager.ProxyLimiters × BandwidthManager IpAddr :=
  letI : ToString IpAddr := ⟨L.display⟩
  m.connectionLimiters ip now

/-- What the acceptors and the connection tasks of a rule share: the load
balancer with its heap and guards, the rate limiter, the bandwidth manager, the
rule-level metrics, and the tasks in flight. -/
structure RuleServer where
  world : World
  rateLimiter : RateLimiter IpAddr
  bandwidth : BandwidthManager IpAddr
  metrics : ProxyMetrics
  tasks : List ConnTask

/-- A step of a rule's server. -/
inductive ServerAction
  /-- An acceptor accepts a connection from `ip` at clock reading `now`. -/
  | accept (ip : IpAddr) (now : ℚ)
  /-- Task `t` calls `next_backend` and sets up its limiters at `now`. -/
  | select (t : Nat) (now : ℚ)
  /-- Task `t`'s TLS handshake with its client ends, well or not. -/
  | handshake (t : Nat) (ok : Bool)
  /-- A poll of a stream of task `t` calls the limiter of `side`. -/
  | pace (t : Nat) (side : StreamSide) (a : SimpleLimiter.Attempt)
  /-- Task `t`'s `proxy_connection` returns. -/
  | finish (t : Nat) (outcome : ProxyOutcome)
  /-- Task `t` ends and drops its guard. -/
  | close (t : Nat)
  /-- A health checker reports on `addr`. -/
  | report (addr : String) (healthy : Bool)
  /-- The hot-reload loop gives the rule new backend entries. -/
  | reload (configs : List BackendConfig)

namespace RuleServer

/-- The state `main` starts a rule's acceptors from: `LoadBalancer::new` of its
backends, a `RateLimiter` and a `BandwidthManager` of its sections or of the
disabled ones `main` puts in their place, the metrics of a fresh process, and no
task. -/
def start (r : RuleConfig) (m : Metrics) : RuleServer :=
  ⟨LoadBalancer.new r.name r.backends r.backendConnectionLimit m,
    RateLimiter.new (r.rateLimit.getD ⟨false, 0, 0⟩),
    BandwidthManager.new (r.bandwidthLimit.getD ⟨false, none, none⟩), .zero, []⟩

variable (w : Nat) (L : Listener)

/-- The acceptor loop on a connection from `ip`: dropped when the access control
list refuses it, dropped when the rate limiter refuses it, else handed to a new
task. -/
def accept (s : RuleServer) (ip : IpAddr) (now : ℚ) : RuleServer :=
  if !L.acl.isAllowed L.contains ip then s
  else
    let r := s.rateLimiter.check ip now
    if !r.1 then { s with rateLimiter := r.2 }
    else { s with rateLimiter := r.2, tasks := s.tasks ++ [⟨ip, .spawned⟩] }

/-- A spawned task calls `next_backend`.  Without a backend it ends.  With one it
builds its `ProxyConfig` from the bandwidth manager's four getters, then starts
the TLS handshake with its client, or calls `proxy_connection` at once.

`next_backend` is one step here, though the tasks of `main` run it at once: the
load and the `fetch_add` of a call do not interleave with another call's
(`Balancer.Concurrent` splits them). -/
def select (s : RuleServer) (t : Nat) (now : ℚ) : Option RuleServer :=
  match s.tasks[t]? with
  | some ⟨ip, .spawned⟩ =>
    (s.world.nextBackend w).map fun r =>
      match r.1 with
      | none => { s with world := r.2, tasks := s.tasks.eraseIdx t }
      | some (_, g) =>
        let l := L.connectionLimiters s.bandwidth ip now
        if L.tls then
          { s with world := r.2, bandwidth := l.2, tasks := s.tasks.set t ⟨ip, .handshake g l.1⟩ }
        else
          { s with world := r.2, bandwidth := l.2, metrics := s.metrics.start L.ruleName
                   tasks := s.tasks.set t ⟨ip, .proxying g l.1⟩ }
  | _ => none

/-- The TLS handshake of a task ends: on success the task calls
`proxy_connection`, else it logs the error and ends. -/
def handshake (s : RuleServer) (t : Nat) (ok : Bool) : Option RuleServer :=
  match s.tasks[t]? with
  | some ⟨ip, .handshake g ls⟩ =>
    some (if ok then
        { s with metrics := s.metrics.start L.ruleName, tasks := s.tasks.set t ⟨ip, .proxying g ls⟩ }
      else { s with tasks := s.tasks.set t ⟨ip, .closing g⟩ })
  | _ => none

/-- A poll of a stream of a task inside `proxy_connection` calls the limiter of
its side; a side without a limiter calls none. -/
def pace (s : RuleServer) (t : Nat) (side : StreamSide) (a : SimpleLimiter.Attempt) :
    Option RuleServer :=
  match s.tasks[t]? with
  | some ⟨_, .proxying _ ls⟩ => (ls.get side).map fun i => { s with bandwidth := s.bandwidth.call i a }
  | _ => none

/-- `proxy_connection` returns with `outcome`. -/
def finish (s : RuleServer) (t : Nat) (outcome : ProxyOutcome) : Option RuleServer :=
  match s.tasks[t]? with
  | some ⟨ip, .proxying g _⟩ =>
    some { s with metrics := s.metrics.finish L.ruleName outcome, tasks := s.tasks.set t ⟨ip, .closing g⟩ }
  | _ => none

/-- The task ends: its `ConnectionGuard` drops. -/
def close (s : RuleServer) (t : Nat) : Option RuleServer :=
  match s.tasks[t]? with
  | some ⟨_, .closing g⟩ =>
    some { s with world := g.drop w { s.world with guards := s.world.guards.erase g }
                  tasks := s.tasks.eraseIdx t }
  | _ => none

/-- One step of a rule's server; `none` when the step is not enabled or the
process aborts. -/
def step (s : RuleServer) : ServerAction → Option RuleServer
  | .accept ip now => some (s.accept L ip now)
  | .select t now => s.select w L t now
  | .handshake t ok => s.handshake L t ok
  | .pace t side a => s.pace t side a
  | .finish t outcome => s.finish L t outcome
  | .close t => s.close w t
  | .report addr healthy => some { s with world := s.world.setBackendHealth addr healthy }
  | .reload configs => some { s with world := s.world.updateBackends configs }

end RuleServer

/-- The runs of a rule's acceptors and tasks: from the state `main` starts them
in, with any backend gauges the process had set, any interleaving of steps. -/
def ruleServer (w : Nat) (P : IpParsers) (display : IpAddr → String) (r : RuleConfig) :
    Machine RuleServer ServerAction where
  init s := ∃ m, s = RuleServer.start r m
  step := RuleServer.step w (Listener.ofRule P display r)

end Layer4Lb
