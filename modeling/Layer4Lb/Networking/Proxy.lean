import Layer4Lb.Config
import Layer4Lb.Net.Addr
import Layer4Lb.Networking.ProxyProtocol
import Layer4Lb.Traffic.Manager
import Mathlib

/-!
# Proxying one connection

`proxy_connection` of `networking/proxy.rs`, by what it does to the state the
process shares: the rule-level metrics of `metrics/mod.rs`.  It increments
`ACTIVE_CONNECTIONS` and `TOTAL_CONNECTIONS` of its rule as it starts, and the
`ConnectionMetricGuard` it creates then decrements `ACTIVE_CONNECTIONS` when the
function returns, on every path.  In between it connects to the backend, writes
the PROXY header when the rule asks for one, makes the TLS handshake with the
backend when the rule enables it, and copies both ways with
`copy_bidirectional`; what the network does there is the input `ProxyOutcome`.
The four traffic counters and the duration histogram are recorded only when the
copy completes, the same way on the TLS path and on the plain one.

`main` builds the `ProxyConfig` of a connection from the client's address and the
stream's local address.  It makes every acceptor's socket for IPv4, so both are
IPv4 endpoints and the PROXY header is always the well-formed IPv4 one; the
branch of `create_v2_header` for two families is never taken.

`TOTAL_CONNECTIONS` and `TRAFFIC_BYTES` are `u64` counters, here `Nat`: they
would wrap only after `2 ^ 64` connections or bytes.  `ACTIVE_CONNECTIONS` is
an `f64` gauge moved by one, so it holds an integer.  The histogram is the list
of the durations it observed.
-/

namespace Layer4Lb

/-- `ProxyConfig`: the four limiters `main` gets from the bandwidth manager, the
rule's backend TLS section and PROXY flag, and the two ends of the client's
connection. -/
structure ProxyConfig where
  limiters : BandwidthManager.ProxyLimiters
  backendTls : Option BackendTlsConfig
  proxyProtocol : Bool
  clientAddr : SocketAddr
  localAddr : SocketAddr

namespace ProxyConfig

/-- Whether `proxy_connection` takes the TLS path: a backend TLS section that is
enabled. -/
def backendTlsEnabled (c : ProxyConfig) : Bool :=
  match c.backendTls with
  | some t => t.enabled
  | none => false

end ProxyConfig

/-! ## The header `main`'s connections send -/

/-- What the network I/O of `proxy_connection` comes to: an error of the
connect, of the header's `write_all`, of the backend TLS handshake or of
`copy_bidirectional`; or the byte counts `copy_bidirectional` returns (client to
backend, backend to client) and the seconds `start_time.elapsed()` measures. -/
inductive ProxyOutcome
  | err
  | ok (c2b b2c : Nat) (elapsed : ℚ)
  deriving DecidableEq, Repr

/-- The rule-level metrics: `ACTIVE_CONNECTIONS` and `TOTAL_CONNECTIONS` by rule
name, `TRAFFIC_BYTES` by rule name and direction, and the observations of
`CONNECTION_DURATION` by rule name. -/
structure ProxyMetrics where
  activeConnections : String → Int
  totalConnections : String → Nat
  trafficBytes : String × String → Nat
  connectionDuration : String → List ℚ

namespace ProxyMetrics

/-- The metrics of a fresh process: prometheus creates each labelled metric at
zero on its first use. -/
def zero : ProxyMetrics := ⟨fun _ => 0, fun _ => 0, fun _ => 0, fun _ => []⟩

/-- `with_label_values(k).inc_by(n)` on an integer counter. -/
def incBy {κ : Type} [DecidableEq κ] (c : κ → Nat) (k : κ) (n : Nat) : κ → Nat :=
  Function.update c k (c k + n)

/-- The start of `proxy_connection` for `rule`. -/
def start (m : ProxyMetrics) (rule : String) : ProxyMetrics :=
  { m with
    activeConnections := Function.update m.activeConnections rule (m.activeConnections rule + 1)
    totalConnections := incBy m.totalConnections rule 1 }

/-- The record of a completed copy: `c2b` bytes in from the client and out to
the backend, `b2c` bytes in from the backend and out to the client, and one
observation of the duration. -/
def record (m : ProxyMetrics) (rule : String) (c2b b2c : Nat) (elapsed : ℚ) : ProxyMetrics :=
  { m with
    trafficBytes :=
      incBy (incBy (incBy (incBy m.trafficBytes (rule, "client_in") c2b) (rule, "backend_out") c2b)
        (rule, "backend_in") b2c) (rule, "client_out") b2c
    connectionDuration :=
      Function.update m.connectionDuration rule (m.connectionDuration rule ++ [elapsed]) }

/-- The drop of the `ConnectionMetricGuard`. -/
def leave (m : ProxyMetrics) (rule : String) : ProxyMetrics :=
  { m with
    activeConnections := Function.update m.activeConnections rule (m.activeConnections rule - 1) }

/-- The return of `proxy_connection` for `rule` with `outcome`: the record of a
completed copy, then the guard's decrement. -/
def finish (m : ProxyMetrics) (rule : String) : ProxyOutcome → ProxyMetrics
  | .err => m.leave rule
  | .ok c2b b2c elapsed => (m.record rule c2b b2c elapsed).leave rule

end ProxyMetrics

/-- A whole call of `proxy_connection` for `rule` that no other call overlaps. -/
def proxyConnection (m : ProxyMetrics) (rule : String) (outcome : ProxyOutcome) : ProxyMetrics :=
  (m.start rule).finish rule outcome

namespace ProxyMetrics

variable (m : ProxyMetrics) (rule : String)

@[simp] theorem start_activeConnections :
    (m.start rule).activeConnections rule = m.activeConnections rule + 1 := by
  simp [start]

@[simp] theorem start_totalConnections :
    (m.start rule).totalConnections rule = m.totalConnections rule + 1 := by
  simp [start, incBy]

@[simp] theorem start_trafficBytes : (m.start rule).trafficBytes = m.trafficBytes := rfl

@[simp] theorem start_connectionDuration :
    (m.start rule).connectionDuration = m.connectionDuration := rfl

@[simp] theorem leave_activeConnections :
    (m.leave rule).activeConnections rule = m.activeConnections rule - 1 := by
  simp [leave]

@[simp] theorem leave_totalConnections : (m.leave rule).totalConnections = m.totalConnections :=
  rfl

@[simp] theorem leave_trafficBytes : (m.leave rule).trafficBytes = m.trafficBytes := rfl

@[simp] theorem leave_connectionDuration :
    (m.leave rule).connectionDuration = m.connectionDuration := rfl

/-- A completed copy moves each pair of counters of a direction by the same
count: what came in from one side went out to the other. -/
theorem record_trafficBytes (c2b b2c : Nat) (elapsed : ℚ) :
    (m.record rule c2b b2c elapsed).trafficBytes (rule, "client_in") =
        m.trafficBytes (rule, "client_in") + c2b ∧
      (m.record rule c2b b2c elapsed).trafficBytes (rule, "backend_out") =
        m.trafficBytes (rule, "backend_out") + c2b ∧
      (m.record rule c2b b2c elapsed).trafficBytes (rule, "backend_in") =
        m.trafficBytes (rule, "backend_in") + b2c ∧
      (m.record rule c2b b2c elapsed).trafficBytes (rule, "client_out") =
        m.trafficBytes (rule, "client_out") + b2c := by
  simp [record, incBy]

/-! ## The metrics agree with the calls in progress -/

/-- The metrics of `rule` agree with `n` calls of `proxy_connection` in
progress: `ACTIVE_CONNECTIONS` is `n`, `TOTAL_CONNECTIONS` counts at least those
and the completed copies the histogram observed, and the traffic counters agree
in pairs. -/
structure Agree (m : ProxyMetrics) (rule : String) (n : Nat) : Prop where
  active : m.activeConnections rule = n
  total : n + (m.connectionDuration rule).length ≤ m.totalConnections rule
  clientTraffic : m.trafficBytes (rule, "client_in") = m.trafficBytes (rule, "backend_out")
  backendTraffic : m.trafficBytes (rule, "backend_in") = m.trafficBytes (rule, "client_out")

/-- A fresh process has no call in progress. -/
theorem agree_zero : zero.Agree rule 0 := ⟨rfl, Nat.le_refl 0, rfl, rfl⟩

variable {m rule} {n : Nat}

/-- A call starts. -/
theorem Agree.start (h : m.Agree rule n) : (m.start rule).Agree rule (n + 1) where
  active := by rw [start_activeConnections, h.active]; push_cast; rfl
  total := by
    rw [start_totalConnections, start_connectionDuration]
    have := h.total
    omega
  clientTraffic := h.clientTraffic
  backendTraffic := h.backendTraffic

/-- The traffic and the histogram a completed copy records keep the counters in
agreement, and add one observation. -/
theorem Agree.record (h : m.Agree rule n) (c2b b2c : Nat) (elapsed : ℚ) :
    (m.record rule c2b b2c elapsed).activeConnections rule = n ∧
      (m.record rule c2b b2c elapsed).totalConnections rule = m.totalConnections rule ∧
      ((m.record rule c2b b2c elapsed).connectionDuration rule).length =
        (m.connectionDuration rule).length + 1 ∧
      (m.record rule c2b b2c elapsed).trafficBytes (rule, "client_in") =
        (m.record rule c2b b2c elapsed).trafficBytes (rule, "backend_out") ∧
      (m.record rule c2b b2c elapsed).trafficBytes (rule, "backend_in") =
        (m.record rule c2b b2c elapsed).trafficBytes (rule, "client_out") := by
  obtain ⟨hci, hbo, hbi, hco⟩ := m.record_trafficBytes rule c2b b2c elapsed
  refine ⟨h.active, rfl, by simp [ProxyMetrics.record], ?_, ?_⟩
  · rw [hci, hbo, h.clientTraffic]
  · rw [hbi, hco, h.backendTraffic]

/-- A call returns, whatever its outcome. -/
theorem Agree.finish (h : m.Agree rule (n + 1)) (outcome : ProxyOutcome) :
    (m.finish rule outcome).Agree rule n := by
  cases outcome with
  | err =>
    refine ⟨?_, ?_, h.clientTraffic, h.backendTraffic⟩
    · rw [ProxyMetrics.finish, leave_activeConnections, h.active]; push_cast; ring
    · have := h.total
      simp only [ProxyMetrics.finish, leave_totalConnections, leave_connectionDuration]
      omega
  | ok c2b b2c elapsed =>
    -- the copy's record first, then the guard's decrement
    obtain ⟨ha, ht, hd, hc, hb⟩ := h.record c2b b2c elapsed
    refine ⟨?_, ?_, hc, hb⟩
    · rw [ProxyMetrics.finish, leave_activeConnections, ha]; push_cast; ring
    · have := h.total
      simp only [ProxyMetrics.finish, leave_totalConnections, leave_connectionDuration, ht, hd]
      omega

/-! ## The calls of another rule -/

section Other

variable {rule' : String} (hne : rule' ≠ rule)
include hne

/-- The start of a call for another rule leaves the metrics of `rule`. -/
theorem start_at_ne :
    (m.start rule').activeConnections rule = m.activeConnections rule ∧
      (m.start rule').totalConnections rule = m.totalConnections rule ∧
      (m.start rule').connectionDuration rule = m.connectionDuration rule ∧
      ∀ d, (m.start rule').trafficBytes (rule, d) = m.trafficBytes (rule, d) := by
  refine ⟨?_, ?_, rfl, fun _ => rfl⟩
  · exact Function.update_of_ne hne.symm _ _
  · exact Function.update_of_ne hne.symm _ _

/-- So does its return, whatever its outcome. -/
theorem finish_at_ne (o : ProxyOutcome) :
    (m.finish rule' o).activeConnections rule = m.activeConnections rule ∧
      (m.finish rule' o).totalConnections rule = m.totalConnections rule ∧
      (m.finish rule' o).connectionDuration rule = m.connectionDuration rule ∧
      ∀ d, (m.finish rule' o).trafficBytes (rule, d) = m.trafficBytes (rule, d) := by
  -- every label the return writes carries the other rule's name
  have hkey : ∀ d d' : String, (rule, d) ≠ (rule', d') := fun _ _ he => hne (Prod.mk.inj he).1.symm
  cases o with
  | err => exact ⟨Function.update_of_ne hne.symm _ _, rfl, rfl, fun _ => rfl⟩
  | ok c2b b2c elapsed =>
    refine ⟨Function.update_of_ne hne.symm _ _, rfl, Function.update_of_ne hne.symm _ _, fun d => ?_⟩
    simp only [ProxyMetrics.finish, leave_trafficBytes, record, incBy,
      Function.update_of_ne (hkey d _)]

end Other

/-- The agreement of `rule`'s metrics depends only on its own labels. -/
theorem Agree.congr {m' : ProxyMetrics} (h : m.Agree rule n)
    (ha : m'.activeConnections rule = m.activeConnections rule)
    (ht : m'.totalConnections rule = m.totalConnections rule)
    (hd : m'.connectionDuration rule = m.connectionDuration rule)
    (htr : ∀ d, m'.trafficBytes (rule, d) = m.trafficBytes (rule, d)) : m'.Agree rule n where
  active := ha.trans h.active
  total := by rw [ht, hd]; exact h.total
  clientTraffic := by rw [htr, htr]; exact h.clientTraffic
  backendTraffic := by rw [htr, htr]; exact h.backendTraffic

end ProxyMetrics

/-- A whole call of `proxy_connection` that no other call overlaps leaves
`ACTIVE_CONNECTIONS` as it found it, and keeps the metrics in agreement. -/
theorem ProxyMetrics.Agree.proxyConnection {m : ProxyMetrics} {rule : String} {n : Nat}
    (h : m.Agree rule n) (outcome : ProxyOutcome) : (proxyConnection m rule outcome).Agree rule n :=
  h.start.finish outcome

end Layer4Lb
