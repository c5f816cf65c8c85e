import Layer4Lb.Config
import Layer4Lb.Lib.Machine
import Mathlib

/-!
# The load balancer of one rule

`core/balancer.rs` as a state machine.  A `Backend` lives behind an `Arc`, and
so do its three atomics, which it creates and never shares: the identity of a
`Backend` object is also the identity of its `active_connections` counter.  So
the model keeps a heap of objects indexed by allocation order, the snapshot of
the `ArcSwap` is a list of indices into it, and a `ConnectionGuard` records the
index of the object whose counter it holds.  Objects that leave the snapshot
stay in the heap as long as a guard can reach them, which is what lets a guard
decrement a counter no snapshot shows any more.

`usize` arithmetic is on `Nat` with the wrapping at `2 ^ w` written out, where
`w` is the width of `usize` on the target; `current` and the counters stay
below `2 ^ w` in every run.  The two backend gauges of `metrics/mod.rs` are
`f64` gauges that are only ever set to `0` or `1` and moved by one, so they
hold integers.  Logging is not modelled.
-/

namespace Layer4Lb

/-- `isize::MAX` on a target whose `usize` has `w` bits.  `Arc::clone` aborts
the process when the strong count it increments was already above it. -/
def isizeMax (w : Nat) : Nat := 2 ^ (w - 1) - 1

/-- A `Backend` object. -/
structure Backend where
  ruleName : String
  addr : String
  activeConnections : Nat
  healthy : Bool
  /-- Configured state: `true` means draining, no new connections. -/
  drain : Bool
deriving DecidableEq, Repr, Inhabited

/-- A `ConnectionGuard`: held by the task of one proxied connection. -/
structure ConnectionGuard where
  ruleName : String
  backendAddr : String
  /-- The object whose `active_connections` `Arc` the guard holds a clone of. -/
  counter : Nat
deriving DecidableEq, Repr

/-- A gauge vector with the labels `rule_name` and `backend_addr`. -/
abbrev GaugeVec := String × String → Int

namespace GaugeVec

/-- `with_label_values(..).set(v)`. -/
def set (g : GaugeVec) (k : String × String) (v : Int) : GaugeVec := Function.update g k v

/-- `with_label_values(..).inc()`. -/
def inc (g : GaugeVec) (k : String × String) : GaugeVec := g.set k (g k + 1)

/-- `with_label_values(..).dec()`. -/
def dec (g : GaugeVec) (k : String × String) : GaugeVec := g.set k (g k - 1)

@[simp] theorem set_apply (g : GaugeVec) (k k' : String × String) (v : Int) :
    g.set k v k' = if k' = k then v else g k' := by
  simp [set, Function.update_apply]

@[simp] theorem inc_apply (g : GaugeVec) (k k' : String × String) :
    g.inc k k' = if k' = k then g k + 1 else g k' := set_apply g k k' _

@[simp] theorem dec_apply (g : GaugeVec) (k k' : String × String) :
    g.dec k k' = if k' = k then g k - 1 else g k' := set_apply g k k' _

end GaugeVec

/-- `BACKEND_ACTIVE_CONNECTIONS` and `BACKEND_HEALTH_STATUS`. -/
structure Metrics where
  backendActiveConnections : GaugeVec
  backendHealthStatus : GaugeVec

/-- The gauges as a fresh process has them: prometheus creates each labelled
gauge at `0` on first use. -/
def Metrics.zero : Metrics := ⟨fun _ => 0, fun _ => 0⟩

/-- A `LoadBalancer`: its `backends` is the current snapshot of the `ArcSwap`,
as indices of objects. -/
structure LoadBalancer where
  ruleName : String
  backends : List Nat
  /-- The round-robin counter, an `AtomicUsize`. -/
  current : Nat
  connectionLimit : Option Nat
deriving DecidableEq, Repr

/-- One load balancer together with the memory it and its guards reach. -/
structure World where
  lb : LoadBalancer
  /-- Every `Backend` allocated so far, by allocation order. -/
  objects : Nat → Backend
  /-- How many objects have been allocated. -/
  allocated : Nat
  /-- The guards held by live connections. -/
  guards : List ConnectionGuard
  metrics : Metrics

/-- Whether the loop of `next_backend` takes a backend: not draining, healthy,
and below the connection limit when there is one. -/
def eligible (limit : Option Nat) (b : Backend) : Bool :=
  !b.drain && b.healthy &&
    match limit with
    | none => true
    | some l => decide (b.activeConnections < l)

theorem eligible_iff (limit : Option Nat) (b : Backend) :
    eligible limit b = true ↔
      b.drain = false ∧ b.healthy = true ∧ ∀ l, limit = some l → b.activeConnections < l := by
  cases limit <;> simp [eligible, and_assoc]

namespace World

variable (w : Nat)

/-- The live guards holding a clone of object `o`'s counter. -/
def guardsOn (s : World) (o : Nat) : Nat := s.guards.countP fun g => g.counter = o

/-- The live guards with backend address `a`. -/
def guardsAt (s : World) (a : String) : Nat := s.guards.countP fun g => g.backendAddr = a

/-- Allocate the `Backend` of an entry, as `new` and the fresh branch of
`update_backends` do, after initialising its two gauges; returns its index. -/
def alloc (s : World) (rule : String) (c : BackendConfig) : Nat × World :=
  (s.allocated,
    { s with
      objects := Function.update s.objects s.allocated
        { ruleName := rule, addr := c.addrDrain.1, activeConnections := 0, healthy := true,
          drain := c.addrDrain.2 }
      allocated := s.allocated + 1
      metrics :=
        { backendHealthStatus := s.metrics.backendHealthStatus.set (rule, c.addrDrain.1) 1
          backendActiveConnections :=
            s.metrics.backendActiveConnections.set (rule, c.addrDrain.1) 0 } })

/-- The `map` of `LoadBalancer::new`: one fresh object per entry, in order. -/
def allocAll (rule : String) : World → List BackendConfig → List Nat × World
  | s, [] => ([], s)
  | s, c :: cs =>
    let r := s.alloc rule c
    let rest := allocAll rule r.2 cs
    (r.1 :: rest.1, rest.2)

/-- The first object of the current snapshot with address `addr`, as
`iter().find(|b| b.addr == addr)` finds it. -/
def findBackend (s : World) (addr : String) : Option Nat :=
  s.lb.backends.find? fun o => (s.objects o).addr == addr

/-- One entry of the `map` in `update_backends`: the first object of the
snapshot with the entry's address, after storing the entry's drain flag into
it, or else a fresh object. -/
def reuseOrAlloc (s : World) (c : BackendConfig) : Nat × World :=
  match s.findBackend c.addrDrain.1 with
  | some o => (o, { s with objects := Function.update s.objects o { s.objects o with drain := c.addrDrain.2 } })
  | none => s.alloc s.lb.ruleName c

/-- The `map` of `update_backends`.  The snapshot it searches is the one loaded
at the start: nothing stores a new one before the end. -/
def rebuild : World → List BackendConfig → List Nat × World
  | s, [] => ([], s)
  | s, c :: cs =>
    let r := s.reuseOrAlloc c
    let rest := rebuild r.2 cs
    (r.1 :: rest.1, rest.2)

/-- `LoadBalancer::update_backends`: rebuild the list, then store it. -/
def updateBackends (s : World) (configs : List BackendConfig) : World :=
  let r := s.rebuild configs
  { r.2 with lb := { r.2.lb with backends := r.1 } }

/-- `LoadBalancer::set_backend_health`: set the health gauge, then swap the flag
of the first object of the snapshot with that address, if any. -/
def setBackendHealth (s : World) (addr : String) (healthy : Bool) : World :=
  let s₁ := { s with
    metrics := { s.metrics with
      backendHealthStatus :=
        s.metrics.backendHealthStatus.set (s.lb.ruleName, addr) (if healthy then 1 else 0) } }
  match s₁.findBackend addr with
  | some o => { s₁ with objects := Function.update s₁.objects o { s₁.objects o with healthy } }
  | none => s₁

/-- The snapshot index that iteration `i` of the loop of `next_backend` visits:
`(start_index + i) % len`, where the sum wraps at `2 ^ w` as in release builds
(a debug build panics there instead). -/
def slot (start i len : Nat) : Nat := (start + i) % 2 ^ w % len

/-- The indices the loop visits, in order. -/
def visitOrder (start len : Nat) : List Nat := (List.range len).map fun i => slot w start i len

/-- The loop of `next_backend` from `start_index = start`: the first index it
visits whose backend is eligible. -/
def pick (s : World) (start : Nat) : Option Nat :=
  (visitOrder w start s.lb.backends.length).find? fun idx =>
    eligible s.lb.connectionLimit (s.objects (s.lb.backends.getD idx 0))

/-- The tail of `next_backend` once object `o` is chosen: `fetch_add(1)` on its
counter, the gauge incremented, and the guard built.  Cloning the counter's
`Arc` aborts the process (`none`) when its strong count, one for the object and
one per live guard, is already above `isize::MAX`. -/
def connect (s : World) (o : Nat) : Option (Option (String × ConnectionGuard) × World) :=
  let b := s.objects o
  let s₁ := { s with
    objects := Function.update s.objects o
      { b with activeConnections := (b.activeConnections + 1) % 2 ^ w }
    metrics := { s.metrics with
      backendActiveConnections := s.metrics.backendActiveConnections.inc (b.ruleName, b.addr) } }
  if isizeMax w < 1 + s.guardsOn o then none
  else
    let g : ConnectionGuard := ⟨b.ruleName, b.addr, o⟩
    some (some (b.addr, g), { s₁ with guards := s.guards ++ [g] })

/-- `current.fetch_add(1)`, wrapping at `2 ^ w`. -/
def fetchAddCurrent (s : World) : World :=
  { s with lb := { s.lb with current := (s.lb.current + 1) % 2 ^ w } }

/-- `LoadBalancer::next_backend`.  The outer `none` is a process abort; the
inner `Option` is what the function returns. -/
def nextBackend (s : World) : Option (Option (String × ConnectionGuard) × World) :=
  if s.lb.backends.isEmpty then some (none, s)
  else
    match s.pick w s.lb.current with
    | none => some (none, s.fetchAddCurrent w)
    | some idx => (s.fetchAddCurrent w).connect w (s.lb.backends.getD idx 0)

/-- The entry `next_backend` selects from `s`: its index in the snapshot. -/
def selected (s : World) : Option Nat :=
  if s.lb.backends.isEmpty then none else s.pick w s.lb.current

end World

/-- `ConnectionGuard::drop`: `fetch_sub(1)` on the counter, wrapping at `2 ^ w`,
and the gauge of the guard's own labels decremented. -/
def ConnectionGuard.drop (w : Nat) (g : ConnectionGuard) (s : World) : World :=
  let b := s.objects g.counter
  { s with
    objects := Function.update s.objects g.counter
      { b with activeConnections := (b.activeConnections + (2 ^ w - 1)) % 2 ^ w }
    metrics := { s.metrics with
      backendActiveConnections := s.metrics.backendActiveConnections.dec (g.ruleName, g.backendAddr) } }

/-- `LoadBalancer::new` on a fresh heap; the gauges hold whatever the process
had set before. -/
def LoadBalancer.new (ruleName : String) (configs : List BackendConfig) (limit : Option Nat)
    (m : Metrics) : World :=
  let r := World.allocAll ruleName
    ⟨⟨ruleName, [], 0, limit⟩, fun _ => default, 0, [], m⟩ configs
  { r.2 with lb := { r.2.lb with backends := r.1 } }

/-- What a run of one rule does to its load balancer: the acceptor tasks call
`next_backend`, connection tasks drop their guards, health checkers report, and
the hot-reload loop of `main` calls `update_backends` with any new list. -/
inductive Action where
  | nextBackend
  | dropGuard (i : Nat)
  | setBackendHealth (addr : String) (healthy : Bool)
  | updateBackends (configs : List BackendConfig)
deriving DecidableEq, Repr

namespace World

variable (w : Nat)

/-- Drop the `i`-th live guard; not enabled when there is none. -/
def dropGuard (s : World) (i : Nat) : Option World :=
  match s.guards[i]? with
  | none => none
  | some g => some (g.drop w { s with guards := s.guards.eraseIdx i })

/-- One step of a run. -/
def step (s : World) : Action → Option World
  | .nextBackend => (s.nextBackend w).map Prod.snd
  | .dropGuard i => s.dropGuard w i
  | .setBackendHealth a h => some (s.setBackendHealth a h)
  | .updateBackends cs => some (s.updateBackends cs)

end World

/-- The runs of the load balancer of a rule: `LoadBalancer::new` with any
backend entries, then any sequence of actions. -/
def balancer (w : Nat) (ruleName : String) (limit : Option Nat) : Machine World Action where
  init s := ∃ configs m, s = LoadBalancer.new ruleName configs limit m
  step := World.step w

end Layer4Lb
