import Layer4Lb.Server.Conservation
import Layer4Lb.Health.Check
import Layer4Lb.Balancer.Gauges

/-!
# The process: rules, health checkers and hot reload

`main` validates the file, then walks its rules in order.  For each it creates
the rule's load balancer, inserts it into the `HashMap` `lbs` under the rule's
name, spawns a health checker per backend entry when the rule has a
`health_check` section, and starts the rule's acceptors.  Then it waits for
changes of the file.  On each change it reads and parses the file again, without
validating it, and for each rule of the new file whose name `lbs` knows it calls
`update_backends` on that load balancer with the rule's entries and spawns a
health checker per entry again when the rule has a `health_check` section.  A
rule of a new name is only logged, and nothing stops a health checker.

Here the process is the servers of its rules (`Server.Acceptor`) in the order of
the file, the map `lbs`, the checkers, and the metrics.  The rule-level metrics
and the backend gauges are statics that every rule writes under its own name, so
the process holds one copy of each and lends it to the server that takes a step.
A step is a step of one rule's acceptors and tasks, a round of one checker (a
probe and its report), or a change of the file.  The rules' TLS files and listen
addresses are taken to load; when one does not, `main` returns an error and the
process ends.

* `HashMap::insert` keeps the last rule of each name, so a reload reaches the
  last rule of a name and never an earlier one, whose load balancer keeps the
  backends `LoadBalancer::new` gave it.
* The checkers only accumulate: each reload adds one per entry of every rule it
  reaches that has a `health_check` section, whatever its `enabled` says.
* Each rule's server moves by steps of its own machine, up to the metrics it
  shares with the others (`Balancer.Gauges`), so what `Server.Conservation`
  proves of a rule's load balancer and tasks holds of every rule of the process.
* `ACTIVE_CONNECTIONS` of a name counts the tasks inside `proxy_connection` of
  all the rules of that name together.
-/

open scoped List

namespace Layer4Lb

/-- A task `start_health_check` spawned: the load balancer it reports to, by its
place among the rules, the backend address it probes, and its configuration. -/
structure Checker where
  lb : Nat
  backendAddr : String
  config : HealthCheckConfig
  deriving DecidableEq, Repr

/-- The checkers `main` spawns for a rule whose load balancer is `lb`: one per
backend entry when the rule has a `health_check` section. -/
def spawnCheckers (lb : Nat) (r : RuleConfig) : List Checker :=
  match r.healthCheck with
  | some hc => r.backends.map fun c => ⟨lb, c.addrDrain.1, hc⟩
  | none => []

namespace RuleServer

/-- The server with the process's rule-level metrics and backend gauges in place
of its own. -/
def withMetrics (s : RuleServer) (pm : ProxyMetrics) (m : Metrics) : RuleServer :=
  { s with metrics := pm, world := { s.world with metrics := m } }

/-- The server with its metrics and gauges cleared: all that its steps read. -/
def eraseMetrics (s : RuleServer) : RuleServer :=
  { s with metrics := .zero, world := s.world.eraseGauges }

end RuleServer

/-- The state of the process: the servers of its rules in the order of the file,
the map `lbs` from a rule's name to the place of its load balancer, the health
checkers spawned so far, and the metrics all rules write.  The metrics a stored
server carries are those it last wrote; the process's own are `metrics` and
`gauges`. -/
structure Process where
  servers : List RuleServer
  lbs : String → Option Nat
  checkers : List Checker
  metrics : ProxyMetrics
  gauges : Metrics

/-- A step of the process. -/
inductive MainAction
  /-- A step of the acceptors or the tasks of rule `i`. -/
  | rule (i : Nat) (a : ServerAction)
  /-- A round of checker `k`, whose probe met `e`. -/
  | probe (k : Nat) (e : CheckEnv)
  /-- A change of the file: the rules it parses to, or `none` when it cannot be
  read or parsed. -/
  | reload (file : Option MainConfig)

/-- Whether a step of a rule's server is one of its acceptors and tasks, not a
report or a reload, which come from the checkers and from `main`. -/
def ServerAction.isTask : ServerAction → Bool
  | .report _ _ => false
  | .reload _ => false
  | _ => true

/-- The rules a step reads from a changed file: those of a file that parses. -/
def MainAction.reloaded : MainAction → List RuleConfig
  | .reload (some file) => file.rules
  | _ => []

namespace Process

/-- Server `srv` as a step of the process sees it: with the process's metrics. -/
def share (p : Process) (srv : RuleServer) : RuleServer := srv.withMetrics p.metrics p.gauges

/-- The process once the server at place `i` has become `srv`, keeping what it
wrote to the metrics. -/
def store (p : Process) (i : Nat) (srv : RuleServer) : Process :=
  { p with servers := p.servers.set i srv, metrics := srv.metrics, gauges := srv.world.metrics }

/-- A call on the load balancer at place `i`, by a checker or by the reload loop.
There is always a server there (`Inv.length`). -/
def updateWorld (p : Process) (i : Nat) (f : World → World) : Process :=
  match p.servers[i]? with
  | some srv => p.store i { p.share srv with world := f (p.share srv).world }
  | none => p

/-- `main`'s loop over the rules of the file. -/
def startRules : Process → List RuleConfig → Process
  | p, [] => p
  | p, r :: rs =>
    startRules ⟨p.servers ++ [RuleServer.start r p.gauges],
      Function.update p.lbs r.name (some p.servers.length),
      p.checkers ++ spawnCheckers p.servers.length r, p.metrics,
      (RuleServer.start r p.gauges).world.metrics⟩ rs

/-- The process as `main` leaves it before it waits for changes, from fresh
metrics. -/
def start (c : MainConfig) : Process := startRules ⟨[], fun _ => none, [], .zero, .zero⟩ c.rules

/-- The loop over the rules of a reloaded file: `update_backends` and new
checkers for each rule whose name `lbs` knows; a warning for the others. -/
def reconcile : Process → List RuleConfig → Process
  | p, [] => p
  | p, r :: rs =>
    match p.lbs r.name with
    | some i =>
      reconcile { p.updateWorld i (fun s => s.updateBackends r.backends) with
        checkers := p.checkers ++ spawnCheckers i r } rs
    | none => reconcile p rs

variable (w : Nat) (P : IpParsers) (display : IpAddr → String) (c : MainConfig)

/-- One step of the process started from the file `c`.  The acceptors and tasks
of rule `i` keep the listener `main` built from `c`. -/
def step (p : Process) : MainAction → Option Process
  | .rule i a =>
    if a.isTask then
      match p.servers[i]?, c.rules[i]? with
      | some srv, some r => ((p.share srv).step w (Listener.ofRule P display r) a).map (p.store i)
      | _, _ => none
    else none
  | .probe k e =>
    match p.checkers[k]? with
    | some ch =>
      some (p.updateWorld ch.lb fun s => s.setBackendHealth ch.backendAddr (checkRes ch.config.protocol e))
    | none => none
  | .reload none => some p
  | .reload (some file) => some (p.reconcile file.rules)

end Process

/-- The runs of the process on the file `c`, which `Config::validate` accepts. -/
def mainProcess (w : Nat) (P : IpParsers) (display : IpAddr → String) (c : MainConfig) :
    Machine Process MainAction where
  init p := c.toConfig.validate = .ok () ∧ p = Process.start c
  step := Process.step w P display c

/-! ## A rule's steps do not read the metrics -/

namespace RuleServer

theorem eraseMetrics_eq_iff {s t : RuleServer} :
    s.eraseMetrics = t.eraseMetrics ↔ s.world.eraseGauges = t.world.eraseGauges ∧
      s.rateLimiter = t.rateLimiter ∧ s.bandwidth = t.bandwidth ∧ s.tasks = t.tasks := by
  cases s
  cases t
  simp [eraseMetrics]

@[simp] theorem eraseMetrics_withMetrics (s : RuleServer) (pm : ProxyMetrics) (m : Metrics) :
    (s.withMetrics pm m).eraseMetrics = s.eraseMetrics := rfl

/-- `main` starts a rule's server the same whatever the gauges held. -/
theorem eraseMetrics_start (r : RuleConfig) (m : Metrics) :
    (start r m).eraseMetrics = (start r .zero).eraseMetrics :=
  eraseMetrics_eq_iff.2 ⟨LoadBalancer.new_congr _ _ _ m .zero, rfl, rfl, rfl⟩

variable {w : Nat} {L : Listener} {s s' t : RuleServer}

/-- Two servers that differ only in their metrics take the same steps, to servers
that again differ only in their metrics. -/
theorem step_congr (h : s.eraseMetrics = t.eraseMetrics) (a : ServerAction) :
    (s.step w L a).map eraseMetrics = (t.step w L a).map eraseMetrics := by
  obtain ⟨hw, hrl, hb, hts⟩ := eraseMetrics_eq_iff.1 h
  cases a with
  | accept ip now =>
    simp only [step, accept, hrl, hts, Option.map_some]
    split
    · exact congrArg some h
    · split <;> simp only [eraseMetrics, hw, hb]
  | select k now =>
    simp only [step, select, hts]
    split
    · cases hs : s.world.nextBackend w with
      | none => rw [World.nextBackend_congr_none w hw hs]; rfl
      | some q =>
        -- the same backend from both, and load balancers that still agree
        obtain ⟨r, q₂⟩ := q
        obtain ⟨t₂, ht, he⟩ := World.nextBackend_congr_some w hw hs
        rw [ht, Option.map_some, Option.map_some, Option.map_some, Option.map_some]
        rcases r with _ | ⟨a, g⟩
        · simp only [eraseMetrics, he, hrl, hb]
        · cases L.tls <;> simp only [eraseMetrics, he, hrl, hb, Bool.false_eq_true, if_false, if_true]
    · rfl
  | handshake k ok =>
    simp only [step, handshake, hts]
    split
    · split <;> simp only [Option.map_some, eraseMetrics, hw, hrl, hb]
    · rfl
  | pace k side a =>
    simp only [step, pace, hts]
    split
    · simp only [Option.map_map, Function.comp_def, eraseMetrics, hw, hrl, hb]
    · rfl
  | finish k o =>
    simp only [step, finish, hts]
    split
    · simp only [Option.map_some, eraseMetrics, hw, hrl, hb]
    · rfl
  | close k =>
    simp only [step, close, hts]
    split
    · rename_i g _
      -- the same guard leaves worlds that still agree
      have hd : (g.drop w { s.world with guards := s.world.guards.erase g }).eraseGauges =
          (g.drop w { t.world with guards := t.world.guards.erase g }).eraseGauges := by
        obtain ⟨hlb, ho, ha, hg⟩ := World.eraseGauges_eq_iff.1 hw
        exact ConnectionGuard.drop_congr w g (World.eraseGauges_eq_iff.2 ⟨hlb, ho, ha, by rw [hg]⟩)
      simp only [Option.map_some, eraseMetrics, hrl, hb, hd]
    · rfl
  | report addr healthy =>
    simp only [step, Option.map_some, eraseMetrics, World.setBackendHealth_congr hw, hrl, hb, hts]
  | reload configs =>
    simp only [step, Option.map_some, eraseMetrics, World.updateBackends_congr hw, hrl, hb, hts]

/-- The same, as a simulation. -/
theorem step_of_eraseMetrics (h : s.eraseMetrics = t.eraseMetrics) {a : ServerAction}
    (hs : s.step w L a = some s') : ∃ t', t.step w L a = some t' ∧ t'.eraseMetrics = s'.eraseMetrics := by
  have hc : (s.step w L a).map eraseMetrics = (t.step w L a).map eraseMetrics := step_congr h a
  rw [hs, Option.map_some] at hc
  obtain ⟨t', ht, he⟩ := Option.map_eq_some_iff.1 hc.symm
  exact ⟨t', ht, he⟩

/-- The acceptors and the tasks of a rule never change its snapshot: only a
reload does. -/
theorem step_backends {a : ServerAction} (ha : a.isTask = true) (h : s.step w L a = some s') :
    s'.world.lb.backends = s.world.lb.backends := by
  cases a with
  | accept ip now =>
    cases h
    rw [(accept_spec s ip now).1]
  | select t now =>
    obtain ⟨-, -, r, hr, hw, -⟩ := select_spec h
    rw [hw]
    exact World.nextBackend_backends hr
  | handshake t ok =>
    obtain ⟨-, -, -, -, hw, -⟩ := handshake_spec h
    rw [hw]
  | pace t side a =>
    obtain ⟨-, -, -, -, -, -, rfl⟩ := pace_spec h
    rfl
  | finish t o =>
    obtain ⟨-, -, -, -, rfl⟩ := finish_spec h
    rfl
  | close t =>
    obtain ⟨-, -, -, rfl⟩ := close_spec h
    rfl
  | report addr healthy => cases ha
  | reload configs => cases ha

end RuleServer

/-! ## The map from names to load balancers -/

namespace Process

/-- A property of each element by its place survives the replacement of one
element by one that has it. -/
theorem forall_getElem?_set {α : Type} {R : Nat → α → Prop} {l : List α} {i : Nat} {a : α}
    (hl : ∀ j x, l[j]? = some x → R j x) (ha : R i a) :
    ∀ j x, (l.set i a)[j]? = some x → R j x := by
  intro j x hx
  rw [List.getElem?_set] at hx
  split at hx
  · rename_i hij
    subst hij
    split at hx
    · exact Option.some.inj hx ▸ ha
    · cases hx
  · exact hl j x hx

section Fields

variable (p : Process) (i : Nat) (srv : RuleServer)

@[simp] theorem servers_store : (p.store i srv).servers = p.servers.set i srv := rfl
@[simp] theorem lbs_store : (p.store i srv).lbs = p.lbs := rfl
@[simp] theorem checkers_store : (p.store i srv).checkers = p.checkers := rfl
@[simp] theorem metrics_store : (p.store i srv).metrics = srv.metrics := rfl

end Fields

/-- A call on a load balancer replaces its server, when there is one. -/
theorem updateWorld_cases (p : Process) (i : Nat) (f : World → World) :
    p.updateWorld i f = p ∨ ∃ srv, p.servers[i]? = some srv ∧
      p.updateWorld i f = p.store i { p.share srv with world := f (p.share srv).world } := by
  unfold updateWorld
  split
  · rename_i srv hs
    exact .inr ⟨srv, hs, rfl⟩
  · exact .inl rfl

@[simp] theorem lbs_updateWorld (p : Process) (i : Nat) (f : World → World) :
    (p.updateWorld i f).lbs = p.lbs := by
  rcases updateWorld_cases p i f with h | ⟨_, -, h⟩ <;> rw [h]
  rfl

@[simp] theorem checkers_updateWorld (p : Process) (i : Nat) (f : World → World) :
    (p.updateWorld i f).checkers = p.checkers := by
  rcases updateWorld_cases p i f with h | ⟨_, -, h⟩ <;> rw [h]
  rfl

theorem startRules_append (p : Process) (xs ys : List RuleConfig) :
    startRules p (xs ++ ys) = startRules (startRules p xs) ys := by
  induction xs generalizing p with
  | nil => rfl
  | cons r rs ih => exact ih _

theorem length_startRules (p : Process) (rs : List RuleConfig) :
    (startRules p rs).servers.length = p.servers.length + rs.length := by
  induction rs generalizing p with
  | nil => rfl
  | cons r rs ih =>
    rw [startRules, ih, List.length_append, List.length_singleton, List.length_cons]
    omega

/-- The loop writes no rule-level metric. -/
theorem metrics_startRules (p : Process) (rs : List RuleConfig) :
    (startRules p rs).metrics = p.metrics := by
  induction rs generalizing p with
  | nil => rfl
  | cons r rs ih => exact ih _

/-- The loop starts one server per rule, as `main` would from fresh gauges. -/
theorem eraseMetrics_startRules (p : Process) (rs : List RuleConfig) :
    (startRules p rs).servers.map RuleServer.eraseMetrics =
      p.servers.map RuleServer.eraseMetrics ++ rs.map fun r => (RuleServer.start r .zero).eraseMetrics := by
  induction rs generalizing p with
  | nil => simp [startRules]
  | cons r rs ih =>
    rw [startRules, ih]
    simp [RuleServer.eraseMetrics_start]

/-- The rules of one name leave `lbs` alone for the others. -/
theorem lbs_startRules_of_forall_ne {p : Process} {rs : List RuleConfig} {n : String}
    (h : ∀ r ∈ rs, r.name ≠ n) : (startRules p rs).lbs n = p.lbs n := by
  induction rs generalizing p with
  | nil => rfl
  | cons r rs ih =>
    rw [startRules, ih fun r' hr' => h r' (List.mem_cons_of_mem r hr')]
    exact Function.update_of_ne (Ne.symm (h r List.mem_cons_self)) _ _

/-- After the loop, a name leads where it led before, or to one of the load
balancers the loop created. -/
theorem lbs_startRules_cases (p : Process) (rs : List RuleConfig) (n : String) :
    (startRules p rs).lbs n = p.lbs n ∨
      ∃ k, p.servers.length ≤ k ∧ (startRules p rs).lbs n = some k := by
  induction rs generalizing p with
  | nil => exact .inl rfl
  | cons r rs ih =>
    rcases ih ⟨p.servers ++ [RuleServer.start r p.gauges], Function.update p.lbs r.name
        (some p.servers.length), p.checkers ++ spawnCheckers p.servers.length r, p.metrics,
        (RuleServer.start r p.gauges).world.metrics⟩ with h | ⟨k, hk, h⟩
    · -- the name was left by the rest of the loop
      by_cases hn : n = r.name
      · subst hn
        exact .inr ⟨p.servers.length, Nat.le_refl _, by rw [startRules, h]; simp⟩
      · exact .inl (by rw [startRules, h]; exact Function.update_of_ne hn _ _)
    · exact .inr ⟨k, by simp at hk; omega, h⟩

/-- A name leads to a rule of that name. -/
theorem lbs_startRules_name {p : Process} {rs : List RuleConfig} {n : String} {k : Nat}
    (h : (startRules p rs).lbs n = some k) :
    p.lbs n = some k ∨
      p.servers.length ≤ k ∧ ∃ r, rs[k - p.servers.length]? = some r ∧ r.name = n := by
  induction rs generalizing p with
  | nil => exact .inl h
  | cons r rs ih =>
    rcases ih h with h' | ⟨hk, h'⟩
    · by_cases hn : n = r.name
      · -- the insertion of this rule
        subst hn
        simp only [Function.update_self, Option.some.injEq] at h'
        subst h'
        exact .inr ⟨Nat.le_refl _, r, by simp, rfl⟩
      · dsimp only at h'
        exact .inl (by rwa [Function.update_of_ne hn] at h')
    · simp only [List.length_append, List.length_singleton] at hk h'
      refine .inr ⟨by omega, ?_⟩
      rw [show k - p.servers.length = k - (p.servers.length + 1) + 1 by omega]
      simpa using h'

section Names

variable {c : MainConfig}

/-- `HashMap::insert` keeps the last rule of each name. -/
theorem lbs_start_last {rs₁ rs₂ : List RuleConfig} {r : RuleConfig}
    (hc : c.rules = rs₁ ++ r :: rs₂) (h : ∀ r' ∈ rs₂, r'.name ≠ r.name) :
    (start c).lbs r.name = some rs₁.length := by
  rw [start, hc, show rs₁ ++ r :: rs₂ = (rs₁ ++ [r]) ++ rs₂ by simp, startRules_append,
    lbs_startRules_of_forall_ne h, startRules_append]
  simp [startRules, length_startRules]

/-- A name leads to a rule of that name. -/
theorem lbs_start_name {n : String} {k : Nat} (h : (start c).lbs n = some k) :
    ∃ r, c.rules[k]? = some r ∧ r.name = n := by
  rcases lbs_startRules_name h with h' | ⟨-, h'⟩
  · cases h'
  · simpa using h'

/-- No name leads to a rule that a later rule of its name shadows. -/
theorem lbs_start_ne_of_later {i j : Nat} {ri rj : RuleConfig} (hij : i < j)
    (hi : c.rules[i]? = some ri) (hj : c.rules[j]? = some rj) (hn : rj.name = ri.name)
    (n : String) : (start c).lbs n ≠ some i := by
  intro h
  -- the name is the rule's own
  obtain ⟨r, hr, rfl⟩ := lbs_start_name h
  obtain rfl : ri = r := Option.some.inj (hi.symm.trans hr)
  obtain ⟨hjlt, rfl⟩ := List.getElem?_eq_some_iff.1 hj
  -- after the loop reaches rule `j`, the name leads to `j` or further on
  have hsplit : c.rules = (c.rules.take j ++ [c.rules[j]]) ++ c.rules.drop (j + 1) := by
    rw [List.append_assoc, List.singleton_append, ← Holders.eq_take_cons_drop hjlt]
  have hj' : (startRules ⟨[], fun _ => none, [], .zero, .zero⟩
      (c.rules.take j ++ [c.rules[j]])).lbs ri.name = some j := by
    rw [startRules_append, ← hn]
    simp [startRules, length_startRules, hjlt.le]
  have hlen : (startRules ⟨[], fun _ => none, [], .zero, .zero⟩
      (c.rules.take j ++ [c.rules[j]])).servers.length = j + 1 := by
    simp [length_startRules, hjlt]
  rw [start, hsplit, startRules_append] at h
  rcases lbs_startRules_cases _ (c.rules.drop (j + 1)) ri.name with h' | ⟨k, hk, h'⟩
  · rw [h', hj'] at h
    cases h
    omega
  · rw [h'] at h
    cases h
    omega

end Names

/-! ## The steps of the process -/

section Steps

variable {w : Nat} {P : IpParsers} {display : IpAddr → String} {c : MainConfig} {p p' : Process}

/-- A step of rule `i`'s acceptors or tasks is a step of its server, with the
process's metrics and the listener of its rule. -/
theorem step_rule_spec {i : Nat} {a : ServerAction} (h : p.step w P display c (.rule i a) = some p') :
    a.isTask = true ∧ ∃ srv r srv', p.servers[i]? = some srv ∧ c.rules[i]? = some r ∧
      (p.share srv).step w (Listener.ofRule P display r) a = some srv' ∧ p' = p.store i srv' := by
  simp only [Process.step] at h
  split at h
  · rename_i htask
    split at h
    · rename_i srv r hs hr
      obtain ⟨srv', hstep, rfl⟩ := Option.map_eq_some_iff.1 h
      exact ⟨htask, srv, r, srv', hs, hr, hstep, rfl⟩
    · cases h
  · cases h

/-- A round of checker `k` reports its result to the load balancer it was
spawned for. -/
theorem step_probe_spec {k : Nat} {e : CheckEnv} (h : p.step w P display c (.probe k e) = some p') :
    ∃ ch, p.checkers[k]? = some ch ∧
      p' = p.updateWorld ch.lb fun s => s.setBackendHealth ch.backendAddr (checkRes ch.config.protocol e) := by
  simp only [Process.step] at h
  split at h
  · rename_i ch hch
    exact ⟨ch, hch, (Option.some.inj h).symm⟩
  · cases h

end Steps

/-! ## The invariant of the process -/

variable (w : Nat) (P : IpParsers) (display : IpAddr → String) (c : MainConfig)

/-- What holds of the server at place `i`: up to its metrics, a state its rule's
machine reaches, which keeps the backends `main` started it with while no name
leads to it. -/
def ServerInv (i : Nat) (srv : RuleServer) : Prop :=
  (∀ r, c.rules[i]? = some r →
      ∃ s, (ruleServer w P display r).Reachable s ∧ s.eraseMetrics = srv.eraseMetrics) ∧
    ((∀ n, (Process.start c).lbs n ≠ some i) → ∀ r, c.rules[i]? = some r →
      srv.world.lb.backends = (RuleServer.start r .zero).world.lb.backends)

/-- The tasks inside `proxy_connection` of the rules named `n`, all rules
together. -/
def proxying (p : Process) (n : String) : Nat :=
  (List.zipWith (fun (srv : RuleServer) (r : RuleConfig) =>
    if r.name = n then (srv.tasks.filterMap ConnTask.proxyGuard).length else 0) p.servers c.rules).sum

/-- The invariant of the process: `lbs` as the start left it, one server per
rule, each with its `ServerInv`, and the metrics of each name in agreement with
the tasks of all the rules of that name. -/
structure Inv (p : Process) : Prop where
  lbs : p.lbs = (start c).lbs
  length : p.servers.length = c.rules.length
  servers : ∀ i srv, p.servers[i]? = some srv → ServerInv w P display c i srv
  metrics : ∀ n, p.metrics.Agree n (proxying c p n)

variable {w P display c}

/-! ### The metrics -/

section Metrics

variable {p : Process} {i : Nat} {srv srv' : RuleServer} {r : RuleConfig}

/-- The count after the server at place `i` is replaced. -/
theorem proxying_store (hs : p.servers[i]? = some srv) (hr : c.rules[i]? = some r) (x : RuleServer)
    (n : String) :
    proxying c (p.store i x) n + (if r.name = n then (srv.tasks.filterMap ConnTask.proxyGuard).length else 0) =
      proxying c p n + (if r.name = n then (x.tasks.filterMap ConnTask.proxyGuard).length else 0) :=
  Holders.sum_zipWith_set _ hs hr x

/-- A step of one server keeps the metrics of every name in agreement with the
tasks of all the rules of that name: the metrics of its own rule's name move
with its own tasks, and the others' stay. -/
theorem agree_store (hm : ∀ n, p.metrics.Agree n (proxying c p n)) (hs : p.servers[i]? = some srv)
    (hr : c.rules[i]? = some r) {a : ServerAction}
    (hstep : (p.share srv).step w (Listener.ofRule P display r) a = some srv') (n : String) :
    (p.store i srv').metrics.Agree n (proxying c (p.store i srv') n) := by
  have hc := proxying_store hs hr srv' n
  rw [metrics_store]
  rcases RuleServer.step_metrics hstep with ⟨hm', hlen⟩ | ⟨hm', hlen⟩ | ⟨o, hm', hlen⟩
  · -- neither the metrics nor the count move
    have hp : proxying c (p.store i srv') n = proxying c p n := by
      split_ifs at hc <;> simp only [share, RuleServer.withMetrics] at hlen <;> omega
    rw [hm', hp]
    exact hm n
  · by_cases hn : r.name = n
    · -- a task of this rule enters `proxy_connection`
      subst hn
      rw [if_pos rfl, if_pos rfl] at hc
      have hp : proxying c (p.store i srv') r.name = proxying c p r.name + 1 := by
        simp only [share, RuleServer.withMetrics] at hlen
        omega
      rw [hm', hp]
      exact (hm r.name).start
    · rw [if_neg hn, if_neg hn, Nat.add_zero, Nat.add_zero] at hc
      obtain ⟨ha, ht, hd, htr⟩ := @ProxyMetrics.start_at_ne p.metrics n r.name hn
      rw [hm', hc]
      exact (hm n).congr ha ht hd htr
  · by_cases hn : r.name = n
    · -- a task of this rule leaves it
      subst hn
      rw [if_pos rfl, if_pos rfl] at hc
      have hp : proxying c p r.name = proxying c (p.store i srv') r.name + 1 := by
        simp only [share, RuleServer.withMetrics] at hlen
        omega
      have hagree := hm r.name
      rw [hp] at hagree
      rw [hm']
      exact hagree.finish o
    · rw [if_neg hn, if_neg hn, Nat.add_zero, Nat.add_zero] at hc
      obtain ⟨ha, ht, hd, htr⟩ := @ProxyMetrics.finish_at_ne p.metrics n r.name hn o
      rw [hm', hc]
      exact (hm n).congr ha ht hd htr

end Metrics

theorem Inv.start : Inv w P display c (start c) := by
  -- each server is the one `main` starts, up to the gauges
  have hservers : ∀ (i : Nat) (srv : RuleServer), (Process.start c).servers[i]? = some srv →
      ∃ r, c.rules[i]? = some r ∧ srv.eraseMetrics = (RuleServer.start r .zero).eraseMetrics := by
    intro i srv h
    have he := congrArg (fun l => l[i]?) (eraseMetrics_startRules ⟨[], fun _ => none, [], .zero, .zero⟩ c.rules)
    simp only [List.getElem?_map, List.map_nil, List.nil_append] at he
    rw [← Process.start, h, Option.map_some] at he
    obtain ⟨r, hr, he'⟩ := Option.map_eq_some_iff.1 he.symm
    exact ⟨r, hr, he'.symm⟩
  refine ⟨rfl, by simp [Process.start, length_startRules], fun i srv h => ?_, fun n => ?_⟩
  · obtain ⟨r, hr, he⟩ := hservers i srv h
    refine ⟨fun r' hr' => ?_, fun _ r' hr' => ?_⟩
    · obtain rfl : r = r' := Option.some.inj (hr.symm.trans hr')
      exact ⟨RuleServer.start r .zero, .init ⟨.zero, rfl⟩, he.symm⟩
    · obtain rfl : r = r' := Option.some.inj (hr.symm.trans hr')
      exact (World.eraseGauges_eq_iff.1 (RuleServer.eraseMetrics_eq_iff.1 he).1).1 ▸ rfl
  · -- no task yet, and fresh metrics
    have hzero : proxying c (Process.start c) n = 0 := by
      refine Holders.sum_zipWith_eq_zero _ (fun srv hsrv r => ?_) _
      obtain ⟨i, hi⟩ := List.mem_iff_getElem?.1 hsrv
      obtain ⟨r', -, he⟩ := hservers i srv hi
      have ht : srv.tasks = [] := (RuleServer.eraseMetrics_eq_iff.1 he).2.2.2
      simp [ht]
    rw [hzero, Process.start, metrics_startRules]
    exact ProxyMetrics.agree_zero n

/-- A step of one server keeps the invariant, when it is a step of its rule's
machine that keeps its snapshot while no name leads to it. -/
theorem Inv.store_step {p : Process} (hi : Inv w P display c p) {i : Nat} {srv srv' : RuleServer}
    {r : RuleConfig} (hs : p.servers[i]? = some srv) (hr : c.rules[i]? = some r) {a : ServerAction}
    (hstep : (p.share srv).step w (Listener.ofRule P display r) a = some srv')
    (hb : (∀ n, (Process.start c).lbs n ≠ some i) → srv'.world.lb.backends = srv.world.lb.backends) :
    Inv w P display c (p.store i srv') := by
  refine ⟨hi.lbs, by simp [hi.length], forall_getElem?_set hi.servers ⟨fun r' hr' => ?_, fun hn r' hr' => ?_⟩,
    agree_store hi.metrics hs hr hstep⟩
  · -- the rule's own machine takes the same step from a state that agrees but for the metrics
    obtain rfl : r = r' := Option.some.inj (hr.symm.trans hr')
    obtain ⟨s, hreach, hse⟩ := (hi.servers i srv hs).1 r hr
    obtain ⟨s', hs', he'⟩ := RuleServer.step_of_eraseMetrics
      (show (p.share srv).eraseMetrics = s.eraseMetrics from hse.symm) hstep
    exact ⟨s', hreach.step a hs', he'⟩
  · exact (hb hn).trans ((hi.servers i srv hs).2 hn r' hr')

/-- A call on a load balancer that is a step of its server keeps the invariant. -/
theorem Inv.updateWorld {p : Process} (hi : Inv w P display c p) (i : Nat) (f : World → World)
    (a : ServerAction) (hf : ∀ srv L, (p.share srv).step w L a = some { p.share srv with world := f (p.share srv).world })
    (hb : ∀ srv, (∀ n, (Process.start c).lbs n ≠ some i) → (f (p.share srv).world).lb.backends = srv.world.lb.backends) :
    Inv w P display c (p.updateWorld i f) := by
  rcases updateWorld_cases p i f with h | ⟨srv, hs, h⟩
  · rw [h]
    exact hi
  · rw [h]
    have hlt : i < c.rules.length := hi.length ▸ (List.getElem?_eq_some_iff.1 hs).1
    exact hi.store_step hs (List.getElem?_eq_getElem hlt) (hf srv _) (hb srv)

/-- The loop of a reload keeps the invariant: it reaches only servers a name
leads to. -/
theorem Inv.reconcile {p : Process} (hi : Inv w P display c p) (rs : List RuleConfig) :
    Inv w P display c (p.reconcile rs) := by
  induction rs generalizing p with
  | nil => exact hi
  | cons r rs ih =>
    unfold Process.reconcile
    split
    · rename_i i hlbs
      have hu := hi.updateWorld i (fun s => s.updateBackends r.backends) (.reload r.backends)
        (fun _ _ => rfl) fun _ hn => absurd (hi.lbs ▸ hlbs) (hn r.name)
      exact ih ⟨hu.lbs, hu.length, hu.servers, hu.metrics⟩
    · exact ih hi

/-- Every step keeps the invariant. -/
theorem Inv.step {p p' : Process} (hi : Inv w P display c p) {a : MainAction}
    (h : p.step w P display c a = some p') : Inv w P display c p' := by
  cases a with
  | rule i a =>
    -- a step of the rule's own machine, which keeps its snapshot
    obtain ⟨htask, srv, r, srv', hs, hr, hstep, rfl⟩ := step_rule_spec h
    exact hi.store_step hs hr hstep fun _ => (RuleServer.step_backends htask hstep :)
  | probe k e =>
    obtain ⟨ch, -, rfl⟩ := step_probe_spec h
    exact hi.updateWorld _ _ (.report ch.backendAddr _) (fun _ _ => rfl) fun _ _ => by simp [share,
      RuleServer.withMetrics]
  | reload file =>
    cases file with
    | none =>
      cases h
      exact hi
    | some file =>
      cases h
      exact hi.reconcile file.rules

theorem Inv.of_reachable {p : Process} (h : (mainProcess w P display c).Reachable p) :
    Inv w P display c p :=
  h.rec_inv (fun _ ⟨_, hp⟩ => hp ▸ Inv.start) fun _ _ _ hi hs => hi.step hs

/-! ## The checkers -/

/-- The checkers a reload adds for the rules of the new file. -/
theorem checkers_reconcile (p : Process) (rs : List RuleConfig) :
    (p.reconcile rs).checkers =
      p.checkers ++ rs.flatMap fun r => ((p.lbs r.name).map fun i => spawnCheckers i r).getD [] := by
  induction rs generalizing p with
  | nil => simp [Process.reconcile]
  | cons r rs ih =>
    unfold Process.reconcile
    split
    · rename_i i hlbs
      rw [ih]
      simp [hlbs]
    · rename_i hlbs
      rw [ih]
      simp [hlbs]

/-- A reload changes the servers it reaches and the checkers, not the map. -/
theorem lbs_reconcile (p : Process) (rs : List RuleConfig) : (p.reconcile rs).lbs = p.lbs := by
  induction rs generalizing p with
  | nil => rfl
  | cons r rs ih =>
    unfold Process.reconcile
    split
    · exact (ih _).trans (lbs_updateWorld p _ _)
    · exact ih p

/-- A step adds the checkers of the rules it reads from a new file, and no
other. -/
theorem checkers_step {p p' : Process} {a : MainAction} (h : p.step w P display c a = some p') :
    p'.checkers = p.checkers ++
      a.reloaded.flatMap fun r => ((p.lbs r.name).map fun i => spawnCheckers i r).getD [] := by
  cases a with
  | rule i a =>
    obtain ⟨-, -, -, -, -, -, -, rfl⟩ := step_rule_spec h
    simp [MainAction.reloaded]
  | probe k e =>
    obtain ⟨-, -, rfl⟩ := step_probe_spec h
    simp [MainAction.reloaded]
  | reload file =>
    cases file with
    | none =>
      cases h
      simp [MainAction.reloaded]
    | some file =>
      cases h
      exact checkers_reconcile p file.rules

/-- No step changes the map from names to load balancers: `main` never inserts
into it after the start. -/
theorem lbs_step {p p' : Process} {a : MainAction} (h : p.step w P display c a = some p') :
    p'.lbs = p.lbs := by
  cases a with
  | rule i a =>
    obtain ⟨-, -, -, -, -, -, -, rfl⟩ := step_rule_spec h
    rfl
  | probe k e =>
    obtain ⟨-, -, rfl⟩ := step_probe_spec h
    exact lbs_updateWorld p _ _
  | reload file =>
    cases file with
    | none =>
      cases h
      rfl
    | some file =>
      cases h
      exact lbs_reconcile p file.rules

end Process

/-! ## What holds of every reachable state of the process -/

section Runs

open Process

variable {w : Nat} {P : IpParsers} {display : IpAddr → String} {c : MainConfig} {p : Process}

/-- The process refines its rules: in every reachable state it has one server
per rule of the file, and each agrees, but for the metrics all rules share, with
a state that its rule's acceptors and tasks reach by themselves, whatever the
other rules, the checkers and the reloads did. -/
theorem mainProcess_refines_ruleServers (h : (mainProcess w P display c).Reachable p) :
    p.servers.length = c.rules.length ∧
      ∀ (i : Nat) srv r, p.servers[i]? = some srv → c.rules[i]? = some r →
        ∃ s, (ruleServer w P display r).Reachable s ∧ s.eraseMetrics = srv.eraseMetrics := by
  have hi := Inv.of_reachable h
  exact ⟨hi.length, fun i srv r hs hr => (hi.servers i srv hs).1 r hr⟩

/-- The rule `"r"` on port 8081 with the one backend `b`. -/
def ruleB : RuleConfig := .plain "r" "0.0.0.0:8081" [.simple "b"]

/-- Two rules of the name `"r"`, `ruleA` and `ruleB`. -/
def twoRules : MainConfig := ⟨[ruleA, ruleB]⟩

/-- A file that gives `"r"` the backend `c`. -/
def reloadedToC : MainConfig := ⟨[.plain "r" "0.0.0.0:8081" [.simple "c"]]⟩

/-- Each of the two rules accepts a connection from `1.2.3.4` and hands it to
`proxy_connection`. -/
def acceptOnBoth : List MainAction :=
  [.rule 0 (.accept (.v4 ⟨1, 2, 3, 4⟩) 0), .rule 0 (.select 0 0),
    .rule 1 (.accept (.v4 ⟨1, 2, 3, 4⟩) 0), .rule 1 (.select 0 0)]

/-- The state a reload to `reloadedToC` leaves after `acceptOnBoth`: two tasks,
one per rule, and the second rule's load balancer on `c` while its task holds a
guard on `b`. -/
def reloadedBoth : Process :=
  (Machine.exec (mainProcess 64 .rejectAll (fun _ => "") twoRules).step (Process.start twoRules)
    (acceptOnBoth ++ [.reload (some reloadedToC)])).getD (Process.start twoRules)

theorem reachable_reloadedBoth :
    (mainProcess 64 .rejectAll (fun _ => "") twoRules).Reachable reloadedBoth := by
  exact .of_exec ⟨by decide, rfl⟩ (Machine.exec_eq_some_getD _ (by decide))

theorem mainProcess_refines_ruleServers_reloaded :
    (mainProcess 64 .rejectAll (fun _ => "") twoRules).Reachable reloadedBoth ∧
      (reloadedBoth.servers.length = twoRules.rules.length ∧
        ∀ (i : Nat) srv r, reloadedBoth.servers[i]? = some srv → twoRules.rules[i]? = some r →
          ∃ s, (ruleServer 64 .rejectAll (fun _ => "") r).Reachable s ∧
            s.eraseMetrics = srv.eraseMetrics) ∧
      reloadedBoth.metrics.activeConnections "r" = 2 := by
  exact ⟨reachable_reloadedBoth, mainProcess_refines_ruleServers reachable_reloadedBoth, by decide⟩

/-- The rule-level metrics of the process agree with the tasks of all its rules:
in every reachable state, for every name, `ACTIVE_CONNECTIONS` is the number of
tasks inside `proxy_connection` over all the rules of that name,
`TOTAL_CONNECTIONS` is at least that plus the copies the duration histogram
observed, and the traffic counters of the name agree in pairs. -/
theorem mainProcess_metrics (h : (mainProcess w P display c).Reachable p) (n : String) :
    p.metrics.activeConnections n = proxying c p n ∧
      proxying c p n + (p.metrics.connectionDuration n).length ≤ p.metrics.totalConnections n ∧
      p.metrics.trafficBytes (n, "client_in") = p.metrics.trafficBytes (n, "backend_out") ∧
      p.metrics.trafficBytes (n, "backend_in") = p.metrics.trafficBytes (n, "client_out") := by
  have hm := (Inv.of_reachable h).metrics n
  exact ⟨hm.active, hm.total, hm.clientTraffic, hm.backendTraffic⟩

/-- Two rules named `"r"`, each with one connection from `1.2.3.4` inside
`proxy_connection`: `ACTIVE_CONNECTIONS` of `"r"` counts both. -/
theorem mainProcess_metrics_two_rules :
    ∃ p, Machine.exec (mainProcess 64 .rejectAll (fun _ => "") twoRules).step
        (Process.start twoRules) acceptOnBoth = some p ∧
      p.metrics.activeConnections "r" = 2 ∧ proxying twoRules p "r" = 2 := by
  have h : ((Machine.exec (mainProcess 64 .rejectAll (fun _ => "") twoRules).step
      (Process.start twoRules) acceptOnBoth).map fun q => q.metrics.activeConnections "r") =
        some 2 := by
    decide
  obtain ⟨p, hp, hactive⟩ := Option.map_eq_some_iff.1 h
  have hm := (mainProcess_metrics (Machine.Reachable.of_exec ⟨by decide, rfl⟩ hp) "r").1
  exact ⟨p, hp, hactive, by omega⟩

/-- Of two rules of one name, the map `lbs` keeps the last: in every reachable
state it leads the name to the last rule of that name, and the load balancer of
every earlier rule of that name still has the backends `LoadBalancer::new` gave
it, whatever reloads came. -/
theorem reload_reaches_last_rule (h : (mainProcess w P display c).Reachable p)
    {rs₁ rs₂ : List RuleConfig} {r : RuleConfig} (hc : c.rules = rs₁ ++ r :: rs₂)
    (hlast : ∀ r' ∈ rs₂, r'.name ≠ r.name) :
    p.lbs r.name = some rs₁.length ∧
      ∀ (i : Nat) ri, rs₁[i]? = some ri → ri.name = r.name →
        ∃ srv, p.servers[i]? = some srv ∧
          srv.world.lb.backends = (RuleServer.start ri .zero).world.lb.backends := by
  have hi := Inv.of_reachable h
  refine ⟨hi.lbs ▸ lbs_start_last hc hlast, fun i ri hri hn => ?_⟩
  have hilt : i < rs₁.length := (List.getElem?_eq_some_iff.1 hri).1
  -- rule `i` comes before rule `rs₁.length`, which has its name
  have hci : c.rules[i]? = some ri := by rw [hc, List.getElem?_append_left hilt, hri]
  have hcj : c.rules[rs₁.length]? = some r := by simp [hc]
  have hshadow := lbs_start_ne_of_later hilt hci hcj hn.symm
  have hlen : i < p.servers.length := by
    rw [hi.length, hc, List.length_append]
    omega
  exact ⟨p.servers[i], List.getElem?_eq_getElem hlen,
    (hi.servers i _ (List.getElem?_eq_getElem hlen)).2 hshadow ri hci⟩

/-- Two rules named `"r"`: after a reload gives `"r"` the backend `"c"`, the map
leads `"r"` to the second rule and the first still has its backend `"a"`. -/
theorem reload_reaches_last_rule_two :
    ((Process.start twoRules).reconcile reloadedToC.rules).lbs "r" = some 1 ∧
      ∃ srv, ((Process.start twoRules).reconcile reloadedToC.rules).servers[0]? = some srv ∧
        srv.world.lb.backends =
          (RuleServer.start ruleA .zero).world.lb.backends := by
  have hr : (mainProcess 64 .rejectAll (fun _ => "") twoRules).Reachable
      ((Process.start twoRules).reconcile reloadedToC.rules) :=
    .step (.reload (some reloadedToC)) (.init ⟨by decide, rfl⟩) rfl
  obtain ⟨hl, hs⟩ := @reload_reaches_last_rule _ _ _ _ _ hr [ruleA] [] ruleB rfl (by simp)
  exact ⟨hl, hs 0 _ rfl rfl⟩

/-- The checkers only accumulate: a run from a reachable state keeps every
checker, and each change of the file that parses adds one checker per backend
entry of each of its rules whose name `lbs` knows and that has a
`health_check` section, for the load balancer of that name. -/
theorem checkers_exec (h : (mainProcess w P display c).Reachable p) {p' : Process}
    {as : List MainAction} (he : Machine.exec (mainProcess w P display c).step p as = some p') :
    p'.checkers = p.checkers ++ (as.flatMap MainAction.reloaded).flatMap fun r =>
      (((Process.start c).lbs r.name).map fun i => spawnCheckers i r).getD [] := by
  rw [List.flatMap_assoc]
  -- the map `lbs` is the start's all along the run
  refine Machine.exec_log (fun q => q.lbs = (Process.start c).lbs) Process.checkers _
    (fun q a q' hq hs => ⟨(lbs_step hs).trans hq, ?_⟩) (Inv.of_reachable h).lbs he
  rw [checkers_step hs, hq]

/-- A file of `ruleA`, its backend checked over TCP every second. -/
def checkedRule : MainConfig :=
  ⟨[{ ruleA with healthCheck := some ⟨true, 1000, 1000, "tcp", none⟩ }]⟩

/-- A file with one health-checked rule of one backend: the start spawns one
checker, and a change of the file that keeps it as it is spawns a second. -/
theorem checkers_exec_same_file :
    ((Process.start checkedRule).reconcile checkedRule.rules).checkers.length = 2 := by
  have hr : (mainProcess 64 .rejectAll (fun _ => "") checkedRule).Reachable
      (Process.start checkedRule) :=
    .init ⟨by decide, rfl⟩
  have he : Machine.exec (mainProcess 64 .rejectAll (fun _ => "") checkedRule).step
      (Process.start checkedRule) [.reload (some checkedRule)] =
      some ((Process.start checkedRule).reconcile checkedRule.rules) := rfl
  rw [checkers_exec hr he]
  decide

end Runs

end Layer4Lb
