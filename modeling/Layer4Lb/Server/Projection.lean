import Layer4Lb.Server.Main
import Layer4Lb.Server.Admission

/-!
# Each rule's share of a run of the process

Every step of the process reaches the servers of its rules in a way that each
server can take as steps of its own: a step of rule `i`'s acceptors and tasks is
a step of its server, the round of a checker spawned for rule `i`'s load
balancer is a health report to it, and a reload is one `update_backends` for
each rule of the new file whose name leads to it.  So every run of the process
gives each rule a run of its own server, from the state `main` starts it in,
that ends, up to the metrics all rules share, in the process's server of that
rule (`exec_onRule`), and what the process shows of the rule is what that run
shows (`spawnsOn_eq`).  What holds of every run of one rule's server then holds
of the rule inside the whole process, whatever the other rules, the checkers
and the reloads do in between: here, its rate limit.
-/

open scoped List
open TokenBucket

namespace Layer4Lb

deriving instance DecidableEq for ServerAction

/-- The clock reading of a connection some rule's acceptor accepts. -/
def MainAction.acceptTime : MainAction → Option ℚ
  | .rule _ a => a.acceptTime
  | _ => none

namespace Process

/-- The `update_backends` calls a reload makes on the load balancer at place
`i`: one for each rule of the new file whose name `lbs` leads to `i`. -/
def reloadsOn (i : Nat) (lbs : String → Option Nat) (rs : List RuleConfig) : List ServerAction :=
  rs.filterMap fun r => if lbs r.name = some i then some (.reload r.backends) else none

/-- The steps of rule `i`'s server that a step of the process takes. -/
def onRule (i : Nat) (p : Process) : MainAction → List ServerAction
  | .rule j a => if j = i then [a] else []
  | .probe k e =>
    match p.checkers[k]? with
    | some ch => if ch.lb = i then [.report ch.backendAddr (checkRes ch.config.protocol e)] else []
    | none => []
  | .reload none => []
  | .reload (some file) => reloadsOn i p.lbs file.rules

/-- What a step of the process shows of rule `i`'s acceptors: the client and the
clock reading of a connection handed to a new task. -/
def spawnedOn (i : Nat) (p : Process) : MainAction → Process → List (IpAddr × ℚ)
  | .rule j (.accept ip now), p' =>
    if j = i ∧ (p'.servers[i]?).map RuleServer.tasks ≠ (p.servers[i]?).map RuleServer.tasks then
      [(ip, now)]
    else []
  | _, _ => []

/-- The connections rule `i`'s acceptors hand to tasks over a run of the
process, in order. -/
def spawnsOn (w : Nat) (P : IpParsers) (display : IpAddr → String) (c : MainConfig) (i : Nat) :
    Process → List MainAction → List (IpAddr × ℚ) :=
  Machine.trace (Process.step w P display c) (spawnedOn i)

/-- Server `t` tracks the process's server at place `i`: they agree but for the
metrics. -/
def Tracks (i : Nat) (p : Process) (t : RuleServer) : Prop :=
  ∃ srv, p.servers[i]? = some srv ∧ srv.eraseMetrics = t.eraseMetrics

variable {w : Nat} {P : IpParsers} {display : IpAddr → String} {c : MainConfig} {i : Nat}
  {p p' : Process} {t : RuleServer}

/-- The labels a step gives rule `i` are its own step, or reports and reloads. -/
theorem mem_onRule {a : MainAction} {b : ServerAction} (hb : b ∈ onRule i p a) :
    a = .rule i b ∨ b.isTask = false := by
  cases a with
  | rule j b' =>
    by_cases hj : j = i
    · subst hj
      simp only [onRule, if_true, List.mem_singleton] at hb
      exact .inl (by rw [hb])
    · simp [onRule, hj] at hb
  | probe k e =>
    cases hch : p.checkers[k]? with
    | none => simp [onRule, hch] at hb
    | some ch =>
      by_cases hlb : ch.lb = i
      · simp only [onRule, hch, hlb, if_true, List.mem_singleton] at hb
        rw [hb]
        exact .inr rfl
      · simp [onRule, hch, hlb] at hb
  | reload file =>
    cases file with
    | none => cases hb
    | some file =>
      simp only [onRule, reloadsOn] at hb
      obtain ⟨r, -, hr⟩ := List.mem_filterMap.1 hb
      split at hr
      · cases hr
        exact .inr rfl
      · cases hr

theorem acceptTime_of_isTask_false {b : ServerAction} (hb : b.isTask = false) : b.acceptTime = none := by
  cases b <;> first | rfl | cases hb

/-- The process's server at place `i` has the tasks of the server that tracks it. -/
theorem Tracks.map_tasks (h : Tracks i p t) : (p.servers[i]?).map RuleServer.tasks = some t.tasks := by
  obtain ⟨srv, hs, he⟩ := h
  rw [hs, Option.map_some, (RuleServer.eraseMetrics_eq_iff.1 he).2.2.2]

/-! ## One step of the process, on one rule -/

theorem Tracks.store_ne {j : Nat} (hj : j ≠ i) (h : Tracks i p t) (x : RuleServer) :
    Tracks i (p.store j x) t := by
  obtain ⟨srv, hs, he⟩ := h
  exact ⟨srv, by rw [servers_store, List.getElem?_set_ne hj]; exact hs, he⟩

/-- A step of the server at place `i`, made with the process's metrics, is a step
of the server that tracks it. -/
theorem Tracks.store_self {L : Listener} {srv srv' : RuleServer} (h : Tracks i p t)
    (hs : p.servers[i]? = some srv) {a : ServerAction} (hstep : (p.share srv).step w L a = some srv') :
    ∃ t', t.step w L a = some t' ∧ Tracks i (p.store i srv') t' := by
  obtain ⟨srv₀, hs₀, he⟩ := h
  rw [hs] at hs₀
  cases hs₀
  obtain ⟨t', ht', he'⟩ := RuleServer.step_of_eraseMetrics
    (show (p.share srv).eraseMetrics = t.eraseMetrics from he) hstep
  refine ⟨t', ht', srv', ?_, he'.symm⟩
  rw [servers_store]
  exact List.getElem?_set_self (List.getElem?_eq_some_iff.1 hs).1

theorem Tracks.updateWorld_ne {j : Nat} (hj : j ≠ i) (h : Tracks i p t) (f : World → World) :
    Tracks i (p.updateWorld j f) t := by
  rcases updateWorld_cases p j f with hu | ⟨_, -, hu⟩ <;> rw [hu]
  · exact h
  · exact h.store_ne hj _

/-- A call on the load balancer at place `i` that is a step of its server. -/
theorem Tracks.updateWorld_self {L : Listener} (h : Tracks i p t) (f : World → World)
    {a : ServerAction} (hf : ∀ srv, (p.share srv).step w L a = some { p.share srv with world := f (p.share srv).world }) :
    ∃ t', t.step w L a = some t' ∧ Tracks i (p.updateWorld i f) t' := by
  obtain ⟨srv, hs, he⟩ := h
  have hu : p.updateWorld i f = p.store i { p.share srv with world := f (p.share srv).world } := by
    unfold updateWorld
    rw [hs]
  rw [hu]
  exact Tracks.store_self ⟨srv, hs, he⟩ hs (hf srv)

/-- The loop of a reload, on rule `i`: the `update_backends` calls that reach it. -/
theorem Tracks.reconcile {L : Listener} {lbs : String → Option Nat} (rs : List RuleConfig) :
    ∀ {p : Process} {t : RuleServer}, p.lbs = lbs → Tracks i p t →
      ∃ t', Machine.exec (RuleServer.step w L) t (reloadsOn i lbs rs) = some t' ∧
        Tracks i (p.reconcile rs) t' := by
  induction rs with
  | nil => exact fun _ h => ⟨_, rfl, h⟩
  | cons r rs ih =>
    intro p t hlbs h
    unfold Process.reconcile
    cases hj : p.lbs r.name with
    | none =>
      have hlabels : reloadsOn i lbs (r :: rs) = reloadsOn i lbs rs := by
        simp [reloadsOn, ← hlbs, hj]
      rw [hlabels]
      exact ih hlbs h
    | some j =>
      dsimp only
      by_cases hji : j = i
      · -- the reload reaches this rule
        subst hji
        have hlabels : reloadsOn j lbs (r :: rs) = .reload r.backends :: reloadsOn j lbs rs := by
          simp [reloadsOn, ← hlbs, hj]
        obtain ⟨t₁, ht₁, h₁⟩ := h.updateWorld_self (w := w) (L := L)
          (fun s => s.updateBackends r.backends) (a := .reload r.backends) (fun _ => rfl)
        obtain ⟨t', ht', h'⟩ :=
          ih (p := { p.updateWorld j (fun s => s.updateBackends r.backends) with
            checkers := p.checkers ++ spawnCheckers j r }) ((lbs_updateWorld p _ _).trans hlbs) h₁
        exact ⟨t', by rw [hlabels, Machine.exec_cons, ht₁, Option.bind_some]; exact ht', h'⟩
      · have hlabels : reloadsOn i lbs (r :: rs) = reloadsOn i lbs rs := by
          simp [reloadsOn, ← hlbs, hj, hji]
        rw [hlabels]
        exact ih (p := { p.updateWorld j (fun s => s.updateBackends r.backends) with
          checkers := p.checkers ++ spawnCheckers j r }) ((lbs_updateWorld p _ _).trans hlbs)
          (h.updateWorld_ne hji _)

/-- Each step of the process is a run of the labels it gives rule `i`, on the
server that tracks rule `i`'s. -/
theorem Tracks.step {r : RuleConfig} (hr : c.rules[i]? = some r) (h : Tracks i p t) {a : MainAction}
    (hstep : p.step w P display c a = some p') :
    ∃ t', Machine.exec (RuleServer.step w (Listener.ofRule P display r)) t (onRule i p a) = some t' ∧
      Tracks i p' t' := by
  cases a with
  | rule j b =>
    obtain ⟨-, srv, r', srv', hs, hr', hb, rfl⟩ := step_rule_spec hstep
    by_cases hj : j = i
    · subst hj
      rw [hr, Option.some.injEq] at hr'
      subst hr'
      obtain ⟨t', ht', h'⟩ := h.store_self hs hb
      exact ⟨t', by simp [onRule, ht'], h'⟩
    · exact ⟨t, by simp [onRule, hj], h.store_ne hj _⟩
  | probe k e =>
    obtain ⟨ch, hch, rfl⟩ := step_probe_spec hstep
    by_cases hlb : ch.lb = i
    · subst hlb
      obtain ⟨t', ht', h'⟩ := h.updateWorld_self (w := w) (L := Listener.ofRule P display r)
        (fun s => s.setBackendHealth ch.backendAddr (checkRes ch.config.protocol e))
        (a := .report ch.backendAddr (checkRes ch.config.protocol e)) (fun _ => rfl)
      exact ⟨t', by simp [onRule, hch, ht'], h'⟩
    · exact ⟨t, by simp [onRule, hch, hlb], h.updateWorld_ne hlb _⟩
  | reload file =>
    cases file with
    | none =>
      cases hstep
      exact ⟨t, rfl, h⟩
    | some file =>
      cases hstep
      exact Tracks.reconcile file.rules rfl h

/-- What a step shows of rule `i`'s acceptors is what the run of its labels shows
on the server that tracks rule `i`'s. -/
theorem spawnedOn_eq {L : Listener} {t' : RuleServer} (h : Tracks i p t) {a : MainAction}
    (h' : Tracks i p' t') (he : Machine.exec (RuleServer.step w L) t (onRule i p a) = some t') :
    spawnedOn i p a p' = Machine.trace (RuleServer.step w L) RuleServer.spawned t (onRule i p a) := by
  by_cases ha : ∃ ip now, a = .rule i (.accept ip now)
  · obtain ⟨ip, now, rfl⟩ := ha
    have hlabels : onRule i p (.rule i (.accept ip now)) = [.accept ip now] := by
      simp [onRule]
    rw [hlabels] at he ⊢
    obtain ⟨t₁, ht₁, he₁⟩ := Machine.exec_cons_eq_some he
    rw [Machine.exec_nil, Option.some.injEq] at he₁
    subst he₁
    -- the tasks of the process's server are those of the server that tracks it
    rw [Machine.trace_cons_of_step _ ht₁, spawnedOn, h.map_tasks, h'.map_tasks]
    by_cases hts : t₁.tasks = t.tasks <;> simp [RuleServer.spawned, Machine.trace, hts]
  · push Not at ha
    have hnil : spawnedOn i p a p' = [] := by
      unfold spawnedOn
      split
      · rename_i j ip now
        rw [if_neg]
        rintro ⟨rfl, -⟩
        exact ha ip now rfl
      · rfl
    rw [hnil, Machine.trace_eq_nil]
    intro s b s' hb
    rcases mem_onRule hb with rfl | hb
    · cases b with
      | accept ip now => exact absurd rfl (ha ip now)
      | _ => rfl
    · cases b <;> first | rfl | cases hb

/-! ## Runs of the process, on one rule -/

/-- The server `main` starts for rule `i` tracks the process's. -/
theorem tracks_start {r : RuleConfig} (hr : c.rules[i]? = some r) :
    Tracks i (start c) (RuleServer.start r .zero) := by
  have he := congrArg (fun l => l[i]?) (eraseMetrics_startRules ⟨[], fun _ => none, [], .zero, .zero⟩ c.rules)
  simp only [List.getElem?_map, List.map_nil, List.nil_append, hr, Option.map_some] at he
  obtain ⟨srv, hs, he'⟩ := Option.map_eq_some_iff.1 he
  exact ⟨srv, hs, he'⟩

/-- The labels a run of the process gives rule `i` are a run of its server. -/
theorem exec_onRule {r : RuleConfig} (hr : c.rules[i]? = some r) (h : Tracks i p t) {as : List MainAction}
    (he : Machine.exec (Process.step w P display c) p as = some p') :
    ∃ t', Machine.exec (RuleServer.step w (Listener.ofRule P display r)) t
        (Machine.trace (Process.step w P display c) (fun p a _ => onRule i p a) p as) = some t' ∧
      Tracks i p' t' :=
  Machine.exec_project (Tracks i) (onRule i) (fun _ _ _ _ hst hs => hst.step hr hs) h he

/-- What a run of the process shows of rule `i`'s acceptors is what the run of
its labels shows. -/
theorem spawnsOn_eq {r : RuleConfig} (hr : c.rules[i]? = some r) (h : Tracks i p t)
    {as : List MainAction} (he : Machine.exec (Process.step w P display c) p as = some p') :
    spawnsOn w P display c i p as = RuleServer.spawns w (Listener.ofRule P display r) t
      (Machine.trace (Process.step w P display c) (fun p a _ => onRule i p a) p as) :=
  Machine.trace_project (Tracks i) (onRule i) (spawnedOn i) RuleServer.spawned
    (fun _ _ _ _ hst hs =>
      let ⟨t', ht', h'⟩ := hst.step hr hs
      ⟨t', ht', h', spawnedOn_eq hst h' ht'⟩) h he

/-- The accepts of rule `i`'s run are among the process's, in order. -/
theorem acceptTime_onRule_sublist (p : Process) (as : List MainAction) :
    (Machine.trace (Process.step w P display c) (fun p a _ => onRule i p a) p as).filterMap
        ServerAction.acceptTime <+ as.filterMap MainAction.acceptTime :=
  Machine.filterMap_trace_sublist _ _ (fun p a _ _ => by
    by_cases ha : ∃ b, a = .rule i b
    · obtain ⟨b, rfl⟩ := ha
      cases hb : b.acceptTime <;> simp [onRule, MainAction.acceptTime, hb]
    · -- only reports and reloads, which accept nothing
      have hnil : (onRule i p a).filterMap ServerAction.acceptTime = [] := by
        refine List.filterMap_eq_nil_iff.2 fun b hb => ?_
        rcases mem_onRule hb with rfl | hb
        · exact absurd ⟨b, rfl⟩ ha
        · exact acceptTime_of_isTask_false hb
      rw [hnil]
      exact List.nil_sublist _) p as

end Process

/-- Each rule's server runs, inside the process, as it runs alone.  For every
run of the whole process from the state `main` leaves it in (all rules'
acceptors and tasks, every checker's rounds, every reload of the file,
interleaved), and every rule `i`: the steps the run gives rule `i` (its own
acceptors' and tasks' steps, the report of each round of a checker spawned for
its load balancer, and one `update_backends` for each rule of a reloaded file
whose name leads to it) form a run of rule `i`'s server alone, from the state
`main` starts it in, and that run ends in the process's server of rule `i`, up
to the metrics all rules share. -/
theorem mainProcess_projects_onto_rule {w : Nat} {P : IpParsers} {display : IpAddr → String}
    {c : MainConfig} {i : Nat} {r : RuleConfig} (hr : c.rules[i]? = some r) {as : List MainAction}
    {p' : Process} (he : Machine.exec (mainProcess w P display c).step (Process.start c) as = some p') :
    ∃ s', Machine.exec (ruleServer w P display r).step (RuleServer.start r .zero)
        (Machine.trace (mainProcess w P display c).step (fun p a _ => Process.onRule i p a)
          (Process.start c) as) = some s' ∧
      ∃ srv, p'.servers[i]? = some srv ∧ srv.eraseMetrics = s'.eraseMetrics :=
  Process.exec_onRule hr (Process.tracks_start hr) he

/-- The rule `"s"` on port 8081 with the one backend `b`. -/
def ruleS : RuleConfig := .plain "s" "0.0.0.0:8081" [.simple "b"]

/-- The first rule accepts a connection, the second another, and a reload gives
the first the backend `c`. -/
def acceptsThenReload : List MainAction :=
  [.rule 0 (.accept (.v4 ⟨1, 2, 3, 4⟩) 0), .rule 1 (.accept (.v4 ⟨1, 2, 3, 4⟩) 0),
    .reload (some ⟨[.plain "r" "0.0.0.0:8080" [.simple "c"]]⟩)]

/-- Of the rules `ruleA` and `ruleS`, the first accepts a connection, the second
another, and a reload gives the first a new backend list: the first rule's
share of the run is its accept and its `update_backends`. -/
theorem mainProcess_projects_onto_rule_two_rules :
    ∃ p', Machine.exec (mainProcess 64 .rejectAll (fun _ => "") ⟨[ruleA, ruleS]⟩).step
        (Process.start ⟨[ruleA, ruleS]⟩) acceptsThenReload = some p' ∧
      Machine.trace (mainProcess 64 .rejectAll (fun _ => "") ⟨[ruleA, ruleS]⟩).step
          (fun p a _ => Process.onRule 0 p a) (Process.start ⟨[ruleA, ruleS]⟩) acceptsThenReload =
        [.accept (.v4 ⟨1, 2, 3, 4⟩) 0, .reload [.simple "c"]] ∧
      ∃ s', Machine.exec (ruleServer 64 .rejectAll (fun _ => "") ruleA).step
          (RuleServer.start ruleA .zero)
          (Machine.trace (mainProcess 64 .rejectAll (fun _ => "") ⟨[ruleA, ruleS]⟩).step
            (fun p a _ => Process.onRule 0 p a) (Process.start ⟨[ruleA, ruleS]⟩)
            acceptsThenReload) = some s' ∧
        ∃ srv, p'.servers[0]? = some srv ∧ srv.eraseMetrics = s'.eraseMetrics := by
  obtain ⟨p', he⟩ := Option.isSome_iff_exists.1 (show (Machine.exec
      (mainProcess 64 .rejectAll (fun _ => "") ⟨[ruleA, ruleS]⟩).step
      (Process.start ⟨[ruleA, ruleS]⟩) acceptsThenReload).isSome by decide)
  exact ⟨p', he, by decide, mainProcess_projects_onto_rule rfl he⟩

/-- The rate limit of each rule holds in the whole process.  For every run of
the process from the state `main` leaves it in, whose accepts, of all rules,
read a clock that does not go back, and every rule `i` with an enabled
`rate_limit` section: the connections rule `i`'s acceptors hand to tasks from
one client IP in any window `[s, t]` number at most `max(burst, 1) +
max(requests_per_second, 1) * (t - s)`, whatever the other rules (those of the
same name included, which have rate limiters of their own), the checkers and
the reloads do in between. -/
theorem mainProcess_spawns_conform {w : Nat} {P : IpParsers} {display : IpAddr → String}
    {c : MainConfig} {i : Nat} {r : RuleConfig} (hr : c.rules[i]? = some r) {cfg : RateLimitConfig}
    (hcfg : r.rateLimit = some cfg) (hen : cfg.enabled = true) {as : List MainAction} {p' : Process}
    (he : Machine.exec (mainProcess w P display c).step (Process.start c) as = some p')
    (hclock : (as.filterMap MainAction.acceptTime).Pairwise (· ≤ ·)) (ip : IpAddr) :
    Conforms ((max cfg.burst 1).toNat : ℚ) (max cfg.requestsPerSecond 1).toNat
      (((Process.spawnsOn w P display c i (Process.start c) as).filter fun x => x.1 = ip).map
        fun x => (x.2, 1)) := by
  have h₀ := Process.tracks_start hr
  obtain ⟨t', hrun, -⟩ := Process.exec_onRule hr h₀ he
  have hrl : (RuleServer.start r .zero).rateLimiter = RateLimiter.new cfg := by
    simp [RuleServer.start, hcfg]
  -- the rule's accepts, in the order of the process's clock
  have hsub := @Process.acceptTime_onRule_sublist w P display c i (Process.start c) as
  have h := RateLimiter.acceptedTimes_conform cfg hen
    ((hclock.sublist hsub).sublist ((Listener.ofRule P display r).admitted_sublist _)) ip
  rw [RateLimiter.acceptedTimes, List.map_map] at h
  rw [Process.spawnsOn_eq hr h₀ he, RuleServer.spawns_eq_accepted hrun, hrl]
  exact h

/-- `ruleA` and `ruleB`, of the one name `"r"`, each limited to one connection a
second with a burst of one. -/
def twoLimited : MainConfig := ⟨[rateLimitedRule, { ruleB with rateLimit := some ⟨true, 1, 1⟩ }]⟩

/-- A client connects to the first rule, to the second, and to the first again,
all at once. -/
def threeAccepts : List MainAction :=
  [.rule 0 (.accept (.v4 ⟨1, 2, 3, 4⟩) 0), .rule 1 (.accept (.v4 ⟨1, 2, 3, 4⟩) 0),
    .rule 0 (.accept (.v4 ⟨1, 2, 3, 4⟩) 0)]

/-- Each of the two rules of `twoLimited` hands one connection to a task, for
each has its own rate limiter, and the first refuses its second. -/
theorem mainProcess_spawns_conform_same_name :
    ∃ p', Machine.exec (mainProcess 64 .rejectAll (fun _ => "") twoLimited).step
        (Process.start twoLimited) threeAccepts = some p' ∧
      Process.spawnsOn 64 .rejectAll (fun _ => "") twoLimited 0 (Process.start twoLimited)
          threeAccepts = [(.v4 ⟨1, 2, 3, 4⟩, 0)] ∧
      Process.spawnsOn 64 .rejectAll (fun _ => "") twoLimited 1 (Process.start twoLimited)
          threeAccepts = [(.v4 ⟨1, 2, 3, 4⟩, 0)] ∧
      Conforms ((max (1 : UInt32) 1).toNat : ℚ) (max (1 : UInt32) 1).toNat
        (((Process.spawnsOn 64 .rejectAll (fun _ => "") twoLimited 0 (Process.start twoLimited)
          threeAccepts).filter fun x => x.1 = .v4 ⟨1, 2, 3, 4⟩).map fun x => (x.2, 1)) := by
  obtain ⟨p', he⟩ := Option.isSome_iff_exists.1 (show (Machine.exec
      (mainProcess 64 .rejectAll (fun _ => "") twoLimited).step
      (Process.start twoLimited) threeAccepts).isSome by decide)
  have hclock : (threeAccepts.filterMap MainAction.acceptTime).Pairwise (· ≤ ·) := by
    decide
  exact ⟨p', he, by decide +kernel, by decide +kernel,
    @mainProcess_spawns_conform 64 _ _ _ 0 _ rfl ⟨true, 1, 1⟩ rfl rfl _ _ he hclock _⟩

end Layer4Lb
