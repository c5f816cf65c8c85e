import Layer4Lb.Server.Acceptor

/-!
# What a rule's server conserves

Over every interleaving of a rule's acceptors, connection tasks, health reports
and reloads (`RuleServer.Inv`):

* the live guards of the load balancer are exactly the guards its tasks hold, up
  to order: no guard is lost and none is left behind by a task that ended;
* the rule's metrics agree with the tasks inside `proxy_connection`
  (`ProxyMetrics.Agree`), which do not include the tasks still in their TLS
  handshake, though those already hold a backend;
* no task serves a client the access control list refuses;
* every limiter of the bandwidth manager keeps the shape
  `get_or_create_limiter` gives it (`BandwidthManager.AllFit`);
* the load balancer keeps the invariant of `Balancer.Counters`.

Each step of the server moves its load balancer by at most one step of the
balancer's machine (`step_world`), and that is how the last point follows.
`select` takes `next_backend` as one step, so these are the runs in which no two
calls of it overlap; `Balancer.Concurrent` and `Balancer.Overshoot` split it.
-/

open scoped List

namespace Layer4Lb

/-- A call on a limiter keeps the shape of every limiter. -/
theorem BandwidthManager.AllFit.call {Ip : Type} {m : BandwidthManager Ip} (h : m.AllFit) (i : Nat)
    (a : SimpleLimiter.Attempt) : (m.call i a).AllFit := by
  intro l hl
  obtain ⟨j, hj, rfl⟩ := List.mem_iff_getElem.1 hl
  have hj' : j < m.limiters.length := by simpa [BandwidthManager.call] using hj
  simp only [BandwidthManager.call, List.getElem_modify]
  split
  · rw [SimpleLimiter.perform_snd]
    exact (h _ (List.getElem_mem hj')).tryTake _ _
  · exact h _ (List.getElem_mem hj')

namespace RuleServer

variable {w : Nat} {L : Listener} {s s' : RuleServer}

/-! ## One lemma per step -/

/-- An acceptor leaves the load balancer, the bandwidth manager and the metrics
alone, and spawns a task only for a client the access control list admits. -/
theorem accept_spec (s : RuleServer) (ip : IpAddr) (now : ℚ) :
    (s.accept L ip now).world = s.world ∧ (s.accept L ip now).bandwidth = s.bandwidth ∧
      (s.accept L ip now).metrics = s.metrics ∧
      ((s.accept L ip now).tasks = s.tasks ∨
        L.acl.isAllowed L.contains ip = true ∧ (s.accept L ip now).tasks = s.tasks ++ [⟨ip, .spawned⟩]) := by
  unfold accept
  split
  · exact ⟨rfl, rfl, rfl, .inl rfl⟩
  · rename_i hacl
    dsimp only
    split
    · exact ⟨rfl, rfl, rfl, .inl rfl⟩
    · exact ⟨rfl, rfl, rfl, .inr ⟨by simpa using hacl, rfl⟩⟩

/-- The inversion of a selection: a spawned task, the step `next_backend` makes,
and then the end of the task without a backend, or its guard and limiters in
the handshake (with TLS) or inside `proxy_connection` (without). -/
theorem select_spec {t : Nat} {now : ℚ} (h : s.select w L t now = some s') :
    ∃ ip, s.tasks[t]? = some ⟨ip, .spawned⟩ ∧ ∃ r, s.world.nextBackend w = some r ∧
      s'.world = r.2 ∧
      ((r.1 = none ∧ s'.bandwidth = s.bandwidth ∧ s'.metrics = s.metrics ∧
          s'.tasks = s.tasks.eraseIdx t) ∨
        ∃ a g, r.1 = some (a, g) ∧ s'.bandwidth = (L.connectionLimiters s.bandwidth ip now).2 ∧
          (L.tls = true ∧ s'.metrics = s.metrics ∧
              s'.tasks = s.tasks.set t ⟨ip, .handshake g (L.connectionLimiters s.bandwidth ip now).1⟩ ∨
            L.tls = false ∧ s'.metrics = s.metrics.start L.ruleName ∧
              s'.tasks = s.tasks.set t ⟨ip, .proxying g (L.connectionLimiters s.bandwidth ip now).1⟩)) := by
  unfold select at h
  split at h
  · rename_i ip hip
    obtain ⟨⟨r₁, r₂⟩, hr, rfl⟩ := Option.map_eq_some_iff.1 h
    refine ⟨ip, hip, _, hr, ?_⟩
    rcases r₁ with _ | ⟨a, g⟩
    · exact ⟨rfl, .inl ⟨rfl, rfl, rfl, rfl⟩⟩
    · cases htls : L.tls
      · exact ⟨rfl, .inr ⟨a, g, rfl, rfl, .inr ⟨rfl, rfl, rfl⟩⟩⟩
      · exact ⟨rfl, .inr ⟨a, g, rfl, rfl, .inl ⟨rfl, rfl, rfl⟩⟩⟩
  · cases h

/-- The inversion of the end of a handshake. -/
theorem handshake_spec {t : Nat} {ok : Bool} (h : s.handshake L t ok = some s') :
    ∃ ip g ls, s.tasks[t]? = some ⟨ip, .handshake g ls⟩ ∧ s'.world = s.world ∧
      s'.bandwidth = s.bandwidth ∧
      (ok = true ∧ s'.metrics = s.metrics.start L.ruleName ∧
          s'.tasks = s.tasks.set t ⟨ip, .proxying g ls⟩ ∨
        ok = false ∧ s'.metrics = s.metrics ∧ s'.tasks = s.tasks.set t ⟨ip, .closing g⟩) := by
  unfold handshake at h
  split at h
  · rename_i ip g ls hip
    refine ⟨ip, g, ls, hip, ?_⟩
    cases ok
    · obtain rfl := Option.some.inj h
      exact ⟨rfl, rfl, .inr ⟨rfl, rfl, rfl⟩⟩
    · obtain rfl := Option.some.inj h
      exact ⟨rfl, rfl, .inl ⟨rfl, rfl, rfl⟩⟩
  · cases h

/-- The inversion of a limiter call. -/
theorem pace_spec {t : Nat} {side : StreamSide} {a : SimpleLimiter.Attempt}
    (h : s.pace t side a = some s') :
    ∃ ip g ls i, s.tasks[t]? = some ⟨ip, .proxying g ls⟩ ∧ ls.get side = some i ∧
      s' = { s with bandwidth := s.bandwidth.call i a } := by
  unfold pace at h
  split at h
  · rename_i ip g ls hip
    obtain ⟨i, hi, rfl⟩ := Option.map_eq_some_iff.1 h
    exact ⟨ip, g, ls, i, hip, hi, rfl⟩
  · cases h

/-- The inversion of the return of `proxy_connection`. -/
theorem finish_spec {t : Nat} {o : ProxyOutcome} (h : s.finish L t o = some s') :
    ∃ ip g ls, s.tasks[t]? = some ⟨ip, .proxying g ls⟩ ∧
      s' = { s with metrics := s.metrics.finish L.ruleName o
                    tasks := s.tasks.set t ⟨ip, .closing g⟩ } := by
  unfold finish at h
  split at h
  · rename_i ip g ls hip
    exact ⟨ip, g, ls, hip, (Option.some.inj h).symm⟩
  · cases h

/-- The inversion of the end of a task. -/
theorem close_spec {t : Nat} (h : s.close w t = some s') :
    ∃ ip g, s.tasks[t]? = some ⟨ip, .closing g⟩ ∧
      s' = { s with world := g.drop w { s.world with guards := s.world.guards.erase g }
                    tasks := s.tasks.eraseIdx t } := by
  unfold close at h
  split at h
  · rename_i ip g hip
    exact ⟨ip, g, hip, (Option.some.inj h).symm⟩
  · cases h

/-- What a step does to the rule's metrics and to the number of its tasks inside
`proxy_connection`: nothing, a task entering it with the increments of its
start, or a task leaving it with its return. -/
theorem step_metrics {a : ServerAction} (h : s.step w L a = some s') :
    s'.metrics = s.metrics ∧
        (s'.tasks.filterMap ConnTask.proxyGuard).length = (s.tasks.filterMap ConnTask.proxyGuard).length ∨
      s'.metrics = s.metrics.start L.ruleName ∧
        (s'.tasks.filterMap ConnTask.proxyGuard).length =
          (s.tasks.filterMap ConnTask.proxyGuard).length + 1 ∨
      ∃ o, s'.metrics = s.metrics.finish L.ruleName o ∧
        (s'.tasks.filterMap ConnTask.proxyGuard).length + 1 =
          (s.tasks.filterMap ConnTask.proxyGuard).length := by
  cases a with
  | accept ip now =>
    cases h
    obtain ⟨-, -, hm, ht⟩ := accept_spec (L := L) s ip now
    refine .inl ⟨hm, ?_⟩
    rcases ht with ht | ⟨-, ht⟩
    · rw [ht]
    · rw [ht, List.filterMap_append, List.filterMap_cons_none (ConnTask.proxyGuard_spawned ip),
        List.filterMap_nil, List.append_nil]
  | select t now =>
    obtain ⟨ip, ht, r, -, -, hcase⟩ := select_spec h
    rcases hcase with ⟨-, -, hm, hts⟩ | ⟨a, g, -, -, ⟨-, hm, hts⟩ | ⟨-, hm, hts⟩⟩
    · -- the task ends without a backend
      exact .inl ⟨hm, by rw [hts, (Holders.eraseIdx_of_none ConnTask.proxyGuard ht rfl).length_eq]⟩
    · -- the task enters its TLS handshake
      exact .inl ⟨hm, by rw [hts, (Holders.perm_set_keep ConnTask.proxyGuard ht ⟨ip, .handshake g _⟩ rfl).length_eq]⟩
    · -- the task calls `proxy_connection`
      refine .inr (.inl ⟨hm, ?_⟩)
      rw [hts, (Holders.perm_set_acquire ConnTask.proxyGuard ht rfl _ rfl).length_eq, List.length_append]
      rfl
  | handshake t ok =>
    obtain ⟨ip, g, ls, ht, -, -, ⟨-, hm, hts⟩ | ⟨-, hm, hts⟩⟩ := handshake_spec h
    · refine .inr (.inl ⟨hm, ?_⟩)
      rw [hts, (Holders.perm_set_acquire ConnTask.proxyGuard ht rfl _ rfl).length_eq, List.length_append]
      rfl
    · exact .inl ⟨hm, by rw [hts, (Holders.perm_set_keep ConnTask.proxyGuard ht ⟨ip, .closing g⟩ rfl).length_eq]⟩
  | pace t side a =>
    obtain ⟨-, -, -, -, -, -, rfl⟩ := pace_spec h
    exact .inl ⟨rfl, rfl⟩
  | finish t o =>
    obtain ⟨ip, g, ls, ht, rfl⟩ := finish_spec h
    refine .inr (.inr ⟨o, rfl, ?_⟩)
    have hlen := (Holders.perm_set_release ConnTask.proxyGuard ht rfl ⟨ip, .closing g⟩ rfl).length_eq
    rwa [List.length_append, List.length_singleton] at hlen
  | close t =>
    obtain ⟨ip, g, ht, rfl⟩ := close_spec h
    exact .inl ⟨rfl, (Holders.eraseIdx_of_none ConnTask.proxyGuard ht rfl).length_eq⟩
  | report addr healthy =>
    cases h
    exact .inl ⟨rfl, rfl⟩
  | reload configs =>
    cases h
    exact .inl ⟨rfl, rfl⟩

/-! ## The load balancer moves by the balancer's steps -/

/-- A guard a task holds is a live guard. -/
theorem mem_guards_of_task (hg : s.world.guards ~ s.tasks.filterMap ConnTask.guard) {t : Nat}
    {task : ConnTask} (ht : s.tasks[t]? = some task) {g : ConnectionGuard}
    (hguard : task.guard = some g) : g ∈ s.world.guards :=
  hg.symm.subset (List.mem_filterMap.2 ⟨task, List.mem_of_getElem? ht, hguard⟩)

/-- Each step of a rule's server moves its load balancer by a run of the
balancer's machine of at most one step: a selection by `next_backend`, the end
of a task by the drop of the guard it holds, a health report and a reload by
themselves; the other steps leave it. -/
theorem step_world (hg : s.world.guards ~ s.tasks.filterMap ConnTask.guard) {a : ServerAction}
    (h : s.step w L a = some s') : ∃ bs, Machine.exec (World.step w) s.world bs = some s'.world := by
  cases a with
  | accept ip now =>
    cases h
    exact ⟨[], by rw [(accept_spec s ip now).1]; rfl⟩
  | select t now =>
    obtain ⟨-, -, r, hr, hw, -⟩ := select_spec h
    refine ⟨[.nextBackend], ?_⟩
    simp [World.step, hr, hw]
  | handshake t ok =>
    obtain ⟨-, -, -, -, hw, -⟩ := handshake_spec h
    exact ⟨[], by rw [hw]; rfl⟩
  | pace t side a =>
    obtain ⟨-, -, -, -, -, -, rfl⟩ := pace_spec h
    exact ⟨[], rfl⟩
  | finish t o =>
    obtain ⟨-, -, -, -, rfl⟩ := finish_spec h
    exact ⟨[], rfl⟩
  | close t =>
    obtain ⟨ip, g, ht, rfl⟩ := close_spec h
    have hmem := mem_guards_of_task hg ht (ConnTask.guard_closing ip g)
    -- the drop of the balancer at the first live guard equal to the task's
    refine ⟨[.dropGuard (s.world.guards.idxOf g)], ?_⟩
    simp [World.step, World.dropGuard, List.getElem?_idxOf hmem, List.erase_eq_eraseIdx]
  | report addr healthy =>
    cases h
    exact ⟨[.setBackendHealth addr healthy], rfl⟩
  | reload configs =>
    cases h
    exact ⟨[.updateBackends configs], rfl⟩

/-! ## The invariant -/

/-- What a rule's tasks hold, and what the metrics and the limiters say of them. -/
structure TasksInv (L : Listener) (s : RuleServer) : Prop where
  guards : s.world.guards ~ s.tasks.filterMap ConnTask.guard
  metrics : s.metrics.Agree L.ruleName (s.tasks.filterMap ConnTask.proxyGuard).length
  admitted : ∀ t ∈ s.tasks, L.acl.isAllowed L.contains t.clientIp = true
  fit : s.bandwidth.AllFit

/-- A task that changes keeps its client. -/
theorem admitted_set {l : List ConnTask} {t : Nat} {task : ConnTask} (ht : l[t]? = some task)
    (h : ∀ x ∈ l, L.acl.isAllowed L.contains x.clientIp = true) (phase : TaskPhase) :
    ∀ x ∈ l.set t ⟨task.clientIp, phase⟩, L.acl.isAllowed L.contains x.clientIp = true := by
  intro x hx
  rcases List.mem_or_eq_of_mem_set hx with hx | rfl
  · exact h x hx
  · exact h task (List.mem_of_getElem? ht)

/-- A task that ends takes nothing from the others. -/
theorem admitted_eraseIdx {l : List ConnTask} (h : ∀ x ∈ l, L.acl.isAllowed L.contains x.clientIp = true)
    (t : Nat) : ∀ x ∈ l.eraseIdx t, L.acl.isAllowed L.contains x.clientIp = true :=
  fun x hx => h x (List.mem_of_mem_eraseIdx hx)

theorem TasksInv.accept (hi : TasksInv L s) (ip : IpAddr) (now : ℚ) :
    TasksInv L (s.accept L ip now) := by
  obtain ⟨hw, hb, hm, ht⟩ := accept_spec (L := L) s ip now
  rcases ht with ht | ⟨hacl, ht⟩
  · exact ⟨hw ▸ ht ▸ hi.guards, hm ▸ ht ▸ hi.metrics, ht ▸ hi.admitted, hb ▸ hi.fit⟩
  · -- a spawned task holds nothing yet
    refine ⟨?_, ?_, ?_, hb ▸ hi.fit⟩
    · rw [hw, ht, List.filterMap_append, List.filterMap_cons_none (ConnTask.guard_spawned ip),
        List.filterMap_nil, List.append_nil]
      exact hi.guards
    · rw [hm, ht, List.filterMap_append, List.filterMap_cons_none (ConnTask.proxyGuard_spawned ip),
        List.filterMap_nil, List.append_nil]
      exact hi.metrics
    · rw [ht]
      intro x hx
      rcases List.mem_append.1 hx with hx | hx
      · exact hi.admitted x hx
      · rw [List.mem_singleton.1 hx]; exact hacl

theorem TasksInv.select (hi : TasksInv L s) {t : Nat} {now : ℚ}
    (h : s.select w L t now = some s') : TasksInv L s' := by
  obtain ⟨ip, ht, r, hr, hw, hcase⟩ := select_spec h
  have hg := World.nextBackend_guards hr
  rcases hcase with ⟨hnone, hb, hm, hts⟩ | ⟨a, g, hsome, hb, hcase⟩
  · -- no backend: the task ends, holding nothing
    rw [hnone] at hg
    refine ⟨?_, ?_, ?_, hb ▸ hi.fit⟩
    · rw [hw, hg, hts, Option.map_none, Option.toList_none, List.append_nil]
      exact hi.guards.trans (Holders.eraseIdx_of_none _ ht rfl).symm
    · rw [hm, hts, (Holders.eraseIdx_of_none _ ht rfl).length_eq]
      exact hi.metrics
    · rw [hts]
      exact admitted_eraseIdx hi.admitted t
  · -- a backend: the guard `next_backend` adds is the one the task now holds
    rw [hsome] at hg
    have hfit : s'.bandwidth.AllFit := by
      rw [hb]
      unfold Listener.connectionLimiters
      let _ : ToString IpAddr := ⟨L.display⟩
      exact hi.fit.connectionLimiters now ip
    have hguards : ∀ phase, ConnTask.guard ⟨ip, phase⟩ = some g →
        s'.world.guards ~ (s.tasks.set t ⟨ip, phase⟩).filterMap ConnTask.guard := fun phase hp => by
      rw [hw, hg]
      exact (hi.guards.append_right _).trans
        (Holders.perm_set_acquire ConnTask.guard ht rfl _ hp).symm
    rcases hcase with ⟨-, hm, hts⟩ | ⟨-, hm, hts⟩
    · refine ⟨hts ▸ hguards _ rfl, ?_, hts ▸ admitted_set ht hi.admitted _, hfit⟩
      rw [hm, hts, (Holders.perm_set_keep ConnTask.proxyGuard ht ⟨ip, .handshake g _⟩ rfl).length_eq]
      exact hi.metrics
    · refine ⟨hts ▸ hguards _ rfl, ?_, hts ▸ admitted_set ht hi.admitted _, hfit⟩
      rw [hm, hts, (Holders.perm_set_acquire ConnTask.proxyGuard ht rfl _ rfl).length_eq,
        List.length_append]
      exact hi.metrics.start

theorem TasksInv.handshake (hi : TasksInv L s) {t : Nat} {ok : Bool}
    (h : s.handshake L t ok = some s') : TasksInv L s' := by
  obtain ⟨ip, g, ls, ht, hw, hb, hcase⟩ := handshake_spec h
  -- the task keeps its guard either way
  have hguards : ∀ phase, ConnTask.guard ⟨ip, phase⟩ = some g →
      s'.world.guards ~ (s.tasks.set t ⟨ip, phase⟩).filterMap ConnTask.guard := fun phase hp => by
    rw [hw]
    exact hi.guards.trans (Holders.perm_set_keep ConnTask.guard ht _ hp).symm
  rcases hcase with ⟨-, hm, hts⟩ | ⟨-, hm, hts⟩
  · refine ⟨hts ▸ hguards _ rfl, ?_, hts ▸ admitted_set ht hi.admitted _, hb ▸ hi.fit⟩
    rw [hm, hts, (Holders.perm_set_acquire ConnTask.proxyGuard ht rfl _ rfl).length_eq,
      List.length_append]
    exact hi.metrics.start
  · refine ⟨hts ▸ hguards _ rfl, ?_, hts ▸ admitted_set ht hi.admitted _, hb ▸ hi.fit⟩
    rw [hm, hts, (Holders.perm_set_keep ConnTask.proxyGuard ht ⟨ip, .closing g⟩ rfl).length_eq]
    exact hi.metrics

theorem TasksInv.pace (hi : TasksInv L s) {t : Nat} {side : StreamSide}
    {a : SimpleLimiter.Attempt} (h : s.pace t side a = some s') : TasksInv L s' := by
  obtain ⟨-, -, -, i, -, -, rfl⟩ := pace_spec h
  exact ⟨hi.guards, hi.metrics, hi.admitted, hi.fit.call i a⟩

theorem TasksInv.finish (hi : TasksInv L s) {t : Nat} {o : ProxyOutcome}
    (h : s.finish L t o = some s') : TasksInv L s' := by
  obtain ⟨ip, g, ls, ht, rfl⟩ := finish_spec h
  refine ⟨hi.guards.trans (Holders.perm_set_keep ConnTask.guard ht ⟨ip, .closing g⟩ rfl).symm, ?_,
    admitted_set ht hi.admitted _, hi.fit⟩
  -- the task leaves `proxy_connection` with its guard
  have hlen := (Holders.perm_set_release ConnTask.proxyGuard ht rfl ⟨ip, .closing g⟩ rfl).length_eq
  rw [List.length_append, List.length_singleton] at hlen
  have hm := hi.metrics
  rw [← hlen] at hm
  exact hm.finish o

theorem TasksInv.close (hi : TasksInv L s) {t : Nat} (h : s.close w t = some s') :
    TasksInv L s' := by
  obtain ⟨ip, g, ht, rfl⟩ := close_spec h
  refine ⟨?_, ?_, admitted_eraseIdx hi.admitted t, hi.fit⟩
  · -- the drop takes from the live guards the one the task leaves with
    have hleave := Holders.perm_eraseIdx_some ConnTask.guard ht (ConnTask.guard_closing ip g)
    show s.world.guards.erase g ~ (s.tasks.eraseIdx t).filterMap ConnTask.guard
    calc s.world.guards.erase g ~ (s.tasks.filterMap ConnTask.guard).erase g := hi.guards.erase g
      _ ~ ((s.tasks.eraseIdx t).filterMap ConnTask.guard ++ [g]).erase g := (hleave.erase g).symm
      _ ~ (g :: (s.tasks.eraseIdx t).filterMap ConnTask.guard).erase g :=
        (List.perm_append_singleton _ _).erase g
      _ = (s.tasks.eraseIdx t).filterMap ConnTask.guard := List.erase_cons_head _ _
  · show (s.metrics).Agree L.ruleName ((s.tasks.eraseIdx t).filterMap ConnTask.proxyGuard).length
    rw [(Holders.eraseIdx_of_none _ ht rfl).length_eq]
    exact hi.metrics

theorem TasksInv.report (hi : TasksInv L s) (addr : String) (healthy : Bool) :
    TasksInv L { s with world := s.world.setBackendHealth addr healthy } :=
  ⟨(World.extends_setBackendHealth s.world addr healthy).guards_eq ▸ hi.guards, hi.metrics,
    hi.admitted, hi.fit⟩

theorem TasksInv.reload (hi : TasksInv L s) (hb : ∀ o ∈ s.world.lb.backends, o < s.world.allocated)
    (configs : List BackendConfig) : TasksInv L { s with world := s.world.updateBackends configs } :=
  ⟨(World.extends_updateBackends s.world configs hb).1.guards_eq ▸ hi.guards, hi.metrics,
    hi.admitted, hi.fit⟩

variable (w L) in
/-- The invariant of a rule's server: what its tasks hold, with the invariant of
its load balancer. -/
structure Inv (s : RuleServer) : Prop extends TasksInv L s where
  world : World.Inv w s.world

/-- Every step keeps the invariant. -/
theorem Inv.step (hi : Inv w L s) {a : ServerAction} (h : s.step w L a = some s') : Inv w L s' := by
  -- the load balancer moves by steps of its own machine, which keep its invariant
  have hworld : World.Inv w s'.world := by
    obtain ⟨bs, hbs⟩ := step_world hi.guards h
    exact Machine.exec_preserves (fun _ _ _ hp hs => World.Inv.step hp hs) hi.world hbs
  refine ⟨?_, hworld⟩
  cases a with
  | accept ip now =>
    cases h
    exact hi.toTasksInv.accept ip now
  | select t now => exact hi.toTasksInv.select h
  | handshake t ok => exact hi.toTasksInv.handshake h
  | pace t side a => exact hi.toTasksInv.pace h
  | finish t o => exact hi.toTasksInv.finish h
  | close t => exact hi.toTasksInv.close h
  | report addr healthy =>
    cases h
    exact hi.toTasksInv.report addr healthy
  | reload configs =>
    cases h
    exact hi.toTasksInv.reload hi.world.backend_lt configs

/-- The state `main` starts a rule from. -/
theorem Inv.start (P : IpParsers) (display : IpAddr → String) (r : RuleConfig) (m : Metrics) :
    Inv w (Listener.ofRule P display r) (start r m) where
  guards := by
    -- `LoadBalancer::new` allocates objects and no guard
    have hg := (World.allocAll_spec r.name r.backends
      ⟨⟨r.name, [], 0, r.backendConnectionLimit⟩, fun _ => default, 0, [], m⟩).1.guards_eq
    show (World.allocAll r.name _ r.backends).2.guards ~ []
    rw [hg]
  metrics := ProxyMetrics.agree_zero _
  admitted := fun _ h => by cases h
  fit := BandwidthManager.allFit_new _
  world := World.Inv.new r.name r.backends r.backendConnectionLimit m

theorem Inv.of_reachable {P : IpParsers} {display : IpAddr → String} {r : RuleConfig}
    (h : (ruleServer w P display r).Reachable s) : Inv w (Listener.ofRule P display r) s :=
  h.rec_inv (fun _ ⟨m, hs⟩ => hs ▸ Inv.start P display r m) fun _ _ _ hi hs => hi.step hs

end RuleServer

/-! ## Over every run of a rule -/

/-- A rule's load balancer, its tasks and its metrics stay in step.  In every
state that any interleaving of the acceptors, the connection tasks, the calls
of their streams on their limiters, health reports and reloads reaches from
the state `main` starts the rule in: the live guards of the load balancer are
exactly the guards the tasks hold; each object's `active_connections` is the
number of tasks holding a guard on it, so that every counter is back at zero,
and `ACTIVE_CONNECTIONS` too, once no task is left; `ACTIVE_CONNECTIONS` is the
number of tasks inside `proxy_connection`, and `TOTAL_CONNECTIONS` at least
that plus the copies the duration histogram observed; the traffic counters
agree in pairs; every task's client is one the access control list admits; and
every limiter of the bandwidth manager keeps its bucket invariant, a burst of
65536 and a rate of at least 1024. -/
theorem ruleServer_conserves {w : Nat} {P : IpParsers} {display : IpAddr → String}
    {r : RuleConfig} {s : RuleServer} (h : (ruleServer w P display r).Reachable s) :
    s.world.guards.Perm (s.tasks.filterMap ConnTask.guard) ∧
      (∀ o < s.world.allocated, (s.world.objects o).activeConnections =
        (s.tasks.filterMap ConnTask.guard).countP fun g => g.counter = o) ∧
      (s.tasks = [] → (∀ o < s.world.allocated, (s.world.objects o).activeConnections = 0) ∧
        s.metrics.activeConnections r.name = 0) ∧
      s.metrics.activeConnections r.name = (s.tasks.filterMap ConnTask.proxyGuard).length ∧
      (s.tasks.filterMap ConnTask.proxyGuard).length + (s.metrics.connectionDuration r.name).length ≤
        s.metrics.totalConnections r.name ∧
      s.metrics.trafficBytes (r.name, "client_in") = s.metrics.trafficBytes (r.name, "backend_out") ∧
      s.metrics.trafficBytes (r.name, "backend_in") = s.metrics.trafficBytes (r.name, "client_out") ∧
      (∀ t ∈ s.tasks, (AccessControl.new P r.allowList r.denyList).isAllowed P.contains t.clientIp = true) ∧
      ∀ l ∈ s.bandwidth.limiters,
        l.Inv ∧ l.burstSize.toNat = 65536 ∧ 1024 ≤ l.ratePerSec.toNat := by
  have hi := RuleServer.Inv.of_reachable h
  -- a counter counts the live guards on its object, and those are the tasks'
  have hcount : ∀ o < s.world.allocated, (s.world.objects o).activeConnections =
      (s.tasks.filterMap ConnTask.guard).countP fun g => g.counter = o := fun o ho => by
    rw [hi.world.active_eq o ho, World.guardsOn]
    exact hi.guards.countP_eq _
  refine ⟨hi.guards, hcount, fun hnil => ⟨fun o ho => ?_, ?_⟩, hi.metrics.active, hi.metrics.total,
    hi.metrics.clientTraffic, hi.metrics.backendTraffic, hi.admitted, fun l hl => ?_⟩
  · rw [hcount o ho, hnil]
    rfl
  · exact hi.metrics.active.trans (by rw [hnil]; rfl)
  · obtain ⟨hinv, hburst, hrate⟩ := hi.fit l hl
    exact ⟨hinv, hburst, hrate⟩

/-- The rule `"r"` on port 8080 with the one backend `a`. -/
def ruleA : RuleConfig := .plain "r" "0.0.0.0:8080" [.simple "a"]

/-- `ruleA` with a limit of one connection per backend. -/
def limitedRule : RuleConfig := { ruleA with backendConnectionLimit := some 1 }

/-- A connection from `1.2.3.4` goes to `a`; a reload adds `b`; a connection from
`5.6.7.8` goes to `b`; a health report on `b`; the first connection's copy
returns and its task ends. -/
def servedRun : List ServerAction :=
  [.accept (.v4 ⟨1, 2, 3, 4⟩) 0, .select 0 0, .reload [.simple "a", .simple "b"],
    .accept (.v4 ⟨5, 6, 7, 8⟩) 1, .select 1 1, .report "b" true, .finish 0 (.ok 10 20 1), .close 0]

/-- The state `servedRun` leaves: one task inside `proxy_connection`. -/
def served : RuleServer :=
  (Machine.exec (ruleServer 64 .rejectAll (fun _ => "") limitedRule).step
    (RuleServer.start limitedRule .zero) servedRun).getD (RuleServer.start limitedRule .zero)

theorem reachable_served :
    (ruleServer 64 .rejectAll (fun _ => "") limitedRule).Reachable served := by
  exact .of_exec ⟨.zero, rfl⟩ (Machine.exec_eq_some_getD _ (by decide))

theorem ruleServer_conserves_served :
    (ruleServer 64 .rejectAll (fun _ => "") limitedRule).Reachable served ∧
      (served.world.guards.Perm (served.tasks.filterMap ConnTask.guard) ∧
        (∀ o < served.world.allocated, (served.world.objects o).activeConnections =
          (served.tasks.filterMap ConnTask.guard).countP fun g => g.counter = o) ∧
        (served.tasks = [] → (∀ o < served.world.allocated, (served.world.objects o).activeConnections = 0) ∧
          served.metrics.activeConnections limitedRule.name = 0) ∧
        served.metrics.activeConnections limitedRule.name =
          (served.tasks.filterMap ConnTask.proxyGuard).length ∧
        (served.tasks.filterMap ConnTask.proxyGuard).length +
            (served.metrics.connectionDuration limitedRule.name).length ≤
          served.metrics.totalConnections limitedRule.name ∧
        served.metrics.trafficBytes (limitedRule.name, "client_in") =
          served.metrics.trafficBytes (limitedRule.name, "backend_out") ∧
        served.metrics.trafficBytes (limitedRule.name, "backend_in") =
          served.metrics.trafficBytes (limitedRule.name, "client_out") ∧
        (∀ t ∈ served.tasks, (AccessControl.new .rejectAll limitedRule.allowList
          limitedRule.denyList).isAllowed IpParsers.rejectAll.contains t.clientIp = true) ∧
        ∀ l ∈ served.bandwidth.limiters,
          l.Inv ∧ l.burstSize.toNat = 65536 ∧ 1024 ≤ l.ratePerSec.toNat) ∧
      served.tasks.length = 1 ∧ served.world.guards.length = 1 := by
  exact ⟨reachable_served, ruleServer_conserves reachable_served, by decide, by decide⟩

end Layer4Lb
