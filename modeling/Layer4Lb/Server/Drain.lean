import Layer4Lb.Server.Conservation

/-!
# Every connection can end

From any state a rule's server reaches, the connections in flight can all end by
the steps of their own tasks: a task in its TLS handshake fails it, a task inside
`proxy_connection` returns with an error, a task that has not called
`next_backend` yet calls it, and every task then ends and drops its
`ConnectionGuard`.  Once the last one is gone, every backend's
`active_connections` and the rule's `ACTIVE_CONNECTIONS` are back at zero: no
guard and no count is left behind whatever the interleaving was.

The only step that could block is `next_backend` itself, which aborts when the
counter it clones already has `isize::MAX` clones.  Ending first the tasks that
hold a guard leaves no clone at all, so that needs a `usize` of two bits at
least.
-/

namespace Layer4Lb

/-- The steps by which the tasks in flight end, with no new connection, report
or reload: a call of `next_backend`, a failed handshake, an error of the copy,
the end of a task. -/
def ServerAction.ends : ServerAction → Bool
  | .select _ _ => true
  | .handshake _ ok => !ok
  | .finish _ o => o == .err
  | .close _ => true
  | _ => false

namespace RuleServer

variable {w : Nat} {L : Listener} {s : RuleServer}

/-! ## One task ends -/

theorem one_le_isizeMax (hw : 2 ≤ w) : 1 ≤ isizeMax w := by
  have : 2 ^ 1 ≤ 2 ^ (w - 1) := Nat.pow_le_pow_right (by norm_num) (by omega)
  unfold isizeMax
  omega

/-- A task in `closing` ends with the drop of its guard. -/
theorem exec_close {k : Nat} {ip : IpAddr} {g : ConnectionGuard}
    (hk : s.tasks[k]? = some ⟨ip, .closing g⟩) :
    Machine.exec (step w L) s [.close k] =
      some { s with world := g.drop w { s.world with guards := s.world.guards.erase g }
                    tasks := s.tasks.eraseIdx k } := by
  simp [step, close, hk]

/-- An ending step that leaves task `k` closing, then the end of the task. -/
theorem exists_exec_close_after {a : ServerAction} (ha : a.ends = true) {s₁ : RuleServer}
    (h : s.step w L a = some s₁) {k : Nat} (hk : k < s.tasks.length) {ip : IpAddr}
    {g : ConnectionGuard} (ht : s₁.tasks = s.tasks.set k ⟨ip, .closing g⟩) :
    ∃ as s', (∀ a ∈ as, a.ends = true) ∧ Machine.exec (step w L) s as = some s' ∧
      s'.tasks = s.tasks.eraseIdx k := by
  have hk₁ : s₁.tasks[k]? = some ⟨ip, .closing g⟩ := by
    rw [ht]
    exact List.getElem?_set_self hk
  refine ⟨[a, .close k], _, ?_, by rw [Machine.exec_cons, h, Option.bind_some]; exact exec_close hk₁, ?_⟩
  · intro b hb
    rcases List.mem_cons.1 hb with rfl | hb
    · exact ha
    · rw [List.mem_singleton.1 hb]
      rfl
  · show s₁.tasks.eraseIdx k = _
    rw [ht, List.eraseIdx_set_eq]

/-- A task that holds a guard ends in at most two steps. -/
theorem exists_exec_end_of_guard {k : Nat} {task : ConnTask} (hk : s.tasks[k]? = some task)
    {g : ConnectionGuard} (hg : task.guard = some g) :
    ∃ as s', (∀ a ∈ as, a.ends = true) ∧ Machine.exec (step w L) s as = some s' ∧
      s'.tasks = s.tasks.eraseIdx k := by
  obtain ⟨ip, phase⟩ := task
  have hlt : k < s.tasks.length := (List.getElem?_eq_some_iff.1 hk).1
  cases phase with
  | spawned => cases hg
  | handshake g' ls =>
    have h₁ : s.step w L (.handshake k false) =
        some { s with tasks := s.tasks.set k ⟨ip, .closing g'⟩ } := by
      simp [step, handshake, hk]
    exact exists_exec_close_after rfl h₁ hlt rfl
  | proxying g' ls =>
    have h₁ : s.step w L (.finish k .err) =
        some { s with metrics := s.metrics.finish L.ruleName .err, tasks := s.tasks.set k ⟨ip, .closing g'⟩ } := by
      simp [step, finish, hk]
    exact exists_exec_close_after rfl h₁ hlt rfl
  | closing g' => exact ⟨[.close k], _, by simp [ServerAction.ends], exec_close hk, rfl⟩

/-- With no guard held, a task that has not called `next_backend` calls it and
ends: `next_backend` cannot abort. -/
theorem exists_exec_end_of_spawned (hw : 2 ≤ w) (hg : s.world.guards = []) {k : Nat} {ip : IpAddr}
    (hk : s.tasks[k]? = some ⟨ip, .spawned⟩) :
    ∃ as s', (∀ a ∈ as, a.ends = true) ∧ Machine.exec (step w L) s as = some s' ∧
      s'.tasks = s.tasks.eraseIdx k := by
  have hne : s.world.nextBackend w ≠ none := World.nextBackend_ne_none fun o => by
    simpa [World.guardsOn, hg] using one_le_isizeMax hw
  obtain ⟨r, hr⟩ := Option.ne_none_iff_exists'.1 hne
  obtain ⟨s₁, h₁⟩ : ∃ s₁, s.step w L (.select k 0) = some s₁ := by
    simp [step, select, hk, hr]
  obtain ⟨ip', hk', r', hr', hw', hcase⟩ := select_spec h₁
  rw [hk, Option.some.injEq, ConnTask.mk.injEq] at hk'
  obtain ⟨rfl, -⟩ := hk'
  rw [hr, Option.some.injEq] at hr'
  subst hr'
  rcases hcase with ⟨-, -, -, hts⟩ | ⟨a, g, -, -, hphase⟩
  · -- no backend: the task has ended
    exact ⟨[.select k 0], s₁, by simp [ServerAction.ends], by rw [Machine.exec_cons, h₁]; rfl, hts⟩
  · -- a backend: the task now holds its guard, and ends from there
    have hlt : k < s.tasks.length := (List.getElem?_eq_some_iff.1 hk).1
    obtain ⟨phase, hts, hguard⟩ : ∃ phase, s₁.tasks = s.tasks.set k ⟨ip, phase⟩ ∧
        ConnTask.guard ⟨ip, phase⟩ = some g := by
      rcases hphase with ⟨-, -, hts⟩ | ⟨-, -, hts⟩
      · exact ⟨_, hts, rfl⟩
      · exact ⟨_, hts, rfl⟩
    have hk₁ : s₁.tasks[k]? = some ⟨ip, phase⟩ := by rw [hts]; exact List.getElem?_set_self hlt
    obtain ⟨as, s₂, hends, he, hts₂⟩ := exists_exec_end_of_guard hk₁ hguard
    refine ⟨.select k 0 :: as, s₂, ?_, by rw [Machine.exec_cons, h₁, Option.bind_some]; exact he, ?_⟩
    · intro a ha
      rcases List.mem_cons.1 ha with rfl | ha
      · rfl
      · exact hends a ha
    · rw [hts₂, hts, List.eraseIdx_set_eq]

/-! ## The tasks end one after the other -/

/-- Some task ends: one that holds a guard if there is one, else the first,
which then has not called `next_backend` yet. -/
theorem exists_exec_end (hw : 2 ≤ w) (hi : Inv w L s) (hne : s.tasks ≠ []) :
    ∃ k < s.tasks.length, ∃ as s', (∀ a ∈ as, a.ends = true) ∧
      Machine.exec (step w L) s as = some s' ∧ s'.tasks = s.tasks.eraseIdx k := by
  by_cases hex : ∃ task ∈ s.tasks, task.guard ≠ none
  · obtain ⟨task, hmem, hg⟩ := hex
    obtain ⟨k, hk⟩ := List.mem_iff_getElem?.1 hmem
    obtain ⟨g, hg⟩ := Option.ne_none_iff_exists'.1 hg
    exact ⟨k, (List.getElem?_eq_some_iff.1 hk).1, exists_exec_end_of_guard hk hg⟩
  · push Not at hex
    -- no task holds a guard, so neither does the load balancer
    have hguards : s.world.guards = [] := by
      have hnil : s.tasks.filterMap ConnTask.guard = [] := List.filterMap_eq_nil_iff.2 hex
      exact (hnil ▸ hi.guards).eq_nil
    obtain ⟨⟨ip, phase⟩, rest, hts⟩ := List.exists_cons_of_ne_nil hne
    have hk : s.tasks[0]? = some ⟨ip, phase⟩ := by rw [hts]; rfl
    have hphase : phase = .spawned := by
      have hg := hex _ (hts ▸ List.mem_cons_self)
      cases phase with
      | spawned => rfl
      | _ => simp at hg
    subst hphase
    exact ⟨0, by simp [hts], exists_exec_end_of_spawned hw hguards hk⟩

theorem Inv.exec (hi : Inv w L s) {as : List ServerAction} {s' : RuleServer}
    (he : Machine.exec (RuleServer.step w L) s as = some s') : Inv w L s' :=
  Machine.exec_preserves (fun _ _ _ hp hs => Inv.step hp hs) hi he

/-- All tasks end. -/
theorem exists_exec_drained (hw : 2 ≤ w) (hi : Inv w L s) :
    ∃ as s', (∀ a ∈ as, a.ends = true) ∧ Machine.exec (step w L) s as = some s' ∧
      Inv w L s' ∧ s'.tasks = [] := by
  -- the number of tasks drops with each task that ends
  have hdesc : ∀ s, Inv w L s → 0 < s.tasks.length →
      ∃ as s', (∀ a ∈ as, a.ends = true) ∧ Machine.exec (step w L) s as = some s' ∧
        Inv w L s' ∧ s'.tasks.length < s.tasks.length := by
    intro s hs hpos
    obtain ⟨k, hk, as, s', hends, he, hts⟩ := exists_exec_end hw hs (List.ne_nil_of_length_pos hpos)
    refine ⟨as, s', hends, he, hs.exec he, ?_⟩
    rw [hts, List.length_eraseIdx_of_lt hk]
    omega
  obtain ⟨as, s', hends, he, hi', hlen⟩ :=
    Machine.exists_exec_of_descent (fun a : ServerAction => a.ends = true)
      (Inv w L) (fun s => s.tasks.length) hdesc s hi
  exact ⟨as, s', hends, he, hi', List.eq_nil_of_length_eq_zero hlen⟩

end RuleServer

/-- No reachable state of a rule's server holds a connection forever: from every
one, the tasks in flight can all end by their own steps (a call of
`next_backend`, a failed TLS handshake, an error of the copy, the end of the
task), with no new connection, health report or reload.  After them no guard is
live, every backend's `active_connections` is 0 and the rule's
`ACTIVE_CONNECTIONS` is 0.  This needs a `usize` of at least two bits, so that
`next_backend` on a load balancer without guards cannot abort. -/
theorem ruleServer_drains {w : Nat} {P : IpParsers} {display : IpAddr → String}
    {r : RuleConfig} {s : RuleServer} (hw : 2 ≤ w) (h : (ruleServer w P display r).Reachable s) :
    ∃ as s', (∀ a ∈ as, a.ends = true) ∧
      Machine.exec (ruleServer w P display r).step s as = some s' ∧
      s'.tasks = [] ∧ s'.world.guards = [] ∧
      (∀ o < s'.world.allocated, (s'.world.objects o).activeConnections = 0) ∧
      s'.metrics.activeConnections r.name = 0 := by
  obtain ⟨as, s', hends, he, hi, hnil⟩ :=
    RuleServer.exists_exec_drained hw (RuleServer.Inv.of_reachable h)
  have hguards : s'.world.guards = [] := by
    have hg := hi.guards
    rw [hnil, List.filterMap_nil] at hg
    exact hg.eq_nil
  refine ⟨as, s', hends, he, hnil, hguards, fun o ho => ?_, ?_⟩
  · rw [hi.world.active_eq o ho, World.guardsOn, hguards]
    rfl
  · show s'.metrics.activeConnections (Listener.ofRule P display r).ruleName = 0
    rw [hi.metrics.active, hnil]
    rfl

theorem ruleServer_drains_proxying :
    ∃ s, Machine.exec (ruleServer 64 .rejectAll (fun _ => "") ruleA).step
        (RuleServer.start ruleA .zero)
        [.accept (.v4 ⟨1, 2, 3, 4⟩) 0, .select 0 0] = some s ∧
      s.metrics.activeConnections "r" = 1 ∧
      ∃ as s', (∀ a ∈ as, a.ends = true) ∧
        Machine.exec (ruleServer 64 .rejectAll (fun _ => "") ruleA).step
          s as = some s' ∧
        s'.tasks = [] ∧ s'.world.guards = [] ∧
        (∀ o < s'.world.allocated, (s'.world.objects o).activeConnections = 0) ∧
        s'.metrics.activeConnections "r" = 0 := by
  have h : ((Machine.exec
      (ruleServer 64 .rejectAll (fun _ => "") ruleA).step
      (RuleServer.start ruleA .zero)
      [.accept (.v4 ⟨1, 2, 3, 4⟩) 0, .select 0 0]).map fun q => q.metrics.activeConnections "r") =
        some 1 := by
    decide
  obtain ⟨s, hs, hactive⟩ := Option.map_eq_some_iff.1 h
  exact ⟨s, hs, hactive, ruleServer_drains (by decide) (Machine.Reachable.of_exec ⟨.zero, rfl⟩ hs)⟩

end Layer4Lb
