import Layer4Lb.Server.Main
import Layer4Lb.Server.Drain

/-!
# The process can always come to rest

The rules of the process share `ACTIVE_CONNECTIONS` by name, so one rule's
connections ending does not bring its name's gauge to zero while another rule of
that name still has connections in flight.  From every state the process
reaches, the tasks of all its rules can end by their own steps, one rule after
the other: each rule's server agrees, but for the metrics, with a state of its
own machine (`mainProcess_refines_ruleServers`), where `Server.Drain` ends every
task, and the same steps end them in the process.  Afterwards no load balancer
has a live guard, every backend counter is zero, and so is `ACTIVE_CONNECTIONS`
of every name.
-/

namespace Layer4Lb

/-- The steps of the process by which the tasks of its rules end. -/
def MainAction.ends : MainAction → Bool
  | .rule _ b => b.ends
  | _ => false

theorem ServerAction.isTask_of_ends {a : ServerAction} (h : a.ends = true) : a.isTask = true := by
  cases a <;> simp_all [ServerAction.ends, ServerAction.isTask]

namespace Process

theorem share_store_self (p : Process) (i : Nat) (x : RuleServer) : (p.store i x).share x = x := rfl

theorem store_store (p : Process) (i : Nat) (x : RuleServer) : (p.store i x).store i = p.store i := by
  funext y
  simp [store, List.set_set]

variable {w : Nat} {P : IpParsers} {display : IpAddr → String} {c : MainConfig}

/-- A run of the acceptors and tasks of rule `i` is a run of its server, from the
server as the process shares it. -/
theorem exec_rule {i : Nat} {r : RuleConfig} (hr : c.rules[i]? = some r) {a : ServerAction}
    {as : List ServerAction} (htask : ∀ b ∈ a :: as, b.isTask = true) :
    ∀ {p : Process} {srv : RuleServer}, p.servers[i]? = some srv →
      Machine.exec (Process.step w P display c) p ((a :: as).map (.rule i)) =
        (Machine.exec (RuleServer.step w (Listener.ofRule P display r)) (p.share srv) (a :: as)).map
          (p.store i) := by
  induction as generalizing a with
  | nil =>
    intro p srv hs
    simp [Process.step, htask a List.mem_cons_self, hs, hr]
  | cons b bs ih =>
    intro p srv hs
    have hstep : p.step w P display c (.rule i a) =
        ((p.share srv).step w (Listener.ofRule P display r) a).map (p.store i) := by
      simp [Process.step, htask a List.mem_cons_self, hs, hr]
    rw [List.map_cons, Machine.exec_cons, hstep, Machine.exec_cons]
    cases h : (p.share srv).step w (Listener.ofRule P display r) a with
    | none => rfl
    | some srv₁ =>
      have hs₁ : (p.store i srv₁).servers[i]? = some srv₁ := by
        rw [servers_store]
        exact List.getElem?_set_self (List.getElem?_eq_some_iff.1 hs).1
      rw [Option.map_some, Option.bind_some, Option.bind_some,
        ih (fun x hx => htask x (List.mem_cons_of_mem a hx)) hs₁, share_store_self, store_store]

/-- Each server of the process stands at the place of a rule. -/
theorem Inv.exists_rule {p : Process} (hi : Inv w P display c p) {i : Nat} {srv : RuleServer}
    (hs : p.servers[i]? = some srv) : ∃ r, c.rules[i]? = some r :=
  ⟨_, List.getElem?_eq_getElem (hi.length ▸ (List.getElem?_eq_some_iff.1 hs).1)⟩

/-- The tasks of all rules, counted place by place. -/
def taskCount (c : MainConfig) (p : Process) : Nat :=
  (List.zipWith (fun (srv : RuleServer) (_ : RuleConfig) => srv.tasks.length) p.servers c.rules).sum

/-- A rule with a task in flight can end all its tasks, and the count drops. -/
theorem exists_exec_drain_rule (hw : 2 ≤ w) {p : Process} (hi : Inv w P display c p) {i : Nat}
    {srv : RuleServer} {r : RuleConfig} (hs : p.servers[i]? = some srv) (hr : c.rules[i]? = some r)
    (hne : srv.tasks ≠ []) :
    ∃ as p', (∀ a ∈ as, a.ends = true) ∧ Machine.exec (Process.step w P display c) p as = some p' ∧
      Inv w P display c p' ∧ taskCount c p' < taskCount c p := by
  obtain ⟨s, hreach, hse⟩ := (hi.servers i srv hs).1 r hr
  obtain ⟨as, s', hends, he, -, hnil⟩ := RuleServer.exists_exec_drained hw (RuleServer.Inv.of_reachable hreach)
  -- the same steps from the server as the process shares it, which agrees with `s` but for the metrics
  obtain ⟨t', he', hst'⟩ := Machine.exec_lockstep (fun s t => s.eraseMetrics = t.eraseMetrics)
    (fun _ _ _ _ hst h => (RuleServer.step_of_eraseMetrics hst h).imp fun _ h => ⟨h.1, h.2.symm⟩)
    (show s.eraseMetrics = (p.share srv).eraseMetrics by rw [share, RuleServer.eraseMetrics_withMetrics, hse]) he
  have ht' : t'.tasks = [] := (RuleServer.eraseMetrics_eq_iff.1 hst').2.2.2 ▸ hnil
  obtain ⟨a, as, rfl⟩ : ∃ a as', as = a :: as' := by
    cases as with
    | nil =>
      rw [Machine.exec_nil, Option.some.injEq] at he'
      have hsrv : srv.tasks = [] := by
        rw [← ht', ← he']
        rfl
      exact absurd hsrv hne
    | cons a as' => exact ⟨a, as', rfl⟩
  have hrun := @exec_rule w P display c i r hr a as
    (fun b hb => ServerAction.isTask_of_ends (hends b hb)) p srv hs
  rw [he', Option.map_some] at hrun
  refine ⟨(a :: as).map (.rule i), p.store i t', fun x hx => ?_, hrun,
    Machine.exec_preserves (fun _ _ _ hp h => hp.step h) hi hrun, ?_⟩
  · obtain ⟨b, hb, rfl⟩ := List.mem_map.1 hx
    exact hends b hb
  · have hc := Holders.sum_zipWith_set (fun (srv : RuleServer) (_ : RuleConfig) => srv.tasks.length) hs hr t'
    have hpos : 0 < srv.tasks.length := List.length_pos_iff.2 hne
    simp only [ht', List.length_nil, Nat.add_zero] at hc
    unfold taskCount
    rw [servers_store]
    omega

/-- All the rules' tasks end. -/
theorem exists_exec_quiet (hw : 2 ≤ w) {p : Process} (hi : Inv w P display c p) :
    ∃ as p', (∀ a ∈ as, a.ends = true) ∧ Machine.exec (Process.step w P display c) p as = some p' ∧
      Inv w P display c p' ∧ ∀ srv ∈ p'.servers, srv.tasks = [] := by
  have hdesc : ∀ p, Inv w P display c p → 0 < taskCount c p →
      ∃ as p', (∀ a ∈ as, a.ends = true) ∧ Machine.exec (Process.step w P display c) p as = some p' ∧
        Inv w P display c p' ∧ taskCount c p' < taskCount c p := by
    intro p hi hpos
    -- some rule has a task in flight
    by_contra hno
    refine Nat.lt_irrefl 0 (Nat.lt_of_lt_of_eq hpos (Holders.sum_zipWith_eq_zero _ (fun srv hsrv r => ?_) _))
    obtain ⟨i, hs⟩ := List.mem_iff_getElem?.1 hsrv
    obtain ⟨r, hr⟩ := hi.exists_rule hs
    by_cases hne : srv.tasks = []
    · simp [hne]
    · exact absurd (exists_exec_drain_rule hw hi hs hr hne) hno
  obtain ⟨as, p', hends, he, hi', hzero⟩ :=
    Machine.exists_exec_of_descent (fun a : MainAction => a.ends = true) (Inv w P display c)
      (taskCount c) hdesc p hi
  refine ⟨as, p', hends, he, hi', fun srv hsrv => ?_⟩
  obtain ⟨i, hs⟩ := List.mem_iff_getElem?.1 hsrv
  obtain ⟨r, hr⟩ := hi'.exists_rule hs
  have hle := Holders.le_sum_zipWith (fun (srv : RuleServer) (_ : RuleConfig) => srv.tasks.length) hs hr
  exact List.eq_nil_of_length_eq_zero (Nat.le_zero.1 (hzero ▸ hle))

/-- A server of the process whose tasks have all ended holds no guard, and its
backends' counters are zero. -/
theorem quiet_server {p : Process} (hi : Inv w P display c p) {i : Nat} {srv : RuleServer}
    (hs : p.servers[i]? = some srv) (hnil : srv.tasks = []) :
    srv.world.guards = [] ∧ ∀ o < srv.world.allocated, (srv.world.objects o).activeConnections = 0 := by
  obtain ⟨r, hr⟩ := hi.exists_rule hs
  obtain ⟨s, hreach, hse⟩ := (hi.servers i srv hs).1 r hr
  have hs' := RuleServer.Inv.of_reachable hreach
  obtain ⟨hw, -, -, hts⟩ := RuleServer.eraseMetrics_eq_iff.1 hse
  obtain ⟨-, hobj, halloc, hguards⟩ := World.eraseGauges_eq_iff.1 hw
  have hg : s.world.guards = [] := by
    have h := hs'.guards
    rw [hts, hnil, List.filterMap_nil] at h
    exact h.eq_nil
  refine ⟨hguards ▸ hg, fun o ho => ?_⟩
  rw [← hobj, hs'.world.active_eq o (halloc ▸ ho), World.guardsOn, hg]
  rfl

end Process

/-- From every state the process reaches, the connections in flight of all its
rules can end by their own steps (calls of `next_backend`, failed TLS
handshakes, errors of the copy, task ends), with no new connection, health
report or reload; after them no load balancer has a live guard, every backend's
`active_connections` is 0, and `ACTIVE_CONNECTIONS` is 0 for every rule name,
however the rules of one name shared it.  This needs a `usize` of at least two
bits. -/
theorem mainProcess_drains {w : Nat} {P : IpParsers} {display : IpAddr → String} {c : MainConfig}
    {p : Process} (hw : 2 ≤ w) (h : (mainProcess w P display c).Reachable p) :
    ∃ as p', (∀ a ∈ as, a.ends = true) ∧ Machine.exec (mainProcess w P display c).step p as = some p' ∧
      (∀ srv ∈ p'.servers, srv.tasks = [] ∧ srv.world.guards = [] ∧
        ∀ o < srv.world.allocated, (srv.world.objects o).activeConnections = 0) ∧
      ∀ n, p'.metrics.activeConnections n = 0 := by
  obtain ⟨as, p', hends, he, hi, hquiet⟩ := Process.exists_exec_quiet hw (Process.Inv.of_reachable h)
  refine ⟨as, p', hends, he, fun srv hsrv => ?_, fun n => ?_⟩
  · obtain ⟨i, hs⟩ := List.mem_iff_getElem?.1 hsrv
    exact ⟨hquiet srv hsrv, Process.quiet_server hi hs (hquiet srv hsrv)⟩
  · have hzero : Process.proxying c p' n = 0 :=
      Holders.sum_zipWith_eq_zero _ (fun srv hsrv r => by simp [hquiet srv hsrv]) _
    rw [(hi.metrics n).active, hzero]
    rfl

/-- Two rules named `"r"`, each with a connection inside `proxy_connection`:
both end, and `ACTIVE_CONNECTIONS` of `"r"` goes from 2 to 0. -/
theorem mainProcess_drains_two_rules :
    ∃ p, Machine.exec (mainProcess 64 .rejectAll (fun _ => "") twoRules).step
        (Process.start twoRules) acceptOnBoth = some p ∧
      p.metrics.activeConnections "r" = 2 ∧
      ∃ as p', (∀ a ∈ as, a.ends = true) ∧
        Machine.exec (mainProcess 64 .rejectAll (fun _ => "") twoRules).step p as = some p' ∧
        (∀ srv ∈ p'.servers, srv.tasks = [] ∧ srv.world.guards = [] ∧
          ∀ o < srv.world.allocated, (srv.world.objects o).activeConnections = 0) ∧
        ∀ n, p'.metrics.activeConnections n = 0 := by
  have h : ((Machine.exec (mainProcess 64 .rejectAll (fun _ => "") twoRules).step
      (Process.start twoRules) acceptOnBoth).map fun q => q.metrics.activeConnections "r") =
        some 2 := by
    decide
  obtain ⟨p, hp, hactive⟩ := Option.map_eq_some_iff.1 h
  exact ⟨p, hp, hactive, mainProcess_drains (by decide) (Machine.Reachable.of_exec ⟨by decide, rfl⟩ hp)⟩

end Layer4Lb
