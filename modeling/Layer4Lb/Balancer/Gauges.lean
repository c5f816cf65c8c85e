import Layer4Lb.Balancer.Basic

/-!
# The gauges are written, never read

`BACKEND_ACTIVE_CONNECTIONS` and `BACKEND_HEALTH_STATUS` are statics of the
process: every load balancer writes them, under labels of its rule's name, and
only the metrics handler reads them.  Nothing the load balancer decides or
stores depends on them.  So two worlds that differ only in their gauges take the
same steps to worlds that again differ only in their gauges.  This is what lets
the process keep one set of gauges for all its rules (`Server.Main`) while each
rule's load balancer moves as in `Balancer.Basic`.
-/

namespace Layer4Lb

namespace World

/-- A world with its gauges cleared: everything the load balancer reads. -/
def eraseGauges (s : World) : World := { s with metrics := .zero }

@[simp] theorem eraseGauges_lb (s : World) : s.eraseGauges.lb = s.lb := rfl

@[simp] theorem eraseGauges_guards (s : World) : s.eraseGauges.guards = s.guards := rfl

@[simp] theorem eraseGauges_eraseGauges (s : World) : s.eraseGauges.eraseGauges = s.eraseGauges :=
  rfl

/-- Two worlds agree but for their gauges when they agree on the rest. -/
theorem eraseGauges_eq_iff {s t : World} :
    s.eraseGauges = t.eraseGauges ↔
      s.lb = t.lb ∧ s.objects = t.objects ∧ s.allocated = t.allocated ∧ s.guards = t.guards := by
  cases s
  cases t
  simp [eraseGauges]

variable (w : Nat) {s t : World}

/-! ## Each operation, on worlds that differ only in their gauges -/

section Congr

variable (h : s.eraseGauges = t.eraseGauges)
include h

theorem alloc_congr (rule : String) (c : BackendConfig) :
    (s.alloc rule c).1 = (t.alloc rule c).1 ∧
      (s.alloc rule c).2.eraseGauges = (t.alloc rule c).2.eraseGauges := by
  obtain ⟨hlb, ho, ha, hg⟩ := eraseGauges_eq_iff.1 h
  simp only [alloc, eraseGauges, hlb, ho, ha, hg, and_self]

theorem findBackend_congr (addr : String) : s.findBackend addr = t.findBackend addr := by
  obtain ⟨hlb, ho, -, -⟩ := eraseGauges_eq_iff.1 h
  rw [findBackend, findBackend, hlb, ho]

theorem setBackendHealth_congr (addr : String) (healthy : Bool) :
    (s.setBackendHealth addr healthy).eraseGauges = (t.setBackendHealth addr healthy).eraseGauges := by
  obtain ⟨hlb, ho, ha, hg⟩ := eraseGauges_eq_iff.1 h
  have hf := findBackend_congr h addr
  simp only [setBackendHealth, findBackend] at hf ⊢
  rw [hf]
  split <;> simp only [eraseGauges, hlb, ho, ha, hg]

theorem reuseOrAlloc_congr (c : BackendConfig) :
    (s.reuseOrAlloc c).1 = (t.reuseOrAlloc c).1 ∧
      (s.reuseOrAlloc c).2.eraseGauges = (t.reuseOrAlloc c).2.eraseGauges := by
  obtain ⟨hlb, ho, ha, hg⟩ := eraseGauges_eq_iff.1 h
  unfold reuseOrAlloc
  rw [findBackend_congr h]
  split
  · simp only [eraseGauges, hlb, ho, ha, hg, and_self]
  · rw [hlb]
    exact alloc_congr h _ c

theorem guardsOn_congr (o : Nat) : s.guardsOn o = t.guardsOn o := by
  rw [guardsOn, guardsOn, (eraseGauges_eq_iff.1 h).2.2.2]

theorem pick_congr (start : Nat) : s.pick w start = t.pick w start := by
  obtain ⟨hlb, ho, -, -⟩ := eraseGauges_eq_iff.1 h
  rw [pick, pick, hlb, ho]

theorem fetchAddCurrent_congr : (s.fetchAddCurrent w).eraseGauges = (t.fetchAddCurrent w).eraseGauges := by
  obtain ⟨hlb, ho, ha, hg⟩ := eraseGauges_eq_iff.1 h
  simp only [fetchAddCurrent, eraseGauges, hlb, ho, ha, hg]

theorem connect_congr (o : Nat) :
    (s.connect w o).map (Prod.map id eraseGauges) = (t.connect w o).map (Prod.map id eraseGauges) := by
  obtain ⟨hlb, ho, ha, hg⟩ := eraseGauges_eq_iff.1 h
  unfold connect
  rw [guardsOn_congr h]
  split
  · rfl
  · simp only [Option.map_some, Prod.map, id, eraseGauges, hlb, ho, ha, hg]

end Congr

/-- `next_backend` returns the same on worlds that differ only in their gauges,
and leaves them differing only in their gauges. -/
theorem nextBackend_congr (h : s.eraseGauges = t.eraseGauges) :
    (s.nextBackend w).map (Prod.map id eraseGauges) = (t.nextBackend w).map (Prod.map id eraseGauges) := by
  have hlb := (eraseGauges_eq_iff.1 h).1
  unfold nextBackend
  rw [hlb, pick_congr w h]
  split
  · simp only [Option.map_some, Prod.map, id, h]
  · split
    · simp only [Option.map_some, Prod.map, id]
      rw [fetchAddCurrent_congr w h]
    · exact connect_congr w (fetchAddCurrent_congr w h) _

/-- The same, by the result of the call. -/
theorem nextBackend_congr_some (h : s.eraseGauges = t.eraseGauges)
    {r : Option (String × ConnectionGuard)} {s' : World} (hs : s.nextBackend w = some (r, s')) :
    ∃ t', t.nextBackend w = some (r, t') ∧ s'.eraseGauges = t'.eraseGauges := by
  have hc := nextBackend_congr w h
  rw [hs] at hc
  cases ht : t.nextBackend w with
  | none =>
    rw [ht] at hc
    cases hc
  | some q =>
    rw [ht, Option.map_some, Option.map_some, Option.some.injEq] at hc
    obtain ⟨r', t'⟩ := q
    simp only [Prod.map, id, Prod.mk.injEq] at hc
    obtain ⟨rfl, he⟩ := hc
    exact ⟨t', rfl, he⟩

theorem nextBackend_congr_none (h : s.eraseGauges = t.eraseGauges) (hs : s.nextBackend w = none) :
    t.nextBackend w = none := by
  have hc := nextBackend_congr w h
  rw [hs, Option.map_none] at hc
  exact Option.map_eq_none_iff.1 hc.symm

theorem allocAll_congr (rule : String) (cs : List BackendConfig) :
    ∀ {s t : World}, s.eraseGauges = t.eraseGauges →
      (allocAll rule s cs).1 = (allocAll rule t cs).1 ∧
        (allocAll rule s cs).2.eraseGauges = (allocAll rule t cs).2.eraseGauges := by
  induction cs with
  | nil => exact fun h => ⟨rfl, h⟩
  | cons c cs ih =>
    intro s t h
    -- the first entry's object, then the rest from worlds that still agree
    obtain ⟨h₁, h₂⟩ := alloc_congr h rule c
    obtain ⟨h₃, h₄⟩ := ih h₂
    simp only [allocAll, h₁, h₃, h₄, and_self]

theorem rebuild_congr (cs : List BackendConfig) :
    ∀ {s t : World}, s.eraseGauges = t.eraseGauges →
      (s.rebuild cs).1 = (t.rebuild cs).1 ∧ (s.rebuild cs).2.eraseGauges = (t.rebuild cs).2.eraseGauges := by
  induction cs with
  | nil => exact fun h => ⟨rfl, h⟩
  | cons c cs ih =>
    intro s t h
    obtain ⟨h₁, h₂⟩ := reuseOrAlloc_congr h c
    obtain ⟨h₃, h₄⟩ := ih h₂
    simp only [rebuild, h₁, h₃, h₄, and_self]

theorem updateBackends_congr (h : s.eraseGauges = t.eraseGauges) (cs : List BackendConfig) :
    (s.updateBackends cs).eraseGauges = (t.updateBackends cs).eraseGauges := by
  obtain ⟨h₁, h₂⟩ := rebuild_congr cs h
  obtain ⟨hlb, ho, ha, hg⟩ := eraseGauges_eq_iff.1 h₂
  simp only [updateBackends, eraseGauges, h₁, hlb, ho, ha, hg]

end World

theorem ConnectionGuard.drop_congr (w : Nat) (g : ConnectionGuard) {s t : World}
    (h : s.eraseGauges = t.eraseGauges) : (g.drop w s).eraseGauges = (g.drop w t).eraseGauges := by
  obtain ⟨hlb, ho, ha, hg⟩ := World.eraseGauges_eq_iff.1 h
  simp only [ConnectionGuard.drop, World.eraseGauges, hlb, ho, ha, hg]

/-- `LoadBalancer::new` builds the same load balancer whatever the gauges held. -/
theorem LoadBalancer.new_congr (ruleName : String) (configs : List BackendConfig)
    (limit : Option Nat) (m m' : Metrics) :
    (LoadBalancer.new ruleName configs limit m).eraseGauges =
      (LoadBalancer.new ruleName configs limit m').eraseGauges := by
  obtain ⟨h₁, h₂⟩ := @World.allocAll_congr ruleName configs
    ⟨⟨ruleName, [], 0, limit⟩, fun _ => default, 0, [], m⟩
    ⟨⟨ruleName, [], 0, limit⟩, fun _ => default, 0, [], m'⟩ rfl
  obtain ⟨hlb, ho, ha, hg⟩ := World.eraseGauges_eq_iff.1 h₂
  simp only [LoadBalancer.new, World.eraseGauges, h₁, hlb, ho, ha, hg]

end Layer4Lb
