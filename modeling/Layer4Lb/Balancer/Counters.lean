import Layer4Lb.Balancer.Basic
import Mathlib.Data.List.Basic

/-!
# Connection counters over whole runs

Every `active_connections` counter equals the number of live guards that hold
it, in every reachable state, including the counters of objects that a reload
has taken out of the snapshot.  The argument is the one the code's design
suggests: a reload or a health report never touches a counter and only
allocates fresh ones (`Extends`), `next_backend` adds one guard to the counter
it increments, and a drop removes one from the counter it decrements.  The
bound on guards needed to rule out wrapping comes from `Arc::clone`, which
aborts before a counter could hold `2 ^ w` clones.

The connection limit is then a bound per object, not per address: an address
listed twice, or re-added by a reload while its old connections are open, gets
a second counter.
-/

namespace Layer4Lb

theorem List.perm_cons_eraseIdx {α : Type*} [DecidableEq α] {l : List α} {i : Nat}
    (h : i < l.length) : l.Perm (l[i] :: l.eraseIdx i) :=
  (List.perm_cons_erase (List.getElem_mem h)).trans ((List.erase_getElem h).cons _)

theorem List.getD_mem {α : Type*} {l : List α} {i : Nat} (d : α) (h : i < l.length) :
    l.getD i d ∈ l := by
  rw [List.getD_eq_getElem?_getD, List.getElem?_eq_getElem h, Option.getD_some]
  exact List.getElem_mem h

namespace World

variable {w : Nat}

/-! ## Steps that touch no counter -/

/-- `s'` differs from `s` only in the flags and addresses of objects and in
fresh objects with idle counters: all that reloads and health reports do. -/
structure Extends (s s' : World) : Prop where
  guards_eq : s'.guards = s.guards
  allocated_le : s.allocated ≤ s'.allocated
  active_eq : ∀ o < s.allocated, (s'.objects o).activeConnections = (s.objects o).activeConnections
  active_fresh : ∀ o, s.allocated ≤ o → o < s'.allocated → (s'.objects o).activeConnections = 0
  limit_eq : s'.lb.connectionLimit = s.lb.connectionLimit

theorem Extends.refl (s : World) : Extends s s :=
  ⟨rfl, Nat.le_refl _, fun _ _ => rfl, fun _ h h' => absurd h' (Nat.not_lt.2 h), rfl⟩

theorem Extends.trans {s₁ s₂ s₃ : World} (h₁ : Extends s₁ s₂) (h₂ : Extends s₂ s₃) :
    Extends s₁ s₃ where
  guards_eq := h₂.guards_eq.trans h₁.guards_eq
  allocated_le := Nat.le_trans h₁.allocated_le h₂.allocated_le
  active_eq o ho := (h₂.active_eq o (Nat.lt_of_lt_of_le ho h₁.allocated_le)).trans (h₁.active_eq o ho)
  active_fresh o hlo hhi := by
    by_cases h : o < s₂.allocated
    · rw [h₂.active_eq o h]; exact h₁.active_fresh o hlo h
    · exact h₂.active_fresh o (Nat.not_lt.1 h) hhi
  limit_eq := h₂.limit_eq.trans h₁.limit_eq

/-- A step that allocates nothing and keeps every counter and guard. -/
theorem Extends.of_active_eq {s s' : World} (hg : s'.guards = s.guards)
    (ha : s'.allocated = s.allocated) (hl : s'.lb.connectionLimit = s.lb.connectionLimit)
    (ho : ∀ o, (s'.objects o).activeConnections = (s.objects o).activeConnections) :
    Extends s s' where
  guards_eq := hg
  allocated_le := ha ▸ Nat.le_refl _
  active_eq o _ := ho o
  active_fresh _ h h' := absurd (ha ▸ h') (Nat.not_lt.2 h)
  limit_eq := hl

/-- Changing the flags of one object touches no counter. -/
theorem active_update_flags (f : Nat → Backend) (o o' : Nat) (b : Backend)
    (hb : b.activeConnections = (f o).activeConnections) :
    (Function.update f o b o').activeConnections = (f o').activeConnections := by
  by_cases h : o' = o
  · subst h; simp [hb]
  · simp [Function.update_of_ne h]

theorem extends_alloc (s : World) (rule : String) (c : BackendConfig) :
    Extends s (s.alloc rule c).2 where
  guards_eq := rfl
  allocated_le := Nat.le_succ _
  active_eq o ho := by simp [alloc, Function.update_of_ne (Nat.ne_of_lt ho)]
  active_fresh o hlo hhi := by
    obtain rfl : o = s.allocated := Nat.le_antisymm (Nat.le_of_lt_succ hhi) hlo
    simp [alloc]
  limit_eq := rfl

@[simp] theorem alloc_lb (s : World) (rule : String) (c : BackendConfig) :
    (s.alloc rule c).2.lb = s.lb := rfl

theorem alloc_fst_lt (s : World) (rule : String) (c : BackendConfig) :
    (s.alloc rule c).1 < (s.alloc rule c).2.allocated := Nat.lt_succ_self _

theorem reuseOrAlloc_spec (s : World) (c : BackendConfig)
    (hb : ∀ o ∈ s.lb.backends, o < s.allocated) :
    Extends s (s.reuseOrAlloc c).2 ∧ (s.reuseOrAlloc c).2.lb = s.lb ∧
      (s.reuseOrAlloc c).1 < (s.reuseOrAlloc c).2.allocated := by
  unfold reuseOrAlloc
  split
  · rename_i o ho
    exact ⟨Extends.of_active_eq rfl rfl rfl fun _ => active_update_flags _ _ _ _ rfl, rfl,
      hb o (List.mem_of_find?_eq_some ho)⟩
  · exact ⟨extends_alloc s _ c, rfl, alloc_fst_lt s _ c⟩

@[simp] theorem reuseOrAlloc_lb (s : World) (c : BackendConfig) : (s.reuseOrAlloc c).2.lb = s.lb := by
  unfold reuseOrAlloc; split <;> rfl

@[simp] theorem rebuild_lb (cs : List BackendConfig) (s : World) : (s.rebuild cs).2.lb = s.lb := by
  induction cs generalizing s with
  | nil => rfl
  | cons c cs ih => simp [rebuild, ih]

/-- The `map` of `update_backends` touches no counter and leaves the snapshot it
searches alone, and every object it returns exists. -/
theorem rebuild_spec (cs : List BackendConfig) :
    ∀ s : World, (∀ o ∈ s.lb.backends, o < s.allocated) →
      Extends s (s.rebuild cs).2 ∧ (s.rebuild cs).2.lb = s.lb ∧
        ∀ o ∈ (s.rebuild cs).1, o < (s.rebuild cs).2.allocated := by
  induction cs with
  | nil => intro s _; exact ⟨Extends.refl s, rfl, by simp [rebuild]⟩
  | cons c cs ih =>
    intro s hb
    obtain ⟨he₁, hlb₁, hlt₁⟩ := reuseOrAlloc_spec s c hb
    have hb₁ : ∀ o ∈ (s.reuseOrAlloc c).2.lb.backends, o < (s.reuseOrAlloc c).2.allocated := by
      rw [hlb₁]; exact fun o ho => Nat.lt_of_lt_of_le (hb o ho) he₁.allocated_le
    obtain ⟨he₂, hlb₂, hlt₂⟩ := ih _ hb₁
    refine ⟨he₁.trans he₂, hlb₂.trans hlb₁, ?_⟩
    simp only [rebuild, List.mem_cons, forall_eq_or_imp]
    exact ⟨Nat.lt_of_lt_of_le hlt₁ he₂.allocated_le, hlt₂⟩

theorem extends_updateBackends (s : World) (cs : List BackendConfig)
    (hb : ∀ o ∈ s.lb.backends, o < s.allocated) :
    Extends s (s.updateBackends cs) ∧
      ∀ o ∈ (s.updateBackends cs).lb.backends, o < (s.updateBackends cs).allocated := by
  obtain ⟨he, hlb, hlt⟩ := rebuild_spec cs s hb
  exact ⟨{ he with limit_eq := by simp [updateBackends, ← he.limit_eq] }, hlt⟩

theorem extends_setBackendHealth (s : World) (a : String) (h : Bool) :
    Extends s (s.setBackendHealth a h) := by
  dsimp only [setBackendHealth]
  split
  · exact Extends.of_active_eq rfl rfl rfl fun _ => active_update_flags _ _ _ _ rfl
  · exact Extends.of_active_eq rfl rfl rfl fun _ => rfl

@[simp] theorem setBackendHealth_lb (s : World) (a : String) (h : Bool) :
    (s.setBackendHealth a h).lb = s.lb := by
  dsimp only [setBackendHealth]; split <;> rfl

@[simp] theorem setBackendHealth_allocated (s : World) (a : String) (h : Bool) :
    (s.setBackendHealth a h).allocated = s.allocated := by
  dsimp only [setBackendHealth]; split <;> rfl

/-- `LoadBalancer::new` starts from no object and no guard, and allocates one
object per entry. -/
theorem allocAll_spec (rule : String) (cs : List BackendConfig) :
    ∀ s : World, Extends s (allocAll rule s cs).2 ∧ (allocAll rule s cs).2.lb = s.lb ∧
      ∀ o ∈ (allocAll rule s cs).1, o < (allocAll rule s cs).2.allocated := by
  induction cs with
  | nil => intro s; exact ⟨Extends.refl s, rfl, by simp [allocAll]⟩
  | cons c cs ih =>
    intro s
    obtain ⟨he₂, hlb₂, hlt₂⟩ := ih (s.alloc rule c).2
    refine ⟨(extends_alloc s rule c).trans he₂, hlb₂, ?_⟩
    simp only [allocAll, List.mem_cons, forall_eq_or_imp]
    exact ⟨Nat.lt_of_lt_of_le (alloc_fst_lt s rule c) he₂.allocated_le, hlt₂⟩

/-! ## What `next_backend` and a drop can do -/

theorem isizeMax_lt_two_pow (w : Nat) : isizeMax w < 2 ^ w := by
  have h₁ : 2 ^ (w - 1) ≤ 2 ^ w := Nat.pow_le_pow_right (by decide) (Nat.sub_le w 1)
  have h₂ : 1 ≤ 2 ^ w := Nat.one_le_two_pow
  unfold isizeMax; omega

/-- Removing the `i`-th guard removes one from the count of its own counter. -/
theorem guardsOn_eraseIdx (s : World) {i : Nat} (hi : i < s.guards.length) (o : Nat) :
    ({ s with guards := s.guards.eraseIdx i } : World).guardsOn o +
        (if s.guards[i].counter = o then 1 else 0) = s.guardsOn o := by
  have h := (List.perm_cons_eraseIdx hi).countP_eq fun g => decide (g.counter = o)
  simp only [guardsOn, h, List.countP_cons]
  split <;> simp_all

theorem pick_spec {s : World} {start idx : Nat} (h : s.pick w start = some idx) :
    idx < s.lb.backends.length ∧
      eligible s.lb.connectionLimit (s.objects (s.lb.backends.getD idx 0)) = true := by
  unfold pick visitOrder at h
  have hel := List.find?_some h
  refine ⟨?_, hel⟩
  obtain ⟨i, hi, rfl⟩ := List.mem_map.1 (List.mem_of_find?_eq_some h)
  exact Nat.mod_lt _ (Nat.lt_of_le_of_lt (Nat.zero_le i) (List.mem_range.1 hi))

/-- The inversion of `connect`: when it does not abort, the object had fewer than
`isize::MAX` guards, its counter moved by one modulo `2 ^ w`, one guard was added
and the gauge of its labels was incremented. -/
theorem connect_some {s s' : World} {o : Nat} {r : Option (String × ConnectionGuard)}
    (h : s.connect w o = some (r, s')) :
    1 + s.guardsOn o ≤ isizeMax w ∧ s'.lb = s.lb ∧ s'.allocated = s.allocated ∧
      s'.guards = s.guards ++ [⟨(s.objects o).ruleName, (s.objects o).addr, o⟩] ∧
      s'.objects = Function.update s.objects o
        { s.objects o with activeConnections := ((s.objects o).activeConnections + 1) % 2 ^ w } ∧
      s'.metrics = { s.metrics with
        backendActiveConnections :=
          s.metrics.backendActiveConnections.inc ((s.objects o).ruleName, (s.objects o).addr) } := by
  unfold connect at h
  split at h
  · cases h
  · simp only [Option.some.injEq, Prod.mk.injEq] at h
    obtain ⟨-, rfl⟩ := h
    exact ⟨by omega, rfl, rfl, rfl, rfl, rfl⟩

/-- A connection adds one guard, on the object it connects to. -/
theorem guardsOn_connect {s s' : World} {o : Nat} {r : Option (String × ConnectionGuard)}
    (h : s.connect w o = some (r, s')) (o' : Nat) :
    s'.guardsOn o' = s.guardsOn o' + if o = o' then 1 else 0 := by
  simp [guardsOn, (connect_some h).2.2.2.1, List.countP_append]

/-- The inversion of `next_backend`: when it does not abort, it leaves the state
alone on an empty snapshot, and otherwise bumps `current` and possibly connects
to an eligible object of the snapshot. -/
theorem nextBackend_cases {s s' : World} {r : Option (String × ConnectionGuard)}
    (h : s.nextBackend w = some (r, s')) :
    s' = s ∨ s' = s.fetchAddCurrent w ∨
      ∃ o ∈ s.lb.backends, eligible s.lb.connectionLimit (s.objects o) = true ∧
        (s.fetchAddCurrent w).connect w o = some (r, s') := by
  unfold nextBackend at h
  split at h
  · simp only [Option.some.injEq, Prod.mk.injEq] at h
    exact .inl h.2.symm
  · split at h
    · simp only [Option.some.injEq, Prod.mk.injEq] at h
      exact .inr (.inl h.2.symm)
    · rename_i idx hidx
      obtain ⟨hlt, hel⟩ := pick_spec hidx
      exact .inr (.inr ⟨_, List.getD_mem 0 hlt, hel, h⟩)

/-- What `next_backend` does to the live guards: it adds the guard it returns,
and no other. -/
theorem nextBackend_guards {s s' : World} {r : Option (String × ConnectionGuard)}
    (h : s.nextBackend w = some (r, s')) : s'.guards = s.guards ++ (r.map Prod.snd).toList := by
  unfold nextBackend at h
  split at h
  · simp only [Option.some.injEq, Prod.mk.injEq] at h
    obtain ⟨rfl, rfl⟩ := h
    simp
  · split at h
    · simp only [Option.some.injEq, Prod.mk.injEq] at h
      obtain ⟨rfl, rfl⟩ := h
      simp [fetchAddCurrent]
    · -- the guard `connect` builds is the one it appends
      unfold connect at h
      split at h
      · cases h
      · simp only [Option.some.injEq, Prod.mk.injEq] at h
        obtain ⟨rfl, rfl⟩ := h
        simp [fetchAddCurrent]

/-- `next_backend` keeps the snapshot. -/
theorem nextBackend_backends {s s' : World} {r : Option (String × ConnectionGuard)}
    (h : s.nextBackend w = some (r, s')) : s'.lb.backends = s.lb.backends := by
  rcases nextBackend_cases h with rfl | rfl | ⟨o, -, -, hc⟩
  · rfl
  · rfl
  · rw [(connect_some hc).2.1]
    rfl

/-- `next_backend` aborts only when the object it connects to has `isize::MAX`
guards already. -/
theorem nextBackend_ne_none {s : World} (h : ∀ o, 1 + s.guardsOn o ≤ isizeMax w) :
    s.nextBackend w ≠ none := by
  unfold nextBackend
  split
  · exact Option.some_ne_none _
  · split
    · exact Option.some_ne_none _
    · -- `fetch_add` on `current` leaves the guards
      unfold connect
      dsimp only
      rw [if_neg (Nat.not_lt.2 (show 1 + (s.fetchAddCurrent w).guardsOn _ ≤ isizeMax w from h _))]
      exact Option.some_ne_none _

theorem dropGuard_some {s s' : World} {i : Nat} (h : s.dropGuard w i = some s') :
    ∃ hi : i < s.guards.length, s' = s.guards[i].drop w { s with guards := s.guards.eraseIdx i } := by
  unfold dropGuard at h
  split at h
  · cases h
  · rename_i g hg
    obtain ⟨hi, rfl⟩ := List.getElem?_eq_some_iff.1 hg
    exact ⟨hi, (Option.some.inj h).symm⟩

/-! ## The invariant -/

/-- The invariant of a run: every counter of an allocated object equals its live
guards, of which there are at most `isize::MAX`, and every guard and every entry
of the snapshot points at an allocated object. -/
structure Inv (w : Nat) (s : World) : Prop where
  active_eq : ∀ o < s.allocated, (s.objects o).activeConnections = s.guardsOn o
  guardsOn_le : ∀ o, s.guardsOn o ≤ isizeMax w
  guard_lt : ∀ g ∈ s.guards, g.counter < s.allocated
  backend_lt : ∀ o ∈ s.lb.backends, o < s.allocated

theorem guardsOn_eq_zero {s : World} {o : Nat} (h : ∀ g ∈ s.guards, g.counter ≠ o) :
    s.guardsOn o = 0 :=
  List.countP_eq_zero.2 (by simpa using h)

theorem Inv.of_extends {s s' : World} (hi : Inv w s) (he : Extends s s')
    (hb : ∀ o ∈ s'.lb.backends, o < s'.allocated) : Inv w s' where
  active_eq o ho := by
    have hg : s'.guardsOn o = s.guardsOn o := by simp [guardsOn, he.guards_eq]
    rw [hg]
    by_cases h : o < s.allocated
    · rw [he.active_eq o h, hi.active_eq o h]
    · rw [he.active_fresh o (Nat.not_lt.1 h) ho, guardsOn_eq_zero]
      intro g hg' heq
      exact h (heq ▸ hi.guard_lt g hg')
  guardsOn_le o := by simp only [guardsOn, he.guards_eq]; exact hi.guardsOn_le o
  guard_lt g hg := Nat.lt_of_lt_of_le (hi.guard_lt g (he.guards_eq ▸ hg)) he.allocated_le
  backend_lt := hb

theorem Inv.connect {s s' : World} {o : Nat} {r : Option (String × ConnectionGuard)}
    (hi : Inv w s) (ho : o ∈ s.lb.backends) (h : s.connect w o = some (r, s')) : Inv w s' := by
  obtain ⟨hle, hlb, hal, hg, hobj, -⟩ := connect_some h
  have hcount := guardsOn_connect h
  have hlt := isizeMax_lt_two_pow w
  refine ⟨fun o' ho' => ?_, fun o' => ?_, fun g hg' => ?_, fun o' ho' => ?_⟩
  · rw [hcount, hobj]
    by_cases h' : o' = o
    · subst h'
      have ha := hi.active_eq o' (hal ▸ ho')
      simp only [Function.update_self, ite_true]
      rw [ha, Nat.mod_eq_of_lt (by omega)]
    · rw [Function.update_of_ne h', hi.active_eq o' (hal ▸ ho'), if_neg (Ne.symm h'),
        Nat.add_zero]
  · rw [hcount]
    split
    · subst o'; omega
    · simpa using hi.guardsOn_le o'
  · rw [hg] at hg'
    rcases List.mem_append.1 hg' with hg' | hg'
    · exact hal ▸ hi.guard_lt g hg'
    · rw [List.mem_singleton.1 hg', hal]; exact hi.backend_lt o ho
  · rw [hlb] at ho'; exact hal ▸ hi.backend_lt o' ho'

/-- `fetch_sub(1)` on a counter of at least one, below the modulus, does not wrap. -/
theorem wrapping_sub_one {c n : Nat} (h₁ : 1 ≤ c) (h₂ : c < n) : (c + (n - 1)) % n = c - 1 := by
  rw [show c + (n - 1) = c - 1 + n by omega, Nat.add_mod_right, Nat.mod_eq_of_lt (by omega)]

theorem Inv.dropGuard {s s' : World} {i : Nat} (hi : Inv w s) (h : s.dropGuard w i = some s') :
    Inv w s' := by
  obtain ⟨hlt, rfl⟩ := dropGuard_some h
  have hcount := guardsOn_eraseIdx s hlt
  have hg : ∀ o, (s.guards[i].drop w { s with guards := s.guards.eraseIdx i }).guardsOn o =
      ({ s with guards := s.guards.eraseIdx i } : World).guardsOn o := fun _ => rfl
  have hmax := isizeMax_lt_two_pow w
  refine ⟨fun o ho => ?_, fun o => ?_, fun g hg => ?_, hi.backend_lt⟩
  · -- only the dropped guard's own counter moves, down by one
    have hc := hcount o
    have ha := hi.active_eq o ho
    have hle := hi.guardsOn_le o
    rw [hg]
    simp only [ConnectionGuard.drop, Function.update_apply]
    split
    · rename_i h'
      subst h'
      rw [if_pos rfl] at hc
      rw [ha, wrapping_sub_one (by omega) (by omega)]
      dsimp only
      omega
    · rename_i h'
      rw [if_neg (Ne.symm h'), Nat.add_zero] at hc
      rw [ha, ← hc]
  · have hc := hcount o
    have hle := hi.guardsOn_le o
    rw [hg]
    split at hc <;> omega
  · exact hi.guard_lt g (List.mem_of_mem_eraseIdx hg)

theorem Inv.fetchAddCurrent {s : World} (hi : Inv w s) : Inv w (s.fetchAddCurrent w) :=
  ⟨hi.1, hi.2, hi.3, hi.4⟩

theorem Inv.step {s s' : World} {a : Action} (hi : Inv w s) (h : s.step w a = some s') :
    Inv w s' := by
  cases a with
  | nextBackend =>
    obtain ⟨⟨r, s₁⟩, hn, rfl⟩ := Option.map_eq_some_iff.1 h
    rcases nextBackend_cases hn with rfl | rfl | ⟨o, ho, -, hc⟩
    · exact hi
    · exact hi.fetchAddCurrent
    · exact hi.fetchAddCurrent.connect ho hc
  | dropGuard i => exact hi.dropGuard h
  | setBackendHealth a hh =>
    cases h
    exact hi.of_extends (extends_setBackendHealth s a hh) (by simpa using hi.backend_lt)
  | updateBackends cs =>
    cases h
    obtain ⟨he, hb⟩ := extends_updateBackends s cs hi.backend_lt
    exact hi.of_extends he hb

theorem Inv.new (rule : String) (cs : List BackendConfig) (limit : Option Nat) (m : Metrics) :
    Inv w (LoadBalancer.new rule cs limit m) := by
  let e : World := ⟨⟨rule, [], 0, limit⟩, fun _ => default, 0, [], m⟩
  have he : Inv w e :=
    ⟨fun o ho => absurd ho (Nat.not_lt_zero o), fun o => by simp [e, guardsOn],
      fun _ hg => absurd hg List.not_mem_nil, fun _ ho => absurd ho List.not_mem_nil⟩
  obtain ⟨hext, -, hlt⟩ := allocAll_spec rule cs e
  exact he.of_extends ⟨hext.1, hext.2, hext.3, hext.4, hext.5⟩ hlt

theorem Inv.of_reachable {rule : String} {limit : Option Nat} {s : World}
    (h : (balancer w rule limit).Reachable s) : Inv w s :=
  h.rec_inv (fun _ ⟨cs, m, hs⟩ => hs ▸ Inv.new rule cs limit m) fun _ _ _ hi hs => hi.step hs

/-- Counters never underflow.  In every state a run of `new`, `next_backend`,
drops, health reports and reloads reaches, every object's `active_connections`
equals the number of live guards holding it, whether or not the object is still
in the snapshot; so the counter of every live guard is positive, and its
`fetch_sub` in `drop` does not wrap. -/
theorem activeConnections_eq_guardsOn {rule : String} {limit : Option Nat} {s : World}
    (h : (balancer w rule limit).Reachable s) :
    (∀ o < s.allocated, (s.objects o).activeConnections = s.guardsOn o) ∧
      ∀ g ∈ s.guards, 0 < (s.objects g.counter).activeConnections := by
  have hi := Inv.of_reachable h
  refine ⟨hi.active_eq, fun g hg => ?_⟩
  rw [hi.active_eq g.counter (hi.guard_lt g hg)]
  exact List.countP_pos_iff.2 ⟨g, hg, by simp⟩

/-- A rule that lists `a` twice, under a limit of one connection. -/
def twiceListed : World := LoadBalancer.new "r" [.simple "a", .simple "a"] (some 1) .zero

/-- A connection to each copy of `a`; a reload to `b` alone, a failed health
check of `b` and a reload back to `a`, while both connections are open; a third
connection, to the new object for `a`; and the end of the first connection. -/
def reloadRun : List Action :=
  [.nextBackend, .nextBackend, .updateBackends [.simple "b"], .setBackendHealth "b" false,
    .updateBackends [.simple "a"], .nextBackend, .dropGuard 0]

/-- The state `reloadRun` leaves, with live guards on two objects for `a`. -/
def reloaded : World := (Machine.exec (World.step 64) twiceListed reloadRun).getD twiceListed

theorem reachable_reloaded (limit : Option Nat) (h : limit = some 1) :
    (balancer 64 "r" limit).Reachable reloaded := by
  subst h
  exact .of_exec ⟨[.simple "a", .simple "a"], .zero, rfl⟩
    (Machine.exec_eq_some_getD twiceListed (by decide))

theorem activeConnections_eq_guardsOn_reloaded :
    (balancer 64 "r" (some 1)).Reachable reloaded ∧
      ((∀ o < reloaded.allocated, (reloaded.objects o).activeConnections = reloaded.guardsOn o) ∧
        ∀ g ∈ reloaded.guards, 0 < (reloaded.objects g.counter).activeConnections) ∧
      reloaded.guards.length = 2 := by
  have h := reachable_reloaded (some 1) rfl
  exact ⟨h, activeConnections_eq_guardsOn h, by decide⟩

/-! ## The connection limit bounds each object -/

/-- Under a limit `l`, no object has more than `l` live guards. -/
def WithinLimit (s : World) : Prop := ∀ l, s.lb.connectionLimit = some l → ∀ o, s.guardsOn o ≤ l

theorem WithinLimit.of_extends {s s' : World} (hl : WithinLimit s) (he : Extends s s') :
    WithinLimit s' := by
  intro l hls o
  simp only [guardsOn, he.guards_eq]
  exact hl l (he.limit_eq ▸ hls) o

theorem WithinLimit.step {s s' : World} {a : Action} (hi : Inv w s) (hl : WithinLimit s)
    (h : s.step w a = some s') : WithinLimit s' := by
  cases a with
  | nextBackend =>
    obtain ⟨⟨r, s₁⟩, hn, rfl⟩ := Option.map_eq_some_iff.1 h
    rcases nextBackend_cases hn with rfl | rfl | ⟨o, ho, hel, hc⟩
    · exact hl
    · exact hl
    · -- the chosen object was eligible, so below the limit before its new guard
      obtain ⟨-, hlb, -, -, -⟩ := connect_some hc
      intro l hls o'
      -- `fetch_add` on `current` leaves the guards alone
      have hcount : s₁.guardsOn o' = s.guardsOn o' + if o = o' then 1 else 0 :=
        guardsOn_connect hc o'
      rw [hlb] at hls
      rw [hcount]
      split
      · subst o'
        have hlt := ((eligible_iff _ _).1 hel).2.2 l hls
        rw [hi.active_eq o (hi.backend_lt o ho)] at hlt
        omega
      · simpa using hl l hls o'
  | dropGuard i =>
    obtain ⟨hlt, rfl⟩ := dropGuard_some h
    intro l hls o
    have hc := guardsOn_eraseIdx s hlt o
    have hle := hl l hls o
    change ({ s with guards := s.guards.eraseIdx i } : World).guardsOn o ≤ l
    omega
  | setBackendHealth a hh =>
    cases h
    exact hl.of_extends (extends_setBackendHealth s a hh)
  | updateBackends cs =>
    cases h
    exact hl.of_extends (extends_updateBackends s cs hi.backend_lt).1

/-- `update_backends` sets `BACKEND_ACTIVE_CONNECTIONS` of an address it does
not find in the snapshot to `0`, also while a guard for that address is live; the
guard's drop then takes the gauge to `-1`. -/
theorem backendActiveConnections_reset_by_reload :
    (Machine.exec (World.step 64) (LoadBalancer.new "r" [.simple "a"] none .zero)
      [.nextBackend, .updateBackends [.simple "b"], .updateBackends [.simple "a"]]).map
        (fun s => (s.metrics.backendActiveConnections ("r", "a"), s.guardsAt "a")) = some (0, 1) ∧
    (Machine.exec (World.step 64) (LoadBalancer.new "r" [.simple "a"] none .zero)
      [.nextBackend, .updateBackends [.simple "b"], .updateBackends [.simple "a"], .dropGuard 0]).map
        (fun s => (s.metrics.backendActiveConnections ("r", "a"), s.guardsAt "a")) = some (-1, 0) := by
  decide

end World

end Layer4Lb
