import Layer4Lb.Balancer.Counters
import Layer4Lb.Lib.RoundRobin

/-!
# Round-robin selection

What `next_backend` selects.  Its start index comes from a `fetch_add` on an
`AtomicUsize`, which wraps at `2 ^ w`, and its loop index `start_index + i`
wraps too in a release build.  While the counter does not wrap, consecutive
calls walk the residues modulo `len` cyclically and round robin is fair; at the
wrap the walk jumps unless `len` divides `2 ^ w`, and the loop of one call can
visit a slot twice and skip another.
-/

namespace Layer4Lb

namespace World

variable (w : Nat)

/-- The snapshot indices `next_backend` selects along a run of actions, up to the
first step that is not enabled. -/
def selections (s : World) : List Action → List Nat
  | [] => []
  | a :: as =>
    match s.step w a with
    | none => []
    | some s' => (if a = .nextBackend then (s.selected w).toList else []) ++ selections s' as

/-- Whether every call of `next_backend` along the run finds every entry of the
snapshot eligible. -/
def eligibleAtCalls (s : World) : List Action → Bool
  | [] => true
  | a :: as =>
    (a != .nextBackend || s.lb.backends.all fun o => eligible s.lb.connectionLimit (s.objects o)) &&
      match s.step w a with
      | none => true
      | some s' => eligibleAtCalls s' as

variable {w}

/-- The selections of a run whose first step is enabled. -/
theorem selections_cons {s s' : World} {a : Action} (h : s.step w a = some s') (as : List Action) :
    s.selections w (a :: as) =
      (if a = .nextBackend then (s.selected w).toList else []) ++ s'.selections w as := by
  rw [selections, h]

/-- When every entry is eligible, the loop takes the first slot it visits. -/
theorem pick_of_all_eligible {s : World} (start : Nat) (hne : s.lb.backends ≠ [])
    (hall : ∀ o ∈ s.lb.backends, eligible s.lb.connectionLimit (s.objects o) = true) :
    s.pick w start = some (slot w start 0 s.lb.backends.length) := by
  obtain ⟨n, hn⟩ : ∃ n, s.lb.backends.length = n + 1 :=
    Nat.exists_eq_add_one.2 (List.length_pos_iff.2 hne)
  have hslot : slot w start 0 s.lb.backends.length < s.lb.backends.length :=
    Nat.mod_lt _ (by omega)
  unfold pick visitOrder
  rw [hn, List.range_succ_eq_map, List.map_cons, List.find?_cons_of_pos]
  rw [← hn]
  exact hall _ (List.getD_mem 0 hslot)

/-- What a call of `next_backend` that does not abort does to the load balancer:
on a non-empty snapshot it bumps `current` and nothing else. -/
theorem nextBackend_lb {s s' : World} {r : Option (String × ConnectionGuard)}
    (h : s.nextBackend w = some (r, s')) (hne : s.lb.backends ≠ []) :
    s'.lb = { s.lb with current := (s.lb.current + 1) % 2 ^ w } := by
  unfold nextBackend at h
  rw [if_neg (by simpa using hne)] at h
  split at h
  · cases h; rfl
  · exact (connect_some h).2.1

/-- Drops and health reports leave the load balancer alone. -/
theorem step_lb_of_ne {s s' : World} {a : Action} (h : s.step w a = some s')
    (hn : a ≠ .nextBackend) (hu : ∀ cs, a ≠ .updateBackends cs) : s'.lb = s.lb := by
  cases a with
  | nextBackend => exact absurd rfl hn
  | dropGuard i => obtain ⟨-, rfl⟩ := dropGuard_some h; rfl
  | setBackendHealth a hh => cases h; simp
  | updateBackends cs => exact absurd rfl (hu cs)

/-- Along a completed run without reloads in which every call finds every entry
eligible, the `j`-th call selects slot `(current + j) % 2 ^ w % len`. -/
theorem selections_eq_range_map {s : World} {as : List Action} (hne : s.lb.backends ≠ [])
    (hfix : ∀ cs, .updateBackends cs ∉ as) (helig : s.eligibleAtCalls w as = true)
    (hrun : (Machine.exec (step w) s as).isSome = true) :
    s.selections w as = (List.range (as.count .nextBackend)).map
      fun j => (s.lb.current + j) % 2 ^ w % s.lb.backends.length := by
  induction as generalizing s with
  | nil => rfl
  | cons a as ih =>
    have hfix' : ∀ cs, .updateBackends cs ∉ as := fun cs h => hfix cs (List.mem_cons_of_mem _ h)
    simp only [eligibleAtCalls, Bool.and_eq_true] at helig
    obtain ⟨hcall, hrest⟩ := helig
    obtain ⟨s', hs⟩ : ∃ s', s.step w a = some s' := by
      cases hs : s.step w a with
      | none => simp [hs] at hrun
      | some s' => exact ⟨s', rfl⟩
    rw [hs] at hrest
    have hrun' : (Machine.exec (step w) s' as).isSome = true := by simpa [hs] using hrun
    by_cases ha : a = .nextBackend
    · -- a call: it takes slot `current`, and the rest of the run starts one further
      subst ha
      have hall : ∀ o ∈ s.lb.backends, eligible s.lb.connectionLimit (s.objects o) = true := by
        simpa using hcall
      obtain ⟨⟨r, s₁⟩, hn, rfl⟩ := Option.map_eq_some_iff.1 hs
      have hlb := nextBackend_lb hn hne
      have hne' : s₁.lb.backends ≠ [] := by rw [hlb]; exact hne
      rw [selections_cons hs, if_pos rfl, ih hne' hfix' hrest hrun', hlb]
      simp only [selected, List.isEmpty_iff, if_neg hne,
        pick_of_all_eligible s.lb.current hne hall, Option.toList_some, List.count_cons_self,
        List.range_succ_eq_map, List.map_cons, List.map_map, slot, List.singleton_append]
      congr 1
      refine List.map_congr_left fun j _ => ?_
      simp only [Function.comp_apply]
      rw [Nat.mod_add_mod, Nat.add_assoc, Nat.add_comm 1 j]
    · -- a drop or a health report: the load balancer, and so the walk, is unchanged
      have hlb := step_lb_of_ne hs ha fun cs h => hfix cs (h ▸ List.mem_cons_self)
      have hne' : s'.lb.backends ≠ [] := by rw [hlb]; exact hne
      rw [selections_cons hs, if_neg ha, List.nil_append, ih hne' hfix' hrest hrun', hlb,
        List.count_cons_of_ne ha]

/-- Round robin is fair over runs that do not wrap the counter.  Take any
snapshot of `len ≥ 1` entries, any counter value `c`, and any completed run of
`next_backend` calls, drops and health reports, without reloads, in which every
call finds every entry eligible.  If the `m` calls keep the counter below
`2 ^ w` (`c + m ≤ 2 ^ w`), or `len` divides `2 ^ w`, each entry is selected
`⌊m / len⌋` or `⌈m / len⌉` times. -/
theorem selections_floor_or_ceil {s : World} {as : List Action} (hne : s.lb.backends ≠ [])
    (hfix : ∀ cs, .updateBackends cs ∉ as) (helig : s.eligibleAtCalls w as = true)
    (hrun : (Machine.exec (step w) s as).isSome = true)
    (hwrap : s.lb.current + as.count .nextBackend ≤ 2 ^ w ∨ s.lb.backends.length ∣ 2 ^ w)
    {k : Nat} (hk : k < s.lb.backends.length) :
    (s.selections w as).count k = as.count .nextBackend / s.lb.backends.length ∨
      (s.selections w as).count k =
        (as.count .nextBackend + s.lb.backends.length - 1) / s.lb.backends.length := by
  have hserved : s.selections w as =
      RoundRobin.served s.lb.backends.length s.lb.current (as.count .nextBackend) := by
    rw [selections_eq_range_map hne hfix helig hrun, RoundRobin.served]
    refine List.map_congr_left fun j hj => ?_
    rcases hwrap with h | h
    · have hlt : s.lb.current + j < 2 ^ w := by have := List.mem_range.1 hj; omega
      rw [Nat.mod_eq_of_lt hlt]
    · exact Nat.mod_mod_of_dvd _ h
  rw [hserved]
  exact RoundRobin.count_served_floor_or_ceil (List.length_pos_iff.2 hne) _ _ hk

theorem selections_floor_or_ceil_three :
    ((LoadBalancer.new "r" [.simple "a", .simple "b", .simple "c"] none .zero).selections 64
        [.nextBackend, .nextBackend, .dropGuard 0, .nextBackend]).count 1 =
          [Action.nextBackend, .nextBackend, .dropGuard 0, .nextBackend].count .nextBackend / 3 ∨
      ((LoadBalancer.new "r" [.simple "a", .simple "b", .simple "c"] none .zero).selections 64
        [.nextBackend, .nextBackend, .dropGuard 0, .nextBackend]).count 1 =
          ([Action.nextBackend, .nextBackend, .dropGuard 0, .nextBackend].count .nextBackend + 3 - 1) / 3 :=
  selections_floor_or_ceil (by decide) (fun _ h => by simp at h) (by decide) (by decide)
    (.inl (by decide)) (by decide)

/-- Across the wrap of the counter fairness fails.  Three eligible entries and
the counter at `2 ^ 64 - 2`: three consecutive calls select entries `2, 0, 0`,
never entry `1`, where each should be selected once. -/
theorem selections_skip_entry_at_wrap :
    ({ LoadBalancer.new "r" [.simple "a", .simple "b", .simple "c"] none .zero with
        lb := ⟨"r", [0, 1, 2], 2 ^ 64 - 2, none⟩ } : World).eligibleAtCalls 64
        [.nextBackend, .nextBackend, .nextBackend] = true ∧
      ({ LoadBalancer.new "r" [.simple "a", .simple "b", .simple "c"] none .zero with
        lb := ⟨"r", [0, 1, 2], 2 ^ 64 - 2, none⟩ } : World).selections 64
        [.nextBackend, .nextBackend, .nextBackend] = [2, 0, 0] := by
  decide

/-- At `current = usize::MAX` with three entries, the loop of one call visits
slots `0, 0, 1`: `start_index + 2` wraps to `1`.  With only the third entry
eligible, `next_backend` returns `None`. -/
theorem nextBackend_misses_eligible_at_wrap :
    visitOrder 64 (2 ^ 64 - 1) 3 = [0, 0, 1] ∧
      eligible none ((LoadBalancer.new "r" [.detailed "a" true, .detailed "b" true, .simple "c"]
        none .zero).objects 2) = true ∧
      (({ LoadBalancer.new "r" [.detailed "a" true, .detailed "b" true, .simple "c"] none .zero with
        lb := ⟨"r", [0, 1, 2], 2 ^ 64 - 1, none⟩ } : World).nextBackend 64).map Prod.fst =
          some none := by
  decide

end World

end Layer4Lb
