import Layer4Lb.Balancer.Concurrent
import Layer4Lb.Balancer.Counters

/-!
# How far concurrent calls overshoot the connection limit

A call of `next_backend` compares an entry's counter with the limit in one
atomic load and increments it in a later atomic operation, so calls that are in
flight together can all pass the comparison on one entry and all increment it.
The overshoot is bounded by how many calls overlap.  Call a call that has found
object `o` eligible, and has not incremented it yet, a claim on `o`: then the
live guards of `o` and the claims on it together never exceed `l + n - 1`, where
`l` is the limit and `n` bounds the calls in flight at every point of the run.
Calls that never overlap (`n = 1`) keep the limit; two calls already reach
`l + 1`, as in the run of two calls on one backend of limit `1`.
-/

namespace Layer4Lb

theorem List.countP_set_le {α : Type*} (p : α → Bool) {l : List α} {i : Nat} {a : α}
    (hi : i < l.length) (ha : p a = false) : (l.set i a).countP p ≤ l.countP p := by
  rw [List.countP_set hi, ha]
  split <;> simp

theorem List.countP_eraseIdx_add {α : Type*} [DecidableEq α] (p : α → Bool) {l : List α} {i : Nat}
    (hi : i < l.length) : (l.eraseIdx i).countP p + (if p l[i] then 1 else 0) = l.countP p := by
  rw [(List.perm_cons_eraseIdx hi).countP_eq p, List.countP_cons]

namespace ConcurrentWorld

variable {w : Nat} {s s' : ConcurrentWorld}

/-- The calls in flight that found object `o` eligible and have not yet
incremented its counter. -/
def claimsOn (s : ConcurrentWorld) (o : Nat) : Nat := s.calls.countP (· = .claim o)

theorem call_cases (s : ConcurrentWorld) :
    s.call w = s ∨ s.call w = ⟨s.world.fetchAddCurrent w, s.calls ++ [.scan s.world.lb.current 0]⟩ := by
  unfold call
  split
  · exact .inl rfl
  · exact .inr rfl

/-- The inversion of `examine`: the world stays as it is, and the call ends,
moves on to its next slot, or claims an entry of the snapshot that it found
eligible. -/
theorem examine_some {t : Nat} (h : s.examine w t = some s') :
    s'.world = s.world ∧ ∃ start i, s.calls[t]? = some (.scan start i) ∧
      (s'.calls = s.calls.eraseIdx t ∨ s'.calls = s.calls.set t (.scan start (i + 1)) ∨
        ∃ o ∈ s.world.lb.backends, eligible s.world.lb.connectionLimit (s.world.objects o) = true ∧
          s'.calls = s.calls.set t (.claim o)) := by
  unfold examine at h
  split at h
  · rename_i start i hc
    dsimp only at h
    split at h
    · rename_i hlt
      split at h
      · rename_i hel
        cases h
        have hslot : World.slot w start i s.world.lb.backends.length < s.world.lb.backends.length :=
          Nat.mod_lt _ (Nat.lt_of_le_of_lt (Nat.zero_le i) hlt)
        exact ⟨rfl, start, i, hc, .inr (.inr ⟨_, List.getD_mem 0 hslot, hel, rfl⟩)⟩
      · cases h
        exact ⟨rfl, start, i, hc, .inr (.inl rfl)⟩
    · cases h
      exact ⟨rfl, start, i, hc, .inl rfl⟩
  · cases h

/-- The inversion of `increment`: the call had claimed object `o`, connects to
it, and leaves. -/
theorem increment_some {t : Nat} (h : s.increment w t = some s') :
    ∃ o r, s.calls[t]? = some (.claim o) ∧ s.world.connect w o = some (r, s'.world) ∧
      s'.calls = s.calls.eraseIdx t := by
  unfold increment at h
  split at h
  · rename_i o hc
    obtain ⟨⟨r, W⟩, hcon, rfl⟩ := Option.map_eq_some_iff.1 h
    exact ⟨o, r, hc, hcon, rfl⟩
  · cases h

/-- A drop keeps the snapshot and the limit, and takes a guard away. -/
theorem dropGuard_le {W W' : World} {i : Nat} (h : W.dropGuard w i = some W') :
    W'.lb = W.lb ∧ ∀ o, W'.guardsOn o ≤ W.guardsOn o := by
  obtain ⟨hlt, rfl⟩ := World.dropGuard_some h
  refine ⟨rfl, fun o => ?_⟩
  have hfewer := World.guardsOn_eraseIdx W hlt o
  calc (W.guards[i].drop w { W with guards := W.guards.eraseIdx i }).guardsOn o
      = ({ W with guards := W.guards.eraseIdx i } : World).guardsOn o := rfl
    _ ≤ W.guardsOn o := by omega

/-! ## The invariant of the concurrent runs -/

/-- The invariant of the sequential runs holds of the world, and every claimed
object is an entry of the snapshot, which no step of the concurrent system
replaces. -/
structure Inv (w : Nat) (s : ConcurrentWorld) : Prop where
  world : World.Inv w s.world
  claim_mem : ∀ o, Phase.claim o ∈ s.calls → o ∈ s.world.lb.backends

theorem Inv.step {a : ConcurrentAction} (hi : Inv w s) (h : s.step w a = some s') : Inv w s' := by
  cases a with
  | call =>
    cases h
    rcases call_cases (w := w) s with hc | hc <;> rw [hc]
    · exact hi
    · refine ⟨hi.world.fetchAddCurrent, fun o ho => ?_⟩
      rcases List.mem_append.1 ho with ho | ho
      · exact hi.claim_mem o ho
      · cases List.mem_singleton.1 ho
  | examine t =>
    obtain ⟨hw, start, i, -, hc⟩ := examine_some h
    refine ⟨hw ▸ hi.world, fun o ho => ?_⟩
    rw [hw]
    rcases hc with hc | hc | ⟨o', ho', -, hc⟩ <;> rw [hc] at ho
    · exact hi.claim_mem o (List.mem_of_mem_eraseIdx ho)
    · rcases List.mem_or_eq_of_mem_set ho with ho | ho
      · exact hi.claim_mem o ho
      · cases ho
    · rcases List.mem_or_eq_of_mem_set ho with ho | ho
      · exact hi.claim_mem o ho
      · cases ho
        exact ho'
  | increment t =>
    obtain ⟨o, r, hc, hcon, hcalls⟩ := increment_some h
    have ho : o ∈ s.world.lb.backends := hi.claim_mem o (List.mem_of_getElem? hc)
    refine ⟨hi.world.connect ho hcon, fun o' ho' => ?_⟩
    rw [(World.connect_some hcon).2.1]
    rw [hcalls] at ho'
    exact hi.claim_mem o' (List.mem_of_mem_eraseIdx ho')
  | dropGuard i =>
    obtain ⟨W, hd, rfl⟩ := Option.map_eq_some_iff.1 h
    refine ⟨hi.world.dropGuard hd, fun o ho => ?_⟩
    rw [(dropGuard_le hd).1]
    exact hi.claim_mem o ho

theorem Inv.start (rule : String) (cs : List BackendConfig) (limit : Option Nat) (m : Metrics) :
    Inv w ⟨LoadBalancer.new rule cs limit m, []⟩ :=
  ⟨World.Inv.new rule cs limit m, fun _ ho => absurd ho List.not_mem_nil⟩

/-! ## The overshoot -/

/-- Under the limit `l`, with at most `n` calls in flight: the live guards of
every object and the claims on it number at most `l + n - 1`. -/
structure WithinOvershoot (l n : Nat) (s : ConcurrentWorld) : Prop where
  limit_eq : s.world.lb.connectionLimit = some l
  le : ∀ o, s.world.guardsOn o + s.claimsOn o ≤ l + n - 1

/-- A call that claims an object found it below the limit, and the claims on it
are among the calls in flight; every other step moves a guard and a claim of
one object together, or takes one of them away. -/
theorem WithinOvershoot.step {l n : Nat} {a : ConcurrentAction} (hi : Inv w s)
    (ho : WithinOvershoot l n s) (h : s.step w a = some s') (hn : s'.calls.length ≤ n) :
    WithinOvershoot l n s' := by
  cases a with
  | call =>
    cases h
    rcases call_cases (w := w) s with hc | hc <;> rw [hc]
    · exact ho
    · refine ⟨ho.limit_eq, fun o => ?_⟩
      have hle := ho.le o
      simpa [claimsOn, List.countP_append, World.guardsOn, World.fetchAddCurrent] using hle
  | examine t =>
    obtain ⟨hw, start, i, hc, hcalls⟩ := examine_some h
    have ht : t < s.calls.length := (List.getElem?_eq_some_iff.1 hc).1
    refine ⟨hw ▸ ho.limit_eq, fun o => ?_⟩
    rw [hw]
    have hle := ho.le o
    rcases hcalls with hcalls | hcalls | ⟨o', ho', hel, hcalls⟩
    · have hfewer : s'.claimsOn o ≤ s.claimsOn o := by
        rw [claimsOn, hcalls]
        exact (List.eraseIdx_sublist _ _).countP_le
      omega
    · have hfewer : s'.claimsOn o ≤ s.claimsOn o := by
        rw [claimsOn, hcalls]
        exact List.countP_set_le _ ht (by simp)
      omega
    · by_cases hoo : o' = o
      · -- the new claim: the counter it read was below the limit
        subst hoo
        have hbelow : s.world.guardsOn o' < l := by
          have hact := ((eligible_iff _ _).1 hel).2.2 l ho.limit_eq
          rwa [hi.world.active_eq o' (hi.world.backend_lt o' ho')] at hact
        have hclaims : s'.claimsOn o' ≤ n := Nat.le_trans List.countP_le_length hn
        omega
      · have hfewer : s'.claimsOn o ≤ s.claimsOn o := by
          rw [claimsOn, hcalls]
          exact List.countP_set_le _ ht (by simp [hoo])
        omega
  | increment t =>
    obtain ⟨o, r, hc, hcon, hcalls⟩ := increment_some h
    obtain ⟨ht, hct⟩ := List.getElem?_eq_some_iff.1 hc
    obtain ⟨-, hlb, -⟩ := World.connect_some hcon
    refine ⟨hlb ▸ ho.limit_eq, fun o' => ?_⟩
    -- the guard the call takes replaces its claim
    have hguards := World.guardsOn_connect hcon o'
    have hclaims := List.countP_eraseIdx_add (· = Phase.claim o') ht
    have hle := ho.le o'
    rw [hct] at hclaims
    rw [claimsOn, hcalls, hguards]
    rw [claimsOn] at hle
    by_cases hoo : o = o' <;> simp [hoo] at hclaims ⊢ <;> omega
  | dropGuard i =>
    obtain ⟨W, hd, rfl⟩ := Option.map_eq_some_iff.1 h
    obtain ⟨hlb, hfewer⟩ := dropGuard_le hd
    refine ⟨hlb ▸ ho.limit_eq, fun o => ?_⟩
    have hle := ho.le o
    have hdrop := hfewer o
    exact Nat.le_trans (Nat.add_le_add_right hdrop _) hle

theorem WithinOvershoot.start {l : Nat} (n : Nat) (rule : String) (cs : List BackendConfig)
    (m : Metrics) : WithinOvershoot l n ⟨LoadBalancer.new rule cs (some l) m, []⟩ := by
  have hspec := World.allocAll_spec rule cs ⟨⟨rule, [], 0, some l⟩, fun _ => default, 0, [], m⟩
  refine ⟨by simp [LoadBalancer.new, hspec.2.1], fun o => ?_⟩
  simp [LoadBalancer.new, World.guardsOn, claimsOn, hspec.1.guards_eq]

end ConcurrentWorld

/-- The overshoot of the connection limit under concurrent calls is at most the
overlap of the calls.  Over every interleaving of calls of `next_backend`,
split into their atomic steps, with guard drops, on a load balancer built by
`new` with `connection_limit = Some(l)`: when at most `n` calls are in flight
at every point of the run, no backend's `active_connections` exceeds
`l + n - 1`. -/
theorem activeConnections_le_limit_add_calls {w : Nat} {rule : String} {l n : Nat}
    {s₀ s' : ConcurrentWorld} {as : List ConcurrentAction}
    (h₀ : (concurrentBalancer w rule (some l)).init s₀)
    (he : Machine.exec (concurrentBalancer w rule (some l)).step s₀ as = some s')
    (hn : ∀ s ∈ Machine.states (concurrentBalancer w rule (some l)).step s₀ as, s.calls.length ≤ n) :
    ∀ o < s'.world.allocated, (s'.world.objects o).activeConnections ≤ l + n - 1 := by
  obtain ⟨cs, m, rfl⟩ := h₀
  have hend : ConcurrentWorld.Inv w s' ∧ ConcurrentWorld.WithinOvershoot l n s' :=
    Machine.exec_preserves_along
      (P := fun s => ConcurrentWorld.Inv w s ∧ ConcurrentWorld.WithinOvershoot l n s)
      (B := fun s => s.calls.length ≤ n)
      (fun _ _ _ hs h hB => ⟨hs.1.step h, hs.2.step hs.1 h hB⟩)
      ⟨ConcurrentWorld.Inv.start rule cs (some l) m, ConcurrentWorld.WithinOvershoot.start n rule cs m⟩
      hn he
  intro o ho
  have hle := hend.2.le o
  rw [hend.1.world.active_eq o ho]
  omega

theorem activeConnections_le_limit_add_calls_two_calls :
    ∃ s', Machine.exec (concurrentBalancer 64 "r" (some 1)).step oneSlot racingCalls = some s' ∧
      (∀ s ∈ Machine.states (concurrentBalancer 64 "r" (some 1)).step oneSlot racingCalls,
        s.calls.length ≤ 2) ∧
      (s'.world.objects 0).activeConnections = 2 ∧ (s'.world.objects 0).activeConnections ≤ 1 + 2 - 1 := by
  have hrun : (Machine.exec (concurrentBalancer 64 "r" (some 1)).step oneSlot racingCalls).map
      (fun s => (s.world.allocated, (s.world.objects 0).activeConnections)) = some (1, 2) := by
    decide
  obtain ⟨s', he, hval⟩ := Option.map_eq_some_iff.1 hrun
  obtain ⟨halloc, hact⟩ := Prod.mk.inj hval
  have hn : ∀ s ∈ Machine.states (concurrentBalancer 64 "r" (some 1)).step oneSlot racingCalls,
      s.calls.length ≤ 2 := by
    decide
  exact ⟨s', he, hn, hact,
    activeConnections_le_limit_add_calls ⟨_, _, rfl⟩ he hn 0 (by rw [halloc]; exact Nat.one_pos)⟩

end Layer4Lb
