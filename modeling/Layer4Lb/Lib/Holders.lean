import Mathlib

/-!
# Holders of resources

A list of holders, each of which holds at most one resource (`f : τ → Option ι`
reads it off a holder), and the resources they hold, `l.filterMap f`.  When one
holder is replaced (`set`) or leaves (`eraseIdx`), the resources held change by
what it held and what it holds now, up to the order of the list.  A pool of
tasks holding guards, locks or tokens is an instance: the conservation of what
they hold is then a permutation between the resources a shared structure keeps
and those the holders have.
-/

open scoped List

namespace Holders

variable {τ ι : Type*} (f : τ → Option ι)

/-- What a list of holders holds is what its head holds, then what the rest
holds. -/
theorem filterMap_cons_eq (a : τ) (l : List τ) :
    (a :: l).filterMap f = (f a).toList ++ l.filterMap f := by
  cases h : f a <;> simp [h]

/-- Two blocks around a middle one trade places. -/
theorem perm_swap_ends {α : Type*} (x m y : List α) : x ++ (m ++ y) ~ y ++ (m ++ x) :=
  calc x ++ (m ++ y) ~ m ++ (x ++ y) := List.perm_append_comm_assoc x m y
    _ ~ m ++ (y ++ x) := List.perm_append_comm.append_left m
    _ ~ y ++ (m ++ x) := List.perm_append_comm_assoc m y x

/-- A list cut around its `i`-th element. -/
theorem eq_take_cons_drop {l : List τ} {i : Nat} (hi : i < l.length) :
    l = l.take i ++ l[i] :: l.drop (i + 1) := by
  rw [← List.drop_eq_getElem_cons hi, List.take_append_drop]

/-- Replacing holder `i`, which was `a`, by `b`: the holders give up what `a`
held and gain what `b` holds. -/
theorem perm_set {l : List τ} {i : Nat} {a : τ} (h : l[i]? = some a) (b : τ) :
    (l.set i b).filterMap f ++ (f a).toList ~ l.filterMap f ++ (f b).toList := by
  obtain ⟨hi, rfl⟩ := List.getElem?_eq_some_iff.1 h
  rw [List.set_eq_take_append_cons_drop, if_pos hi]
  conv_rhs => rw [eq_take_cons_drop hi]
  simp only [List.filterMap_append, filterMap_cons_eq, List.append_assoc]
  exact List.Perm.append_left _ (perm_swap_ends _ _ _)

/-- Holder `i`, which was `a`, leaves with what it held. -/
theorem perm_eraseIdx {l : List τ} {i : Nat} {a : τ} (h : l[i]? = some a) :
    (l.eraseIdx i).filterMap f ++ (f a).toList ~ l.filterMap f := by
  obtain ⟨hi, rfl⟩ := List.getElem?_eq_some_iff.1 h
  rw [List.eraseIdx_eq_take_drop_succ]
  conv_rhs => rw [eq_take_cons_drop hi]
  simp only [List.filterMap_append, filterMap_cons_eq, List.append_assoc]
  exact List.Perm.append_left _ List.perm_append_comm

section Cases

variable {l : List τ} {i : Nat} {a : τ}

/-- A holder that held nothing takes `r`. -/
theorem perm_set_acquire (h : l[i]? = some a) (ha : f a = none) (b : τ) {r : ι}
    (hb : f b = some r) : (l.set i b).filterMap f ~ l.filterMap f ++ [r] := by
  simpa [ha, hb] using perm_set f h b

/-- A holder changes and keeps what it held. -/
theorem perm_set_keep (h : l[i]? = some a) (b : τ) (hb : f b = f a) :
    (l.set i b).filterMap f ~ l.filterMap f :=
  (List.perm_append_right_iff _).1 (hb ▸ perm_set f h b)

/-- A holder gives up `r`. -/
theorem perm_set_release (h : l[i]? = some a) {r : ι} (ha : f a = some r) (b : τ)
    (hb : f b = none) : (l.set i b).filterMap f ++ [r] ~ l.filterMap f := by
  simpa [ha, hb] using perm_set f h b

/-- A holder that held nothing leaves. -/
theorem eraseIdx_of_none (h : l[i]? = some a) (ha : f a = none) :
    (l.eraseIdx i).filterMap f ~ l.filterMap f := by
  simpa [ha] using perm_eraseIdx f h

/-- A holder leaves with `r`. -/
theorem perm_eraseIdx_some (h : l[i]? = some a) {r : ι} (ha : f a = some r) :
    (l.eraseIdx i).filterMap f ++ [r] ~ l.filterMap f := by
  simpa [ha] using perm_eraseIdx f h

end Cases

/-- Counted by `g` against a second list, the total of the holders changes by
what holder `i` counted before it was replaced and what it counts after. -/
theorem sum_zipWith_set {β : Type*} (g : τ → β → Nat) {l : List τ} {m : List β} {i : Nat}
    {a : τ} {b : β} (ha : l[i]? = some a) (hb : m[i]? = some b) (x : τ) :
    (List.zipWith g (l.set i x) m).sum + g a b = (List.zipWith g l m).sum + g x b := by
  induction l generalizing i m with
  | nil => cases ha
  | cons y ys ih =>
    cases m with
    | nil => cases hb
    | cons z zs =>
      cases i with
      | zero =>
        obtain rfl := Option.some.inj ha
        obtain rfl := Option.some.inj hb
        simp only [List.set_cons_zero, List.zipWith_cons_cons, List.sum_cons]
        omega
      | succ i =>
        have := ih (List.getElem?_cons_succ ▸ ha) (List.getElem?_cons_succ ▸ hb)
        simp only [List.set_cons_succ, List.zipWith_cons_cons, List.sum_cons]
        omega

/-- What one holder counts is at most the total. -/
theorem le_sum_zipWith {β : Type*} (g : τ → β → Nat) {l : List τ} {m : List β} {i : Nat} {a : τ}
    {b : β} (ha : l[i]? = some a) (hb : m[i]? = some b) : g a b ≤ (List.zipWith g l m).sum :=
  List.le_sum_of_mem (List.mem_iff_getElem?.2 ⟨i, by rw [List.getElem?_zipWith, ha, hb]⟩)

/-- Holders that count nothing have a total of nothing. -/
theorem sum_zipWith_eq_zero {β : Type*} (g : τ → β → Nat) {l : List τ} (h : ∀ a ∈ l, ∀ b, g a b = 0)
    (m : List β) : (List.zipWith g l m).sum = 0 := by
  induction l generalizing m with
  | nil => rfl
  | cons y ys ih =>
    cases m with
    | nil => rfl
    | cons z zs =>
      rw [List.zipWith_cons_cons, List.sum_cons, h y List.mem_cons_self z,
        ih (fun a ha => h a (List.mem_cons_of_mem y ha)) zs]

end Holders
