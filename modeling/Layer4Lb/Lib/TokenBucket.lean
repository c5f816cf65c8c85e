import Mathlib.Algebra.Order.Field.Basic
import Mathlib.Algebra.BigOperators.Group.List.Basic
import Mathlib.Tactic.Linarith
import Mathlib.Tactic.Ring

/-!
# Token buckets

A token bucket of capacity `cap` that earns `rate` tokens per unit of time
grants, over any window of time `[s, t]`, at most `cap + rate * (t - s)`: it
holds at most `cap` when the window opens and earns `rate * (t - s)` while it
is open.  `Conforms` states this of the list of grants `(time, amount)` a run
makes.

An implementation refills lazily: it stores a level `x` and the time `t₀` it
was stored, and materialises what it has earned only when it is next used.  The
level it shows at `t ≥ t₀` is `level cap rate x t₀ t`.  `Within` is the
invariant that carries conformance through a run: the grants still to come
from a bucket that shows `v` at time `τ` stay within `v` plus what is earned
after `τ`.  `Within.grant` and `Within.idle` are its step rules, and
`Within.conforms` turns it into `Conforms` at the start of the run.
-/

namespace TokenBucket

variable {α : Type*} [Field α] [LinearOrder α]

/-- The total amount of the grants `(time, amount)` made at times in `[s, t]`. -/
def windowSum (gs : List (α × α)) (s t : α) : α :=
  ((gs.filter fun g => s ≤ g.1 ∧ g.1 ≤ t).map Prod.snd).sum

/-- A list of grants conforms to the bucket `(cap, rate)` when every window
`[s, t]` holds at most `cap + rate * (t - s)`. -/
def Conforms (cap rate : α) (gs : List (α × α)) : Prop :=
  ∀ s t, s ≤ t → windowSum gs s t ≤ cap + rate * (t - s)

@[simp] theorem windowSum_nil (s t : α) : windowSum [] s t = 0 := rfl

theorem windowSum_cons (g : α × α) (gs : List (α × α)) (s t : α) :
    windowSum (g :: gs) s t = (if s ≤ g.1 ∧ g.1 ≤ t then g.2 else 0) + windowSum gs s t := by
  unfold windowSum
  by_cases h : s ≤ g.1 ∧ g.1 ≤ t
  · rw [List.filter_cons_of_pos (by simpa using h), if_pos h, List.map_cons, List.sum_cons]
  · rw [List.filter_cons_of_neg (by simpa using h), if_neg h, zero_add]

/-- Grants all made after `t` put nothing in a window that closes at `t`. -/
theorem windowSum_eq_zero_of_lt {gs : List (α × α)} {s t : α} (h : ∀ g ∈ gs, t < g.1) :
    windowSum gs s t = 0 := by
  unfold windowSum
  rw [List.filter_eq_nil_iff.2 fun g hg => by simpa using fun _ => h g hg]
  rfl

/-- Unit grants: the window sum counts the grants in the window. -/
theorem windowSum_unit (ts : List α) (s t : α) :
    windowSum (ts.map fun τ => (τ, 1)) s t = ((ts.filter fun τ => s ≤ τ ∧ τ ≤ t).length : α) := by
  induction ts with
  | nil => simp
  | cons τ ts ih =>
    rw [List.map_cons, windowSum_cons, ih]
    by_cases h : s ≤ τ ∧ τ ≤ t
    · rw [if_pos h, List.filter_cons_of_pos (by simpa using h), List.length_cons, Nat.cast_succ,
        add_comm]
    · rw [if_neg h, List.filter_cons_of_neg (by simpa using h), zero_add]

/-! ## The level of a lazily refilled bucket -/

/-- The level a bucket that stored `x` at time `t₀` shows at time `t`: what it
has earned since, capped at `cap`. -/
def level (cap rate x t₀ t : α) : α := min cap (x + (t - t₀) * rate)

section Level

variable {cap rate x t₀ t : α}

theorem level_le_cap : level cap rate x t₀ t ≤ cap := min_le_left _ _

/-- When nothing has been earned since `t₀`, the bucket shows what it stored. -/
theorem level_of_earned_zero (hx : x ≤ cap) (h : (t - t₀) * rate = 0) :
    level cap rate x t₀ t = x := by
  rw [level, h, add_zero, min_eq_right hx]

variable [IsStrictOrderedRing α]

theorem level_nonneg (hcap : 0 ≤ cap) (hx : 0 ≤ x) (hr : 0 ≤ rate) (ht : t₀ ≤ t) :
    0 ≤ level cap rate x t₀ t :=
  le_min hcap (add_nonneg hx (mul_nonneg (sub_nonneg.2 ht) hr))

/-- The level grows by at most `rate` per unit of time. -/
theorem level_le_add (hr : 0 ≤ rate) {t₁ t₂ : α} (ht : t₁ ≤ t₂) :
    level cap rate x t₀ t₂ ≤ level cap rate x t₀ t₁ + rate * (t₂ - t₁) := by
  have hd : 0 ≤ rate * (t₂ - t₁) := mul_nonneg hr (sub_nonneg.2 ht)
  have hsplit : x + (t₂ - t₀) * rate = x + (t₁ - t₀) * rate + rate * (t₂ - t₁) := by ring
  unfold level
  rcases min_cases cap (x + (t₁ - t₀) * rate) with ⟨h, -⟩ | ⟨h, -⟩ <;> rw [h]
  · linarith [min_le_left cap (x + (t₂ - t₀) * rate)]
  · linarith [min_le_right cap (x + (t₂ - t₀) * rate)]

/-- Filling a capped bucket in two steps is filling it in one: the cap the first
step may have met is below what the second step adds on top of it. -/
theorem min_add_min_cap (x a b cap : α) (hb : 0 ≤ b) :
    min (min (x + a) cap + b) cap = min (x + (a + b)) cap := by
  rw [← min_add_add_right, min_assoc, min_eq_right (le_add_of_nonneg_right hb), add_assoc]

end Level

/-! ## The invariant of a run -/

/-- The most a window `[s, t]` may hold of the grants made from time `τ` on by a
bucket that shows `v` at `τ`: a window open at `τ` gets `v` and what is earned
after `τ`, a later window a full bucket and what is earned while it is open. -/
def allowance (cap rate τ v s t : α) : α :=
  if s ≤ τ then v + rate * (t - τ) else cap + rate * (t - s)

/-- `Within cap rate τ v gs`: the grants `gs` of a bucket that shows `v` at time
`τ` stay within its allowance in every window that closes after `τ`. -/
def Within (cap rate τ v : α) (gs : List (α × α)) : Prop :=
  ∀ s t, s ≤ t → τ ≤ t → windowSum gs s t ≤ allowance cap rate τ v s t

section Within

variable [IsStrictOrderedRing α] {cap rate τ v s t : α}

theorem allowance_nonneg (hcap : 0 ≤ cap) (hr : 0 ≤ rate) (hv : 0 ≤ v) (hst : s ≤ t)
    (hτt : τ ≤ t) : 0 ≤ allowance cap rate τ v s t := by
  unfold allowance
  split
  · exact add_nonneg hv (mul_nonneg hr (sub_nonneg.2 hτt))
  · exact add_nonneg hcap (mul_nonneg hr (sub_nonneg.2 hst))

/-- Moving the reference time back from `τ` to `T` loosens the allowance, as long
as the level at `τ` is at most the level at `T` plus what was earned between. -/
theorem allowance_le {T x : α} (hr : 0 ≤ rate) (hT : T ≤ τ) (hx : x ≤ v + rate * (τ - T))
    (hxcap : x ≤ cap) : allowance cap rate τ x s t ≤ allowance cap rate T v s t := by
  unfold allowance
  by_cases hsT : s ≤ T
  · rw [if_pos (le_trans hsT hT), if_pos hsT]
    linarith
  · rw [if_neg hsT]
    split
    · rename_i hsτ
      nlinarith
    · exact le_rfl

theorem within_nil (hcap : 0 ≤ cap) (hr : 0 ≤ rate) (hv : 0 ≤ v) : Within cap rate τ v [] :=
  fun _ _ hst hτt => by rw [windowSum_nil]; exact allowance_nonneg hcap hr hv hst hτt

variable {T v' : α} {gs : List (α × α)}

/-- Time passing from `T` to `τ` without a grant: the bucket shows at `τ` at most
its level at `T` plus what it earned since, so the grants from `τ` on are within
the allowance from `T`. -/
theorem Within.idle (hcap : 0 ≤ cap) (hr : 0 ≤ rate) (hv : 0 ≤ v) (hT : T ≤ τ)
    (hlater : ∀ g ∈ gs, τ ≤ g.1) (hacc : v' ≤ v + rate * (τ - T)) (hv'cap : v' ≤ cap)
    (h : Within cap rate τ v' gs) : Within cap rate T v gs := by
  intro s t hst hTt
  rcases lt_or_ge t τ with htτ | hτt
  · -- the window closes before `τ`, when no grant has been made yet
    rw [windowSum_eq_zero_of_lt fun g hg => lt_of_lt_of_le htτ (hlater g hg)]
    exact allowance_nonneg hcap hr hv hst hTt
  · exact le_trans (h s t hst hτt) (allowance_le hr hT hacc hv'cap)

/-- A grant of `n` at `τ ≥ T` from a bucket that shows `v' + n` at `τ`. -/
theorem Within.grant {n : α} (hcap : 0 ≤ cap) (hr : 0 ≤ rate) (hv : 0 ≤ v) (hT : T ≤ τ)
    (hlater : ∀ g ∈ gs, τ ≤ g.1) (hacc : v' + n ≤ v + rate * (τ - T)) (hv'cap : v' + n ≤ cap)
    (h : Within cap rate τ v' gs) : Within cap rate T v ((τ, n) :: gs) := by
  intro s t hst hTt
  rcases lt_or_ge t τ with htτ | hτt
  · rw [windowSum_eq_zero_of_lt]
    · exact allowance_nonneg hcap hr hv hst hTt
    · intro g hg
      rcases List.mem_cons.1 hg with rfl | hg
      · exact htτ
      · exact lt_of_lt_of_le htτ (hlater g hg)
  · refine le_trans ?_ (allowance_le hr hT hacc hv'cap)
    have hrest := h s t hst hτt
    rw [windowSum_cons]
    unfold allowance at hrest ⊢
    by_cases hsτ : s ≤ τ
    · -- the grant falls in the window, and so does the level it was taken from
      rw [if_pos ⟨hsτ, hτt⟩, if_pos hsτ]
      rw [if_pos hsτ] at hrest
      dsimp only
      linarith
    · rw [if_neg fun h => hsτ h.1, if_neg hsτ, zero_add]
      rwa [if_neg hsτ] at hrest

/-- At the start of a run the invariant gives conformance: a bucket showing at
most `cap` at `T` conforms from then on. -/
theorem Within.conforms (hcap : 0 ≤ cap) (hr : 0 ≤ rate) (hvcap : v ≤ cap)
    (hlater : ∀ g ∈ gs, T ≤ g.1) (h : Within cap rate T v gs) : Conforms cap rate gs := by
  intro s t hst
  rcases lt_or_ge t T with htT | hTt
  · rw [windowSum_eq_zero_of_lt fun g hg => lt_of_lt_of_le htT (hlater g hg)]
    exact add_nonneg hcap (mul_nonneg hr (sub_nonneg.2 hst))
  · refine le_trans (h s t hst hTt) ?_
    unfold allowance
    split
    · rename_i hsT
      nlinarith
    · exact le_rfl

end Within

end TokenBucket
