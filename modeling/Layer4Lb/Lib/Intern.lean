import Mathlib.Logic.Function.Basic
import Mathlib.Order.Basic

/-!
# Interning tables

A table that binds keys to the addresses of objects in a growing store, and
binds a key to the next free address the first time it is looked up.  While
the table only holds addresses of the store and no two keys share one, two
lookups return the same address exactly when they are for the same key, even
when the store grows between them.
-/

namespace Intern

variable {K : Type*}

/-- A table over the addresses below `next`: bound addresses are below `next`,
and no two keys share one. -/
structure Valid (table : K → Option ℕ) (next : ℕ) : Prop where
  lt : ∀ k i, table k = some i → i < next
  inj : ∀ k k' i, table k = some i → table k' = some i → k = k'

/-- The empty table is valid over any store. -/
theorem valid_empty (next : ℕ) : Valid (fun _ : K => (none : Option ℕ)) next :=
  ⟨fun _ _ h => (nomatch h), fun _ _ _ h => (nomatch h)⟩

theorem Valid.mono {table : K → Option ℕ} {next : ℕ} (h : Valid table next) {next' : ℕ}
    (hn : next ≤ next') : Valid table next' :=
  ⟨fun k i hk => Nat.lt_of_lt_of_le (h.lt k i hk) hn, h.inj⟩

/-- The next free address after a lookup. -/
def nextAfter (table : K → Option ℕ) (next : ℕ) (key : K) : ℕ :=
  match table key with
  | some _ => next
  | none => next + 1

theorem le_nextAfter {table : K → Option ℕ} {next : ℕ} (key : K) :
    next ≤ nextAfter table next key := by
  unfold nextAfter
  split
  · exact Nat.le_refl next
  · exact Nat.le_succ next

variable [DecidableEq K]

/-- Look `key` up in `table`, binding it to the next free address `next` when
it is not bound yet: the address, and the table after. -/
def getOrInsert (table : K → Option ℕ) (next : ℕ) (key : K) : ℕ × (K → Option ℕ) :=
  match table key with
  | some i => (i, table)
  | none => (next, Function.update table key (some next))

section

variable {table : K → Option ℕ} {next : ℕ}

/-- After a lookup the key is bound to the address it returned. -/
theorem getOrInsert_bound (table : K → Option ℕ) (next : ℕ) (key : K) :
    (getOrInsert table next key).2 key = some (getOrInsert table next key).1 := by
  unfold getOrInsert
  cases h : table key with
  | some i => exact h
  | none => exact Function.update_self key (some next) table

/-- A lookup keeps every binding there was. -/
theorem getOrInsert_stable (next : ℕ) (key : K) {k : K} {i : ℕ} (h : table k = some i) :
    (getOrInsert table next key).2 k = some i := by
  unfold getOrInsert
  cases hk : table key with
  | some j => exact h
  | none =>
    have hne : k ≠ key := fun e => by rw [e, hk] at h; cases h
    exact (Function.update_of_ne hne _ _).trans h

/-- A property that every bound address has, and the next free address when the
key is new, holds of every address bound after a lookup. -/
theorem getOrInsert_forall {key : K} {Q : ℕ → Prop} (h : ∀ k i, table k = some i → Q i)
    (hnext : table key = none → Q next) :
    ∀ k i, (getOrInsert table next key).2 k = some i → Q i := by
  unfold getOrInsert
  cases hk : table key with
  | some j => exact h
  | none =>
    dsimp only
    intro k i hi
    by_cases e : k = key
    · -- the key bound just now, to `next`
      subst e
      rw [Function.update_self] at hi
      cases hi
      exact hnext hk
    · rw [Function.update_of_ne e] at hi
      exact h k i hi

/-- A lookup keeps the table valid, over the addresses below `nextAfter`. -/
theorem Valid.getOrInsert (h : Valid table next) (key : K) :
    Valid (getOrInsert table next key).2 (nextAfter table next key) := by
  unfold Intern.getOrInsert nextAfter
  cases hk : table key with
  | some i => exact h
  | none =>
    dsimp only
    constructor
    · intro k j hj
      by_cases e : k = key
      · subst e
        rw [Function.update_self] at hj
        cases hj
        exact Nat.lt_succ_self next
      · rw [Function.update_of_ne e] at hj
        exact Nat.lt_succ_of_lt (h.lt k j hj)
    · intro k k' j hj hj'
      by_cases e : k = key <;> by_cases e' : k' = key
      · rw [e, e']
      · -- the fresh address is bound to `key` only
        subst e
        rw [Function.update_self] at hj
        rw [Function.update_of_ne e'] at hj'
        cases hj
        exact absurd (h.lt k' _ hj') (Nat.lt_irrefl _)
      · subst e'
        rw [Function.update_self] at hj'
        rw [Function.update_of_ne e] at hj
        cases hj'
        exact absurd (h.lt k _ hj) (Nat.lt_irrefl _)
      · rw [Function.update_of_ne e] at hj
        rw [Function.update_of_ne e'] at hj'
        exact h.inj k k' j hj hj'

end

end Intern
