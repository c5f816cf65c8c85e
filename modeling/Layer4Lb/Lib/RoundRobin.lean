import Mathlib.Data.Int.CardIntervalMod

/-!
# Round robin over residues

A round-robin counter that takes the values `c, c + 1, …, c + m - 1` and serves,
for each, its residue modulo `n` serves every residue `⌊m / n⌋` or `⌈m / n⌉`
times.  After a shift by `c` this is Mathlib's `Nat.count_modEq_card`, which
counts the numbers below `m` in one residue class.
-/

namespace RoundRobin

/-- The residues modulo `n` served by `m` consecutive counter values from `c`. -/
def served (n c m : ℕ) : List ℕ := (List.range m).map fun j => (c + j) % n

/-- The counter value `c + j` is served to `k` exactly when `j` lies in one
residue class, which depends on `c` and `k` only. -/
theorem add_mod_eq_iff {n k : ℕ} (hk : k < n) (c j : ℕ) :
    (c + j) % n = k ↔ j ≡ k + (n - c % n) [MOD n] := by
  have hv : c + (k + (n - c % n)) ≡ k [MOD n] := by
    have h₁ := Nat.mod_add_div c n
    have h₂ := Nat.mod_lt c (Nat.lt_of_le_of_lt (Nat.zero_le k) hk)
    have h₃ : c + (k + (n - c % n)) = k + n * (c / n + 1) := by rw [Nat.mul_succ]; omega
    rw [h₃]
    exact Nat.add_mul_mod_self_left k n _
  have hk' : k % n = k := Nat.mod_eq_of_lt hk
  constructor
  · intro h
    have hcj : c + j ≡ k [MOD n] := by rw [Nat.ModEq, h, hk']
    exact Nat.ModEq.add_left_cancel' c (hcj.trans hv.symm)
  · intro h
    have hcj := (Nat.ModEq.add_left c h).trans hv
    rwa [Nat.ModEq, hk'] at hcj

theorem count_served {n : ℕ} (hn : 0 < n) (c m : ℕ) {k : ℕ} (hk : k < n) :
    (served n c m).count k = m / n + if (k + (n - c % n)) % n < m % n then 1 else 0 := by
  rw [← Nat.count_modEq_card _ hn, served, List.count, List.countP_map, Nat.count]
  refine List.countP_congr fun j _ => ?_
  simp [add_mod_eq_iff hk]

/-- `⌈m / n⌉` is one more than `⌊m / n⌋` when `n` does not divide `m`. -/
theorem ceil_div_eq_succ {n m : ℕ} (hn : 0 < n) (h : 0 < m % n) : (m + n - 1) / n = m / n + 1 := by
  have hm := Nat.mod_lt m hn
  have hsplit : m + n - 1 = n * (m / n) + (m % n + n - 1) := by
    have := Nat.mod_add_div m n; omega
  have hone : (m % n + n - 1) / n = 1 := Nat.div_eq_of_lt_le (by omega) (by omega)
  rw [hsplit, Nat.mul_add_div hn, hone]

/-- Each residue is served `⌊m / n⌋` or `⌈m / n⌉` times. -/
theorem count_served_floor_or_ceil {n : ℕ} (hn : 0 < n) (c m : ℕ) {k : ℕ} (hk : k < n) :
    (served n c m).count k = m / n ∨ (served n c m).count k = (m + n - 1) / n := by
  rw [count_served hn c m hk]
  split
  · rename_i h
    exact .inr (ceil_div_eq_succ hn (Nat.lt_of_le_of_lt (Nat.zero_le _) h)).symm
  · exact .inl rfl

end RoundRobin
