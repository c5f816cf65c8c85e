import Mathlib

/-!
# Lossy UTF-8 decoding

Decoding octets into characters the way `String::from_utf8_lossy` does: each
well-formed sequence of RFC 3629 §4 becomes its character, and each maximal
prefix of a well-formed sequence that cannot be completed (a stray continuation
octet, an octet no sequence starts with, a sequence cut short by an octet out of
range or by the end of the input) becomes one U+FFFD.  The decoder is a machine
over the octets: between characters, or partway through one, owing continuation
octets, with the range the next one must lie in and the bits of the code point
so far.

Decoding is transparent to ASCII.  An ASCII octet decodes to its own character
wherever it stands, since it is never a continuation octet, and every other
octet decodes to characters of `0x80` and above.  So a text of ASCII characters
occurs in the decoded characters exactly when its octets occur in the input
(`infix_fromUtf8Lossy_iff`).
-/

namespace Utf8

/-! ## Characters partway through -/

/-- The least code point the owed octets can complete: the next octet at `lo`,
the rest at `0x80`. -/
def minCode (owed : Nat) (lo : UInt8) (bits : Nat) : Nat :=
  (bits * 64 + (lo.toNat - 0x80)) * 64 ^ (owed - 1)

/-- The greatest: the next octet at `hi`, the rest at `0xBF`. -/
def maxCode (owed : Nat) (hi : UInt8) (bits : Nat) : Nat :=
  (bits * 64 + (hi.toNat - 0x80) + 1) * 64 ^ (owed - 1) - 1

/-- Every completion is a scalar value of two octets or more: at least `0x80`,
below `0x110000`, and no surrogate. -/
def ScalarRange (owed : Nat) (lo hi : UInt8) (bits : Nat) : Prop :=
  0x80 ≤ minCode owed lo bits ∧ maxCode owed hi bits < 0x110000 ∧
    (maxCode owed hi bits < 0xD800 ∨ 0xDFFF < minCode owed lo bits)

instance (owed : Nat) (lo hi : UInt8) (bits : Nat) : Decidable (ScalarRange owed lo hi bits) :=
  inferInstanceAs (Decidable (_ ∧ _ ∧ _))

/-- Partway through a character: the continuation octets still owed, the range
the next one must lie in, and the bits of the code point so far. -/
structure Partial where
  owed : Nat
  lo : UInt8
  hi : UInt8
  bits : Nat
  owed_pos : 0 < owed
  lo_ge : 0x80 ≤ lo.toNat
  hi_le : hi.toNat ≤ 0xBF
  scalar : ScalarRange owed lo hi bits

/-- Taking a continuation octet in range narrows the completions. -/
theorem ScalarRange.extend {owed : Nat} {lo hi : UInt8} {bits : Nat} (hs : ScalarRange owed lo hi bits)
    {b : UInt8} (hlo : lo.toNat ≤ b.toNat) (hhi : b.toNat ≤ hi.toNat) (hlo' : 0x80 ≤ lo.toNat)
    (hhi' : hi.toNat ≤ 0xBF) (hk : owed ≠ 1) (hpos : 0 < owed) :
    ScalarRange (owed - 1) 0x80 0xBF (bits * 64 + b.toNat % 64) := by
  obtain ⟨k, rfl⟩ : ∃ k, owed = k + 2 := ⟨owed - 2, by omega⟩
  -- the new octet weighs `64 ^ (k + 1)`, the octets after it `64 ^ k`
  have hmin : minCode (k + 2) lo bits ≤ minCode (k + 2 - 1) 0x80 (bits * 64 + b.toNat % 64) := by
    show (bits * 64 + (lo.toNat - 0x80)) * 64 ^ (k + 1) ≤
      ((bits * 64 + b.toNat % 64) * 64 + 0) * 64 ^ k
    calc (bits * 64 + (lo.toNat - 0x80)) * 64 ^ (k + 1)
        ≤ (bits * 64 + b.toNat % 64) * 64 ^ (k + 1) := Nat.mul_le_mul_right _ (by omega)
      _ = ((bits * 64 + b.toNat % 64) * 64 + 0) * 64 ^ k := by rw [Nat.pow_succ]; ring
  have hmax : maxCode (k + 2 - 1) 0xBF (bits * 64 + b.toNat % 64) ≤ maxCode (k + 2) hi bits := by
    show ((bits * 64 + b.toNat % 64) * 64 + 63 + 1) * 64 ^ k - 1 ≤
      (bits * 64 + (hi.toNat - 0x80) + 1) * 64 ^ (k + 1) - 1
    apply Nat.sub_le_sub_right
    calc ((bits * 64 + b.toNat % 64) * 64 + 63 + 1) * 64 ^ k
        = (bits * 64 + b.toNat % 64 + 1) * 64 ^ (k + 1) := by rw [Nat.pow_succ]; ring
      _ ≤ (bits * 64 + (hi.toNat - 0x80) + 1) * 64 ^ (k + 1) := Nat.mul_le_mul_right _ (by omega)
  obtain ⟨h₁, h₂, h₃⟩ := hs
  exact ⟨le_trans h₁ hmin, lt_of_le_of_lt hmax h₂,
    h₃.imp (lt_of_le_of_lt hmax) fun h => lt_of_lt_of_le h hmin⟩

/-- The last continuation octet completes a scalar value of two octets or more. -/
theorem ScalarRange.complete {lo hi : UInt8} {bits : Nat} (hs : ScalarRange 1 lo hi bits) {b : UInt8}
    (hlo : lo.toNat ≤ b.toNat) (hhi : b.toNat ≤ hi.toNat) (hlo' : 0x80 ≤ lo.toNat)
    (hhi' : hi.toNat ≤ 0xBF) :
    0x80 ≤ bits * 64 + b.toNat % 64 ∧ (bits * 64 + b.toNat % 64).isValidChar := by
  obtain ⟨h₁, h₂, h₃⟩ := hs
  simp only [minCode, maxCode, Nat.sub_self, Nat.pow_zero, Nat.mul_one] at h₁ h₂ h₃
  refine ⟨by omega, ?_⟩
  unfold Nat.isValidChar
  omega

/-- A valid code point is the code of its character. -/
theorem toNat_ofNat_of_isValidChar {n : Nat} (h : n.isValidChar) : (Char.ofNat n).toNat = n := by
  simp [Char.ofNat, h, Char.ofNatAux, Char.toNat]

/-- The character a first octet of `0x80` or more starts, by the ranges of
RFC 3629 §4: the octets it owes, the range of the next, and its own bits (the
octet without its length marker); `none` for an octet no sequence starts with. -/
def lead (b : UInt8) : Option Partial :=
  if h : 0xC2 ≤ b.toNat ∧ b.toNat ≤ 0xDF then
    some ⟨1, 0x80, 0xBF, b.toNat % 32, Nat.one_pos, by decide, by decide, by
      refine ⟨?_, ?_, .inl ?_⟩ <;> simp only [minCode, maxCode, UInt8.reduceToNat, Nat.reduceSub,
        Nat.reducePow, Nat.add_zero, Nat.mul_one] <;> omega⟩
  else if b.toNat = 0xE0 then
    some ⟨2, 0xA0, 0xBF, 0, by decide, by decide, by decide, by decide⟩
  else if h : 0xE1 ≤ b.toNat ∧ b.toNat ≤ 0xEC then
    some ⟨2, 0x80, 0xBF, b.toNat % 16, by decide, by decide, by decide, by
      refine ⟨?_, ?_, .inl ?_⟩ <;> simp only [minCode, maxCode, UInt8.reduceToNat, Nat.reduceSub,
        Nat.reducePow, Nat.add_zero] <;> omega⟩
  else if b.toNat = 0xED then
    -- `%x80-9F` keeps the surrogates out
    some ⟨2, 0x80, 0x9F, 13, by decide, by decide, by decide, by decide⟩
  else if h : 0xEE ≤ b.toNat ∧ b.toNat ≤ 0xEF then
    some ⟨2, 0x80, 0xBF, b.toNat % 16, by decide, by decide, by decide, by
      refine ⟨?_, ?_, .inr ?_⟩ <;> simp only [minCode, maxCode, UInt8.reduceToNat, Nat.reduceSub,
        Nat.reducePow, Nat.add_zero] <;> omega⟩
  else if b.toNat = 0xF0 then
    some ⟨3, 0x90, 0xBF, 0, by decide, by decide, by decide, by decide⟩
  else if h : 0xF1 ≤ b.toNat ∧ b.toNat ≤ 0xF3 then
    some ⟨3, 0x80, 0xBF, b.toNat % 8, by decide, by decide, by decide, by
      refine ⟨?_, ?_, .inr ?_⟩ <;> simp only [minCode, maxCode, UInt8.reduceToNat, Nat.reduceSub,
        Nat.reducePow, Nat.add_zero] <;> omega⟩
  else if b.toNat = 0xF4 then
    -- `%x80-8F` keeps the code points below `0x110000`
    some ⟨3, 0x80, 0x8F, 4, by decide, by decide, by decide, by decide⟩
  else none

/-! ## The decoder -/

/-- U+FFFD REPLACEMENT CHARACTER. -/
def replacement : Char := Char.ofNat 0xFFFD

/-- The octet `b` read between characters: an ASCII character, the start of a
longer one, or an octet no character starts with. -/
def start (b : UInt8) : List Char × Option Partial :=
  if b.toNat < 0x80 then ([Char.ofNat b.toNat], none)
  else
    match lead b with
    | some p => ([], some p)
    | none => ([replacement], none)

/-- A continuation octet in range: the character is complete, or owes one
octet fewer. -/
def Partial.accept (p : Partial) (b : UInt8) (h : p.lo ≤ b ∧ b ≤ p.hi) :
    List Char × Option Partial :=
  if hk : p.owed = 1 then ([Char.ofNat (p.bits * 64 + b.toNat % 64)], none)
  else
    ([], some ⟨p.owed - 1, 0x80, 0xBF, p.bits * 64 + b.toNat % 64, by have := p.owed_pos; omega,
      by decide, by decide,
      p.scalar.extend (UInt8.le_iff_toNat_le.1 h.1) (UInt8.le_iff_toNat_le.1 h.2) p.lo_ge p.hi_le hk
        p.owed_pos⟩)

/-- One octet: what it decodes to, and where the machine stands after it.  An
octet out of the range a partial character needs ends that character with one
U+FFFD and is read again between characters. -/
def step : Option Partial → UInt8 → List Char × Option Partial
  | none, b => start b
  | some p, b =>
    if h : p.lo ≤ b ∧ b ≤ p.hi then p.accept b h
    else (replacement :: (start b).1, (start b).2)

/-- The end of the input: a character cut short is one U+FFFD. -/
def finish : Option Partial → List Char
  | none => []
  | some _ => [replacement]

/-- The characters of a run of octets before its end, and where the machine
stands after it. -/
def run : Option Partial → List UInt8 → List Char × Option Partial
  | s, [] => ([], s)
  | s, b :: bs => ((step s b).1 ++ (run (step s b).2 bs).1, (run (step s b).2 bs).2)

/-- The characters of a run of octets, to its end. -/
def decodeFrom (s : Option Partial) (bs : List UInt8) : List Char :=
  (run s bs).1 ++ finish (run s bs).2

/-- `String::from_utf8_lossy`, as the characters of the string it returns. -/
def fromUtf8Lossy (bs : List UInt8) : List Char := decodeFrom none bs

/-- The octets of a text of ASCII characters. -/
def encodeAscii (p : List Char) : List UInt8 := p.map fun c => c.toNat.toUInt8

@[simp] theorem toNat_replacement : replacement.toNat = 0xFFFD := rfl

@[simp] theorem decodeFrom_nil (s : Option Partial) : decodeFrom s [] = finish s := rfl

theorem decodeFrom_cons (s : Option Partial) (b : UInt8) (bs : List UInt8) :
    decodeFrom s (b :: bs) = (step s b).1 ++ decodeFrom (step s b).2 bs := by
  simp only [decodeFrom, run, List.append_assoc]

/-! ## ASCII octets -/

section Ascii

variable {b : UInt8}

/-- An ASCII octet is never a continuation octet: it ends a character cut short
and decodes to itself. -/
theorem step_ascii (hb : b.toNat < 0x80) (s : Option Partial) :
    step s b = (finish s ++ [Char.ofNat b.toNat], none) := by
  have hstart : start b = ([Char.ofNat b.toNat], none) := if_pos hb
  cases s with
  | none => exact hstart
  | some p =>
    have hout : ¬ (p.lo ≤ b ∧ b ≤ p.hi) := fun h =>
      absurd (UInt8.le_iff_toNat_le.1 h.1) (by have := p.lo_ge; omega)
    simp only [step, dif_neg hout, hstart, finish, List.cons_append, List.nil_append]

theorem decodeFrom_ascii_cons (hb : b.toNat < 0x80) (s : Option Partial) (bs : List UInt8) :
    decodeFrom s (b :: bs) = finish s ++ Char.ofNat b.toNat :: decodeFrom none bs := by
  rw [decodeFrom_cons, step_ascii hb, List.append_assoc, List.singleton_append]

theorem ge_of_mem_finish {s : Option Partial} {c : Char} (h : c ∈ finish s) : 0x80 ≤ c.toNat := by
  cases s with
  | none => cases h
  | some p =>
    rw [List.mem_singleton.1 h, toNat_replacement]
    omega

theorem ge_of_mem_start (hb : 0x80 ≤ b.toNat) {c : Char} (h : c ∈ (start b).1) : 0x80 ≤ c.toNat := by
  have hr : 0x80 ≤ replacement.toNat := by rw [toNat_replacement]; omega
  unfold start at h
  rw [if_neg (by omega)] at h
  split at h
  · cases h
  · rw [List.mem_singleton.1 h]
    exact hr

theorem ge_of_mem_accept {p : Partial} (h : p.lo ≤ b ∧ b ≤ p.hi) {c : Char} (hc : c ∈ (p.accept b h).1) :
    0x80 ≤ c.toNat := by
  unfold Partial.accept at hc
  split at hc
  · -- the completed character is a scalar value of two octets or more
    rename_i hk
    have hs := p.scalar
    rw [hk] at hs
    obtain ⟨hge, hvalid⟩ := hs.complete (UInt8.le_iff_toNat_le.1 h.1) (UInt8.le_iff_toNat_le.1 h.2)
      p.lo_ge p.hi_le
    rw [List.mem_singleton.1 hc, toNat_ofNat_of_isValidChar hvalid]
    exact hge
  · cases hc

/-- An octet of `0x80` or more decodes to characters of `0x80` or more. -/
theorem ge_of_mem_step (hb : 0x80 ≤ b.toNat) (s : Option Partial) {c : Char} (h : c ∈ (step s b).1) :
    0x80 ≤ c.toNat := by
  cases s with
  | none => exact ge_of_mem_start hb h
  | some p =>
    simp only [step] at h
    split at h
    · exact ge_of_mem_accept _ h
    · rcases List.mem_cons.1 h with rfl | h
      · rw [toNat_replacement]; omega
      · exact ge_of_mem_start hb h

/-- From partway through a character, the next character decoded is not ASCII:
the character completes, or is cut short by an octet or by the end.  By
induction on the octets, each in range a step deeper into the character. -/
theorem exists_decodeFrom_some (p : Partial) (bs : List UInt8) :
    ∃ c cs, decodeFrom (some p) bs = c :: cs ∧ 0x80 ≤ c.toNat := by
  induction bs generalizing p with
  | nil => exact ⟨replacement, [], rfl, by rw [toNat_replacement]; omega⟩
  | cons b bs ih =>
    rw [decodeFrom_cons]
    simp only [step]
    split
    · rename_i h
      unfold Partial.accept
      split
      · exact ⟨_, _, rfl, ge_of_mem_accept h (by simp [Partial.accept, *])⟩
      · exact ih _
    · exact ⟨replacement, _, rfl, by rw [toNat_replacement]; omega⟩

/-- From between characters, an octet of `0x80` or more starts with a character
that is not ASCII. -/
theorem exists_decodeFrom_cons (hb : 0x80 ≤ b.toNat) (bs : List UInt8) :
    ∃ c cs, decodeFrom none (b :: bs) = c :: cs ∧ 0x80 ≤ c.toNat := by
  rw [decodeFrom_cons]
  simp only [step, start, if_neg (show ¬ b.toNat < 0x80 by omega)]
  split
  · exact exists_decodeFrom_some _ bs
  · exact ⟨replacement, _, rfl, by rw [toNat_replacement]; omega⟩

end Ascii

/-! ## Texts of ASCII characters -/

section Text

variable {p : List Char}

/-- The octet of an ASCII character decodes back to it. -/
theorem ofNat_toNat_toUInt8 {c : Char} (hc : c.toNat < 0x80) :
    Char.ofNat c.toNat.toUInt8.toNat = c ∧ c.toNat.toUInt8.toNat < 0x80 := by
  have h : c.toNat.toUInt8.toNat = c.toNat := by simp; omega
  rw [h]
  exact ⟨Char.ofNat_toNat c, hc⟩

/-- An ASCII text starts the decoded characters exactly when its octets start the
input.  By induction on the text: each of its characters is an ASCII octet of
the input, and an octet of `0x80` or more would start with a character that is
not ASCII. -/
theorem prefix_decodeFrom_iff (hp : ∀ c ∈ p, c.toNat < 0x80) (bs : List UInt8) :
    p <+: decodeFrom none bs ↔ encodeAscii p <+: bs := by
  induction p generalizing bs with
  | nil => exact ⟨fun _ => List.nil_prefix, fun _ => List.nil_prefix⟩
  | cons c p ih =>
    have hc := hp c List.mem_cons_self
    have hp' : ∀ c' ∈ p, c'.toNat < 0x80 := fun c' h => hp c' (List.mem_cons_of_mem _ h)
    obtain ⟨hdec, hb⟩ := ofNat_toNat_toUInt8 hc
    cases bs with
    | nil => simp [finish, encodeAscii]
    | cons b bs =>
      by_cases hb' : b.toNat < 0x80
      · -- an ASCII octet: it is the text's first character, or neither starts it
        rw [decodeFrom_ascii_cons hb', finish, List.nil_append, List.cons_prefix_cons,
          encodeAscii, List.map_cons, List.cons_prefix_cons, ← encodeAscii, ih hp']
        refine and_congr_left' ⟨fun h => ?_, fun h => ?_⟩
        · have hv : (Char.ofNat b.toNat).toNat = b.toNat :=
            toNat_ofNat_of_isValidChar (by unfold Nat.isValidChar; omega)
          rw [h, hv]
          exact UInt8.ofNat_toNat
        · rw [← h, hdec]
      · -- a character that is not ASCII comes first: neither starts with the text
        obtain ⟨c', cs, hd, hge⟩ := exists_decodeFrom_cons (not_lt.1 hb') bs
        rw [hd, List.cons_prefix_cons, encodeAscii, List.map_cons, List.cons_prefix_cons]
        refine ⟨fun h => absurd (h.1 ▸ hc) (by omega), fun h => absurd (h.1 ▸ hb) hb'⟩

/-- A text that starts with an ASCII character occurs in `X ++ D` only in `D`
when no character of `X` is ASCII.  By recursion on `X`. -/
theorem infix_append_iff {X D : List Char} (hX : ∀ x ∈ X, 0x80 ≤ x.toNat)
    (hp : ∀ c ∈ p, c.toNat < 0x80) (hne : p ≠ []) : p <:+: X ++ D ↔ p <:+: D := by
  induction X with
  | nil => rfl
  | cons x X ih =>
    rw [List.cons_append, List.infix_cons_iff, ih fun x' h => hX x' (List.mem_cons_of_mem _ h)]
    refine ⟨fun h => h.resolve_left fun hpre => ?_, .inr⟩
    -- the text would start with `x`
    obtain ⟨c, p', rfl⟩ := List.exists_cons_of_ne_nil hne
    have hcx := (List.cons_prefix_cons.1 hpre).1
    have := hp c List.mem_cons_self
    have := hX x List.mem_cons_self
    rw [hcx] at *
    omega

/-- An ASCII text occurs in the characters decoded from any state exactly when its
octets occur in the input.  By induction on the input: an ASCII octet decodes to
itself after what ends the character before it, and an octet of `0x80` or more
only to characters that are not ASCII. -/
theorem infix_decodeFrom_iff (hp : ∀ c ∈ p, c.toNat < 0x80) (hne : p ≠ []) (s : Option Partial)
    (bs : List UInt8) : p <:+: decodeFrom s bs ↔ encodeAscii p <:+: bs := by
  have hne' : encodeAscii p ≠ [] := by simpa [encodeAscii] using hne
  induction bs generalizing s with
  | nil =>
    rw [decodeFrom_nil, ← List.append_nil (finish s), infix_append_iff (fun _ => ge_of_mem_finish) hp hne]
    simp [List.infix_nil, hne, hne']
  | cons b bs ih =>
    by_cases hb : b.toNat < 0x80
    · have ih' : p <:+: decodeFrom none bs ↔ encodeAscii p <:+: bs := ih none
      rw [decodeFrom_ascii_cons hb, infix_append_iff (fun _ => ge_of_mem_finish) hp hne,
        List.infix_cons_iff, List.infix_cons_iff, ih', ← prefix_decodeFrom_iff hp,
        decodeFrom_ascii_cons hb, finish, List.nil_append]
    · -- no occurrence of the octets starts at `b`
      have hnot : ¬ encodeAscii p <+: b :: bs := by
        obtain ⟨c, p', rfl⟩ := List.exists_cons_of_ne_nil hne
        rw [encodeAscii, List.map_cons, List.cons_prefix_cons]
        exact fun h => hb (h.1 ▸ (ofNat_toNat_toUInt8 (hp c List.mem_cons_self)).2)
      have ih' : p <:+: decodeFrom (step s b).2 bs ↔ encodeAscii p <:+: bs := ih _
      rw [decodeFrom_cons, infix_append_iff (fun _ => ge_of_mem_step (not_lt.1 hb) s) hp hne, ih',
        List.infix_cons_iff, or_iff_right hnot]

/-- An ASCII text occurs in `String::from_utf8_lossy` of some octets exactly when
its octets occur in them. -/
theorem infix_fromUtf8Lossy_iff (hp : ∀ c ∈ p, c.toNat < 0x80) (bs : List UInt8) :
    p <:+: fromUtf8Lossy bs ↔ encodeAscii p <:+: bs := by
  rcases eq_or_ne p [] with rfl | hne
  · exact ⟨fun _ => List.nil_infix, fun _ => List.nil_infix⟩
  · exact infix_decodeFrom_iff hp hne none bs

end Text

end Utf8
