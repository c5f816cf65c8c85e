import Mathlib.Data.List.Basic

/-!
# Big-endian numbers in octets

A 16-bit number as its two octets, most significant first, the way `put_u16`
of a byte buffer writes it (`u16::to_be_bytes`), and the number a list of octets
spells when read most significant first.  Reading back what was written gives
the number.
-/

namespace Bytes

/-- The octets of a 16-bit number, most significant first. -/
def be16 (n : UInt16) : List UInt8 := [(n >>> 8).toUInt8, n.toUInt8]

/-- The number a list of octets spells, most significant first. -/
def beValue (bs : List UInt8) : Nat := bs.foldl (fun acc b => acc * 256 + b.toNat) 0

@[simp] theorem length_be16 (n : UInt16) : (be16 n).length = 2 := rfl

theorem beValue_pair (hi lo : UInt8) : beValue [hi, lo] = hi.toNat * 256 + lo.toNat := by
  simp [beValue]

theorem toNat_be16_hi (n : UInt16) : (n >>> 8).toUInt8.toNat = n.toNat / 256 := by
  rw [UInt16.toNat_toUInt8, UInt16.toNat_shiftRight]
  have := n.toNat_lt
  simp only [UInt16.toNat_ofNat, Nat.shiftRight_eq_div_pow]
  simp only [Nat.reduceMod, Nat.reducePow]
  omega

/-- Reading the two octets of `be16 n` back gives `n`. -/
@[simp] theorem beValue_be16 (n : UInt16) : beValue (be16 n) = n.toNat := by
  rw [be16, beValue_pair, toNat_be16_hi, UInt16.toNat_toUInt8]
  omega

/-- `beValue_be16` with `be16` written out, as it stands once a list is taken
apart octet by octet. -/
@[simp] theorem beValue_hi_lo (n : UInt16) : beValue [(n >>> 8).toUInt8, n.toUInt8] = n.toNat :=
  beValue_be16 n

@[simp] theorem toUInt16_beValue_be16 (n : UInt16) : (beValue (be16 n)).toUInt16 = n := by
  simp

end Bytes
