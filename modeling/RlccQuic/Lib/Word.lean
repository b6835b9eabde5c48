/-
  RlccQuic.Lib.Word — C integer conversions.

  Unsigned words are `UInt32` and `UInt64`, so arithmetic on them wraps as C's does. Here are the conversions between
  them and signed values, and the `toNat` form of each, which is what arithmetic proofs work with.
-/

import Mathlib.Algebra.Group.Int.Defs
import Mathlib.Algebra.GroupWithZero.Nat

namespace RlccQuic.Lib.Word

/-- A 32-bit pattern read as a signed int, which is what `%d` prints. -/
def asInt32 (x : UInt32) : Int := if x.toNat < 2 ^ 31 then x.toNat else x.toNat - 2 ^ 32

/-- A 64-bit pattern read as a signed long, which is what `%ld` prints. -/
def asInt64 (x : UInt64) : Int := if x.toNat < 2 ^ 63 then x.toNat else x.toNat - 2 ^ 64

lemma asInt32_eq_iff (x : UInt32) (n : Nat) : asInt32 x = n ↔ x.toNat = n ∧ n < 2 ^ 31 := by
  have := x.toNat_lt
  unfold asInt32
  split <;> omega

lemma asInt64_eq_iff (x : UInt64) (n : Nat) : asInt64 x = n ↔ x.toNat = n ∧ n < 2 ^ 63 := by
  have := x.toNat_lt
  unfold asInt64
  split <;> omega

lemma toNat_ofInt32 (v : Int) : (UInt32.ofInt v).toNat = (v % 2 ^ 32).toNat := by
  simp only [UInt32.ofInt, UInt32.toNat_ofNat']; omega

/-- A double that is a non-negative quotient of integers, converted to a 32-bit
    word: its whole part if that fits. C leaves the other conversions (a quotient
    by zero, a part of 2^32 or more) undefined, and `ub` stands for their result. -/
def quotToU32 (num den : Nat) (ub : UInt32) : UInt32 :=
  if den ≠ 0 ∧ num / den < 2 ^ 32 then UInt32.ofNat (num / den) else ub

lemma toNat_quotToU32 {num den : Nat} (ub : UInt32) (hd : den ≠ 0) (hq : num / den < 2 ^ 32) :
    (quotToU32 num den ub).toNat = num / den := by
  rw [quotToU32, if_pos ⟨hd, hq⟩, UInt32.toNat_ofNat_of_lt' hq]

/-! ## The macros `xqc_min` and `xqc_max` at 64 bits -/

def minU64 (a b : UInt64) : UInt64 := if a < b then a else b

def maxU64 (a b : UInt64) : UInt64 := if b < a then a else b

@[simp] lemma toNat_minU64 (a b : UInt64) : (minU64 a b).toNat = min a.toNat b.toNat := by
  unfold minU64
  split <;> rename_i h <;> rw [UInt64.lt_iff_toNat_lt] at h <;> omega

@[simp] lemma toNat_maxU64 (a b : UInt64) : (maxU64 a b).toNat = max a.toNat b.toNat := by
  unfold maxU64
  split <;> rename_i h <;> rw [UInt64.lt_iff_toNat_lt] at h <;> omega

end RlccQuic.Lib.Word
