/-
  RlccQuic.Transport.PacketNumber — packet numbers on the wire (`xqc_packet_parser.c`: `xqc_write_packet_number`,
  `xqc_packet_parse_packet_number`, `xqc_packet_decode_packet_number`).

  The low bytes of a number are written. The reader puts the high bits of the number it
  expects above them, and is then at most one window off.

  Proved: every number in the window around the expected one is recovered (`packet_number_is_recovered`).
-/

import Mathlib.Data.Nat.Bitwise
import RlccQuic.Transport.KeyUpdate

namespace RlccQuic.Transport.PacketNumber

open KeyUpdate List UInt64

def xqcPacketNumberBits2len (bits : UInt8) : Nat := bits.toNat + 1

def xqcWritePacketNumber (pn : UInt64) (bits : UInt8) : List UInt8 :=
  let len := xqcPacketNumberBits2len bits
  (if len = 4 then [(pn >>> 24).toUInt8] else []) ++ (if len ≥ 3 then [(pn >>> 16).toUInt8] else []) ++
    (if len ≥ 2 then [(pn >>> 8).toUInt8] else []) ++ [pn.toUInt8]

/-- The bytes are shifted in; what a word cannot hold is lost. -/
def xqcPacketParsePacketNumber (bytes : List UInt8) (len : Nat) : UInt64 :=
  UInt64.ofNat ((bytes.take len).foldl (fun pn b => pn * 256 + b.toNat) 0)

/-! ## Bits and bytes -/

lemma toNat_window {k : Nat} (hk : k < 64) : ((1 : UInt64) <<< UInt64.ofNat k).toNat = 2 ^ k := by
  have hof : (UInt64.ofNat k).toNat = k := toNat_ofNat_of_lt' (Nat.lt_trans hk (by decide))
  have hlt : 2 ^ k < 2 ^ 64 := Nat.pow_lt_pow_right (by decide) hk
  rw [UInt64.toNat_shiftLeft, hof, Nat.mod_eq_of_lt hk, UInt64.toNat_one, Nat.one_shiftLeft, Nat.mod_eq_of_lt hlt]

lemma toNat_candidate {k : Nat} (hk : k < 64) (e t : UInt64) (ht : t.toNat < 2 ^ k) :
    ((e &&& ~~~((1 : UInt64) <<< UInt64.ofNat k - 1)) ||| t).toNat = 2 ^ k * (e.toNat / 2 ^ k) + t.toNat := by
  have hone : (1 : UInt64) ≤ (1 : UInt64) <<< UInt64.ofNat k := by
    rw [le_iff_toNat_le, toNat_window hk]; exact Nat.one_le_two_pow
  have hmask : ((1 : UInt64) <<< UInt64.ofNat k - 1).toNat = 2 ^ k - 1 := by
    rw [UInt64.toNat_sub_of_le _ _ hone, toNat_window hk, UInt64.toNat_one]
  have hhigh : e.toNat &&& (2 ^ 64 - 1 - (2 ^ k - 1)) = 2 ^ k * (e.toNat / 2 ^ k) := by
    refine Nat.eq_of_testBit_eq fun i => ?_
    have hlt : 2 ^ k - 1 < 2 ^ 64 := Nat.lt_of_le_of_lt (Nat.sub_le _ _) (Nat.pow_lt_pow_right (by decide) hk)
    rw [Nat.testBit_and, Nat.sub_sub, Nat.add_comm 1, Nat.testBit_two_pow_sub_succ hlt, Nat.testBit_two_pow_sub_one,
      Nat.testBit_two_pow_mul, Nat.testBit_div_two_pow]
    by_cases hi : k ≤ i
    · by_cases h64 : i < 64
      · simp [hi, h64, Nat.not_lt.mpr hi]
      · have hz : e.toNat.testBit i = false :=
          Nat.testBit_lt_two_pow (Nat.lt_of_lt_of_le e.toNat_lt (Nat.pow_le_pow_right (by decide) (by omega)))
        simp [hi, hz]
    · simp [hi, Nat.not_le.mp hi]
  rw [UInt64.toNat_or, UInt64.toNat_and, UInt64.toNat_not, hmask, Nat.two_pow_add_eq_or_of_lt ht]
  exact congrArg (· ||| t.toNat) hhigh

lemma toNat_byte (pn : UInt64) {k : UInt64} (hk : k.toNat < 64) :
    (pn >>> k).toUInt8.toNat = pn.toNat / 2 ^ k.toNat % 256 := by
  rw [UInt64.toNat_toUInt8, UInt64.toNat_shiftRight, Nat.mod_eq_of_lt hk, Nat.shiftRight_eq_div_pow]

variable {bits : UInt8}

lemma len_cases (h : bits < 4) : xqcPacketNumberBits2len bits = 1 ∨ xqcPacketNumberBits2len bits = 2 ∨
    xqcPacketNumberBits2len bits = 3 ∨ xqcPacketNumberBits2len bits = 4 := by
  have hlt : bits.toNat < 4 := h
  unfold xqcPacketNumberBits2len
  omega

lemma parse_write (hbits : bits < 4) (pn : UInt64) (rest : List UInt8) :
    (xqcPacketParsePacketNumber (xqcWritePacketNumber pn bits ++ rest) (xqcPacketNumberBits2len bits)).toNat =
      pn.toNat % 2 ^ (8 * xqcPacketNumberBits2len bits) := by
  have h0 : pn.toUInt8.toNat = pn.toNat % 256 := toNat_toUInt8 pn
  have h1 : (pn >>> 8).toUInt8.toNat = pn.toNat / 2 ^ 8 % 256 := toNat_byte pn (by decide)
  have h2 : (pn >>> 16).toUInt8.toNat = pn.toNat / 2 ^ 16 % 256 := toNat_byte pn (by decide)
  have h3 : (pn >>> 24).toUInt8.toNat = pn.toNat / 2 ^ 24 % 256 := toNat_byte pn (by decide)
  unfold xqcPacketParsePacketNumber xqcWritePacketNumber
  rcases len_cases hbits with h | h | h | h
  all_goals
    simp only [h, reduceIte, Nat.reduceEqDiff, Nat.reduceLeDiff, ge_iff_le, nil_append, cons_append,
      take_succ_cons, take_zero]
    simp only [foldl_cons, foldl_nil, toNat_ofNat', h0, h1, h2, h3]; omega

theorem packet_number_is_recovered {largest pn : UInt64} (rest : List UInt8) (hbits : bits < 4)
    (hlargest : largest.toNat < 2 ^ 62 - 1) (hpn : pn.toNat < 2 ^ 62)
    (hlow : largest.toNat + 1 < pn.toNat + 2 ^ (8 * xqcPacketNumberBits2len bits - 1))
    (hhigh : pn.toNat ≤ largest.toNat + 1 + 2 ^ (8 * xqcPacketNumberBits2len bits - 1)) :
    xqcPacketDecodePacketNumber largest
      (xqcPacketParsePacketNumber (xqcWritePacketNumber pn bits ++ rest) (xqcPacketNumberBits2len bits))
      (UInt64.ofNat (8 * xqcPacketNumberBits2len bits)) = pn := by
  have hparse := parse_write hbits pn rest
  generalize xqcPacketParsePacketNumber _ _ = t at hparse ⊢
  have hlen := len_cases hbits
  generalize xqcPacketNumberBits2len bits = n at hlow hhigh hparse hlen ⊢
  have hwin : ((1 : UInt64) <<< UInt64.ofNat (8 * n)).toNat = 2 ^ (8 * n) := toNat_window (by omega)
  have hcand := toNat_candidate (k := 8 * n) (by omega) (largest + 1) t (by rw [hparse]; exact Nat.mod_lt _ (Nat.two_pow_pos _))
  have hexp : (largest + 1).toNat = largest.toNat + 1 := by
    rw [UInt64.toNat_add, UInt64.toNat_one]; omega
  unfold xqcPacketDecodePacketNumber
  dsimp only
  generalize ((largest + 1 &&& ~~~((1 : UInt64) <<< UInt64.ofNat (8 * n) - 1)) ||| t) = c at hcand ⊢
  generalize (1 : UInt64) <<< UInt64.ofNat (8 * n) = win at hwin ⊢
  have hhwin : (win >>> 1).toNat = win.toNat / 2 := by
    rfl
  simp only [UInt64.le_iff_toNat_le, gt_iff_lt, UInt64.lt_iff_toNat_lt, UInt64.toNat_add, hhwin, hexp]
  refine UInt64.toNat_inj.mp ?_
  rcases hlen with rfl | rfl | rfl | rfl
  all_goals
    split
    · rw [UInt64.toNat_add]; omega
    · split
      · rw [UInt64.toNat_sub]; omega
      · omega

theorem a_short_number_is_recovered : xqcPacketDecodePacketNumber 0xa82f30ea
    (xqcPacketParsePacketNumber (xqcWritePacketNumber 0xa82f9b32 1 ++ []) (xqcPacketNumberBits2len 1))
    (UInt64.ofNat (8 * xqcPacketNumberBits2len 1)) = 0xa82f9b32 :=
  packet_number_is_recovered [] (by decide) (by decide) (by decide) (by decide) (by decide)

end RlccQuic.Transport.PacketNumber
