/-
  RlccQuic.Transport.HeaderProtection — the mask on a packet's header (`tls/xqc_crypto.c`: `xqc_crypto_encrypt_header`,
  `xqc_crypto_decrypt_header`) and what `xqc_packet_decrypt` reads of a packet (`xqc_packet_parser.c`).

  The mask is computed from 16 bytes that begin 4 bytes after the start of the packet number,
  wherever the packet ends. The length of the packet number is in two bits of the first
  byte, under the mask; the number is looked for inside the packet only after they are known.

  Addresses count from the packet's first byte. The cipher is a parameter, and may fail.

  Proved: the mask is taken off again, and of every packet that a parser accepts only bytes of the packet are read exactly if
  its declared length is 20 or more; the length of the payload is never below zero (`header_protection_reads_inside_iff`).
-/

import Mathlib.Logic.Function.Basic
import RlccQuic.Transport.FrameParser

namespace RlccQuic.Transport.HeaderProtection

open Lib.Cursor FrameParser List Option

/-! ## The mask -/

abbrev HpMask := List UInt8 → Option (Nat → UInt8)

inductive HpErr where
  | encrypt
  | decryptData
  | illPkt
  deriving DecidableEq, Repr

def pktnoLen (first : UInt8) : Nat := (first &&& 3).toNat + 1

def maskFirst (short : Bool) (mask : Nat → UInt8) (m : Mem) : Mem :=
  Function.update m 0 (m 0 ^^^ (mask 0 &&& if short then 0x1f else 0x0f))

/-- `pktno[i] ^= mask[i + 1]`, for each byte of the number. -/
def maskPktno (pktno len : Nat) (mask : Nat → UInt8) (m : Mem) : Mem := fun a =>
  if pktno ≤ a ∧ a < pktno + len then m a ^^^ mask (a - pktno + 1) else m a

def sample (pktno : Nat) (m : Mem) : List UInt8 := slice m (pktno + 4) 16

/-- The packet ends `length` bytes after the start of its number. -/
def xqcCryptoEncryptHeader (hp : Option HpMask) (short : Bool) (pktno length : Nat) (m : Mem) : Except HpErr Mem :=
  match hp with
  | none => .error .encrypt
  | some hpMask =>
    if pktnoLen (m 0) > length then .error .illPkt
    else
      match hpMask (sample pktno m) with
      | none => .error .encrypt
      | some mask => .ok (maskPktno pktno (pktnoLen (m 0)) mask (maskFirst short mask m))

def xqcCryptoDecryptHeader (hp : Option HpMask) (short : Bool) (pktno length : Nat) (m : Mem) : Except HpErr Mem :=
  match hp.bind fun hpMask => hpMask (sample pktno m) with
  | none => .error .decryptData
  | some mask =>
    let m := maskFirst short mask m
    if pktnoLen (m 0) > length then .error .illPkt else .ok (maskPktno pktno (pktnoLen (m 0)) mask m)

/-- What `xqc_packet_decrypt` reads: the sample, and then the packet number and the payload. It reads nothing if it returns
    before, without keys or for early data that is not accepted, and the null cipher takes no sample: both are left out. -/
def decryptReads (hp : HpMask) (short : Bool) (pktno length : Nat) (m : Mem) : List Seg :=
  ⟨pktno + 4, 16⟩ ::
    match xqcCryptoDecryptHeader hp short pktno length m with
    | .error _ => []
    | .ok m => [⟨pktno, pktnoLen (m 0)⟩, ⟨pktno + pktnoLen (m 0), length - pktnoLen (m 0)⟩]

/-! ## The parsers -/

inductive Form where
  | short (cidLen : UInt8)
  | initial
  /-- 0-RTT or Handshake. -/
  | numbered
  deriving DecidableEq, Repr

/-- `Length(i)`: the offset of the packet number, and the length from there on. -/
def parseLength (mem : Mem) (last pos : Nat) : Option (Nat × Nat) :=
  (xqcVintRead mem last pos).2.bind fun (length, size) =>
    if last < pos + size + length then none else some (pos + size, length)

/-- `Token Length(i) & Token`, up to `XQC_MAX_TOKEN_LEN` bytes. -/
def parseToken (mem : Mem) (last pos : Nat) : Option Nat :=
  (xqcVintRead mem last pos).2.bind fun (tokenLen, size) =>
    if last < pos + size + tokenLen ∨ tokenLen > 256 then none else some (pos + size + tokenLen)

/-- The end of `xqc_packet_parse_short_header`, `xqc_packet_parse_initial`,
    `xqc_packet_parse_zero_rtt` and `xqc_packet_parse_handshake`; a long header has been
    read up to `pos`, and `known` is what `xqc_conn_check_dcid` says. -/
def parse (form : Form) (known : Bool) (mem : Mem) (last pos : Nat) : Option (Nat × Nat) :=
  match form with
  | .short cidLen =>
    if last < 1 + cidLen.toNat ∨ mem 0 &&& 0x40 = 0 ∨ known = false then none
    else some (1 + cidLen.toNat, last - (1 + cidLen.toNat))
  | .initial => (parseToken mem last pos).bind (parseLength mem last)
  | .numbered => parseLength mem last pos

/-! ## The mask is taken off -/

variable {mask : Nat → UInt8} {short : Bool} {pktno len length : Nat} {m : Mem}

lemma pktnoLen_le (first : UInt8) : pktnoLen first ≤ 4 := by
  have hle : (first &&& 3).toNat ≤ 3 := by
    rw [UInt8.toNat_and]; exact Nat.and_le_right
  unfold pktnoLen
  omega

lemma maskFirst_twice (h : 0 < pktno) :
    maskFirst short mask (maskPktno pktno len mask (maskFirst short mask m)) = maskPktno pktno len mask m := by
  funext a
  rcases Nat.eq_zero_or_pos a with rfl | ha
  · simp [maskFirst, maskPktno, Nat.not_le.mpr h, UInt8.xor_assoc]
  · simp [maskFirst, maskPktno, Nat.pos_iff_ne_zero.mp ha]

lemma maskPktno_twice : maskPktno pktno len mask (maskPktno pktno len mask m) = m := by
  funext a
  unfold maskPktno
  split <;> simp [UInt8.xor_assoc]

lemma sample_masked (hlen : len ≤ 4) :
    sample pktno (maskPktno pktno len mask (maskFirst short mask m)) = sample pktno m := by
  unfold sample slice
  refine map_congr_left fun i _ => ?_
  have hout : ¬ pktno + 4 + i < pktno + len := by omega
  simp [maskPktno, maskFirst, hout]

lemma decrypt_encrypt {hp : Option HpMask} {e : Mem} (h : 0 < pktno)
    (he : xqcCryptoEncryptHeader hp short pktno length m = .ok e) :
    xqcCryptoDecryptHeader hp short pktno length e = .ok m := by
  cases hp with
  | none => cases he
  | some hpMask =>
    unfold xqcCryptoEncryptHeader at he
    dsimp only at he; split at he
    · cases he
    · rename_i hlen
      cases hm : hpMask (sample pktno m) with
      | none => simp [hm] at he
      | some mask =>
        obtain rfl : maskPktno pktno (pktnoLen (m 0)) mask (maskFirst short mask m) = e := by simpa [hm] using he
        have hfirst : maskPktno pktno (pktnoLen (m 0)) mask m 0 = m 0 := by simp [maskPktno, Nat.not_le.mpr h]
        unfold xqcCryptoDecryptHeader
        simp only [bind_some, sample_masked (pktnoLen_le _), hm, maskFirst_twice h, hfirst, if_neg hlen, maskPktno_twice]

lemma decrypt_length {hp : Option HpMask} {m' : Mem} (h : 0 < pktno)
    (hd : xqcCryptoDecryptHeader hp short pktno length m = .ok m') : pktnoLen (m' 0) ≤ length := by
  unfold xqcCryptoDecryptHeader at hd; split at hd
  · cases hd
  · rename_i mask _
    dsimp only at hd; split at hd
    · cases hd
    · rename_i hlen
      obtain rfl : maskPktno pktno _ mask (maskFirst short mask m) = m' := by simpa using hd
      simpa [maskPktno, Nat.not_le.mpr h] using hlen

lemma reads_inside_iff (hp : HpMask) (h : 0 < pktno) :
    (∀ s ∈ decryptReads hp short pktno length m, s.Within 0 (pktno + length)) ↔ 20 ≤ length := by
  unfold decryptReads
  constructor
  · intro hall
    have hsample := hall ⟨pktno + 4, 16⟩ mem_cons_self
    simp only [Seg.Within] at hsample; omega
  · intro hlong
    refine forall_mem_cons.mpr ⟨.inr ⟨Nat.zero_le _, by dsimp only; omega⟩, ?_⟩
    cases hd : xqcCryptoDecryptHeader hp short pktno length m with
    | error e => simp
    | ok m' =>
      have hle := decrypt_length h hd
      simp only [Seg.Within, forall_mem_cons, not_mem_nil, false_imp_iff, implies_true, and_true]
      omega

lemma parse_pos {form : Form} {known : Bool} {last pos : Nat} (hpos : 0 < pos)
    (hp : parse form known m last pos = some (pktno, length)) : 0 < pktno := by
  have hlength {p : Nat} (h0 : 0 < p) (h : parseLength m last p = some (pktno, length)) : 0 < pktno := by
    simp only [parseLength, bind_eq_some_iff, ite_none_left_eq_some, Option.some.injEq, Prod.mk.injEq] at h
    obtain ⟨v, -, -, rfl, -⟩ := h
    omega
  cases form with
  | short cidLen =>
    simp only [parse, ite_none_left_eq_some, Option.some.injEq, Prod.mk.injEq] at hp
    omega
  | initial =>
    simp only [parse, parseToken, bind_eq_some_iff, ite_none_left_eq_some, Option.some.injEq] at hp
    obtain ⟨p, ⟨v, -, -, rfl⟩, hp⟩ := hp
    exact hlength (by omega) hp
  | numbered => exact hlength hpos hp

theorem header_protection_reads_inside_iff (hp : HpMask) :
    (∀ (short : Bool) (pktno length : Nat) (m e : Mem), 0 < pktno →
      xqcCryptoEncryptHeader hp short pktno length m = .ok e → xqcCryptoDecryptHeader hp short pktno length e = .ok m) ∧
    ∀ (form : Form) (known short : Bool) (m : Mem) (last pos pktno length : Nat), 0 < pos →
      parse form known m last pos = some (pktno, length) →
      ((∀ s ∈ decryptReads hp short pktno length m, s.Within 0 (pktno + length)) ↔ 20 ≤ length) ∧
        ∀ m', xqcCryptoDecryptHeader hp short pktno length m = .ok m' → pktnoLen (m' 0) ≤ length :=
  ⟨fun _ _ _ _ _ h he => decrypt_encrypt h he, fun _ _ _ _ _ _ _ _ hpos hparse =>
    ⟨reads_inside_iff hp (parse_pos hpos hparse), fun _ hd => decrypt_length (parse_pos hpos hparse) hd⟩⟩

/-- A short header packet of 13 bytes, with a connection ID of 8. -/
theorem a_short_packet_is_read_beyond_its_end : parse (.short 8) true (fun _ => 0x40) 13 0 = some (9, 4) ∧
    ⟨13, 16⟩ ∈ decryptReads (fun _ => some fun _ => 0) true 9 4 (fun _ => 0x40) ∧ ¬ Seg.Within 0 (9 + 4) ⟨13, 16⟩ := by
  decide

theorem a_packet_of_twenty_bytes_is_read_inside :
    ∀ s ∈ decryptReads (fun _ => some fun _ => 0) true 9 20 (fun _ => 0x40), s.Within 0 (9 + 20) :=
  (((header_protection_reads_inside_iff fun _ => some fun _ => 0).2 (.short 8) true true (fun _ => 0x40) 29 1 9 20
    (by decide) (by decide)).1).mpr (by decide)

end RlccQuic.Transport.HeaderProtection
