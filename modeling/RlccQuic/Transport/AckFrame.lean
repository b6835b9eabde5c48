/-
  RlccQuic.Transport.AckFrame — what `xqc_parse_ack_frame` stores (`xqc_frame_parser.c`).

  The frame has its largest number, and then lengths and gaps that count down from it.
  The parser subtracts them as 64-bit words and tests nothing, stores the first 64 ranges
  and reads over the others. The delay is shifted left, and what does not fit is lost.

  Proved: an accepted frame is stored as what it says exactly if its first 64 ranges stay at or above 0 and the delay
  fits 64 bits; a frame with a range below 0 is rejected exactly if there is none (`ack_frame_iff`). A first range
  longer than the largest number is accepted (`first_range_wraps`).
-/

import Mathlib.Data.List.Chain
import RlccQuic.Transport.FrameBounds

namespace RlccQuic.Transport.FrameParser

open Lib.Cursor Transport List UInt64

variable (pkt : PacketIn)

/-! ## The integers of the frame -/

structure AckFields where
  largestAcked : Nat
  ackDelay : Nat
  firstAckRange : Nat
  /-- The gap and the length of each further range. -/
  rest : List (Nat × Nat)
  deriving DecidableEq, Repr

def gapsAndRanges : Nat → Cur Err (List (Nat × Nat))
  | 0 => pure []
  | n + 1 => do
    let gap ← vint pkt
    let range ← vint pkt
    let rest ← gapsAndRanges n
    return (gap, range) :: rest

def ackFields : Cur Err AckFields := do
  let _firstByte ← byte pkt.mem
  let largestAcked ← vint pkt
  let ackDelay ← vint pkt
  let ackRangeCount ← vint pkt
  let firstAckRange ← vint pkt
  let rest ← gapsAndRanges pkt ackRangeCount
  return ⟨largestAcked, ackDelay, firstAckRange, rest⟩

/-- The ranges below `low`, as integers: upper and lower end. -/
def descend (low : Int) : List (Nat × Nat) → List (Int × Int)
  | [] => []
  | (gap, range) :: rest =>
    let high := low - gap - 2
    (high, high - range) :: descend (high - range) rest

def AckFields.ranges (f : AckFields) : List (Int × Int) :=
  let low : Int := f.largestAcked - f.firstAckRange
  (f.largestAcked, low) :: descend low f.rest

def depth (rest : List (Nat × Nat)) : Nat := (rest.map fun x => x.1 + 2 + x.2).sum

/-! ## What is stored -/

/-- The ranges stored below `low`, with room for `room` of them. -/
def pushed : (room : Nat) → (low : UInt64) → List (Nat × Nat) → List PktnoRange
  | 0, _, _ => []
  | _ + 1, _, [] => []
  | room + 1, low, (gap, range) :: rest =>
    let high := low - UInt64.ofNat gap - 2
    ⟨high, high - UInt64.ofNat range⟩ :: pushed room (high - UInt64.ofNat range) rest

def AckFields.info (pns : Pns) (exponent : UInt64) (f : AckFields) : AckInfo :=
  let high := UInt64.ofNat f.largestAcked
  let low := high - UInt64.ofNat f.firstAckRange
  ⟨pns, ⟨high, low⟩ :: pushed (xqcMaxAckRangeCnt - 1) low f.rest, UInt64.ofNat f.ackDelay <<< exponent⟩

lemma foldl_pushRange (rest : List (Nat × Nat)) : ∀ (prev : PktnoRange) (stored : List PktnoRange),
    rest.foldl (fun s x => pushRange s x.1 x.2) (prev :: stored) =
      (pushed (xqcMaxAckRangeCnt - (stored.length + 1)) prev.low rest).reverse ++ prev :: stored := by
  induction rest with
  | nil =>
    intro prev stored
    cases xqcMaxAckRangeCnt - (stored.length + 1) <;> rfl
  | cons x rest ih =>
    intro prev stored; rw [foldl_cons]
    by_cases hroom : stored.length + 1 < xqcMaxAckRangeCnt
    · have hpush : pushRange (prev :: stored) x.1 x.2 =
          ⟨prev.low - UInt64.ofNat x.1 - 2, prev.low - UInt64.ofNat x.1 - 2 - UInt64.ofNat x.2⟩ :: prev :: stored :=
        if_pos hroom
      obtain ⟨k, hk⟩ : ∃ k, xqcMaxAckRangeCnt - (stored.length + 1) = k + 1 :=
        ⟨xqcMaxAckRangeCnt - (stored.length + 1) - 1, by omega⟩
      have hk' : xqcMaxAckRangeCnt - ((prev :: stored).length + 1) = k := by
        rw [length_cons]; omega
      rw [hpush, ih, hk, hk', pushed, reverse_cons, append_assoc]; rfl
    · have hpush : pushRange (prev :: stored) x.1 x.2 = prev :: stored := if_neg hroom
      have hzero : xqcMaxAckRangeCnt - (stored.length + 1) = 0 := by omega
      rw [hpush, ih, hzero]; rfl

lemma ackRanges_eq (n : Nat) : ∀ stored, ackRanges pkt n stored =
    (do let rest ← gapsAndRanges pkt n; return rest.foldl (fun s x => pushRange s x.1 x.2) stored) := by
  induction n with
  | zero => intro stored; simp [ackRanges, gapsAndRanges]
  | succ n ih => intro stored; simp [ackRanges, gapsAndRanges, ih]

lemma parseAck_eq (exponent : UInt64) :
    xqcParseAckFrame pkt exponent = (do let f ← ackFields pkt; return .ack (f.info pkt.pns exponent)) := by
  simp [xqcParseAckFrame, ackFields, ackRanges_eq, AckFields.info, foldl_pushRange]

/-! ## Ranges that do not wrap -/

def PktnoRange.ends (r : PktnoRange) : Int × Int := (r.high.toNat, r.low.toNat)

lemma toNat_sub_eq_iff (a : UInt64) (n : Nat) :
    ((a - UInt64.ofNat n).toNat : Int) = (a.toNat : Int) - n ↔ n ≤ a.toNat := by
  have ha := a.toNat_lt
  rw [UInt64.toNat_sub, UInt64.toNat_ofNat']; omega

lemma toNat_high_eq_iff (low : UInt64) (gap : Nat) :
    ((low - UInt64.ofNat gap - 2).toNat : Int) = (low.toNat : Int) - gap - 2 ↔ gap + 2 ≤ low.toNat := by
  have hlow := low.toNat_lt
  have htwo : (2 : UInt64).toNat = 2 := rfl
  rw [UInt64.toNat_sub, UInt64.toNat_sub, UInt64.toNat_ofNat']; omega

lemma ends_eq_iff (low : UInt64) (gap range : Nat) :
    PktnoRange.ends ⟨low - UInt64.ofNat gap - 2, low - UInt64.ofNat gap - 2 - UInt64.ofNat range⟩ =
        ((low.toNat : Int) - gap - 2, (low.toNat : Int) - gap - 2 - range) ↔ gap + 2 + range ≤ low.toNat := by
  have hhigh := toNat_high_eq_iff low gap
  have hlow := toNat_sub_eq_iff (low - UInt64.ofNat gap - 2) range
  simp only [PktnoRange.ends, Prod.mk.injEq]; omega

lemma depth_cons (x : Nat × Nat) (rest : List (Nat × Nat)) : depth (x :: rest) = x.1 + 2 + x.2 + depth rest := rfl

/-- The ranges stored are those of the frame exactly if all of them stay at or above 0. -/
lemma pushed_eq_iff (rest : List (Nat × Nat)) : ∀ (room : Nat) (low : UInt64),
    (pushed room low rest).map PktnoRange.ends = (descend low.toNat rest).take room ↔
      depth (rest.take room) ≤ low.toNat := by
  induction rest with
  | nil =>
    intro room low
    cases room with
    | zero => simp [pushed, depth]
    | succ room => simp [pushed, descend, depth]
  | cons x rest ih =>
    intro room low
    obtain ⟨gap, range⟩ := x
    cases room with
    | zero => simp [pushed, depth]
    | succ room =>
      have hfirst := ends_eq_iff low gap range
      have hrest := ih room (low - UInt64.ofNat gap - 2 - UInt64.ofNat range)
      rw [pushed, descend, map_cons, take_succ_cons, take_succ_cons, List.cons.injEq, hfirst, depth_cons]
      constructor
      · rintro ⟨hfit, heq⟩
        have hlow : ((low - UInt64.ofNat gap - 2 - UInt64.ofNat range).toNat : Int) = (low.toNat : Int) - gap - 2 - range :=
          (Prod.mk.inj (hfirst.mpr hfit)).2
        rw [← hlow, hrest] at heq; omega
      · intro hfit
        have hlow : ((low - UInt64.ofNat gap - 2 - UInt64.ofNat range).toNat : Int) = (low.toNat : Int) - gap - 2 - range :=
          (Prod.mk.inj (hfirst.mpr (by omega))).2
        rw [← hlow, hrest]; omega

lemma stored_eq_iff (pns : Pns) (exponent : UInt64) {f : AckFields} (hlt : f.largestAcked < 2 ^ 62) :
    (f.info pns exponent).ranges.map PktnoRange.ends = f.ranges.take xqcMaxAckRangeCnt ↔
      f.firstAckRange + depth (f.rest.take (xqcMaxAckRangeCnt - 1)) ≤ f.largestAcked := by
  have htop : (UInt64.ofNat f.largestAcked).toNat = f.largestAcked :=
    toNat_ofNat_of_lt' (Nat.lt_trans hlt (by decide))
  have hlow := toNat_sub_eq_iff (UInt64.ofNat f.largestAcked) f.firstAckRange
  have hrest := pushed_eq_iff f.rest (xqcMaxAckRangeCnt - 1) (UInt64.ofNat f.largestAcked - UInt64.ofNat f.firstAckRange)
  rw [htop] at hlow
  simp only [AckFields.info, AckFields.ranges, map_cons]
  rw [show xqcMaxAckRangeCnt = xqcMaxAckRangeCnt - 1 + 1 from rfl, take_succ_cons, List.cons.injEq]
  simp only [PktnoRange.ends, Prod.mk.injEq, htop, true_and]; rw [hlow]
  constructor
  · rintro ⟨hfit, heq⟩
    have hl := hlow.mpr hfit
    rw [← hl] at heq
    have := hrest.mp heq
    simp only [Nat.add_sub_cancel]; omega
  · intro hfit
    have hl := hlow.mpr (by omega)
    rw [← hl]
    exact ⟨by omega, hrest.mpr (by simp only [Nat.add_sub_cancel] at hfit; omega)⟩

/-- Ranges that stay at or above 0 lie below each other, with a number between them. -/
lemma pushed_apart (rest : List (Nat × Nat)) : ∀ (room : Nat) (prev : PktnoRange),
    depth (rest.take room) ≤ prev.low.toNat →
      (∀ r ∈ pushed room prev.low rest, r.low ≤ r.high ∧ r.high ≤ prev.low) ∧
        (prev :: pushed room prev.low rest).IsChain fun r r' => r'.high.toNat + 2 ≤ r.low.toNat := by
  induction rest with
  | nil =>
    intro room prev _
    cases room <;> exact ⟨nofun, .singleton _⟩
  | cons x rest ih =>
    intro room prev hfit
    obtain ⟨gap, range⟩ := x
    cases room with
    | zero => exact ⟨nofun, .singleton _⟩
    | succ room =>
      rw [take_succ_cons, depth_cons] at hfit
      have hhigh := (toNat_high_eq_iff prev.low gap).mpr (by omega)
      have hlow := (toNat_sub_eq_iff (prev.low - UInt64.ofNat gap - 2) range).mpr (by omega)
      obtain ⟨heach, hchain⟩ := ih room ⟨prev.low - UInt64.ofNat gap - 2, prev.low - UInt64.ofNat gap - 2 - UInt64.ofNat range⟩
        (by dsimp only; omega)
      refine ⟨fun r hr => ?_, isChain_cons_cons.mpr ⟨?_, hchain⟩⟩
      · rw [le_iff_toNat_le, le_iff_toNat_le]
        rcases mem_cons.mp hr with rfl | hr
        · dsimp only; omega
        · have hle := heach r hr
          rw [le_iff_toNat_le, le_iff_toNat_le] at hle
          dsimp only at hle; omega
      · dsimp only; omega

/-! ## What is accepted -/

lemma vint_lt {p q v : Nat} (h : (vint pkt p).out = .ok (v, q)) : v < 2 ^ 62 := by
  have wide : ∀ n, n ≤ 8 → ∀ w k, (vintWide pkt.mem pkt.last p n).2 = some (w, k) → w < 2 ^ 62 := by
    intro n hn w k hw; unfold vintWide at hw
    split at hw
    · cases hw
    · cases hw
      exact Nat.lt_of_lt_of_le (Nat.mod_lt _ (Nat.two_pow_pos _)) (Nat.pow_le_pow_right (by decide) (by omega))
  have hread : ∀ w k, (xqcVintRead pkt.mem pkt.last p).2 = some (w, k) → w < 2 ^ 62 := by
    intro w k hw; unfold xqcVintRead at hw
    split at hw
    · cases hw
    · split at hw
      · cases hw; exact Nat.lt_trans (UInt8.toNat_lt _) (by decide)
      · exact wide 2 (by decide) w k hw
      · exact wide 4 (by decide) w k hw
      · exact wide 8 (by decide) w k hw
  unfold vint at h; split at h
  · rename_i reads w n hr; cases h; exact hread v n (by rw [hr])
  · cases h

lemma ackFields_lt {p q : Nat} {f : AckFields} (h : (ackFields pkt p).out = .ok (f, q)) :
    f.largestAcked < 2 ^ 62 ∧ f.ackDelay < 2 ^ 62 := by
  simp only [ackFields, out_bind_ok, out_pure_ok, Prod.mk.injEq] at h
  obtain ⟨_, _, _, largest, _, hlargest, delay, _, hdelay, _, _, _, _, _, _, _, _, _, rfl, _⟩ := h
  exact ⟨vint_lt pkt hlargest, vint_lt pkt hdelay⟩

/-- `ack_delay_exponent`, as the transport parameters let it through. -/
abbrev AckDelayExponent := { e : UInt64 // e ≤ 20 }

lemma delay_eq_iff (e : AckDelayExponent) (d : Nat) (hd : d < 2 ^ 62) :
    (UInt64.ofNat d <<< e.val).toNat = d * 2 ^ e.val.toNat ↔ d * 2 ^ e.val.toNat < 2 ^ 64 := by
  have he : e.val.toNat ≤ 20 := le_iff_toNat_le.mp e.property
  have hmod : e.val.toNat % 64 = e.val.toNat := Nat.mod_eq_of_lt (by omega)
  rw [UInt64.toNat_shiftLeft, UInt64.toNat_ofNat_of_lt' (Nat.lt_trans hd (by decide)), hmod, Nat.shiftLeft_eq,
    Nat.mod_eq_iff_lt (by decide)]

structure Stored (e : AckDelayExponent) (f : AckFields) (info : AckInfo) : Prop where
  each : ∀ r ∈ info.ranges, r.low ≤ r.high ∧ r.high.toNat ≤ 2 ^ 62 - 1
  apart : info.ranges.IsChain fun r r' => r'.high.toNat + 2 ≤ r.low.toNat
  ends : info.ranges.map PktnoRange.ends = f.ranges.take xqcMaxAckRangeCnt
  delay : info.ackDelay.toNat = f.ackDelay * 2 ^ e.val.toNat

lemma stored_iff (e : AckDelayExponent) (pns : Pns) {f : AckFields} (hl : f.largestAcked < 2 ^ 62)
    (hd : f.ackDelay < 2 ^ 62) :
    Stored e f (f.info pns e.val) ↔
      f.firstAckRange + depth (f.rest.take (xqcMaxAckRangeCnt - 1)) ≤ f.largestAcked ∧
        f.ackDelay * 2 ^ e.val.toNat < 2 ^ 64 := by
  constructor
  · intro h
    exact ⟨(stored_eq_iff pns e.val hl).mp h.ends, (delay_eq_iff e f.ackDelay hd).mp h.delay⟩
  · rintro ⟨hfit, hdelay⟩
    have htop : (UInt64.ofNat f.largestAcked).toNat = f.largestAcked :=
      toNat_ofNat_of_lt' (Nat.lt_trans hl (by decide))
    have hlow := (toNat_sub_eq_iff (UInt64.ofNat f.largestAcked) f.firstAckRange).mpr (by omega)
    obtain ⟨heach, hchain⟩ := pushed_apart f.rest (xqcMaxAckRangeCnt - 1)
      ⟨UInt64.ofNat f.largestAcked, UInt64.ofNat f.largestAcked - UInt64.ofNat f.firstAckRange⟩ (by dsimp only; omega)
    refine ⟨fun r hr => ?_, hchain, (stored_eq_iff pns e.val hl).mpr hfit, (delay_eq_iff e f.ackDelay hd).mpr hdelay⟩
    rw [le_iff_toNat_le]
    rcases mem_cons.mp hr with rfl | hr
    · dsimp only; omega
    · have hle := heach r hr
      rw [le_iff_toNat_le, le_iff_toNat_le] at hle
      dsimp only at hle; omega

lemma descend_nonneg_iff (rest : List (Nat × Nat)) : ∀ low : Int, 0 ≤ low →
    ((∀ r ∈ descend low rest, 0 ≤ r.1 ∧ 0 ≤ r.2) ↔ (depth rest : Int) ≤ low) := by
  induction rest with
  | nil => intro low hlow; simpa [descend, depth] using hlow
  | cons x rest ih =>
    intro low hlow
    obtain ⟨gap, range⟩ := x
    rw [descend, depth_cons, forall_mem_cons]
    constructor
    · rintro ⟨⟨_, hl⟩, hrest⟩
      have := (ih _ hl).mp hrest; omega
    · intro hfit
      have hl : 0 ≤ low - gap - 2 - range := by omega
      exact ⟨⟨by omega, hl⟩, (ih _ hl).mpr (by omega)⟩

lemma ranges_nonneg_iff (f : AckFields) :
    (∀ r ∈ f.ranges, 0 ≤ r.1 ∧ 0 ≤ r.2) ↔ f.firstAckRange + depth f.rest ≤ f.largestAcked := by
  unfold AckFields.ranges; rw [forall_mem_cons]
  constructor
  · rintro ⟨⟨_, hl⟩, hrest⟩
    have := (descend_nonneg_iff f.rest _ hl).mp hrest; omega
  · intro hfit
    have hl : (0 : Int) ≤ f.largestAcked - f.firstAckRange := by omega
    exact ⟨⟨by omega, hl⟩, (descend_nonneg_iff f.rest _ hl).mpr (by omega)⟩

def StoresWell (e : AckDelayExponent) (p : Nat) : Prop :=
  ∀ info q, (xqcParseAckFrame pkt e.val p).out = .ok (.ack info, q) →
    ∃ f, (ackFields pkt p).out = .ok (f, q) ∧ Stored e f info

def RejectsNegative (e : AckDelayExponent) (p : Nat) : Prop :=
  ∀ f q, (ackFields pkt p).out = .ok (f, q) → ¬ (∀ r ∈ f.ranges, 0 ≤ r.1 ∧ 0 ≤ r.2) →
    ∃ err, (xqcParseAckFrame pkt e.val p).out = .error err

lemma parseAck_ok {e : UInt64} {p q : Nat} {f : AckFields} (h : (ackFields pkt p).out = .ok (f, q)) :
    (xqcParseAckFrame pkt e p).out = .ok (.ack (f.info pkt.pns e), q) := by
  rw [parseAck_eq, out_bind_of_ok h]; rfl

/-- On any bytes: what is accepted is stored as it is exactly if the ranges that are
    stored stay at or above 0 and the delay fits; and a frame with a range below 0 is
    rejected exactly if there is none. -/
theorem ack_frame_iff (e : AckDelayExponent) (p : Nat) :
    (StoresWell pkt e p ↔ ∀ f q, (ackFields pkt p).out = .ok (f, q) →
      f.firstAckRange + depth (f.rest.take (xqcMaxAckRangeCnt - 1)) ≤ f.largestAcked ∧
        f.ackDelay * 2 ^ e.val.toNat < 2 ^ 64) ∧
    (RejectsNegative pkt e p ↔ ∀ f q, (ackFields pkt p).out = .ok (f, q) →
      f.firstAckRange + depth f.rest ≤ f.largestAcked) := by
  constructor
  · constructor
    · intro h f q hf
      obtain ⟨f', hf', hs⟩ := h _ q (parseAck_ok pkt hf)
      obtain rfl : f = f' := by
        rw [hf] at hf'; cases hf'
        rfl
      have hlt := ackFields_lt pkt hf
      exact (stored_iff e pkt.pns hlt.1 hlt.2).mp hs
    · intro h info q hp; rw [parseAck_eq] at hp
      obtain ⟨f, q', hf, hret⟩ := out_bind_ok.mp hp
      cases hret
      have hlt := ackFields_lt pkt hf
      exact ⟨f, hf, (stored_iff e pkt.pns hlt.1 hlt.2).mpr (h f q hf)⟩
  · constructor
    · intro h f q hf; rw [← ranges_nonneg_iff]
      by_contra hneg
      obtain ⟨err, herr⟩ := h f q hf hneg
      rw [parseAck_ok pkt hf] at herr; cases herr
    · intro h f q hf hneg; exact absurd ((ranges_nonneg_iff f).mpr (h f q hf)) hneg

def longFirstRange : PacketIn := ⟨fun i => [0x02, 0x00, 0x00, 0x00, 0x01].getD i 0, 5, .appData⟩

theorem first_range_wraps :
    (xqcParseAckFrame longFirstRange 3 0).out = .ok (.ack ⟨.appData, [⟨0, 0xffffffffffffffff⟩], 0⟩, 5) ∧
      ¬ StoresWell longFirstRange ⟨3, by decide⟩ 0 ∧ ¬ RejectsNegative longFirstRange ⟨3, by decide⟩ 0 := by
  have hparse : (xqcParseAckFrame longFirstRange 3 0).out = .ok (.ack ⟨.appData, [⟨0, 0xffffffffffffffff⟩], 0⟩, 5) := by
    decide
  refine ⟨hparse, fun h => ?_, fun h => ?_⟩
  · obtain ⟨f, -, hs⟩ := h _ _ hparse
    exact absurd (hs.each _ mem_cons_self).1 (by decide)
  · obtain ⟨err, herr⟩ := h ⟨0, 0, 1, []⟩ 5 (by decide) (by decide)
    cases herr

end RlccQuic.Transport.FrameParser
