/-
  RlccQuic.CongestionControl.Report — the state message, from the controller's fields to the numbers the environment reads.

  `xqc_rlcc_on_ack` prints 32-bit unsigned words with `%d`, 64-bit ones with `%ld`, and narrows two 64-bit values to 32
  bits first. `Faithful` says that the environment reads back the controller's quantities; `Printable` is the bounds on
  the state before the ack and on the sample under which it does.

  Proved: a report is always recognised as a state (`report_decodes`), and in every reachable state it is faithful
  exactly when it is printable (`report_faithful_iff_printable`).
-/

import Mathlib.Data.UInt
import RlccQuic.Gym.Observation
import RlccQuic.CongestionControl.Window

namespace RlccQuic.CongestionControl.Report

open Lib Lib.Text Lib.Word Controller Gym.Observation List UInt64
open Window (Ev step Narrow step_narrow init_narrow)

/-! ## Smoothing -/

/-- A quarter of the old value goes, a quarter of the new one comes. -/
def smooth (x y : Nat) : Nat := x - x / 4 + y / 4

variable (x : UInt64)

lemma toNat_smooth64 (y : UInt64) : (smooth64 x y).toNat = smooth x.toNat y.toNat := by
  have hx := x.toNat_lt
  have hy := y.toNat_lt
  have hq : ∀ z : UInt64, (z >>> 2).toNat = z.toNat / 4 := fun z => by
    exact Nat.shiftRight_eq_div_pow _ _
  have hle : x >>> 2 ≤ x := by rw [le_iff_toNat_le, hq]; omega
  rw [smooth64, smooth, UInt64.toNat_add, UInt64.toNat_sub_of_le _ _ hle, hq, hq]; omega

lemma toNat_smooth32 (x y : UInt32) : (smooth32 x y).toNat = smooth x.toNat y.toNat := by
  have hx := x.toNat_lt
  have hy := y.toNat_lt
  have hq : ∀ z : UInt32, (z >>> 2).toNat = z.toNat / 4 := fun z => by
    exact Nat.shiftRight_eq_div_pow _ _
  have hle : x >>> 2 ≤ x := by rw [UInt32.le_iff_toNat_le, hq]; omega
  rw [smooth32, smooth, UInt32.toNat_add, UInt32.toNat_sub_of_le _ _ hle, hq, hq]; omega

/-! ## The quantities -/

def sentBytes (s : Sample) (r : Rlcc) : Int := s.ctlBytesSend.toNat - r.beforeTotalSent.toNat

def elapsed (now : UInt64) (r : Rlcc) : Int := now.toNat - r.sentTimestamp.toNat

/-- What a report is meant to say about the controller it leaves. -/
def quantities (now : UInt64) (s : Sample) (r : Rlcc) : List Int :=
  [((r.cwnd.toNat / 1024 : Nat) : Int), ((r.pacingRate.toNat / 1024 : Nat) : Int), r.rtt.toNat, r.minRtt.toNat,
    r.srtt.toNat, r.inflight.toNat, r.lostInterval, r.lost.toNat, s.isAppLimited.toNat, r.deliveryRate.toNat,
    1000000 * sentBytes s r / elapsed now r, sentBytes s r]

/-- The message is read as the quantities of the controller it leaves, all of
    them meaningful and none negative, and the observation is in the box. -/
structure Faithful (now : UInt64) (s : Sample) (r : Rlcc) (m : Text) : Prop where
  read : decode m = .state (quantities now s r)
  rateDefined : 0 < elapsed now r
  nonneg : ∀ v ∈ quantities now s r, 0 ≤ v
  inBox : InBox (observation (scaled (quantities now s r)))

/-- The round-trip time kept as the smallest, after this sample. -/
def nextMinRtt (s : Sample) (r : Rlcc) : Nat :=
  if r.minRtt.toNat = 0 ∨ s.rtt.toNat < r.minRtt.toNat then s.rtt.toNat else r.minRtt.toNat

structure Printable (now : UInt64) (s : Sample) (r : Rlcc) : Prop where
  started : r.sampleStart ≤ now
  pacingRate : r.pacingRate.toNat < 2 ^ 41
  rtt : smooth r.rtt.toNat s.rtt.toNat < 2 ^ 63
  minRtt : nextMinRtt s r < 2 ^ 63
  srtt : smooth r.srtt.toNat s.srtt.toNat < 2 ^ 63
  inflight : smooth r.inflight.toNat s.bytesInflight.toNat < 2 ^ 31
  lost : smooth r.lost.toNat s.lostPkts.toNat < 2 ^ 31
  appLimited : s.isAppLimited.toNat < 2 ^ 31
  deliveryRate : smooth r.deliveryRate.toNat s.deliveryRate.toNat < 2 ^ 31
  sentSome : r.beforeTotalSent ≤ s.ctlBytesSend
  sent : s.ctlBytesSend.toNat - r.beforeTotalSent.toNat < 2 ^ 31
  later : r.sentTimestamp < now
  throughput :
    1000000 * (s.ctlBytesSend.toNat - r.beforeTotalSent.toNat) / (now.toNat - r.sentTimestamp.toNat) < 2 ^ 31

/-! ## Printing -/

lemma asInt32_self_iff (x : UInt32) : asInt32 x = x.toNat ↔ x.toNat < 2 ^ 31 := by
  rw [asInt32_eq_iff]; exact ⟨fun h => h.2, fun h => ⟨rfl, h⟩⟩

lemma asInt64_self_iff : asInt64 x = x.toNat ↔ x.toNat < 2 ^ 63 := by
  rw [asInt64_eq_iff]; exact ⟨fun h => h.2, fun h => ⟨rfl, h⟩⟩

/-- A 64-bit value in units of 1024, narrowed to 32 bits and printed with `%d`. -/
lemma asInt32_shift_iff : asInt32 (x >>> 10).toUInt32 = (x.toNat / 1024 : Nat) ↔ x.toNat < 2 ^ 41 := by
  have hq : (x >>> 10).toNat = x.toNat / 1024 := by
    exact Nat.shiftRight_eq_div_pow _ _
  rw [asInt32_eq_iff, toNat_toUInt32]; omega

variable {s : Sample} {r : Rlcc}

lemma toNat_sentInterval (h : r.beforeTotalSent ≤ s.ctlBytesSend) :
    (sentInterval s r).toNat = (s.ctlBytesSend.toNat - r.beforeTotalSent.toNat) % 2 ^ 32 := by
  rw [sentInterval, UInt64.toNat_toUInt32, UInt64.toNat_sub_of_le _ _ h]

/-- The bytes of the interval are printed right exactly when there are less than 2^31. -/
lemma asInt32_sent_iff (h : r.beforeTotalSent ≤ s.ctlBytesSend) :
    asInt32 (sentInterval s r) = sentBytes s r ↔ s.ctlBytesSend.toNat - r.beforeTotalSent.toNat < 2 ^ 31 := by
  have hle := le_iff_toNat_le.mp h
  have hcast : sentBytes s r = ((s.ctlBytesSend.toNat - r.beforeTotalSent.toNat : Nat) : Int) := by
    rw [sentBytes, Int.ofNat_sub hle]
  rw [hcast, asInt32_eq_iff, toNat_sentInterval h]; omega

variable (ub : UInt32)

/-- The rate is printed right exactly when it is below 2^31. Above 2^32 the
    conversion is undefined, but no 32-bit pattern prints that much. -/
lemma asInt32_quot_iff {num den : Nat} (hd : den ≠ 0) :
    asInt32 (quotToU32 num den ub) = ((num / den : Nat) : Int) ↔ num / den < 2 ^ 31 := by
  rw [asInt32_eq_iff]
  constructor
  · exact fun h => h.2
  · intro h; exact ⟨toNat_quotToU32 ub hd (by omega), h⟩

/-! ## A report -/

variable {now : UInt64}

lemma onAck_report {ub : UInt32} {m : Text}
    (h : (xqcRlccOnAck now ub s r).2 = some m) :
    (xqcRlccOnAck now ub s r).1 = stopSample now ub s (sampled now s r) ∧
      m = record ';' (stateFields (sentInterval s (sampled now s r)) s (stopSample now ub s (sampled now s r))) := by
  unfold xqcRlccOnAck at h ⊢
  by_cases hstop : (sampled now s r).sampleStop ≤ now
  · rw [if_pos hstop] at h ⊢
    dsimp only at h ⊢; split at h
    · exact ⟨rfl, (Option.some.inj h).symm⟩
    · cases h
  · rw [if_neg hstop] at h; cases h

lemma stateFields_length (sent : UInt32) (s : Sample) (r : Rlcc) : (stateFields sent s r).length = 12 := rfl

theorem report_decodes {ub : UInt32} {m : Text}
    (h : (xqcRlccOnAck now ub s r).2 = some m) :
    decode m = .state (stateFields (sentInterval s (sampled now s r)) s (stopSample now ub s (sampled now s r))) := by
  rw [(onAck_report h).2]; exact decode_record (stateFields_length _ _ _)

/-- The printed fields are the quantities exactly when each is in the range of the format that prints it. -/
lemma fields_eq_iff (hc : r.cwnd.toNat < 2 ^ 32)
    (hs : r.beforeTotalSent ≤ s.ctlBytesSend) (ht : r.sentTimestamp < now) :
    stateFields (sentInterval s r) s (stopSample now ub s r) = quantities now s (stopSample now ub s r) ↔
      r.pacingRate.toNat < 2 ^ 41 ∧ r.rtt.toNat < 2 ^ 63 ∧ r.minRtt.toNat < 2 ^ 63 ∧ r.srtt.toNat < 2 ^ 63 ∧
        r.inflight.toNat < 2 ^ 31 ∧ r.lost.toNat < 2 ^ 31 ∧ s.isAppLimited.toNat < 2 ^ 31 ∧
        r.deliveryRate.toNat < 2 ^ 31 ∧
        1000000 * (s.ctlBytesSend.toNat - r.beforeTotalSent.toNat) / (now.toNat - r.sentTimestamp.toNat) < 2 ^ 31 ∧
        s.ctlBytesSend.toNat - r.beforeTotalSent.toNat < 2 ^ 31 := by
  have hle := le_iff_toNat_le.mp hs
  have hlt := lt_iff_toNat_lt.mp ht
  have hsent : sentBytes s r = ((s.ctlBytesSend.toNat - r.beforeTotalSent.toNat : Nat) : Int) := by
    rw [sentBytes, Int.ofNat_sub hle]
  have helapsed : elapsed now r = ((now.toNat - r.sentTimestamp.toNat : Nat) : Int) := by
    rw [elapsed, Int.ofNat_sub (Nat.le_of_lt hlt)]
  have hden : (now - r.sentTimestamp).toNat = now.toNat - r.sentTimestamp.toNat :=
    UInt64.toNat_sub_of_le _ _ (UInt64.le_iff_toNat_le.mpr (Nat.le_of_lt hlt))
  have hcwnd : r.cwnd.toNat < 2 ^ 41 := by omega
  have hq : (1000000 * sentBytes s r / elapsed now r) =
      ((1000000 * (s.ctlBytesSend.toNat - r.beforeTotalSent.toNat) / (now.toNat - r.sentTimestamp.toNat) : Nat) : Int) := by
    rw [hsent, helapsed]; rfl
  -- once the count of bytes is exact, the printed rate is the quotient of the exact values
  have hrate : s.ctlBytesSend.toNat - r.beforeTotalSent.toNat < 2 ^ 31 →
      (asInt32 (quotToU32 (1000000 * (sentInterval s r).toNat) (now - r.sentTimestamp).toNat ub) =
          1000000 * sentBytes s r / elapsed now r ↔
        1000000 * (s.ctlBytesSend.toNat - r.beforeTotalSent.toNat) / (now.toNat - r.sentTimestamp.toNat) < 2 ^ 31) := by
    intro h31; rw [toNat_sentInterval hs, Nat.mod_eq_of_lt (by omega), hden, hq]
    exact asInt32_quot_iff ub (by omega)
  simp only [stateFields, quantities, stopSample, List.cons.injEq, asInt32_shift_iff, asInt64_self_iff,
    asInt32_self_iff, and_true, true_and, hcwnd]
  have hlast : asInt32 (sentInterval s r) = sentBytes s r ↔ _ := asInt32_sent_iff hs
  constructor
  · rintro ⟨h1, h2, h3, h4, h5, h6, h7, h8, h9, h10⟩
    have h31 := hlast.mp h10
    exact ⟨h1, h2, h3, h4, h5, h6, h7, h8, (hrate h31).mp h9, h31⟩
  · rintro ⟨h1, h2, h3, h4, h5, h6, h7, h8, h9, h31⟩
    exact ⟨h1, h2, h3, h4, h5, h6, h7, h8, (hrate h31).mpr h9, hlast.mpr h31⟩

/-! ## The state a report is made from -/

lemma toNat_probeMinrtt (s : Sample) (r : Rlcc) : (probeMinrtt r s).minRtt.toNat = nextMinRtt s r := by
  have hz : r.minRtt = 0 ↔ r.minRtt.toNat = 0 := by
    constructor
    · intro h; rw [h]; rfl
    · exact fun h => UInt64.toNat_inj.mp h
  have hiff : (r.minRtt = 0 ∨ s.rtt < r.minRtt) ↔ (r.minRtt.toNat = 0 ∨ s.rtt.toNat < r.minRtt.toNat) := by
    rw [hz, lt_iff_toNat_lt]
  unfold probeMinrtt nextMinRtt
  by_cases h : r.minRtt = 0 ∨ s.rtt < r.minRtt
  · rw [if_pos h, if_pos (hiff.mp h)]
  · rw [if_neg h, if_neg (fun h' => h (hiff.mpr h'))]

lemma probeMinrtt_eq (s : Sample) (r : Rlcc) : ∃ a t, probeMinrtt r s = { r with minRtt := a, minRttTimestamp := t } := by
  unfold probeMinrtt; split
  · exact ⟨_, _, rfl⟩
  · exact ⟨r.minRtt, r.minRttTimestamp, rfl⟩

lemma probeMinrtt_sampleStart (s : Sample) (r : Rlcc) : (probeMinrtt r s).sampleStart = r.sampleStart := by
  obtain ⟨a, t, h⟩ := probeMinrtt_eq s r
  rw [h]

lemma sampled_of_started (h : r.sampleStart ≤ now) : sampled now s r = smoothSample s (probeMinrtt r s) := by
  have hp := probeMinrtt_sampleStart s r
  have hn : ¬ (probeMinrtt r s).sampleStart > now := by rw [hp]; exact UInt64.not_lt.mpr h
  unfold sampled
  dsimp only
  rw [if_neg hn, if_pos (by rw [hp]; exact h)]

lemma sampled_of_not_started (h : now < r.sampleStart) : (sampled now s r).sentTimestamp = now := by
  have hp := probeMinrtt_sampleStart s r
  have h1 : (probeMinrtt r s).sampleStart > now := by rw [hp]; exact h
  have h2 : ¬ (beforeSample now s (probeMinrtt r s)).sampleStart ≤ now := UInt64.not_le.mpr h1
  unfold sampled
  dsimp only; rw [if_pos h1, if_neg h2]
  rfl

lemma foldl_narrow (hr : Narrow r) : ∀ es : List Ev, Narrow (es.foldl step r) := by
  intro es
  induction es generalizing r with
  | nil => exact hr
  | cons e es ih => exact ih (step_narrow r e hr)

/-! ## Bounds of what is printed -/

lemma asInt32_lt (x : UInt32) : asInt32 x < 2 ^ 31 := by
  have := x.toNat_lt
  unfold asInt32
  split <;> omega

lemma asInt64_lt : asInt64 x < 2 ^ 63 := by
  have := x.toNat_lt
  unfold asInt64
  split <;> omega

lemma stateFields_lt (now : UInt64) (ub sent : UInt32) (s : Sample) (r : Rlcc) :
    ∀ v ∈ stateFields sent s (stopSample now ub s r), v < 2 ^ 64 := by
  have h32 : ∀ x, asInt32 x < 2 ^ 64 := fun x => by have := asInt32_lt x; omega
  have h64 : ∀ x, asInt64 x < 2 ^ 64 := fun x => by have := asInt64_lt x; omega
  have hlost : (stopSample now ub s r).lostInterval < 2 ^ 64 := by
    have := asInt32_lt (s.lostPkts - r.beforeLost)
    simp only [stopSample]; omega
  simp only [stateFields, mem_cons, not_mem_nil, or_false, forall_eq_or_imp, forall_eq, h32, h64, hlost,
    and_self]

lemma quantities_nonneg
    (hs : r.beforeTotalSent ≤ s.ctlBytesSend) (ht : r.sentTimestamp < now) :
    ∀ v ∈ quantities now s (stopSample now ub s r), 0 ≤ v := by
  have hle := le_iff_toNat_le.mp hs
  have hlt := lt_iff_toNat_lt.mp ht
  have hsent : 0 ≤ sentBytes s (stopSample now ub s r) := by simp only [sentBytes, stopSample]; omega
  have helapsed : 0 ≤ elapsed now (stopSample now ub s r) := by simp only [elapsed, stopSample]; omega
  have hrate : 0 ≤ 1000000 * sentBytes s (stopSample now ub s r) / elapsed now (stopSample now ub s r) :=
    Int.ediv_nonneg (by omega) helapsed
  have hlost : 0 ≤ (stopSample now ub s r).lostInterval := by simp only [stopSample]; omega
  have hnat : ∀ n : Nat, (0 : Int) ≤ n := Int.natCast_nonneg
  simp only [quantities, mem_cons, not_mem_nil, or_false, forall_eq_or_imp, forall_eq, hnat, hsent, hrate,
    hlost, and_self]

/-! ## Faithful reports -/

/-- In the sampling window, the ranges of the printed fields are bounds on the
    state before the ack and on the sample. -/
lemma printable_iff (h : r.sampleStart ≤ now) :
    Printable now s r ↔
      ((sampled now s r).pacingRate.toNat < 2 ^ 41 ∧ (sampled now s r).rtt.toNat < 2 ^ 63 ∧
        (sampled now s r).minRtt.toNat < 2 ^ 63 ∧ (sampled now s r).srtt.toNat < 2 ^ 63 ∧
        (sampled now s r).inflight.toNat < 2 ^ 31 ∧ (sampled now s r).lost.toNat < 2 ^ 31 ∧
        s.isAppLimited.toNat < 2 ^ 31 ∧ (sampled now s r).deliveryRate.toNat < 2 ^ 31 ∧
        1000000 * (s.ctlBytesSend.toNat - (sampled now s r).beforeTotalSent.toNat) /
          (now.toNat - (sampled now s r).sentTimestamp.toNat) < 2 ^ 31 ∧
        s.ctlBytesSend.toNat - (sampled now s r).beforeTotalSent.toNat < 2 ^ 31) ∧
      (sampled now s r).beforeTotalSent ≤ s.ctlBytesSend ∧ (sampled now s r).sentTimestamp < now := by
  obtain ⟨a, t, hp⟩ := probeMinrtt_eq s r
  have hmin := toNat_probeMinrtt s r
  rw [hp] at hmin
  rw [sampled_of_started h, hp]
  simp only [smoothSample, toNat_smooth64, toNat_smooth32, hmin]
  constructor
  · intro hf
    exact ⟨⟨hf.pacingRate, hf.rtt, hf.minRtt, hf.srtt, hf.inflight, hf.lost, hf.appLimited, hf.deliveryRate,
      hf.throughput, hf.sent⟩, hf.sentSome, hf.later⟩
  · rintro ⟨⟨h1, h2, h3, h4, h5, h6, h7, h8, h9, h10⟩, h11, h12⟩
    exact ⟨h, h1, h2, h3, h4, h5, h6, h7, h8, h11, h10, h12, h9⟩

/-- In every reachable state, a published report is read back as the quantities
    of the controller exactly when the state and the sample are in the ranges of
    the formats that print them. -/
theorem report_faithful_iff_printable (t0 t1 : UInt64) (params : CcParams) (es : List Ev) (now : UInt64) (ub : UInt32)
    (s : Sample) (m : Text) (hm : (xqcRlccOnAck now ub s (es.foldl step (xqcRlccInit t0 t1 params).1)).2 = some m) :
    Faithful now s (xqcRlccOnAck now ub s (es.foldl step (xqcRlccInit t0 t1 params).1)).1 m ↔
      Printable now s (es.foldl step (xqcRlccInit t0 t1 params).1) := by
  have hr := foldl_narrow (init_narrow t0 t1 params) es
  generalize es.foldl step (xqcRlccInit t0 t1 params).1 = r at hm hr
  have hc : (sampled now s r).cwnd.toNat < 2 ^ 32 := by
    rw [(Window.sampled_window now s r).1]; exact hr.1
  rw [(onAck_report hm).1]
  constructor
  · intro h
    have hlater : (sampled now s r).sentTimestamp < now := by
      have h0 := h.rateDefined
      simp only [elapsed, stopSample] at h0; rw [lt_iff_toNat_lt]
      omega
    -- a report before the window starts would have an interval of no length
    have hstart : r.sampleStart ≤ now := by
      by_cases hs : r.sampleStart ≤ now
      · exact hs
      · rw [sampled_of_not_started (UInt64.not_le.mp hs)] at hlater
        exact absurd hlater (UInt64.lt_irrefl now)
    have hsent : (sampled now s r).beforeTotalSent ≤ s.ctlBytesSend := by
      have h0 : 0 ≤ sentBytes s (stopSample now ub s (sampled now s r)) := h.nonneg _ (by simp [quantities])
      simp only [sentBytes, stopSample] at h0; rw [le_iff_toNat_le]
      omega
    have hread := h.read
    rw [report_decodes hm] at hread
    exact (printable_iff hstart).mpr ⟨(fields_eq_iff ub hc hsent hlater).mp (Decoded.state.inj hread), hsent, hlater⟩
  · intro h
    obtain ⟨hf, hsent, hlater⟩ := (printable_iff h.started).mp h
    have heq := (fields_eq_iff ub hc hsent hlater).mpr hf
    have hnn := quantities_nonneg ub hsent hlater
    refine ⟨by rw [report_decodes hm, heq], ?_, hnn, ?_⟩
    · have := lt_iff_toNat_lt.mp hlater; simp only [elapsed, stopSample]; omega
    · refine observation_inBox rfl fun v hv => ⟨hnn v hv, ?_⟩
      rw [← heq] at hv; exact stateFields_lt now ub _ s _ v hv

/-- A first ack after one second, with `sent` bytes out by then. -/
def firstAck (sent : UInt64) : Sample :=
  { now := 1000000, rtt := 20000, srtt := 20000, bytesInflight := 12160, lostPkts := 0, isAppLimited := 0,
    deliveryRate := 600000, ctlBytesSend := sent }

/-- With 2 GiB sent before the first report, its last two fields are negative. -/
theorem a_report_of_two_gib_is_read_as_negative :
    ∃ m, (xqcRlccOnAck 1000000 0 (firstAck (2 ^ 31)) ([].foldl step (xqcRlccInit 0 0 ⟨true, 1001⟩).1)).2 = some m ∧
      ¬ Faithful 1000000 (firstAck (2 ^ 31))
        (xqcRlccOnAck 1000000 0 (firstAck (2 ^ 31)) ([].foldl step (xqcRlccInit 0 0 ⟨true, 1001⟩).1)).1 m := by
  refine ⟨_, rfl, fun h => ?_⟩
  have hread := h.read
  exact absurd (Decoded.state.inj hread) (by decide)

/-- With 600 kB sent before it, the first report is faithful. -/
theorem a_first_report_of_600_kb_is_faithful :
    ∃ m, (xqcRlccOnAck 1000000 0 (firstAck 600000) ([].foldl step (xqcRlccInit 0 0 ⟨true, 1001⟩).1)).2 = some m ∧
      Faithful 1000000 (firstAck 600000)
        (xqcRlccOnAck 1000000 0 (firstAck 600000) ([].foldl step (xqcRlccInit 0 0 ⟨true, 1001⟩).1)).1 m :=
  ⟨_, rfl, (report_faithful_iff_printable 0 0 ⟨true, 1001⟩ [] 1000000 0 (firstAck 600000) _ rfl).mpr
    ⟨by decide, by decide, by decide, by decide, by decide, by decide, by decide, by decide, by decide, by decide,
      by decide, by decide, by decide⟩⟩

end RlccQuic.CongestionControl.Report
