/-
  RlccQuic.CongestionControl.Sampling — the sampling windows of `xqc_rlcc_on_ack` over a run.

  A report sets up the next window: it starts one `min_rtt` later and stops up to 100 ms after that. Acks before the
  start take the samples and the snapshot `sent_timestamp`, `before_total_sent` anew, acks from the start on smooth the
  samples, and the first ack from the stop on reports. Acks may fall into any of these, or none.

  A run keeps what the source does not (`Seen`): the acks so far, those since the last
  report, whether one of them was before the start, and the reports.

  Proved: `reports_are_timely` (every report has a snapshot older than itself, and the next one is a window away) and
  `reports_stay_in_hull` (a report whose window was started by an ack of its own is among the samples it is made of).
-/

import Mathlib.Data.List.Chain
import RlccQuic.CongestionControl.Report

namespace RlccQuic.CongestionControl.Sampling

open Lib Lib.Text Lib.Word Controller List UInt64
open Report (smooth toNat_smooth64 toNat_smooth32)

/-! ## Runs -/

inductive Ev where
  | ack (now : UInt64) (ub : UInt32) (s : Sample)
  | reply (reply : Reply) (ub : Int)
  | reset
  deriving DecidableEq, Repr

structure Ack where
  now : UInt64
  sample : Sample
  deriving DecidableEq, Repr

structure Report where
  /-- The controller that was reported. -/
  rlcc : Rlcc
  time : UInt64
  /-- The acks so far, and since the report before. -/
  acks : List Ack
  window : List Ack
  /-- One of the window's acks came before its start. -/
  seeded : Bool
  deriving DecidableEq, Repr

structure Seen where
  rlcc : Rlcc
  clock : UInt64
  acks : List Ack
  window : List Ack
  seeded : Bool
  reports : List Report
  deriving DecidableEq, Repr

/-- The last clock reading of `xqc_rlcc_init` is `t1`. -/
def newSeen (t0 t1 : UInt64) (params : CcParams) : Seen :=
  ⟨(xqcRlccInit t0 t1 params).1, t1, [], [], false, []⟩

def Seen.onAck (now : UInt64) (ub : UInt32) (s : Sample) (x : Seen) : Seen :=
  let r := (xqcRlccOnAck now ub s x.rlcc).1
  let acks := x.acks ++ [⟨now, s⟩]
  let window := x.window ++ [⟨now, s⟩]
  let seeded := x.seeded || decide (now < x.rlcc.sampleStart)
  if x.rlcc.sampleStop ≤ now then ⟨r, now, acks, [], false, x.reports ++ [⟨r, now, acks, window, seeded⟩]⟩
  else ⟨r, now, acks, window, seeded, x.reports⟩

def Seen.after (x : Seen) : Ev → Seen
  | .ack now ub s => x.onAck now ub s
  | .reply reply ub => { x with rlcc := getResultFromReply reply ub x.rlcc }
  | .reset => { x with rlcc := xqcRlccResetCwnd x.rlcc }

/-- The clock does not run backwards, and the first ack comes after the start. -/
def Ticks (x : Seen) : Ev → Prop
  | .ack now _ _ => x.clock ≤ now ∧ (x.acks = [] → x.clock < now)
  | _ => True

/-- The end of the window that a report sets up is a time. -/
def Fits (x : Seen) : Ev → Prop
  | .ack now _ s => x.rlcc.sampleStop ≤ now →
    now.toNat + (probeMinrtt x.rlcc s).minRtt.toNat + min (probeMinrtt x.rlcc s).minRtt.toNat sampleInterval.toNat < 2 ^ 64
  | _ => True

def Moves (x : Seen) (e : Ev) (y : Seen) : Prop := y = x.after e

/-! ## One ack -/

variable {now : UInt64} {ub : UInt32} {s : Sample} {r : Rlcc}

lemma sampled_times (now : UInt64) (s : Sample) (r : Rlcc) :
    (sampled now s r).sampleStart = r.sampleStart ∧ (sampled now s r).sampleStop = r.sampleStop ∧
      (sampled now s r).minRtt = (probeMinrtt r s).minRtt := by
  have hprobe : (probeMinrtt r s).sampleStart = r.sampleStart ∧ (probeMinrtt r s).sampleStop = r.sampleStop := by
    unfold probeMinrtt
    split <;> exact ⟨rfl, rfl⟩
  unfold sampled
  dsimp only
  split <;> split <;> exact ⟨hprobe.1, hprobe.2, rfl⟩

lemma probeMinrtt_samples (s : Sample) (r : Rlcc) :
    (probeMinrtt r s).sampleStart = r.sampleStart ∧ (probeMinrtt r s).rtt = r.rtt ∧
      (probeMinrtt r s).inflight = r.inflight ∧ (probeMinrtt r s).deliveryRate = r.deliveryRate ∧
      (probeMinrtt r s).sentTimestamp = r.sentTimestamp ∧ (probeMinrtt r s).beforeTotalSent = r.beforeTotalSent := by
  unfold probeMinrtt
  split <;> exact ⟨rfl, rfl, rfl, rfl, rfl, rfl⟩

lemma sampled_before (h : now < r.sampleStart) :
    (sampled now s r).rtt = s.rtt ∧ (sampled now s r).inflight = s.bytesInflight ∧
      (sampled now s r).deliveryRate = s.deliveryRate ∧ (sampled now s r).sentTimestamp = now ∧
      (sampled now s r).beforeTotalSent = s.ctlBytesSend := by
  obtain ⟨hstart, -⟩ := probeMinrtt_samples s r
  have hgt : (probeMinrtt r s).sampleStart > now := by
    rw [hstart]; exact h
  unfold sampled
  dsimp only; rw [if_pos hgt, if_neg (by exact UInt64.not_le.mpr hgt)]
  exact ⟨rfl, rfl, rfl, rfl, rfl⟩

lemma sampled_from (h : r.sampleStart ≤ now) :
    (sampled now s r).rtt = smooth64 r.rtt s.rtt ∧ (sampled now s r).inflight = smooth32 r.inflight s.bytesInflight ∧
      (sampled now s r).deliveryRate = smooth32 r.deliveryRate s.deliveryRate ∧
      (sampled now s r).sentTimestamp = r.sentTimestamp ∧ (sampled now s r).beforeTotalSent = r.beforeTotalSent := by
  obtain ⟨hstart, hrtt, hinflight, hrate, hsent, htotal⟩ := probeMinrtt_samples s r
  have hle : (probeMinrtt r s).sampleStart ≤ now := by
    rw [hstart]; exact h
  unfold sampled
  dsimp only; rw [if_neg (UInt64.not_lt.mpr hle), if_pos hle]
  unfold smoothSample; rw [hrtt, hinflight, hrate]
  exact ⟨rfl, rfl, rfl, hsent, htotal⟩

lemma onAck_stops (h : r.sampleStop ≤ now) :
    (xqcRlccOnAck now ub s r).1 = stopSample now ub s (sampled now s r) := by
  unfold xqcRlccOnAck
  rw [if_pos (by rw [(sampled_times now s r).2.1]; exact h)]

lemma onAck_goes_on (h : ¬ r.sampleStop ≤ now) : (xqcRlccOnAck now ub s r).1 = sampled now s r := by
  unfold xqcRlccOnAck
  rw [if_neg (by rw [(sampled_times now s r).2.1]; exact h)]

structure SameSamples (r r' : Rlcc) : Prop where
  sampleStart : r'.sampleStart = r.sampleStart
  sampleStop : r'.sampleStop = r.sampleStop
  minRtt : r'.minRtt = r.minRtt
  sentTimestamp : r'.sentTimestamp = r.sentTimestamp
  beforeTotalSent : r'.beforeTotalSent = r.beforeTotalSent
  rtt : r'.rtt = r.rtt
  inflight : r'.inflight = r.inflight
  deliveryRate : r'.deliveryRate = r.deliveryRate

lemma reply_same (reply : Reply) (ub : Int) (r : Rlcc) : SameSamples r (getResultFromReply reply ub r) := by
  cases reply with
  | array text | other => exact ⟨rfl, rfl, rfl, rfl, rfl, rfl, rfl, rfl⟩

lemma reset_same (r : Rlcc) : SameSamples r (xqcRlccResetCwnd r) := ⟨rfl, rfl, rfl, rfl, rfl, rfl, rfl, rfl⟩

/-! ## Times -/

/-- The smallest round-trip time of some acks, or `XQC_RLCC_INF`. -/
def leastRtt (acks : List Ack) : Nat := acks.foldl (fun m a => min m a.sample.rtt.toNat) rlccInf.toNat

lemma leastRtt_snoc (acks : List Ack) (a : Ack) : leastRtt (acks ++ [a]) = min (leastRtt acks) a.sample.rtt.toNat := by
  unfold leastRtt; rw [foldl_append, foldl_cons, foldl_nil]

def wait (m : Nat) : Nat := m + min m sampleInterval.toNat

lemma wait_mono {m n : Nat} (h : m ≤ n) : wait m ≤ wait n := by
  unfold wait
  omega

/-- `before_total_sent` is what `ctl_bytes_send` was at `sent_timestamp`: nothing when the
    controller was made at `t1`, or what an ack has seen. -/
def Snapshot (t1 : UInt64) (acks : List Ack) (r : Rlcc) : Prop :=
  r.sentTimestamp = t1 ∧ r.beforeTotalSent = 0 ∨
    ∃ a ∈ acks, a.now = r.sentTimestamp ∧ a.sample.ctlBytesSend = r.beforeTotalSent

/-- The times of reports: `throughput` divides by no zero, and windows are kept. -/
structure Timely (t1 : UInt64) (reports : List Report) : Prop where
  later : ∀ p ∈ reports, p.rlcc.sentTimestamp < p.time
  snapshot : ∀ p ∈ reports, Snapshot t1 p.acks p.rlcc
  apart : reports.IsChain fun p q => p.time.toNat + wait (leastRtt p.acks) ≤ q.time.toNat

structure Windows (t1 : UInt64) (x : Seen) : Prop where
  least : leastRtt x.acks ≤ x.rlcc.minRtt.toNat
  snapshot : Snapshot t1 x.acks x.rlcc
  /-- The snapshot is not of the last ack, unless the window has still to start. -/
  before : x.acks = [] ∧ x.rlcc.sentTimestamp = x.clock ∨ x.rlcc.sentTimestamp < x.clock ∨
    x.rlcc.sentTimestamp < x.rlcc.sampleStart
  ordered : x.rlcc.sampleStart ≤ x.rlcc.sampleStop
  next : ∀ p ∈ x.reports.getLast?, p.time.toNat + wait (leastRtt p.acks) ≤ x.rlcc.sampleStop.toNat
  timely : Timely t1 x.reports

lemma newSeen_windows (t0 t1 : UInt64) (params : CcParams) : Windows t1 (newSeen t0 t1 params) := by
  have hinit : (xqcRlccInit t0 t1 params).1.minRtt = rlccInf ∧ (xqcRlccInit t0 t1 params).1.sentTimestamp = t1 ∧
      (xqcRlccInit t0 t1 params).1.beforeTotalSent = 0 ∧
      (xqcRlccInit t0 t1 params).1.sampleStart = (xqcRlccInit t0 t1 params).1.sampleStop := by
    unfold xqcRlccInit
    split <;> exact ⟨rfl, rfl, rfl, rfl⟩
  obtain ⟨hmin, hsent, htotal, hstart⟩ := hinit
  refine ⟨?_, .inl ⟨hsent, htotal⟩, .inl ⟨rfl, hsent⟩, ?_, ?_, ?_, ?_, .nil⟩
  · show rlccInf.toNat ≤ _
    rw [newSeen, hmin]
  · rw [newSeen, hstart]; exact UInt64.le_refl _
  · intro p hp; cases hp
  · intro p hp; cases hp
  · intro p hp; cases hp

lemma probeMinrtt_least (now : UInt64) (s : Sample) {acks : List Ack} (h : leastRtt acks ≤ r.minRtt.toNat) :
    leastRtt (acks ++ [⟨now, s⟩]) ≤ (probeMinrtt r s).minRtt.toNat := by
  rw [leastRtt_snoc]
  unfold probeMinrtt; split
  · exact Nat.min_le_right _ _
  · exact Nat.le_trans (Nat.min_le_left _ _) h

lemma Snapshot.onAck {t1 : UInt64} {acks : List Ack} (h : Snapshot t1 acks r) :
    Snapshot t1 (acks ++ [⟨now, s⟩]) (sampled now s r) := by
  by_cases hstart : now < r.sampleStart
  · obtain ⟨-, -, -, hsent, htotal⟩ := sampled_before (s := s) hstart
    exact .inr ⟨⟨now, s⟩, mem_append_right _ mem_cons_self, hsent.symm, htotal.symm⟩
  · obtain ⟨-, -, -, hsent, htotal⟩ := sampled_from (s := s) (UInt64.not_lt.mp hstart)
    unfold Snapshot; rw [hsent, htotal]
    rcases h with h | ⟨a, ha, h⟩
    · exact .inl h
    · exact .inr ⟨a, mem_append_left _ ha, h⟩

variable {t1 : UInt64} {x : Seen}

lemma Windows.sent_lt (h : Windows t1 x) (ht : Ticks x (.ack now ub s)) (hstart : x.rlcc.sampleStart ≤ now) :
    x.rlcc.sentTimestamp < now := by
  rcases h.before with ⟨hnone, hsent⟩ | hsent | hsent
  · rw [hsent]; exact ht.2 hnone
  · exact UInt64.lt_of_lt_of_le hsent ht.1
  · exact UInt64.lt_of_lt_of_le hsent hstart

lemma stopSample_window (ub : UInt32) (s : Sample)
    (hf : now.toNat + r.minRtt.toNat + min r.minRtt.toNat sampleInterval.toNat < 2 ^ 64) :
    (stopSample now ub s r).sampleStart ≤ (stopSample now ub s r).sampleStop ∧
      (stopSample now ub s r).sampleStop.toNat = now.toNat + wait r.minRtt.toNat := by
  have hstart : (stopSample now ub s r).sampleStart.toNat = now.toNat + r.minRtt.toNat := by
    show (now + r.minRtt).toNat = _
    rw [UInt64.toNat_add]; exact Nat.mod_eq_of_lt (by omega)
  have hstop : (stopSample now ub s r).sampleStop.toNat = now.toNat + wait r.minRtt.toNat := by
    show ((stopSample now ub s r).sampleStart + minU64 r.minRtt sampleInterval).toNat = _
    rw [UInt64.toNat_add, toNat_minU64]
    unfold wait
    omega
  refine ⟨?_, hstop⟩
  rw [le_iff_toNat_le, hstop]
  unfold wait
  omega

lemma Windows.report (h : Windows t1 x) (ht : Ticks x (.ack now ub s)) (hf : Fits x (.ack now ub s))
    (hstop : x.rlcc.sampleStop ≤ now) : Windows t1 (x.onAck now ub s) := by
  have hlt := h.sent_lt ht (UInt64.le_trans h.ordered hstop)
  obtain ⟨-, -, -, hsent, -⟩ := sampled_from (s := s) (UInt64.le_trans h.ordered hstop)
  obtain ⟨-, -, hmin⟩ := sampled_times now s x.rlcc
  have hleast := probeMinrtt_least now s h.least
  have hfit := hf hstop
  rw [← hmin] at hleast hfit
  obtain ⟨hordered, hnext⟩ := stopSample_window ub s hfit
  have hsnap : Snapshot t1 (x.acks ++ [⟨now, s⟩]) (stopSample now ub s (sampled now s x.rlcc)) := h.snapshot.onAck
  have hlater : (stopSample now ub s (sampled now s x.rlcc)).sentTimestamp < now := by
    show (sampled now s x.rlcc).sentTimestamp < now
    rw [hsent]; exact hlt
  unfold Seen.onAck; rw [if_pos hstop, onAck_stops hstop]
  refine ⟨hleast, hsnap, .inr (.inl hlater), hordered, ?_, ?_, ?_, ?_⟩
  · intro p hp; rw [getLast?_concat] at hp
    obtain rfl := Option.some.inj hp
    rw [hnext]; exact Nat.add_le_add_left (wait_mono hleast) _
  · intro p hp
    rcases mem_append.mp hp with hp | hp
    · exact h.timely.later p hp
    · obtain rfl := mem_singleton.mp hp
      exact hlater
  · intro p hp
    rcases mem_append.mp hp with hp | hp
    · exact h.timely.snapshot p hp
    · obtain rfl := mem_singleton.mp hp
      exact hsnap
  · refine isChain_append.mpr ⟨h.timely.apart, isChain_singleton _, ?_⟩
    intro p hp q hq
    obtain rfl := Option.some.inj hq
    exact Nat.le_trans (h.next p hp) (le_iff_toNat_le.mp hstop)

lemma Windows.sample (h : Windows t1 x) (ht : Ticks x (.ack now ub s)) (hstop : ¬ x.rlcc.sampleStop ≤ now) :
    Windows t1 (x.onAck now ub s) := by
  obtain ⟨hstart, hkept, hmin⟩ := sampled_times now s x.rlcc
  have hleast := probeMinrtt_least now s h.least
  rw [← hmin] at hleast
  unfold Seen.onAck; rw [if_neg hstop, onAck_goes_on hstop]
  refine ⟨hleast, h.snapshot.onAck, ?_, ?_, ?_, h.timely⟩
  · by_cases hbefore : now < x.rlcc.sampleStart
    · obtain ⟨-, -, -, hsent, -⟩ := sampled_before (s := s) hbefore
      refine .inr (.inr ?_)
      rw [hsent, hstart]; exact hbefore
    · obtain ⟨-, -, -, hsent, -⟩ := sampled_from (s := s) (UInt64.not_lt.mp hbefore)
      refine .inr (.inl ?_)
      rw [hsent]; exact h.sent_lt ht (UInt64.not_lt.mp hbefore)
  · rw [hstart, hkept]; exact h.ordered
  · rw [hkept]; exact h.next

lemma Windows.congr {r' : Rlcc} (h : Windows t1 x) (hr : SameSamples x.rlcc r') : Windows t1 { x with rlcc := r' } where
  least := by
    rw [hr.minRtt]; exact h.least
  snapshot := by
    unfold Snapshot; rw [hr.sentTimestamp, hr.beforeTotalSent]
    exact h.snapshot
  before := by
    rw [hr.sentTimestamp, hr.sampleStart]; exact h.before
  ordered := by
    rw [hr.sampleStart, hr.sampleStop]; exact h.ordered
  next := by
    rw [hr.sampleStop]; exact h.next
  timely := h.timely

lemma Windows.after (h : Windows t1 x) {e : Ev} (ht : Ticks x e) (hf : Fits x e) : Windows t1 (x.after e) := by
  cases e with
  | ack now ub s =>
    by_cases hstop : x.rlcc.sampleStop ≤ now
    · exact h.report ht hf hstop
    · exact h.sample ht hstop
  | reply reply ub => exact h.congr (reply_same reply ub x.rlcc)
  | reset => exact h.congr (reset_same x.rlcc)

/-- Every report divides by a time that has passed since its snapshot, the snapshot is one
    of the bytes sent, and the next report is at least a window later. -/
theorem reports_are_timely (t0 t1 : UInt64) (params : CcParams) (es : List Ev) (x : Seen)
    (hrun : Run (Guard Fits (Guard Ticks Moves)) (newSeen t0 t1 params) es x) : Timely t1 x.reports := by
  refine (hrun.inv (P := Windows t1) ?_ (newSeen_windows t0 t1 params)).timely
  rintro x e y h ⟨hf, ht, rfl⟩
  exact h.after ht hf

/-- An ack with a round-trip time; the other samples count alike. -/
def sampleOf (rtt : UInt64) (count : UInt32) : Sample := ⟨0, rtt, rtt, count, 0, 0, count, 0⟩

/-- The first ack reports; of two more, one comes before its window and one ends it. -/
theorem two_reports_are_timely : ∃ x : Seen, Run (Guard Fits (Guard Ticks Moves)) (newSeen 0 0 ⟨false, 0⟩)
    [.ack 10 0 (sampleOf 5 100), .ack 12 0 (sampleOf 7 100), .ack 22 0 (sampleOf 6 100)] x ∧
      x.reports.map (·.time) = [10, 22] ∧ Timely 0 x.reports := by
  have hrun : Run (Guard Fits (Guard Ticks Moves)) (newSeen 0 0 ⟨false, 0⟩)
      [.ack 10 0 (sampleOf 5 100), .ack 12 0 (sampleOf 7 100), .ack 22 0 (sampleOf 6 100)] _ :=
    ((Run.nil.snoc ⟨fun _ => by decide, ⟨by decide, fun _ => by decide⟩, rfl⟩).snoc
      ⟨fun _ => by decide, ⟨by decide, fun _ => by decide⟩, rfl⟩).snoc
      ⟨fun _ => by decide, ⟨by decide, fun _ => by decide⟩, rfl⟩
  exact ⟨_, hrun, by decide, reports_are_timely 0 0 ⟨false, 0⟩ _ _ hrun⟩

/-- A sample of more than `XQC_RLCC_INF` is not the smallest round-trip time, and the next
    report is too early for it. Near the end of the clock a window ends before it starts,
    and an ack reports at the time of its own snapshot. -/
theorem windows_are_cut_short :
    (∃ x : Seen, Run (Guard Ticks Moves) (newSeen 0 0 ⟨false, 0⟩)
      [.ack 0x100000000 0 (sampleOf 0x100000000 100), .ack 0x18001869f 0 (sampleOf 0x100000000 100)] x ∧
      ∃ p q, x.reports = [p, q] ∧ p.acks.map (·.sample.rtt) = [0x100000000] ∧
        q.time.toNat < p.time.toNat + wait 0x100000000) ∧
    ∃ x : Seen, Run (Guard Ticks Moves) (newSeen 0 0 ⟨false, 0⟩)
      [.ack 0xfffffffffffffff0 0 (sampleOf 10 100), .ack 0xfffffffffffffff1 0 (sampleOf 10 100)] x ∧
      ∃ p q, x.reports = [p, q] ∧ q.rlcc.sentTimestamp = q.time := by
  refine ⟨⟨_, (Run.nil.snoc ⟨⟨by decide, fun _ => by decide⟩, rfl⟩).snoc ⟨⟨by decide, fun _ => by decide⟩, rfl⟩,
    _, _, rfl, by decide, by decide⟩, ?_⟩
  exact ⟨_, (Run.nil.snoc ⟨⟨by decide, fun _ => by decide⟩, rfl⟩).snoc ⟨⟨by decide, fun _ => by decide⟩, rfl⟩,
    _, _, rfl, by decide⟩

/-! ## Samples -/

/-- Between the smallest and the largest of some values. -/
def InHull (v : Nat) (vs : List Nat) : Prop := (∃ a ∈ vs, a ≤ v) ∧ ∃ b ∈ vs, v ≤ b

instance (v : Nat) (vs : List Nat) : Decidable (InHull v vs) := inferInstanceAs (Decidable (_ ∧ _))

lemma smooth_hull (v y : Nat) : min v y ≤ smooth v y ∧ smooth v y ≤ max v y := by
  unfold smooth
  omega

lemma InHull.snoc {v : Nat} {vs : List Nat} (h : InHull v vs) (y : Nat) : InHull (smooth v y) (vs ++ [y]) := by
  obtain ⟨⟨a, ha, hle⟩, b, hb, hge⟩ := h
  obtain ⟨hlow, hhigh⟩ := smooth_hull v y
  constructor
  · by_cases hy : v ≤ y
    · exact ⟨a, mem_append_left _ ha, by omega⟩
    · exact ⟨y, mem_append_right _ mem_cons_self, by omega⟩
  · by_cases hy : v ≤ y
    · exact ⟨y, mem_append_right _ mem_cons_self, by omega⟩
    · exact ⟨b, mem_append_left _ hb, by omega⟩

lemma inHull_last (vs : List Nat) (y : Nat) : InHull y (vs ++ [y]) :=
  have hmem : y ∈ vs ++ [y] := mem_append_right _ mem_cons_self
  ⟨⟨y, hmem, le_rfl⟩, y, hmem, le_rfl⟩

/-- The three averages of a report are between their samples in some acks. -/
structure Averages (r : Rlcc) (acks : List Ack) : Prop where
  rtt : InHull r.rtt.toNat (acks.map fun a => a.sample.rtt.toNat)
  inflight : InHull r.inflight.toNat (acks.map fun a => a.sample.bytesInflight.toNat)
  deliveryRate : InHull r.deliveryRate.toNat (acks.map fun a => a.sample.deliveryRate.toNat)

lemma sampled_averages (now : UInt64) (s : Sample) {acks : List Ack} {seeded : Bool}
    (h : seeded = true → Averages r acks)
    (hs : (seeded || decide (now < r.sampleStart)) = true) : Averages (sampled now s r) (acks ++ [⟨now, s⟩]) := by
  by_cases hbefore : now < r.sampleStart
  · obtain ⟨hrtt, hinflight, hrate, -, -⟩ := sampled_before (s := s) hbefore
    constructor
    · rw [hrtt, map_append]; exact inHull_last _ _
    · rw [hinflight, map_append]; exact inHull_last _ _
    · rw [hrate, map_append]; exact inHull_last _ _
  · obtain ⟨hrtt, hinflight, hrate, -, -⟩ := sampled_from (s := s) (UInt64.not_lt.mp hbefore)
    have havg := h (by simpa [hbefore] using hs)
    constructor
    · rw [hrtt, toNat_smooth64, map_append]; exact havg.rtt.snoc _
    · rw [hinflight, toNat_smooth32, map_append]; exact havg.inflight.snoc _
    · rw [hrate, toNat_smooth32, map_append]; exact havg.deliveryRate.snoc _

structure Seeded (x : Seen) : Prop where
  window : x.seeded = true → Averages x.rlcc x.window
  reports : ∀ p ∈ x.reports, p.seeded = true → Averages p.rlcc p.window

lemma Seeded.onAck (h : Seeded x) (now : UInt64) (ub : UInt32) (s : Sample) : Seeded (x.onAck now ub s) := by
  have havg := sampled_averages now s h.window
  unfold Seen.onAck
  by_cases hstop : x.rlcc.sampleStop ≤ now
  · rw [if_pos hstop, onAck_stops hstop]
    refine ⟨fun hs => absurd hs Bool.false_ne_true, ?_⟩
    intro p hp hs
    rcases mem_append.mp hp with hp | hp
    · exact h.reports p hp hs
    · obtain rfl := mem_singleton.mp hp
      obtain ⟨hrtt, hinflight, hrate⟩ := havg hs
      exact ⟨hrtt, hinflight, hrate⟩
  · rw [if_neg hstop, onAck_goes_on hstop]; exact ⟨havg, h.reports⟩

lemma Seeded.congr {r' : Rlcc} (h : Seeded x) (hr : SameSamples x.rlcc r') : Seeded { x with rlcc := r' } := by
  refine ⟨fun hs => ?_, h.reports⟩
  obtain ⟨hrtt, hinflight, hrate⟩ := h.window hs
  rw [← hr.rtt] at hrtt
  rw [← hr.inflight] at hinflight
  rw [← hr.deliveryRate] at hrate; exact ⟨hrtt, hinflight, hrate⟩

/-- A report whose window an ack of its own has started is between that window's samples. -/
theorem reports_stay_in_hull (t0 t1 : UInt64) (params : CcParams) (es : List Ev) (x : Seen)
    (hrun : Run Moves (newSeen t0 t1 params) es x) (p : Report) (hp : p ∈ x.reports) (hs : p.seeded = true) :
    Averages p.rlcc p.window := by
  have hnew : Seeded (newSeen t0 t1 params) :=
    ⟨fun h => absurd h Bool.false_ne_true, fun p hp => absurd hp not_mem_nil⟩
  refine (hrun.inv (P := Seeded) ?_ hnew).reports p hp hs
  rintro x e y h rfl
  cases e with
  | ack now ub s => exact h.onAck now ub s
  | reply reply ub => exact h.congr (reply_same reply ub x.rlcc)
  | reset => exact h.congr (reset_same x.rlcc)

theorem second_report_stays_in_hull : ∃ x : Seen, Run Moves (newSeen 0 0 ⟨false, 0⟩)
    [.ack 10 0 (sampleOf 5 100), .ack 12 0 (sampleOf 7 200), .ack 22 0 (sampleOf 6 100)] x ∧
      ∃ p q, x.reports = [p, q] ∧ q.seeded = true ∧ Averages q.rlcc q.window := by
  have hrun : Run Moves (newSeen 0 0 ⟨false, 0⟩)
      [.ack 10 0 (sampleOf 5 100), .ack 12 0 (sampleOf 7 200), .ack 22 0 (sampleOf 6 100)] _ :=
    ((Run.nil.snoc rfl).snoc rfl).snoc rfl
  exact ⟨_, hrun, _, _, rfl, by decide, reports_stay_in_hull 0 0 ⟨false, 0⟩ _ _ hrun _ (by decide) (by decide)⟩

/-- The first report starts from values that are no samples. So does a window that no ack
    comes before: it starts from the average of the one ahead. -/
theorem unseeded_reports_leave_the_hull : ∃ x : Seen, Run Moves (newSeen 0 0 ⟨false, 0⟩)
    [.ack 10 0 (sampleOf 5 100), .ack 20 0 (sampleOf 5 100)] x ∧
      ∃ p q, x.reports = [p, q] ∧ ¬ Averages p.rlcc p.window ∧ ¬ Averages q.rlcc q.window := by
  refine ⟨_, (Run.nil.snoc rfl).snoc rfl, _, _, rfl, ?_, ?_⟩
  · exact fun h => absurd h.rtt (by decide)
  · exact fun h => absurd h.inflight (by decide)

end RlccQuic.CongestionControl.Sampling
