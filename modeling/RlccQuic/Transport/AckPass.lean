/-
  RlccQuic.Transport.AckPass — the pass of `xqc_send_ctl_on_ack_received` over the unacked list.

  The pass merges two ascending sequences, the packets of the list and the ranges of the ACK frame from the lowest up. It has
  read the next packet before it deals with the current one, which may take an earlier packet, its origin, off the list.

  Proved: in every state of every run, if the list ascends and the ranges are well formed, the pass acknowledges the
  packets in a range and no others, comes to each packet once and while it is still in the list, and leaves the list
  ascending; and the lists do ascend, as long as no counter of packet numbers wraps (`ack_pass_is_membership`). Only
  then: after 2^64 packets the numbers begin anew (`numbers_begin_anew`).
-/

import RlccQuic.Transport.SendOrder

namespace RlccQuic.Transport.SendCtl

open Lib List
open FrameParser (AckInfo PktnoRange)
open UInt64 (lt_trans not_lt)

/-! ## Ranges -/

def Within (num : UInt64) (rs : List PktnoRange) : Prop := ∃ r ∈ rs, r.low ≤ num ∧ num ≤ r.high

/-- Every range has its lower end below its upper one, and is above the next range. -/
structure WellFormed (rs : List PktnoRange) : Prop where
  any : rs ≠ []
  each : ∀ r ∈ rs, r.low ≤ r.high
  above : rs.IsChain fun r r' => r'.high < r.low

lemma WellFormed.pairwise {rs : List PktnoRange} (h : WellFormed rs) :
    rs.Pairwise fun r r' => r'.high < r.low := by
  obtain ⟨-, heach, habove⟩ := h
  induction rs with
  | nil => exact .nil
  | cons r rs ih =>
    have hrest := ih (fun x hx => heach x (mem_cons_of_mem _ hx)) habove.tail
    refine pairwise_cons.mpr ⟨?_, hrest⟩
    intro x hx
    cases rs with
    | nil => cases hx
    | cons r' rs =>
      have hnext : r'.high < r.low := (isChain_cons_cons.mp habove).1
      rcases mem_cons.mp hx with rfl | hx
      · exact hnext
      · -- below the lower end of the next range, hence below its upper end
        have hlow := (pairwise_cons.mp hrest).1 x hx
        have hmid := heach r' (by simp)
        exact lt_trans (UInt64.lt_of_lt_of_le hlow hmid) hnext

lemma skipRanges_spec (num : UInt64) : ∀ rs : List PktnoRange, rs ≠ [] →
    ∃ passed r rest, rs = passed ++ r :: rest ∧ skipRanges num rs = r :: rest ∧ (∀ x ∈ passed, x.high < num) ∧
      (num ≤ r.high ∨ rest = []) := by
  intro rs
  induction rs with
  | nil => intro h; exact absurd rfl h
  | cons r rs ih =>
    intro _
    cases rs with
    | nil => exact ⟨[], r, [], rfl, rfl, by simp, .inr rfl⟩
    | cons r' rs =>
      unfold skipRanges; split
      · rename_i hgt
        obtain ⟨passed, x, rest, heq, hskip, hpassed, hend⟩ := ih (by simp)
        exact ⟨r :: passed, x, rest, by rw [heq]; rfl, hskip, forall_mem_cons.mpr ⟨hgt, hpassed⟩, hend⟩
      · rename_i hle; exact ⟨[], r, r' :: rs, rfl, rfl, by simp, .inl (not_lt.mp hle)⟩

/-- The number is in a range exactly if it is not below the range the pass stands at. -/
lemma within_iff {num : UInt64} {rs passed rest : List PktnoRange} {r : PktnoRange}
    (hrs : rs.reverse = passed ++ r :: rest) (hwf : WellFormed rs) (hpassed : ∀ x ∈ passed, x.high < num)
    (hhigh : num ≤ r.high) : Within num rs ↔ r.low ≤ num := by
  have hmem : ∀ x, x ∈ rs ↔ x ∈ passed ++ r :: rest := by
    intro x; rw [← hrs, mem_reverse]
  constructor
  · rintro ⟨x, hx, hlow, hup⟩
    rcases mem_append.mp ((hmem x).mp hx) with hx | hx
    · exact absurd (hpassed x hx) (not_lt.mpr hup)
    · rcases mem_cons.mp hx with rfl | hx
      · exact hlow
      · -- a later range begins above this one
        have hord : (passed ++ r :: rest).Pairwise fun a b => a.high < b.low := by
          rw [← hrs]; exact pairwise_reverse.mpr hwf.pairwise
        have hlater := (pairwise_cons.mp (pairwise_append.mp hord).2.1).1 x hx
        exact absurd (UInt64.lt_of_lt_of_le hlater hlow) (not_lt.mpr hhigh)
  · intro hlow; exact ⟨r, (hmem r).mpr (by simp), hlow, hhigh⟩

/-! ## One round -/

def acknowledges (largestAck : UInt64) (p : Id) (a : AckPass) : Bool :=
  let num := (a.ctl.pkts p).pktNum
  !decide (num > largestAck) && (skipRanges num a.ranges).head?.any fun r => num ≥ r.low

section Round

variable {n : Pns} {la rt : UInt64} {p : Id} {a : AckPass}

lemma ackRound_stopped (h : (a.ctl.pkts p).pktNum > la) : ackRound n la rt p a = (a, false) := by
  unfold ackRound; rw [if_pos h]

lemma ackRound_skipped (h : ¬ (a.ctl.pkts p).pktNum > la) (hno : acknowledges la p a = false) :
    ackRound n la rt p a = ({ a with ranges := skipRanges (a.ctl.pkts p).pktNum a.ranges }, true) := by
  unfold acknowledges at hno
  unfold ackRound
  rw [if_neg h, if_neg (by simpa [h] using hno)]

/-- The packet goes through `xqc_send_ctl_on_packet_acked` and `xqc_send_ctl_maybe_remove_unacked`. -/
lemma ackRound_acked (n : Pns) (rt : UInt64) (h : acknowledges la p a = true) : ∃ r u e sp, ackRound n la rt p a =
    (⟨{ xqcSendCtlMaybeRemoveUnacked p (xqcSendCtlOnPacketAcked p (noteAcked n p a.ctl)) with rtt := r },
      skipRanges (a.ctl.pkts p).pktNum a.ranges, u, e, sp⟩, true) := by
  simp only [acknowledges, Bool.and_eq_true, Bool.not_eq_true', decide_eq_false_iff_not] at h
  unfold ackRound; rw [if_neg h.1, if_pos h.2]
  by_cases hlast : (a.ctl.pkts p).pktNum = la ∧
      (xqcSendCtlMaybeRemoveUnacked p (xqcSendCtlOnPacketAcked p (noteAcked n p a.ctl))).largestAcked n =
        some (a.ctl.pkts p).pktNum
  · exact ⟨_, _, _, _, if_pos hlast⟩
  · exact ⟨_, _, _, _, if_neg hlast⟩

lemma ackRound_go_iff : (ackRound n la rt p a).2 = true ↔ ¬ (a.ctl.pkts p).pktNum > la := by
  by_cases hgt : (a.ctl.pkts p).pktNum > la
  · simp [ackRound_stopped hgt, hgt]
  · cases hack : acknowledges la p a with
    | false => simp [ackRound_skipped hgt hack, hgt]
    | true =>
      obtain ⟨r, u, e, sp, heq⟩ := ackRound_acked n rt hack
      simp [heq, hgt]

lemma ackRound_stop_iff : (ackRound n la rt p a).2 = false ↔ (a.ctl.pkts p).pktNum > la := by
  rw [← Bool.not_eq_true, ackRound_go_iff, not_not]

lemma ackRound_ranges (n : Pns) (rt : UInt64) (h : ¬ (a.ctl.pkts p).pktNum > la) :
    (ackRound n la rt p a).1.ranges = skipRanges (a.ctl.pkts p).pktNum a.ranges := by
  cases hack : acknowledges la p a with
  | false => rw [ackRound_skipped h hack]
  | true =>
    obtain ⟨r, u, e, sp, heq⟩ := ackRound_acked n rt hack
    rw [heq]

/-- The list keeps what comes after the packet: what a round takes off is the packet
    and its origin, which stands before it. -/
lemma ackRound_rest {front ps : List Id} (hinv : Inv False a.ctl) (hlined : Lined a.ctl)
    (hl : a.ctl.lists (.unacked n) = front ++ p :: ps) :
    ∃ front', (ackRound n la rt p a).1.ctl.lists (.unacked n) = front' ++ ps := by
  have hnd := hinv.ledger.single.nodup (.unacked n)
  rw [hl] at hnd
  have hp : p ∈ a.ctl.lists (.unacked n) := by
    rw [hl]
    simp
  have hkeep : ∃ front', front ++ p :: ps = front' ++ ps := ⟨front ++ [p], by simp⟩
  by_cases hgt : (a.ctl.pkts p).pktNum > la
  · rw [ackRound_stopped hgt, hl]; exact hkeep
  · cases hack : acknowledges la p a with
    | false => rw [ackRound_skipped hgt hack]; rw [hl]; exact hkeep
    | true =>
      obtain ⟨r, u, e, sp, heq⟩ := ackRound_acked n rt hack
      obtain ⟨hpkts, hlists⟩ := noteAcked_same n p a.ctl
      have hlive : a.ctl.Live p := ⟨_, by simp, hp⟩
      have horigin : ((xqcSendCtlOnPacketAcked p (noteAcked n p a.ctl)).pkts p).origin = (a.ctl.pkts p).origin := by
        rw [onPacketAcked_origin, hpkts]
        intro o ho; rw [hpkts] at ho
        exact hinv.sound.origin_ne hlive ho
      have hlu : (xqcSendCtlOnPacketAcked p (noteAcked n p a.ctl)).lists (.unacked n) = front ++ p :: ps := by
        rw [onPacketAcked_lists, hlists, hl]
      rw [heq]
      refine remove_rest (n := n) hnd hlu ?_
      intro o ho; exact hlined.not_after hl (horigin.symm.trans ho)

end Round

/-! ## The pass -/

def ackVisits (ack : AckInfo) (ackRecvTime : UInt64) (s : Ctl) : List (Id × AckPass) :=
  visits (·.ctl.lists (.unacked ack.pns)) (ackRound ack.pns (largestOf ack) ackRecvTime)
    (s.lists (.unacked ack.pns)) (ackStart ack s)

/-- The packets `ps` of the list of `s` are still to come. -/
structure Passing (ack : AckInfo) (s : Ctl) (ps : List Id) (a : AckPass) : Prop where
  inv : Inv False a.ctl
  lined : Lined a.ctl
  ebbs : Ebbs s a.ctl
  listed : ∃ front, a.ctl.lists (.unacked ack.pns) = front ++ ps
  ascending : ps.Pairwise fun p q => (s.pkts p).pktNum < (s.pkts q).pktNum
  ranges : ∃ passed, ack.ranges.reverse = passed ++ a.ranges ∧ ∀ r ∈ passed, ∀ p ∈ ps, r.high < (s.pkts p).pktNum
  any : a.ranges ≠ []

section Pass

variable {ack : AckInfo} {rt : UInt64} {s : Ctl} {p : Id} {ps : List Id} {a : AckPass}

lemma Passing.mem (h : Passing ack s (p :: ps) a) : p ∈ a.ctl.lists (.unacked ack.pns) := by
  obtain ⟨front, hl⟩ := h.listed
  rw [hl]
  simp

lemma Passing.num (h : Passing ack s (p :: ps) a) : (a.ctl.pkts p).pktNum = (s.pkts p).pktNum :=
  (h.ebbs.same h.mem).1

lemma Passing.skip (h : Passing ack s (p :: ps) a) : ∃ passed r rest,
    skipRanges (s.pkts p).pktNum a.ranges = r :: rest ∧ ack.ranges.reverse = passed ++ r :: rest ∧
      (∀ x ∈ passed, x.high < (s.pkts p).pktNum) ∧ ((s.pkts p).pktNum ≤ r.high ∨ rest = []) := by
  obtain ⟨before, hbefore, hlow⟩ := h.ranges
  obtain ⟨skipped, r, rest, heq, hskip, hskipped, hend⟩ := skipRanges_spec (s.pkts p).pktNum a.ranges h.any
  exact ⟨before ++ skipped, r, rest, hskip, by rw [hbefore, heq, append_assoc],
    forall_mem_append.mpr ⟨fun x hx => hlow x hx p mem_cons_self, hskipped⟩, hend⟩

lemma largestOf_eq {ranges : List PktnoRange} {passed : List PktnoRange}
    {r : PktnoRange} (hr : ack.ranges = ranges) (h : ranges.reverse = passed ++ [r]) : largestOf ack = r.high := by
  have hrev : ranges = r :: passed.reverse := by
    rw [← reverse_reverse ranges, h]
    simp
  rw [largestOf, hr, hrev]; rfl

lemma within_le_largest (hwf : WellFormed ack.ranges) {num : UInt64} (hw : Within num ack.ranges) : num ≤ largestOf ack := by
  obtain ⟨x, hx, _, hup⟩ := hw
  cases hranges : ack.ranges with
  | nil => rw [hranges] at hx; cases hx
  | cons r rs =>
    have htop : largestOf ack = r.high := by
      rw [largestOf, hranges]; rfl
    rw [htop]
    rw [hranges] at hx hwf
    rcases mem_cons.mp hx with rfl | hx
    · exact hup
    · have hbelow := (pairwise_cons.mp hwf.pairwise).1 x hx
      have hr := hwf.each r mem_cons_self
      exact UInt64.le_trans hup (UInt64.le_of_lt (UInt64.lt_of_lt_of_le hbelow hr))

lemma Passing.acknowledges_iff (h : Passing ack s (p :: ps) a) (hwf : WellFormed ack.ranges) :
    acknowledges (largestOf ack) p a = true ↔ Within (s.pkts p).pktNum ack.ranges := by
  obtain ⟨passed, r, rest, hskip, hrev, hpassed, hend⟩ := h.skip
  have hlargest : rest = [] → largestOf ack = r.high := by
    rintro rfl
    exact largestOf_eq rfl hrev
  simp only [acknowledges, h.num, hskip, head?_cons, Option.any_some, Bool.and_eq_true, Bool.not_eq_true',
    decide_eq_false_iff_not, decide_eq_true_eq, gt_iff_lt, ge_iff_le, not_lt]
  constructor
  · rintro ⟨hle, hlow⟩
    refine (within_iff hrev hwf hpassed ?_).mpr hlow
    rcases hend with hend | hend
    · exact hend
    · rw [← hlargest hend]; exact hle
  · intro hw
    have hle := within_le_largest hwf hw
    refine ⟨hle, (within_iff hrev hwf hpassed ?_).mp hw⟩
    rcases hend with hend | hend
    · exact hend
    · rw [← hlargest hend]; exact hle

lemma Passing.step (h : Passing ack s (p :: ps) a) (hgo : (ackRound ack.pns (largestOf ack) rt p a).2 = true) :
    Passing ack s ps (ackRound ack.pns (largestOf ack) rt p a).1 := by
  have hebb := ackRound_ebbs ack.pns (largestOf ack) rt p a
  obtain ⟨front, hl⟩ := h.listed
  obtain ⟨passed, r, rest, hskip, hrev, hpassed, -⟩ := h.skip
  have hranges := ackRound_ranges ack.pns rt (ackRound_go_iff.mp hgo)
  rw [h.num, hskip] at hranges
  obtain ⟨hfirst, hrest⟩ := pairwise_cons.mp h.ascending
  refine ⟨ackRound_inv h.inv h.mem, hebb.toRecedes.lined h.lined, h.ebbs.trans hebb,
    ackRound_rest h.inv h.lined hl, hrest, ⟨passed, by rw [hranges, hrev], ?_⟩, by rw [hranges]; simp⟩
  intro x hx q hq; exact lt_trans (hpassed x hx) (hfirst q hq)

lemma Passing.stop (h : Passing ack s (p :: ps) a) (hwf : WellFormed ack.ranges)
    (hstop : (ackRound ack.pns (largestOf ack) rt p a).2 = false) : ∀ q ∈ ps, ¬ Within (s.pkts q).pktNum ack.ranges := by
  intro q hq hw
  have hgt := ackRound_stop_iff.mp hstop
  rw [h.num] at hgt
  have hnext := (pairwise_cons.mp h.ascending).1 q hq
  exact not_lt.mpr (within_le_largest hwf hw) (lt_trans hgt hnext)

lemma passing_start (hinv : Inv False s) (hlined : Lined s) (hasc : Ascending s ack.pns) (hwf : WellFormed ack.ranges) :
    Passing ack s (s.lists (.unacked ack.pns)) (ackStart ack s) := by
  refine ⟨hinv.congr rfl, hlined, .of_eq rfl rfl rfl, ⟨[], rfl⟩, hasc, ⟨[], rfl, by simp⟩, ?_⟩
  show ack.ranges.reverse ≠ []
  simpa using hwf.any

end Pass

/-- In every state of every run of a new connection, for a list that ascends and
    ranges that are well formed, the pass acknowledges the packets whose number is in a
    range and no others, comes to each packet once and while it is in the list, and
    leaves the list ascending. The lists ascend in every run in which no counter of
    packet numbers wraps. -/
theorem ack_pass_is_membership (w : World) (conn : Conn) (hc : conn.Fresh) :
    (∀ cs s, Run (Turn w) (xqcSendCtlCreate conn) cs s →
      ∀ (ack : AckInfo) (ackRecvTime : UInt64), Ascending s ack.pns → WellFormed ack.ranges →
        (∀ p, (∃ a, (p, a) ∈ ackVisits ack ackRecvTime s ∧ acknowledges (largestOf ack) p a = true) ↔
          p ∈ s.lists (.unacked ack.pns) ∧ Within (s.pkts p).pktNum ack.ranges) ∧
        ((ackVisits ack ackRecvTime s).map Prod.fst).Nodup ∧
        (∀ v ∈ ackVisits ack ackRecvTime s, v.1 ∈ v.2.ctl.lists (.unacked ack.pns)) ∧
        Ascending (ackPass ack ackRecvTime s).ctl ack.pns) ∧
    ∀ cs s,
      Run (fun s c t => Turn w s c t ∧ ∀ n, s.packetNumber n ≤ t.packetNumber n) (xqcSendCtlCreate conn) cs s →
      ∀ n, Ascending s n := by
  refine ⟨?_, fun cs s h => (run_ranked w hc h).ascending⟩
  intro cs s hrun ack rt hasc hwf
  obtain ⟨hinv, hlined⟩ := run_lined w hc hrun
  have hstart := passing_start hinv hlined hasc hwf
  have hnodup := hinv.ledger.single.nodup (.unacked ack.pns)
  have hsub := visits_sublist (fun a : AckPass => a.ctl.lists (.unacked ack.pns))
    (ackRound ack.pns (largestOf ack) rt) (s.lists (.unacked ack.pns)) (ackStart ack s)
  have hvisit : ∀ v ∈ ackVisits ack rt s, v.1 ∈ v.2.ctl.lists (.unacked ack.pns) ∧
      (acknowledges (largestOf ack) v.1 v.2 = true ↔ Within (s.pkts v.1).pktNum ack.ranges) := by
    refine visits_forall (R := Passing ack s)
      (Q := fun p a => p ∈ a.ctl.lists (.unacked ack.pns) ∧
        (acknowledges (largestOf ack) p a = true ↔ Within (s.pkts p).pktNum ack.ranges))
      (fun h => ⟨h.mem, h.mem, h.acknowledges_iff hwf⟩) (fun h hgo => h.step hgo) hstart
  refine ⟨?_, hsub.nodup hnodup, fun v hv => (hvisit v hv).1, (ackPass_ebbs ack rt s).toRecedes.ascending hasc⟩
  intro p
  constructor
  · rintro ⟨a, ha, hack⟩
    have hp : p ∈ s.lists (.unacked ack.pns) := hsub.subset (mem_map_of_mem (f := Prod.fst) ha)
    exact ⟨hp, (hvisit (p, a) ha).2.mp hack⟩
  · rintro ⟨hp, hw⟩
    obtain ⟨a, ha⟩ : ∃ a, (p, a) ∈ ackVisits ack rt s :=
      visits_mem (R := Passing ack s) (D := fun p => Within (s.pkts p).pktNum ack.ranges) (fun h => h.mem)
        (fun h hgo => h.step hgo) (fun h hstop => h.stop hwf hstop) hstart p hp hw
    exact ⟨a, ha, (hvisit (p, a) ha).2.mpr hw⟩

def ackOfFirst : AckInfo := ⟨.appData, [⟨0, 0⟩], 0⟩

theorem first_packet_is_acknowledged : ∃ s a,
    Run (Turn roomy) (xqcSendCtlCreate newServer) ((oneMore 0).map .one) s ∧
      s.lists (.unacked .appData) = [0] ∧ (0, a) ∈ ackVisits ackOfFirst 0 s ∧
      acknowledges (largestOf ackOfFirst) 0 a = true ∧ (ackPass ackOfFirst 0 s).ctl.lists (.unacked .appData) = [] := by
  have hrun : Run (Turn roomy) (xqcSendCtlCreate newServer) ((oneMore 0).map .one) _ :=
    ((Run.nil.snoc (.one _ _ _ rfl (.write _ _))).snoc (.one _ _ _ rfl (.append _ _ _ (by decide)))).snoc
      (.one _ _ _ rfl (.send _ _ _ _ _ 0 (by decide)))
  obtain ⟨hpass, -⟩ := ack_pass_is_membership roomy newServer (by simp [Conn.Fresh, newServer])
  obtain ⟨hmem, -⟩ := hpass _ _ hrun ackOfFirst 0 (pairwise_singleton _ _)
    ⟨by decide, by decide, isChain_singleton _⟩
  obtain ⟨a, ha, hack⟩ := (hmem 0).mpr ⟨by decide, ⟨0, 0⟩, by decide, by decide, by decide⟩
  exact ⟨_, a, hrun, by decide, ha, hack, by decide⟩

/-- After 2^64 packets the counter has wrapped, and a packet has the number of the
    first one. -/
theorem numbers_begin_anew : newServer.Fresh ∧
    ∃ cs s, Run (Turn roomy) (xqcSendCtlCreate newServer) cs s ∧ ¬ Ascending s .appData := by
  refine ⟨by simp [Conn.Fresh, newServer], ?_⟩
  obtain ⟨es, s, hrun, hs⟩ := filled_run (2 ^ 64 + 1)
  refine ⟨es.map Call.one, s, hrun.map Call.one fun _ _ _ hst => .one _ _ _ hst.1 hst.2, ?_⟩
  intro hasc; unfold Ascending at hasc
  rw [hs.unacked] at hasc
  have hlt := pairwise_iff_getElem.mp hasc 0 (2 ^ 64) (by simp) (by simp) (by omega)
  simp only [getElem_range] at hlt
  rw [(hs.flying 0 (by omega)).2.2.2, (hs.flying (2 ^ 64) (by omega)).2.2.2] at hlt
  exact absurd hlt (by decide)

end RlccQuic.Transport.SendCtl
