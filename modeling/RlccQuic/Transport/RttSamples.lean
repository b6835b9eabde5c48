/-
  RlccQuic.Transport.RttSamples — when an ACK frame gives a round-trip sample (`xqc_send_ctl_on_ack_received`,
  `xqc_send_ctl_on_packet_acked`, `xqc_send_ctl_maybe_remove_unacked`).

  The pass over the unacked list sets two flags: that it has come to the packet with the frame's largest number, and
  that an acknowledged packet is ack-eliciting. A packet that was acknowledged before sets them again if it is still in
  the list, where it stays while copies of it are outstanding. The frame types are read after the bit for
  NEW_CONNECTION_ID has been taken away, and the number must not be below `ctl_largest_acked`.

  Proved: what the pass finds out is there in the state before it (`ackPass_sampled`), so
  that state says exactly when the code takes a sample (`updatesRtt_iff`).
-/

import RlccQuic.Transport.AckPass
import RlccQuic.Transport.Loss

namespace RlccQuic.Transport.SendCtl

open Lib List Word
open FrameParser (AckInfo)
open Function (update_self update_of_ne)
open UInt64 (le_refl not_lt)

variable {B : Prop}

/-! ## The packet that is acknowledged -/

/-- The frame types once the acknowledgement has been taken in. -/
def leftTypes (po : PacketOut) : FrameTypes := if po.inFlight then po.frameTypes.erase .newConnectionId else po.frameTypes

def takeIn (n : Pns) (p : Id) (s : Ctl) : Ctl :=
  xqcSendCtlMaybeRemoveUnacked p (xqcSendCtlOnPacketAcked p (noteAcked n p s))

lemma setAcked_types (p q : Id) (s : Ctl) : ((setAcked p s).pkts q).frameTypes = (s.pkts q).frameTypes := by
  have hown : ((s.modify p ({ · with acked := true })).pkts q).frameTypes = (s.pkts q).frameTypes := pkts_modify rfl q
  unfold setAcked; split
  · exact hown
  · exact (pkts_modify rfl q).trans hown

lemma leaveFlight_types (p : Id) (s : Ctl) : ((leaveFlight p s).pkts p).frameTypes = leftTypes (s.pkts p) := by
  have hdec : ((xqcSendCtlDecreaseInflight p s).pkts p).frameTypes = (s.pkts p).frameTypes := by
    unfold xqcSendCtlDecreaseInflight
    dsimp only; split
    · exact (pkts_modify rfl p).trans (by rw [takeOff_pkts])
    · rfl
  unfold leaveFlight leftTypes; split
  · simp only [Ctl.modify, update_self, hdec]
  · rfl

lemma takeIn_types (n : Pns) (p : Id) (s : Ctl) : ((takeIn n p s).pkts p).frameTypes = leftTypes (s.pkts p) := by
  rw [takeIn, remove_pkts (v := PacketOut.frameTypes) fun _ _ => rfl, xqcSendCtlOnPacketAcked, setAcked_types,
    leaveFlight_types, noteHandshakeDone_pkts, (noteAcked_same n p s).1]

lemma remove_others {p q : Id} {s : Ctl} (ho : (s.pkts p).origin ≠ some q) :
    (xqcSendCtlMaybeRemoveUnacked p s).pkts q = s.pkts q := by
  unfold xqcSendCtlMaybeRemoveUnacked
  dsimp only; split
  · rfl
  · split
    · rfl
    · rename_i o hpo
      have hqo : q ≠ o := by
        rintro rfl
        exact ho hpo
      have hcount : ((s.move p .free).modify o fun r => r.withRefs (r.originRefCnt - 1)).pkts q = s.pkts q :=
        update_of_ne hqo _ _
      split <;> exact hcount

lemma setAcked_others {p q : Id} {s : Ctl} (hq : q ≠ p) (ho : (s.pkts p).origin ≠ some q) :
    (setAcked p s).pkts q = s.pkts q := by
  unfold setAcked; split
  · exact update_of_ne hq _ _
  · rename_i o hpo
    have hqo : q ≠ o := by
      rintro rfl
      exact ho hpo
    simp only [Ctl.modify, update_of_ne hqo, update_of_ne hq]

lemma takeIn_others {n : Pns} {p q : Id} {s : Ctl} (h : Inv B s) (hp : s.Live p) (hq : q ≠ p)
    (ho : (s.pkts p).origin ≠ some q) : (takeIn n p s).pkts q = s.pkts q := by
  obtain ⟨hpkts, -⟩ := noteAcked_same n p s
  have hnoted := noteAcked_inv h n p
  have hself : ∀ o, ((noteAcked n p s).pkts p).origin = some o → o ≠ p := by
    intro o hpo; rw [hpkts] at hpo
    exact h.sound.origin_ne hp hpo
  have horigin := (leaveFlight_frame hnoted p).2.2
  rw [takeIn, remove_others, xqcSendCtlOnPacketAcked, setAcked_others hq, leaveFlight_others hnoted hq, hpkts]
  · rwa [horigin, hpkts]
  · rwa [onPacketAcked_origin p _ hself, hpkts]

lemma takeIn_marks (n : Pns) (p : Id) (s : Ctl) : (takeIn n p s).largestAcked = (noteAcked n p s).largestAcked ∧
    (takeIn n p s).largestAckedSentTime = (noteAcked n p s).largestAckedSentTime := by
  have haside : Aside fun s : Ctl => (s.largestAcked, s.largestAckedSentTime) := fun _ _ _ _ _ _ _ _ _ => rfl
  exact Prod.mk.inj ((haside.remove p _).trans (haside.onPacketAcked p _))

/-! ## The flags of the pass -/

section Flags

variable {n : Pns} {la rt : UInt64} {p : Id} {a : AckPass}

/-- The packet is the frame's largest, and nothing above it was acknowledged. -/
def isLast (n : Pns) (la : UInt64) (p : Id) (a : AckPass) : Prop :=
  (a.ctl.pkts p).pktNum = la ∧ (takeIn n p a.ctl).largestAcked n = some (a.ctl.pkts p).pktNum

instance : Decidable (isLast n la p a) := by unfold isLast; infer_instance

lemma ackRound_eq (n : Pns) (rt : UInt64) (h : acknowledges la p a = true) : ∃ sp,
    ackRound n la rt p a =
      (if isLast n la p a then
        (⟨{ takeIn n p a.ctl with
            rtt := { (takeIn n p a.ctl).rtt with latestRtt := rt - (takeIn n p a.ctl).largestAckedSentTime n } },
          skipRanges (a.ctl.pkts p).pktNum a.ranges, true,
          a.hasAckEliciting || decide ((takeIn n p a.ctl).pkts p).frameTypes.isAckEliciting, sp⟩, true)
      else
        (⟨takeIn n p a.ctl, skipRanges (a.ctl.pkts p).pktNum a.ranges, a.updateRtt,
          a.hasAckEliciting || decide ((takeIn n p a.ctl).pkts p).frameTypes.isAckEliciting, sp⟩, true)) := by
  simp only [acknowledges, Bool.and_eq_true, Bool.not_eq_true', decide_eq_false_iff_not] at h
  unfold ackRound; rw [if_neg h.1, if_pos h.2]
  exact ⟨_, rfl⟩

lemma ackRound_takeIn (n : Pns) (rt : UInt64) (h : acknowledges la p a = true) :
    ((ackRound n la rt p a).1.updateRtt = true ↔ a.updateRtt = true ∨ isLast n la p a) ∧
    ((ackRound n la rt p a).1.hasAckEliciting = true ↔
      a.hasAckEliciting = true ∨ (leftTypes (a.ctl.pkts p)).isAckEliciting) ∧
    (ackRound n la rt p a).1.ctl.pkts = (takeIn n p a.ctl).pkts ∧
    (ackRound n la rt p a).1.ctl.largestAcked = (takeIn n p a.ctl).largestAcked ∧
    (isLast n la p a →
      (ackRound n la rt p a).1.ctl.rtt.latestRtt = rt - (takeIn n p a.ctl).largestAckedSentTime n) := by
  obtain ⟨sp, heq⟩ := ackRound_eq n rt h
  rw [takeIn_types] at heq
  rw [heq]
  by_cases hlast : isLast n la p a
  · simp [hlast]
  · simp [hlast]

end Flags

/-- Nothing above the frame's largest number has been acknowledged. -/
def NotPassed (ack : AckInfo) (s : Ctl) : Prop := ∀ la ∈ s.largestAcked ack.pns, la ≤ largestOf ack

/-- `ctl_largest_acked`, once the frame's largest number has been taken in. -/
def topOf (ack : AckInfo) (s : Ctl) : UInt64 :=
  match s.largestAcked ack.pns with
  | none => largestOf ack
  | some la => maxU64 la (largestOf ack)

lemma largest_le_topOf (ack : AckInfo) (s : Ctl) : largestOf ack ≤ topOf ack s := by
  unfold topOf; split
  · exact le_refl _
  · rw [UInt64.le_iff_toNat_le, toNat_maxU64]; exact Nat.le_max_right _ _

lemma topOf_eq_iff (ack : AckInfo) (s : Ctl) : topOf ack s = largestOf ack ↔ NotPassed ack s := by
  unfold topOf NotPassed
  cases s.largestAcked ack.pns with
  | none => simp
  | some la =>
    simp only [Option.mem_def, Option.some.injEq, forall_eq']
    rw [← UInt64.toNat_inj, toNat_maxU64, UInt64.le_iff_toNat_le]; omega

/-- The pass has come to the packets `behind` and has still to come to those `ahead`. -/
structure Sampling (ack : AckInfo) (rt : UInt64) (s : Ctl) (behind ahead : List Id) (a : AckPass) : Prop where
  passing : Passing ack s ahead a
  split : s.lists (.unacked ack.pns) = behind ++ ahead
  same : ∀ q ∈ ahead, a.ctl.pkts q = s.pkts q
  top : a.ctl.largestAcked ack.pns = some (topOf ack s)
  due : a.updateRtt = true ↔ ∃ p ∈ behind, (s.pkts p).pktNum = largestOf ack ∧ NotPassed ack s
  eliciting : a.hasAckEliciting = true ↔
    ∃ p ∈ behind, Within (s.pkts p).pktNum ack.ranges ∧ (leftTypes (s.pkts p)).isAckEliciting
  latest : ∀ p ∈ behind, (s.pkts p).pktNum = largestOf ack → NotPassed ack s →
    a.ctl.rtt.latestRtt = rt - (s.pkts p).sentTime

lemma exists_snoc {P : Id → Prop} {l : List Id} {p : Id} : (∃ q ∈ l ++ [p], P q) ↔ (∃ q ∈ l, P q) ∨ P p := by
  simp only [mem_append, mem_singleton]
  constructor
  · rintro ⟨q, hq | rfl, hP⟩
    · exact .inl ⟨q, hq, hP⟩
    · exact .inr hP
  · rintro (⟨q, hq, hP⟩ | hP)
    · exact ⟨q, .inl hq, hP⟩
    · exact ⟨p, .inr rfl, hP⟩

lemma largest_within {ack : AckInfo} (hwf : WellFormed ack.ranges) : Within (largestOf ack) ack.ranges := by
  cases hr : ack.ranges with
  | nil => exact absurd hr hwf.any
  | cons r rs =>
    have htop : largestOf ack = r.high := by
      rw [largestOf, hr]; rfl
    rw [htop]
    refine ⟨r, mem_cons_self, ?_, le_refl _⟩
    exact hwf.each r (by rw [hr]; exact mem_cons_self)

section Pass

variable {ack : AckInfo} {rt : UInt64} {s : Ctl} {p : Id} {behind ps : List Id} {a : AckPass}

section

variable (h : Sampling ack rt s behind (p :: ps) a)
include h

lemma Sampling.marks (hle : (s.pkts p).pktNum ≤ largestOf ack) :
    (takeIn ack.pns p a.ctl).largestAcked ack.pns = some (topOf ack s) ∧
      ((s.pkts p).pktNum = topOf ack s → (takeIn ack.pns p a.ctl).largestAckedSentTime ack.pns = (s.pkts p).sentTime) := by
  obtain ⟨hacked, htime⟩ := takeIn_marks ack.pns p a.ctl
  have hrec := h.same p mem_cons_self
  have htop := largest_le_topOf ack s
  rw [hacked, htime]
  unfold noteAcked; rw [h.top, hrec]
  by_cases hge : topOf ack s ≤ (s.pkts p).pktNum
  · have heq : (s.pkts p).pktNum = topOf ack s := UInt64.le_antisymm (UInt64.le_trans hle htop) hge
    rw [if_pos (by simpa using hge)]
    simp only [update_self, heq, implies_true, and_self]
  · rw [if_neg (by simpa using hge)]
    refine ⟨h.top, fun heq => absurd ?_ hge⟩
    rw [heq]; exact le_refl _

lemma Sampling.isLast_iff (hle : (s.pkts p).pktNum ≤ largestOf ack) :
    isLast ack.pns (largestOf ack) p a ↔ (s.pkts p).pktNum = largestOf ack ∧ NotPassed ack s := by
  unfold isLast
  rw [(h.marks hle).1, h.same p mem_cons_self, ← topOf_eq_iff, Option.some.injEq]
  constructor
  · rintro ⟨hnum, htop⟩
    exact ⟨hnum, htop.trans hnum⟩
  · rintro ⟨hnum, htop⟩
    exact ⟨hnum, htop.trans hnum.symm⟩

lemma Sampling.below (hasc : Ascending s ack.pns) {q : Id} (hq : q ∈ behind) :
    (s.pkts q).pktNum < (s.pkts p).pktNum := by
  unfold Ascending at hasc; rw [h.split] at hasc
  exact (pairwise_append.mp hasc).2.2 q hq p mem_cons_self

lemma Sampling.step_skipped (hwf : WellFormed ack.ranges)
    (hgo : (ackRound ack.pns (largestOf ack) rt p a).2 = true) (hno : acknowledges (largestOf ack) p a = false) :
    Sampling ack rt s (behind ++ [p]) ps (ackRound ack.pns (largestOf ack) rt p a).1 := by
  have hpassing := h.passing.step hgo
  have hout : ¬ Within (s.pkts p).pktNum ack.ranges := by
    intro hw; rw [(h.passing.acknowledges_iff hwf).mpr hw] at hno
    cases hno
  have hlast : (s.pkts p).pktNum ≠ largestOf ack := by
    intro heq; rw [heq] at hout
    exact hout (largest_within hwf)
  rw [ackRound_skipped (ackRound_go_iff.mp hgo) hno] at hpassing ⊢
  refine ⟨hpassing, by rw [h.split]; simp, fun q hq => h.same q (mem_cons_of_mem _ hq), h.top, ?_, ?_, ?_⟩
  · rw [exists_snoc, ← h.due]; exact ⟨.inl, fun hd => hd.resolve_right fun hp => hlast hp.1⟩
  · rw [exists_snoc, ← h.eliciting]; exact ⟨.inl, fun hd => hd.resolve_right fun hp => hout hp.1⟩
  · intro q hq hnum
    rcases mem_append.mp hq with hq | hq
    · exact h.latest q hq hnum
    · rw [mem_singleton.mp hq] at hnum; exact absurd hnum hlast

lemma Sampling.step_taken (hwf : WellFormed ack.ranges)
    (hasc : Ascending s ack.pns) (hgo : (ackRound ack.pns (largestOf ack) rt p a).2 = true)
    (hyes : acknowledges (largestOf ack) p a = true) :
    Sampling ack rt s (behind ++ [p]) ps (ackRound ack.pns (largestOf ack) rt p a).1 := by
  obtain ⟨hrtt, heli, hpkts, hla, hlatest⟩ := ackRound_takeIn ack.pns rt hyes
  have hw := (h.passing.acknowledges_iff hwf).mp hyes
  have hle := within_le_largest hwf hw
  have hrec := h.same p mem_cons_self
  have hlast := h.isLast_iff hle
  have hmarks := h.marks hle
  obtain ⟨front, hl⟩ := h.passing.listed
  have hnd := h.passing.inv.ledger.single.nodup (.unacked ack.pns)
  rw [hl] at hnd
  refine ⟨h.passing.step hgo, by rw [h.split]; simp, ?_, by rw [hla, hmarks.1], ?_, ?_, ?_⟩
  · -- those to come are neither the packet nor its origin
    intro q hq
    have hne : q ≠ p := by
      rintro rfl
      exact (nodup_cons.mp (nodup_append.mp hnd).2.1).1 hq
    have horigin : (a.ctl.pkts p).origin ≠ some q := fun ho => h.passing.lined.not_after hl ho hq
    rw [hpkts, takeIn_others h.passing.inv ⟨_, by simp, h.passing.mem⟩ hne horigin]
    exact h.same q (mem_cons_of_mem _ hq)
  · rw [hrtt, exists_snoc, h.due, hlast]
  · rw [heli, exists_snoc, h.eliciting, hrec]; exact or_congr_right ⟨fun he => ⟨hw, he⟩, And.right⟩
  · intro q hq hnum hnp
    rcases mem_append.mp hq with hq | hq
    · have hbelow := h.below hasc hq
      rw [hnum] at hbelow; exact absurd hbelow (not_lt.mpr hle)
    · rw [mem_singleton.mp hq] at hnum ⊢
      rw [hlatest (hlast.mpr ⟨hnum, hnp⟩), hmarks.2 (hnum.trans ((topOf_eq_iff ack s).mpr hnp).symm)]

end

lemma sampling_start (hinv : Inv False s) (hlined : Lined s) (hasc : Ascending s ack.pns) (hwf : WellFormed ack.ranges)
    (rt : UInt64) : Sampling ack rt s [] (s.lists (.unacked ack.pns)) (ackStart ack s) := by
  refine ⟨passing_start hinv hlined hasc hwf, rfl, fun _ _ => rfl, ?_, ?_, ?_, by simp⟩
  · exact update_self _ _ _
  · simp [ackStart]
  · simp [ackStart]

/-- After the pass, what `Sampling` says of the packets behind holds of the whole list. -/
structure Sampled (ack : AckInfo) (rt : UInt64) (s : Ctl) (a : AckPass) : Prop where
  due : a.updateRtt = true ↔
    ∃ p ∈ s.lists (.unacked ack.pns), (s.pkts p).pktNum = largestOf ack ∧ NotPassed ack s
  eliciting : a.hasAckEliciting = true ↔
    ∃ p ∈ s.lists (.unacked ack.pns), Within (s.pkts p).pktNum ack.ranges ∧ (leftTypes (s.pkts p)).isAckEliciting
  latest : ∀ p ∈ s.lists (.unacked ack.pns), (s.pkts p).pktNum = largestOf ack → NotPassed ack s →
    a.ctl.rtt.latestRtt = rt - (s.pkts p).sentTime

lemma Sampling.stop (h : Sampling ack rt s behind (p :: ps) a) (hwf : WellFormed ack.ranges)
    (hstop : (ackRound ack.pns (largestOf ack) rt p a).2 = false) :
    Sampled ack rt s (ackRound ack.pns (largestOf ack) rt p a).1 := by
  have hgt := ackRound_stop_iff.mp hstop
  have habove : ∀ q ∈ p :: ps, (s.pkts q).pktNum > largestOf ack := by
    rw [h.passing.num] at hgt
    exact forall_mem_cons.mpr ⟨hgt, fun q hq => UInt64.lt_trans hgt ((pairwise_cons.mp h.passing.ascending).1 q hq)⟩
  have hbehind : ∀ {P : Id → Prop}, (∀ q, P q → (s.pkts q).pktNum ≤ largestOf ack) →
      ((∃ q ∈ s.lists (.unacked ack.pns), P q) ↔ ∃ q ∈ behind, P q) := by
    intro P hP; rw [h.split]
    constructor
    · rintro ⟨q, hq, hq'⟩
      rcases mem_append.mp hq with hq | hq
      · exact ⟨q, hq, hq'⟩
      · exact absurd (habove q hq) (not_lt.mpr (hP q hq'))
    · rintro ⟨q, hq, hq'⟩
      exact ⟨q, mem_append_left _ hq, hq'⟩
  rw [ackRound_stopped hgt]
  refine ⟨?_, ?_, ?_⟩
  · refine h.due.trans (hbehind ?_).symm
    rintro q ⟨hnum, -⟩
    rw [hnum]; exact le_refl _
  · refine h.eliciting.trans (hbehind ?_).symm
    rintro q ⟨hw, -⟩
    exact within_le_largest hwf hw
  · intro q hq hnum; rw [h.split] at hq
    rcases mem_append.mp hq with hq | hq
    · exact h.latest q hq hnum
    · have := habove q hq; rw [hnum] at this; exact absurd this (UInt64.lt_irrefl _)

lemma Sampling.finish (h : Sampling ack rt s behind [] a) : Sampled ack rt s a := by
  have hl := h.split
  rw [append_nil] at hl
  refine ⟨?_, ?_, ?_⟩
  · rw [hl]; exact h.due
  · rw [hl]; exact h.eliciting
  · rw [hl]; exact h.latest

theorem ackPass_sampled (hinv : Inv False s) (hlined : Lined s) (hasc : Ascending s ack.pns) (hwf : WellFormed ack.ranges)
    (rt : UInt64) : Sampled ack rt s (ackPass ack rt s) := by
  refine walk_until (R := Sampling ack rt s) (fun h => h.passing.mem) ?_ (fun h => h.stop hwf) (fun h => h.finish)
    (sampling_start hinv hlined hasc hwf rt)
  intro behind p ps a h hgo
  cases hack : acknowledges (largestOf ack) p a with
  | false => exact h.step_skipped hwf hgo hack
  | true => exact h.step_taken hwf hasc hgo hack

end Pass

/-! ## When the code takes a sample -/

/-- `xqc_send_ctl_update_rtt` is called for the frame. -/
def updatesRtt (ack : AckInfo) (ackRecvTime : UInt64) (s : Ctl) : Bool :=
  decide (largestOf ack ≤ s.largestSent ack.pns) && (ackPass ack ackRecvTime s).updateRtt &&
    (ackPass ack ackRecvTime s).hasAckEliciting

/-- The packet with the frame's largest number is in the unacked list. -/
def Listed (ack : AckInfo) (s : Ctl) : Prop :=
  ∃ p ∈ s.lists (.unacked ack.pns), (s.pkts p).pktNum = largestOf ack

theorem updatesRtt_iff {ack : AckInfo} {s : Ctl} (hinv : Inv False s) (hlined : Lined s)
    (hasc : Ascending s ack.pns) (hwf : WellFormed ack.ranges) (rt : UInt64) :
    updatesRtt ack rt s = true ↔ largestOf ack ≤ s.largestSent ack.pns ∧ Listed ack s ∧ NotPassed ack s ∧
      ∃ p ∈ s.lists (.unacked ack.pns), Within (s.pkts p).pktNum ack.ranges ∧ (leftTypes (s.pkts p)).isAckEliciting := by
  have hpass := ackPass_sampled hinv hlined hasc hwf rt
  unfold updatesRtt Listed
  rw [Bool.and_eq_true, Bool.and_eq_true, decide_eq_true_eq, hpass.due, hpass.eliciting]
  constructor
  · rintro ⟨⟨hsent, p, hp, hnum, hnp⟩, heli⟩
    exact ⟨hsent, ⟨p, hp, hnum⟩, hnp, heli⟩
  · rintro ⟨hsent, ⟨p, hp, hnum⟩, hnp, heli⟩
    exact ⟨⟨hsent, p, hp, hnum, hnp⟩, heli⟩

lemma detectLost_rtt (w : World) (n : Pns) (now : UInt64) (s : Ctl) : (xqcSendCtlDetectLost w n now s).rtt = s.rtt := by
  have hround : ∀ la p (t : Ctl), (detectLostRound w n now la p t).1.rtt = t.rtt := by
    intro la p t
    have hjudged : Judged w n now la p t (detectLostRound w n now la p t).1 := detectRound_judged.1
    generalize (detectLostRound w n now la p t).1 = u at hjudged
    cases hjudged with
    | left _ | later _ => rfl
    | settled _ =>
      refine (congrArg Prod.fst (times_aside.remove p _)).trans ?_
      split
      · exact congrArg Prod.fst (times_aside.onPacketAcked p t)
      · rfl
    | lost _ =>
      have hdec := congrArg Prod.fst (times_aside.decrease p t)
      split
      · exact (congrArg Prod.fst (times_aside.copyTo p _ w .lost)).trans hdec
      · exact hdec
  unfold xqcSendCtlDetectLost
  dsimp only; split
  · rfl
  · exact walk_inv (P := fun t : Ctl => t.rtt = s.rtt) (fun p t ht _ => (hround _ p t).trans ht) rfl

lemma onAckReceived_latest {ack : AckInfo} {s : Ctl} (w : World) (rt clock : UInt64)
    (hsent : largestOf ack ≤ s.largestSent ack.pns) :
    (xqcSendCtlOnAckReceived w ack rt clock s).2.rtt.latestRtt = (ackPass ack rt s).ctl.rtt.latestRtt := by
  have hupdate : ∀ conn clock delay r, (xqcSendCtlUpdateRtt conn clock delay r).latestRtt = r.latestRtt := by
    intro conn clock delay r; unfold xqcSendCtlUpdateRtt
    split <;> rfl
  have hspurious : ∀ on a b c d r, (xqcSendCtlOnSpuriousLossDetected on a b c d r).latestRtt = r.latestRtt := by
    intro on a b c d r; unfold xqcSendCtlOnSpuriousLossDetected
    split
    · rfl
    · dsimp only
      split <;> rfl
  rw [onAckReceived_eq, if_neg (not_lt.mpr hsent)]
  unfold finishAck; rw [detectLost_rtt]
  split
  · split
    · exact hupdate _ _ _ _
    · rfl
  · refine (hspurious _ _ _ _ _ _).trans ?_
    split
    · exact hupdate _ _ _ _
    · rfl

end RlccQuic.Transport.SendCtl
