/-
  RlccQuic.Transport.Loss — which packets `xqc_send_ctl_detect_lost` declares lost.

  The code compares a packet's number with `largest_acked - threshold` and the time it was sent with `now - loss_delay`,
  in unsigned words. The number is left at `largest_acked` if the threshold is not below it, the time wraps if the delay
  is above `now`. The time of the next loss is kept as a least value that is 0 if unset, over packets that wait, in
  flight or not.

  Proved: a round leaves what is read of the packets to come as it was (`Judged.quiet`, `Judging.step`), so the loop judges
  every packet by the state it began in; and when exactly the outcome is that of RFC 9002 (`loss_matches_rfc_iff`). It is not
  if the second packet of a connection is acknowledged first (`fresh_packet_is_declared_lost`).
-/

import RlccQuic.Lib.Least
import RlccQuic.Transport.SendOrder

namespace RlccQuic.Transport.SendCtl

open Lib List Function

/-! ## What is read and what is kept -/

def settled (s : Ctl) (p : Id) : Bool := (s.pkts p).acked || (s.pkts p).origin.any fun o => (s.pkts o).acked

def view (po : PacketOut) : UInt64 × UInt64 × Bool × Option Id × Bool :=
  (po.pktNum, po.sentTime, po.inFlight, po.origin, po.acked)

def times (s : Ctl) : Rtt × (Pns → UInt64) := (s.rtt, s.lossTime)

/-- It tells nothing of what the functions for packets change. -/
def Aside {β : Type} (o : Ctl → β) : Prop :=
  ∀ (s : Ctl) pkts next lists bytesInFlight bytesAckElicitingInflight tooSmall conn asked,
    o { s with pkts, next, lists, bytesInFlight, bytesAckElicitingInflight, tooSmall, conn, asked } = o s

lemma times_aside : Aside times := fun _ _ _ _ _ _ _ _ _ => rfl

section Aside

variable {β : Type} {o : Ctl → β} (h : Aside o) (p : Id) (s : Ctl)
include h

lemma Aside.decrease : o (xqcSendCtlDecreaseInflight p s) = o s := by
  unfold xqcSendCtlDecreaseInflight takeOff
  dsimp only; split
  · split <;> exact h s ..
  · rfl

lemma Aside.onPacketAcked : o (xqcSendCtlOnPacketAcked p s) = o s := by
  have hset : ∀ t : Ctl, o (setAcked p t) = o t := by
    intro t; unfold setAcked
    split <;> exact h t ..
  have hleave : ∀ t : Ctl, o (leaveFlight p t) = o t := by
    intro t; unfold leaveFlight
    split
    · exact (h (xqcSendCtlDecreaseInflight p t) ..).trans (h.decrease p t)
    · rfl
  have hnote : o (noteHandshakeDone p s) = o s := by
    unfold noteHandshakeDone; split
    · exact h s ..
    · rfl
  rw [xqcSendCtlOnPacketAcked, hset, hleave, hnote]

lemma Aside.remove : o (xqcSendCtlMaybeRemoveUnacked p s) = o s := by
  unfold xqcSendCtlMaybeRemoveUnacked
  dsimp only; split
  · rfl
  · split
    · exact h s ..
    · split <;> exact h s ..

lemma Aside.get (w : World) : o (xqcPacketOutGet w s).2 = o s := by
  unfold xqcPacketOutGet; split
  · exact h s ..
  · dsimp only
    split <;> exact h s ..

lemma Aside.rewriteAck (w : World) : o (rewriteAck w p s) = o s := by
  unfold SendCtl.rewriteAck
  dsimp only; split
  · split
    · exact h s ..
    · split <;> exact h s ..
  · rfl

lemma Aside.copyTo (w : World) (k : Place) : o (copyTo w k p s) = o s := by
  have hget := h.get s w
  unfold SendCtl.copyTo
  rcases hg : xqcPacketOutGet w s with ⟨d, t⟩
  rw [hg] at hget
  cases d with
  | none => exact hget
  | some d =>
    exact ((h _ ..).trans (h.rewriteAck d (xqcPacketOutCopy d p t) w)).trans ((h t ..).trans hget)

end Aside

lemma leaveFlight_others {s : Ctl} {p q : Id} (h : Inv B s) (hq : q ≠ p) :
    (leaveFlight p (noteHandshakeDone p s)).pkts q = s.pkts q := by
  have hpkts := (noteHandshakeDone_inv h p).ledger.decrease_pkts p
  rw [← noteHandshakeDone_pkts p s]
  unfold leaveFlight; split
  · simp only [Ctl.modify, hpkts, update_of_ne hq]
  · rfl

lemma onPacketAcked_view {s : Ctl} {p q o : Id} (h : Inv B s) (ho : (s.pkts p).origin = some o)
    (ha : (s.pkts o).acked = true) (hq : q ≠ p) : view ((xqcSendCtlOnPacketAcked p s).pkts q) = view (s.pkts q) := by
  have hothers : ∀ x, x ≠ p → (leaveFlight p (noteHandshakeDone p s)).pkts x = s.pkts x := fun x => leaveFlight_others h
  have horigin := (leaveFlight_frame h p).2.2
  rw [ho] at horigin
  unfold xqcSendCtlOnPacketAcked setAcked
  generalize leaveFlight p (noteHandshakeDone p s) = t at hothers horigin
  rw [horigin]
  simp only [Ctl.modify]
  by_cases hqo : q = o
  · subst hqo; rw [update_self, update_of_ne hq, hothers q hq]
    simp only [view, ha]
  · rw [update_of_ne hqo, update_of_ne hq, hothers q hq]

lemma copyTo_view {s : Ctl} (w : World) (h : Inv B s) {p q : Id} {n : Pns} (hp : p ∈ s.lists (.unacked n)) (k : Place)
    (hf : (s.pkts p).inFlight = false) (hq : s.Live q) : view ((copyTo w k p s).pkts q) = view (s.pkts q) := by
  unfold copyTo
  rcases hg : xqcPacketOutGet w s with ⟨d, s1⟩
  cases d with
  | none => rw [get_none hg]
  | some d =>
    dsimp only
    have hspare := (h.ledger.get hg).1
    have h3 := copy_spec h hspare hp hf
    have hqd := hspare.ne hq
    generalize xqcPacketOutCopy d p s1 = s3 at h3
    obtain ⟨h4, -⟩ := rewriteAck_spec w h3.spare (by rw [h3.copy]; exact hf)
    generalize rewriteAck w d s3 = s4 at h4
    have hview : view (s4.pkts q) = view (s.pkts q) := by
      rw [h4.others hqd]
      by_cases hr : q = s.root p
      · rw [hr, h3.root]; rfl
      · rw [h3.others hqd hr]
    exact (pkts_modify (s := s4.move d k) (v := view) rfl q).trans hview

lemma copyTo_unacked {s : Ctl} (w : World) (h : Inv B s) {p : Id} {m : Pns} (hp : p ∈ s.lists (.unacked m)) {k : Place}
    (hk : ∀ n, k ≠ .unacked n) (hf : (s.pkts p).inFlight = false) (n : Pns) :
    (copyTo w k p s).lists (.unacked n) = s.lists (.unacked n) := by
  have hsub := (copyTo_ebbs w h.ledger p hk).sub n
  -- the list becomes no longer, so it is enough that every packet is still there
  refine hsub.eq_of_length_le ((subperm_of_subset (h.ledger.single.nodup _) ?_).length_le)
  intro q hq
  have hlive : s.Live q := ⟨_, by simp, hq⟩
  unfold copyTo
  rcases hg : xqcPacketOutGet w s with ⟨d, s1⟩
  cases d with
  | none => rw [get_none hg]; exact hq
  | some d =>
    dsimp only
    have hspare := (h.ledger.get hg).1
    have h3 := copy_spec h hspare hp hf
    have hqd := hspare.ne hlive
    generalize xqcPacketOutCopy d p s1 = s3 at h3
    obtain ⟨h4, -⟩ := rewriteAck_spec w h3.spare (by rw [h3.copy]; exact hf)
    generalize rewriteAck w d s3 = s4 at h4
    refine h4.ledger.mem_move.mpr (.inr ⟨hqd, ?_⟩)
    exact (h4.lists (by simp)).mpr ((h3.lists (by simp)).mpr hq)

/-! ## One round -/

/-- The test of the loop, for a packet whose number is not above the largest one acknowledged. -/
def overdue (now la : UInt64) (s : Ctl) (p : Id) : Prop :=
  (s.pkts p).sentTime ≤ now - lossDelay s.rtt ∨ (s.pkts p).pktNum ≤ lostPn s.rtt la

instance (now la : UInt64) (s : Ctl) (p : Id) : Decidable (overdue now la s p) := by unfold overdue; infer_instance

def declaresLost (now la : UInt64) (p : Id) (s : Ctl) : Prop :=
  (s.pkts p).pktNum ≤ la ∧ settled s p = false ∧ overdue now la s p ∧ (s.pkts p).inFlight = true

/-- The round sets the time when the packet is to be declared lost. -/
def postpones (now la : UInt64) (p : Id) (s : Ctl) : Prop :=
  (s.pkts p).pktNum ≤ la ∧ settled s p = false ∧ ¬ overdue now la s p

instance (now la : UInt64) (p : Id) (s : Ctl) : Decidable (postpones now la p s) := by unfold postpones; infer_instance

/-- What a round leaves of the other packets that were sent, and of times. -/
structure Quiet (p : Id) (s t : Ctl) : Prop where
  rtt : t.rtt = s.rtt
  view : ∀ {q n}, q ≠ p → q ∈ s.lists (.unacked n) → view (t.pkts q) = view (s.pkts q)
  own : (s.pkts p).origin = none → (t.pkts p).acked = (s.pkts p).acked

lemma Quiet.of_eq {p : Id} {s t : Ctl} (hr : t.rtt = s.rtt) (hp : t.pkts = s.pkts) : Quiet p s t :=
  ⟨hr, fun _ _ => by rw [hp], fun _ => by rw [hp]⟩

lemma Quiet.settled {p q : Id} {n : Pns} {s t : Ctl} (ht : Quiet p s t) (h : Inv B s) (hq : q ∈ s.lists (.unacked n))
    (hne : q ≠ p) : settled t q = settled s q := by
  have hview := ht.view hne hq
  simp only [SendCtl.view, Prod.mk.injEq] at hview
  obtain ⟨-, -, -, horigin, hacked⟩ := hview
  unfold SendCtl.settled; rw [horigin, hacked]
  cases ho : (s.pkts q).origin with
  | none => rfl
  | some o =>
    have hlive : s.Live q := ⟨_, by simp, hq⟩
    obtain ⟨hmem, hcopy⟩ := h.sound.origin hlive ho
    have hsame : (t.pkts o).acked = (s.pkts o).acked := by
      by_cases hop : o = p
      · subst hop; exact ht.own hcopy.root
      · have hview := ht.view hop hmem
        simp only [SendCtl.view, Prod.mk.injEq] at hview; exact hview.2.2.2.2
    simp only [Option.any_some, hsame]

inductive Judged (w : World) (n : Pns) (now la : UInt64) (p : Id) (s : Ctl) : Ctl → Prop
  | left : ¬ postpones now la p s → Judged w n now la p s s
  | settled : settled s p = true → Judged w n now la p s (xqcSendCtlMaybeRemoveUnacked p
      (if (s.pkts p).origin.any fun o => (s.pkts o).acked then xqcSendCtlOnPacketAcked p s else s))
  | lost : declaresLost now la p s → Judged w n now la p s
      (if (s.pkts p).frameTypes.needRepair then xqcSendCtlCopyToLost w p (xqcSendCtlDecreaseInflight p s)
        else (xqcSendCtlDecreaseInflight p s).move p .free)
  | later : postpones now la p s → Judged w n now la p s
      { s with lossTime :=
        Function.update s.lossTime n (keepLeast (s.lossTime n) ((s.pkts p).sentTime + lossDelay s.rtt)) }

section Round

variable {w : World} {n : Pns} {now la : UInt64} {p : Id} {s t : Ctl}

lemma detectRound_judged : Judged w n now la p s (detectLostRound w n now la p s).1 ∧
    (detectLostRound w n now la p s).2 = true := by
  unfold detectLostRound
  by_cases hnum : (s.pkts p).pktNum > la
  · rw [if_pos hnum]; exact ⟨.left fun h => UInt64.not_lt.mpr h.1 hnum, rfl⟩
  · rw [if_neg hnum]
    have hle := UInt64.not_lt.mp hnum
    cases hs : settled s p with
    | true =>
      rw [show xqcSendCtlIndirectlyAckPo p s = (true, _) from if_pos hs]
      exact ⟨.settled hs, rfl⟩
    | false =>
      rw [show xqcSendCtlIndirectlyAckPo p s = (false, s) from if_neg (by simpa [settled] using hs)]
      dsimp only
      by_cases hover : overdue now la s p
      · rw [if_pos (by exact hover)]
        by_cases hf : (s.pkts p).inFlight = true
        · rw [if_pos hf]; exact ⟨.lost ⟨hle, hs, hover, hf⟩, rfl⟩
        · rw [if_neg hf]; exact ⟨.left fun h => h.2.2 hover, rfl⟩
      · rw [if_neg (by exact hover)]; exact ⟨.later ⟨hle, hs, hover⟩, rfl⟩

theorem Judged.quiet (ht : Judged w n now la p s t) (h : Inv B s) (hp : p ∈ s.lists (.unacked n)) : Quiet p s t := by
  cases ht with
  | left _ | later _ => exact .of_eq rfl rfl
  | settled hs =>
    by_cases hoa : ((s.pkts p).origin.any fun o => (s.pkts o).acked) = true
    · rw [if_pos hoa]
      obtain ⟨o, ho, ha⟩ := (Option.any_eq_true _ _).mp hoa
      refine ⟨?_, ?_, ?_⟩
      · exact congrArg Prod.fst ((times_aside.remove p _).trans (times_aside.onPacketAcked p s))
      · intro q m hq _
        exact (remove_pkts (v := view) (fun _ _ => rfl) p q _).trans (onPacketAcked_view h ho ha hq)
      · intro hnone; rw [ho] at hnone; cases hnone
    · rw [if_neg hoa]
      refine ⟨congrArg Prod.fst (times_aside.remove p s), fun _ _ => remove_pkts (fun _ _ => rfl) p _ s, fun _ => ?_⟩
      exact remove_pkts (fun _ _ => rfl) p p s
  | lost hd =>
    have hpkts := h.ledger.decrease_pkts p
    have hdec := h.decrease p
    have htimes := times_aside.decrease p s
    have hlists := decrease_lists p s
    generalize xqcSendCtlDecreaseInflight p s = u at hpkts hdec htimes hlists
    have hother : ∀ {q}, q ≠ p → u.pkts q = s.pkts q := by
      intro q hq; rw [hpkts, update_of_ne hq]
    have hown : (u.pkts p).acked = (s.pkts p).acked ∧ (u.pkts p).inFlight = false := by
      rw [hpkts, update_self]; exact ⟨rfl, rfl⟩
    split
    · have hpu : p ∈ u.lists (.unacked n) := by
        rw [hlists]; exact hp
      have hview : ∀ {q m}, q ∈ s.lists (.unacked m) → view ((copyTo w .lost p u).pkts q) = view (u.pkts q) := by
        intro q m hq; rw [← hlists] at hq
        exact copyTo_view w hdec hpu .lost hown.2 ⟨_, by simp, hq⟩
      refine ⟨congrArg Prod.fst ((times_aside.copyTo p u w .lost).trans htimes), ?_, fun _ => ?_⟩
      · intro q m hq hm; exact (hview hm).trans (congrArg SendCtl.view (hother hq))
      · exact (congrArg (·.2.2.2.2) (hview hp)).trans hown.1
    · refine ⟨congrArg Prod.fst htimes, ?_, fun _ => hown.1⟩
      intro q m hq _; exact congrArg SendCtl.view (hother hq)

lemma Judged.time (ht : Judged w n now la p s t) : t.lossTime n =
    if postpones now la p s then keepLeast (s.lossTime n) ((s.pkts p).sentTime + lossDelay s.rtt) else s.lossTime n := by
  cases ht with
  | left hno => rw [if_neg hno]
  | later hw =>
    rw [if_pos hw]
    simp only [update_self]
  | settled hs =>
    have hno : ¬ postpones now la p s := by
      intro hw; rw [hw.2.1] at hs
      cases hs
    split
    · exact congrFun (congrArg Prod.snd ((times_aside.remove p _).trans (times_aside.onPacketAcked p s))) n
    · exact congrFun (congrArg Prod.snd (times_aside.remove p s)) n
  | lost hd =>
    have hno : ¬ postpones now la p s := fun hw => hw.2.2 hd.2.2.1
    split
    · exact congrFun (congrArg Prod.snd ((times_aside.copyTo p _ w .lost).trans (times_aside.decrease p s))) n
    · exact congrFun (congrArg Prod.snd (times_aside.decrease p s)) n

lemma Judged.rest {front ps : List Id} (ht : Judged w n now la p s t) (h : Inv B s) (hlined : Lined s)
    (hl : s.lists (.unacked n) = front ++ p :: ps) : ∃ front', t.lists (.unacked n) = front' ++ ps := by
  have hnd := h.ledger.single.nodup (.unacked n)
  rw [hl] at hnd
  have hp : p ∈ s.lists (.unacked n) := by
    rw [hl]
    simp
  have hkeep : s.lists (.unacked n) = (front ++ [p]) ++ ps := by
    rw [hl]
    simp
  cases ht with
  | left _ | later _ => exact ⟨_, hkeep⟩
  | settled _ =>
    have hlive : s.Live p := ⟨_, by simp, hp⟩
    split
    · refine remove_rest (n := n) hnd (by rw [onPacketAcked_lists, hl]) ?_
      intro o ho
      rw [onPacketAcked_origin p s fun o ho => h.sound.origin_ne hlive ho] at ho
      exact hlined.not_after hl ho
    · exact remove_rest hnd hl fun o ho => hlined.not_after hl ho
  | lost _ =>
    split
    · have hpu : p ∈ (xqcSendCtlDecreaseInflight p s).lists (.unacked n) := by
        rw [decrease_lists]; exact hp
      have hf : ((xqcSendCtlDecreaseInflight p s).pkts p).inFlight = false := by
        rw [h.ledger.decrease_pkts p, update_self]
      refine ⟨front ++ [p], ?_⟩
      rw [xqcSendCtlCopyToLost, copyTo_unacked w (h.decrease p) hpu (by simp) hf, decrease_lists]
      exact hkeep
    · refine ⟨front, ?_⟩
      rw [move_free_lists p _ (by simp), decrease_lists, hl, erase_middle hnd]

end Round

/-! ## The loop -/

/-- The packets `ps` of the list of `s` are behind the loop, `qs` are to come. -/
structure Judging (n : Pns) (now la : UInt64) (s : Ctl) (ps qs : List Id) (t : Ctl) : Prop where
  inv : Inv False t
  lined : Lined t
  listed : ∃ front, t.lists (.unacked n) = front ++ qs
  nodup : qs.Nodup
  rtt : t.rtt = s.rtt
  view : ∀ q ∈ qs, view (t.pkts q) = view (s.pkts q)
  settled : ∀ q ∈ qs, settled t q = settled s q
  time : t.lossTime n = (ps.filter fun p => postpones now la p s).foldl
    (fun acc p => keepLeast acc ((s.pkts p).sentTime + lossDelay s.rtt)) 0

section Loop

variable {w : World} {n : Pns} {now la : UInt64} {s t : Ctl} {p : Id} {ps qs : List Id}

section

variable (h : Judging n now la s ps (p :: qs) t)
include h

lemma Judging.mem : p ∈ t.lists (.unacked n) := by
  obtain ⟨front, hl⟩ := h.listed
  rw [hl]
  simp

lemma Judging.same :
    (t.pkts p).pktNum = (s.pkts p).pktNum ∧ (t.pkts p).sentTime = (s.pkts p).sentTime ∧
      (t.pkts p).inFlight = (s.pkts p).inFlight ∧ (overdue now la t p ↔ overdue now la s p) := by
  have hview := h.view p mem_cons_self
  simp only [SendCtl.view, Prod.mk.injEq] at hview
  obtain ⟨hnum, hsent, hflight, -, -⟩ := hview
  refine ⟨hnum, hsent, hflight, ?_⟩
  unfold overdue; rw [hnum, hsent, h.rtt]

lemma Judging.postpones_iff : postpones now la p t ↔ postpones now la p s := by
  obtain ⟨hnum, -, -, hover⟩ := h.same
  unfold postpones; rw [hnum, h.settled p mem_cons_self, hover]

lemma Judging.declares_iff : declaresLost now la p t ↔ declaresLost now la p s := by
  obtain ⟨hnum, -, hflight, hover⟩ := h.same
  unfold declaresLost; rw [hnum, h.settled p mem_cons_self, hover, hflight]

theorem Judging.step :
    Judging n now la s (ps ++ [p]) qs (detectLostRound w n now la p t).1 := by
  have hj : Judged w n now la p t _ := detectRound_judged.1
  have hinv : Inv False (detectLostRound w n now la p t).1 := detectLostRound_inv w h.inv h.mem
  have hebb : Ebbs t (detectLostRound w n now la p t).1 := detectLostRound_ebbs w h.inv
  have hlined := hebb.toRecedes.lined h.lined
  generalize (detectLostRound w n now la p t).1 = u at hj hinv hlined hebb
  have hq := hj.quiet h.inv h.mem
  obtain ⟨front, hl⟩ := h.listed
  obtain ⟨hpq, hnd⟩ := nodup_cons.mp h.nodup
  have hne : ∀ q ∈ qs, q ≠ p := by
    rintro q hm rfl
    exact hpq hm
  have hmem : ∀ q ∈ qs, q ∈ t.lists (.unacked n) := by
    intro q hq; rw [hl]
    simp [hq]
  refine ⟨hinv, hlined, hj.rest h.inv h.lined hl, hnd, hq.rtt.trans h.rtt, ?_, ?_, ?_⟩
  · intro q hm; exact (hq.view (hne q hm) (hmem q hm)).trans (h.view q (mem_cons_of_mem _ hm))
  · intro q hm
    exact (hq.settled h.inv (hmem q hm) (hne q hm)).trans (h.settled q (mem_cons_of_mem _ hm))
  · obtain ⟨-, hsent, -, -⟩ := h.same
    rw [hj.time, filter_append, foldl_append, ← h.time, hsent, h.rtt]
    by_cases hw : postpones now la p s
    · rw [if_pos (h.postpones_iff.mpr hw), filter_singleton]; simp [hw]
    · rw [if_neg fun hw' => hw (h.postpones_iff.mp hw'), filter_singleton]; simp [hw]

end

lemma judging_start (hinv : Inv False s) (hlined : Lined s) :
    Judging n now la s [] (s.lists (.unacked n)) { s with lossTime := update s.lossTime n 0 } where
  inv := hinv.congr rfl
  lined := hlined
  listed := ⟨[], rfl⟩
  nodup := hinv.ledger.single.nodup _
  rtt := rfl
  view _ _ := rfl
  settled _ _ := rfl
  time := update_self _ _ _

end Loop

/-! ## Loss by RFC 9002 -/

section Rfc

variable (n : Pns) (now la : UInt64) (s : Ctl)

/-- When a packet is lost by its time; the sum is one of numbers, not of words. -/
def deadline (p : Id) : Nat := (s.pkts p).sentTime.toNat + (lossDelay s.rtt).toNat

/-- Not acknowledged, directly or through its origin, and not above the largest number acknowledged. -/
def Open (p : Id) : Prop := p ∈ s.lists (.unacked n) ∧ settled s p = false ∧ (s.pkts p).pktNum ≤ la

/-- The packet threshold or the time threshold is reached. -/
def RfcLost (p : Id) : Prop :=
  (s.pkts p).pktNum.toNat + s.rtt.reorderingPacketThreshold.toNat ≤ la.toNat ∨ deadline s p ≤ now.toNat

def Remains (p : Id) : Prop := Open n la s p ∧ (s.pkts p).inFlight = true ∧ ¬ RfcLost now la s p

def lossVisits (w : World) : List (Id × Ctl) :=
  visits (·.lists (.unacked n)) (detectLostRound w n now la) (s.lists (.unacked n))
    { s with lossTime := update s.lossTime n 0 }

/-- `xqc_send_ctl_detect_lost` declares lost what RFC 9002 says is lost, and the time
    it sets is the first one at which another packet in flight would be. -/
structure LossMatches (w : World) : Prop where
  lost : ∀ p, (∃ t, (p, t) ∈ lossVisits n now la s w ∧ declaresLost now la p t) ↔
    Open n la s p ∧ (s.pkts p).inFlight = true ∧ RfcLost now la s p
  none : (∀ p, ¬ Remains n now la s p) → (xqcSendCtlDetectLost w n now s).lossTime n = 0
  first : (∃ p, Remains n now la s p) →
    IsLeast { d | ∃ p, Remains n now la s p ∧ deadline s p = d } ((xqcSendCtlDetectLost w n now s).lossTime n).toNat

/-- The packet is not taken for lost: the threshold is below the largest number
    acknowledged, and neither is reached, where `now - loss_delay` may have wrapped. -/
def Waits (p : Id) : Prop :=
  s.rtt.reorderingPacketThreshold < la ∧
    la.toNat < (s.pkts p).pktNum.toNat + s.rtt.reorderingPacketThreshold.toNat ∧
    now.toNat + (if now < lossDelay s.rtt then 2 ^ 64 else 0) < deadline s p

instance (p : Id) : Decidable (Waits now la s p) := by unfold Waits; infer_instance

/-- The packets that wait, in flight or not, in the order of the list. -/
def waiting : List Id :=
  (s.lists (.unacked n)).filter fun p => settled s p = false ∧ (s.pkts p).pktNum ≤ la ∧ Waits now la s p

def noted : List Id := counted (fun p => (s.pkts p).sentTime + lossDelay s.rtt) (waiting n now la s)

structure Clear : Prop where
  /-- What is in flight is lost, or has the threshold below the largest number
      acknowledged and a deadline that `now - loss_delay` does not miss. -/
  each : ∀ p, Open n la s p → (s.pkts p).inFlight = true → RfcLost now la s p ∨ Waits now la s p
  /-- A deadline that is noted fits the word, and a packet in flight has one no later. -/
  fits : ∀ q ∈ noted n now la s, deadline s q < 2 ^ 64 ∧
    ∃ p ∈ waiting n now la s, (s.pkts p).inFlight = true ∧ deadline s p ≤ deadline s q
  covers : ∀ p ∈ waiting n now la s, (s.pkts p).inFlight = true → ∃ q ∈ noted n now la s, deadline s q ≤ deadline s p

end Rfc

section Words

variable {now la : UInt64} {s : Ctl} {p : Id}

lemma overdue_iff (hle : (s.pkts p).pktNum ≤ la) : overdue now la s p ↔ ¬ Waits now la s p := by
  have hnow := now.toNat_lt
  have hdelay := (lossDelay s.rtt).toNat_lt
  have hla := la.toNat_lt
  have htime : (s.pkts p).sentTime ≤ now - lossDelay s.rtt ↔
      deadline s p ≤ now.toNat + (if now < lossDelay s.rtt then 2 ^ 64 else 0) := by
    unfold deadline; rw [UInt64.le_iff_toNat_le, UInt64.toNat_sub]
    split
    · rename_i hlt; rw [UInt64.lt_iff_toNat_lt] at hlt; omega
    · rename_i hge; rw [UInt64.not_lt, UInt64.le_iff_toNat_le] at hge; omega
  have hnum : (s.pkts p).pktNum ≤ lostPn s.rtt la ↔
      ¬ (s.rtt.reorderingPacketThreshold < la ∧
        la.toNat < (s.pkts p).pktNum.toNat + s.rtt.reorderingPacketThreshold.toNat) := by
    unfold lostPn
    by_cases hk : s.rtt.reorderingPacketThreshold < la
    · rw [if_pos hk, UInt64.le_iff_toNat_le, UInt64.toNat_sub]
      rw [UInt64.lt_iff_toNat_lt] at hk ⊢; omega
    · rw [if_neg hk]; exact ⟨fun _ h => hk h.1, fun _ => hle⟩
  unfold overdue Waits; rw [htime, hnum]
  constructor
  · rintro (h | h) ⟨hk, hn, hd⟩
    · omega
    · exact h ⟨hk, hn⟩
  · intro h
    by_cases hd : deadline s p ≤ now.toNat + (if now < lossDelay s.rtt then 2 ^ 64 else 0)
    · exact .inl hd
    · exact .inr fun hn => h ⟨hn.1, hn.2, Nat.lt_of_not_le hd⟩

lemma Waits.not_lost (h : Waits now la s p) : ¬ RfcLost now la s p := by
  obtain ⟨-, hnum, htime⟩ := h
  rintro (hl | hl)
  · omega
  · omega

/-- A deadline that is missed by 64 bits wraps to a time before `now`. -/
lemma wrapped_lt {q : Id} (hbig : 2 ^ 64 ≤ deadline s p) (hq : Waits now la s q) (hfit : deadline s q < 2 ^ 64) :
    ((s.pkts p).sentTime + lossDelay s.rtt).toNat < deadline s q := by
  have hsent := (s.pkts p).sentTime.toNat_lt
  have htime := hq.2.2
  rw [UInt64.toNat_add]
  unfold deadline at hbig hfit htime ⊢; split at htime
  · omega
  · rename_i hge; omega

lemma toNat_due (s : Ctl) (p : Id) : ((s.pkts p).sentTime + lossDelay s.rtt).toNat = deadline s p % 2 ^ 64 := by
  rfl

end Words

section Outcome

variable {w : World} {n : Pns} {now la : UInt64} {s : Ctl}

lemma postpones_iff {p : Id} : postpones now la p s ↔
    settled s p = false ∧ (s.pkts p).pktNum ≤ la ∧ Waits now la s p := by
  constructor
  · rintro ⟨hle, hs, hover⟩
    exact ⟨hs, hle, by rwa [overdue_iff hle, not_not] at hover⟩
  · rintro ⟨hs, hle, hw⟩
    exact ⟨hle, hs, fun hover => (overdue_iff hle).mp hover hw⟩

lemma declared_iff (hinv : Inv False s) (hlined : Lined s) (p : Id) :
    (∃ t, (p, t) ∈ lossVisits n now la s w ∧ declaresLost now la p t) ↔
      Open n la s p ∧ (s.pkts p).inFlight = true ∧ ¬ Waits now la s p := by
  have hstart : ∃ ps, Judging n now la s ps (s.lists (.unacked n)) { s with lossTime := update s.lossTime n 0 } :=
    ⟨[], judging_start hinv hlined⟩
  have hvisit : ∀ v ∈ lossVisits n now la s w, declaresLost now la v.1 v.2 ↔ declaresLost now la v.1 s :=
    visits_forall (R := fun qs t => ∃ ps, Judging n now la s ps qs t)
      (Q := fun p t => declaresLost now la p t ↔ declaresLost now la p s)
      (fun ⟨_, h⟩ => ⟨h.mem, h.declares_iff⟩) (fun ⟨_, h⟩ _ => ⟨_, h.step⟩) hstart
  have hiff : declaresLost now la p s ↔
      settled s p = false ∧ (s.pkts p).pktNum ≤ la ∧ (s.pkts p).inFlight = true ∧ ¬ Waits now la s p := by
    constructor
    · rintro ⟨hle, hs, hover, hf⟩
      exact ⟨hs, hle, hf, (overdue_iff hle).mp hover⟩
    · rintro ⟨hs, hle, hf, hw⟩
      exact ⟨hle, hs, (overdue_iff hle).mpr hw, hf⟩
  constructor
  · rintro ⟨t, ht, hd⟩
    have hp : p ∈ s.lists (.unacked n) := (visits_sublist _ _ _ _).subset (mem_map_of_mem (f := Prod.fst) ht)
    obtain ⟨hs, hle, hf, hw⟩ := hiff.mp ((hvisit (p, t) ht).mp hd)
    exact ⟨⟨hp, hs, hle⟩, hf, hw⟩
  · rintro ⟨⟨hp, hs, hle⟩, hf, hw⟩
    obtain ⟨t, ht⟩ : ∃ t, (p, t) ∈ lossVisits n now la s w := by
      refine visits_mem (R := fun qs t => ∃ ps, Judging n now la s ps qs t) (D := fun _ => True)
        (fun ⟨_, h⟩ => h.mem) (fun ⟨_, h⟩ _ => ⟨_, h.step⟩) ?_ hstart p hp trivial
      intro q qs t _ hstop; rw [detectRound_judged.2] at hstop
      cases hstop
    exact ⟨t, ht, (hvisit (p, t) ht).mpr (hiff.mpr ⟨hs, hle, hf, hw⟩)⟩

lemma lossTime_eq (hinv : Inv False s) (hlined : Lined s) (hla : s.largestAcked n = some la) :
    (xqcSendCtlDetectLost w n now s).lossTime n = (waiting n now la s).foldl
      (fun acc p => keepLeast acc ((s.pkts p).sentTime + lossDelay s.rtt)) 0 := by
  have hend : Judging n now la s (s.lists (.unacked n)) []
      (walk (·.lists (.unacked n)) (detectLostRound w n now la) { s with lossTime := update s.lossTime n 0 }) :=
    walk_through (R := Judging n now la s) (s := { s with lossTime := update s.lossTime n 0 })
      (fun h => ⟨h.mem, detectRound_judged.2⟩) (fun h => h.step) (judging_start hinv hlined)
  unfold xqcSendCtlDetectLost
  dsimp only; rw [hla]
  rw [hend.time]
  congr 1
  refine filter_congr fun p _ => ?_
  exact decide_eq_decide.mpr postpones_iff

lemma mem_waiting {p : Id} : p ∈ waiting n now la s ↔ Open n la s p ∧ Waits now la s p := by
  simp [waiting, Open, and_assoc]

lemma remains_iff (heach : ∀ p, Open n la s p → (s.pkts p).inFlight = true → RfcLost now la s p ∨ Waits now la s p)
    {p : Id} : Remains n now la s p ↔ p ∈ waiting n now la s ∧ (s.pkts p).inFlight = true := by
  rw [mem_waiting]
  constructor
  · rintro ⟨hopen, hf, hno⟩
    exact ⟨⟨hopen, (heach p hopen hf).resolve_left hno⟩, hf⟩
  · rintro ⟨⟨hopen, hw⟩, hf⟩
    exact ⟨hopen, hf, hw.not_lost⟩

lemma LossMatches.each (h : LossMatches n now la s w) (hinv : Inv False s) (hlined : Lined s) (p : Id)
    (hopen : Open n la s p) (hf : (s.pkts p).inFlight = true) : RfcLost now la s p ∨ Waits now la s p := by
  by_cases hw : Waits now la s p
  · exact .inr hw
  · have hdeclared := (declared_iff (w := w) hinv hlined p).mpr ⟨hopen, hf, hw⟩
    exact .inl ((h.lost p).mp hdeclared).2.2

lemma LossMatches.clear (h : LossMatches n now la s w) (hinv : Inv False s) (hlined : Lined s)
    (hla : s.largestAcked n = some la) : Clear n now la s := by
  have heach := h.each hinv hlined
  have hnone := h.none
  have hfirst := h.first
  rw [lossTime_eq hinv hlined hla] at hnone hfirst
  rcases foldl_keepLeast (fun p => (s.pkts p).sentTime + lossDelay s.rtt) (waiting n now la s) with
    ⟨hempty, hzero⟩ | ⟨⟨q₀, hq₀, heq⟩, hleast⟩
  · refine ⟨heach, ?_, ?_⟩
    · intro q hq; rw [noted, hempty] at hq; cases hq
    · -- a deadline is above `now`, so it is not the 0 of an unset time
      intro p hp hf; rw [hzero] at hfirst
      obtain ⟨x, hx, hdead⟩ := (hfirst ⟨p, (remains_iff heach).mpr ⟨hp, hf⟩⟩).1
      have := (mem_waiting.mp ((remains_iff heach).mp hx).1).2.2.2
      rw [hdead] at this; exact absurd this (Nat.not_lt_zero _)
  · have hsome : ∃ p, Remains n now la s p := by
      by_contra hno
      have h0 := hnone (not_exists.mp hno)
      rw [heq] at h0; exact (mem_of_counted hq₀).2 h0
    obtain ⟨⟨p₀, hp₀, hdead⟩, hlower⟩ := hfirst hsome
    rw [← hdead] at hleast
    have hfit : deadline s p₀ < 2 ^ 64 := by
      rw [hdead]; exact UInt64.toNat_lt _
    obtain ⟨hp₀w, hp₀f⟩ := (remains_iff heach).mp hp₀
    have hfits : ∀ q ∈ noted n now la s, deadline s q < 2 ^ 64 := by
      intro q hq
      by_contra hbig
      exact Nat.not_lt.mpr (hleast q hq) (wrapped_lt (Nat.not_lt.mp hbig) (mem_waiting.mp hp₀w).2 hfit)
    refine ⟨heach, ?_, ?_⟩
    · intro q hq
      have hle := hleast q hq
      rw [toNat_due, Nat.mod_eq_of_lt (hfits q hq)] at hle
      exact ⟨hfits q hq, p₀, hp₀w, hp₀f, hle⟩
    · intro p hp hf
      have hle := hlower ⟨p, (remains_iff heach).mpr ⟨hp, hf⟩, rfl⟩
      rw [heq, toNat_due, Nat.mod_eq_of_lt (hfits q₀ hq₀)] at hle; exact ⟨q₀, hq₀, hle⟩

lemma Clear.matches (h : Clear n now la s) (hinv : Inv False s) (hlined : Lined s) (hla : s.largestAcked n = some la) :
    LossMatches n now la s w := by
  have hdue : ∀ q ∈ noted n now la s, ((s.pkts q).sentTime + lossDelay s.rtt).toNat = deadline s q := by
    intro q hq; rw [toNat_due, Nat.mod_eq_of_lt (h.fits q hq).1]
  refine ⟨?_, ?_, ?_⟩
  · intro p; rw [declared_iff hinv hlined]
    refine and_congr_right fun hopen => and_congr_right fun hf => ?_
    constructor
    · exact fun hw => (h.each p hopen hf).resolve_right hw
    · exact fun hl hw => hw.not_lost hl
  · intro hnone; rw [lossTime_eq hinv hlined hla]
    rcases foldl_keepLeast (fun p => (s.pkts p).sentTime + lossDelay s.rtt) (waiting n now la s) with
      ⟨-, hzero⟩ | ⟨⟨q, hq, -⟩, -⟩
    · exact hzero
    · obtain ⟨-, p, hp, hf, -⟩ := h.fits q hq
      exact absurd ((remains_iff h.each).mpr ⟨hp, hf⟩) (hnone p)
  · rintro ⟨p, hp⟩
    rw [lossTime_eq hinv hlined hla]
    obtain ⟨hpw, hpf⟩ := (remains_iff h.each).mp hp
    obtain ⟨q, hq, -⟩ := h.covers p hpw hpf
    rcases foldl_keepLeast (fun p => (s.pkts p).sentTime + lossDelay s.rtt) (waiting n now la s) with
      ⟨hempty, -⟩ | ⟨⟨q₀, hq₀, heq⟩, hleast⟩
    · rw [noted, hempty] at hq; cases hq
    · rw [heq] at hleast ⊢
      rw [hdue q₀ hq₀] at hleast ⊢
      have hlow : ∀ x ∈ waiting n now la s, (s.pkts x).inFlight = true → deadline s q₀ ≤ deadline s x := by
        intro x hx hxf
        obtain ⟨y, hy, hle⟩ := h.covers x hx hxf
        have := hleast y hy
        rw [hdue y hy] at this; exact Nat.le_trans this hle
      obtain ⟨-, p₀, hp₀, hf₀, hle⟩ := h.fits q₀ hq₀
      refine ⟨⟨p₀, (remains_iff h.each).mpr ⟨hp₀, hf₀⟩, Nat.le_antisymm hle (hlow p₀ hp₀ hf₀)⟩, ?_⟩
      rintro d ⟨x, hx, rfl⟩
      obtain ⟨hxw, hxf⟩ := (remains_iff h.each).mp hx
      exact hlow x hxw hxf

end Outcome

/-! ## Runs -/

/-- What `xqc_send_ctl_on_ack_received` hands to loss detection. -/
def beforeLoss (ack : FrameParser.AckInfo) (ackRecvTime clock : UInt64) (a : AckPass) : Ctl :=
  let s := a.ctl
  let s :=
    if a.updateRtt = true ∧ a.hasAckEliciting = true then
      { s with rtt := xqcSendCtlUpdateRtt s.conn clock ack.ackDelay s.rtt }
    else s
  match a.spurious with
  | none => s
  | some (num, sent) =>
    { s with
      rtt := xqcSendCtlOnSpuriousLossDetected s.conn.spuriousLossDetectOn ackRecvTime (largestOf ack) num sent s.rtt }

/-- The states in which loss detection is called, by its timer and for an ACK frame. -/
inductive Detecting (w : World) (conn : Conn) : Ctl → Prop
  | timer {cs : List Call} {s : Ctl} : Run (Turn w) (xqcSendCtlCreate conn) cs s → Detecting w conn s
  | ack {cs : List Call} {s : Ctl} (ack : FrameParser.AckInfo) (ackRecvTime clock : UInt64) :
      Run (Turn w) (xqcSendCtlCreate conn) cs s → largestOf ack ≤ s.largestSent ack.pns →
        Detecting w conn (beforeLoss ack ackRecvTime clock (ackPass ack ackRecvTime s))

lemma beforeLoss_eq (ack : FrameParser.AckInfo) (rt clock : UInt64) (a : AckPass) :
    ∃ r, beforeLoss ack rt clock a = { a.ctl with rtt := r } := by
  unfold beforeLoss
  split <;> split <;> exact ⟨_, rfl⟩

lemma Detecting.lined {w : World} {conn : Conn} (hc : conn.Fresh) {s : Ctl} (h : Detecting w conn s) :
    Inv False s ∧ Lined s := by
  cases h with
  | timer hrun => exact run_lined w hc hrun
  | ack ack rt clock hrun _ =>
    obtain ⟨hinv, hlined⟩ := run_lined w hc hrun
    obtain ⟨r, hr⟩ := beforeLoss_eq ack rt clock (ackPass ack rt _)
    rw [hr]
    have hpass : Inv False (ackPass ack rt _).ctl := ackPass_inv hinv
    refine ⟨hpass.congr rfl, ?_⟩
    exact (ackPass_ebbs ack rt _).toRecedes.lined hlined

/-- In every state in which loss detection is called, for every space and every time:
    without a largest number acknowledged there is nothing to do; with one, the outcome
    is that of RFC 9002 exactly if no packet in flight is caught by a saturated or
    wrapped threshold and the time kept is that of a packet in flight. -/
theorem loss_matches_rfc_iff (w : World) (conn : Conn) (hc : conn.Fresh) (s : Ctl) (h : Detecting w conn s) (n : Pns)
    (now : UInt64) :
    (s.largestAcked n = none →
      xqcSendCtlDetectLost w n now s = { s with lossTime := update s.lossTime n 0 }) ∧
    ∀ la, s.largestAcked n = some la → (LossMatches n now la s w ↔ Clear n now la s) := by
  obtain ⟨hinv, hlined⟩ := h.lined hc
  refine ⟨?_, ?_⟩
  · intro hnone; unfold xqcSendCtlDetectLost
    dsimp only; rw [hnone]
  · intro la hla
    exact ⟨fun hm => hm.clear hinv hlined hla, fun hclear => hclear.matches hinv hlined hla⟩

def sentAt (now : UInt64) (p : Id) : List Call :=
  [.one (.write .shortHeader), .one (.append p filling), .one (.send .send 0xFFFFFFFF now .all)]

def ackOf (num : UInt64) : FrameParser.AckInfo := ⟨.appData, [⟨num, num⟩], 0⟩

/-- Two packets are in flight, the second one is acknowledged, and this is what loss detection finds. -/
def SecondAcked (first delay : UInt64) (s : Ctl) : Prop :=
  s.largestAcked .appData = some 1 ∧ s.lists (.unacked .appData) = [0] ∧ s.rtt.reorderingPacketThreshold = 3 ∧
    lossDelay s.rtt = delay ∧ settled s 0 = false ∧ (s.pkts 0).inFlight = true ∧ (s.pkts 0).pktNum = 0 ∧
    (s.pkts 0).sentTime = first

instance (first delay : UInt64) (s : Ctl) : Decidable (SecondAcked first delay s) := by unfold SecondAcked; infer_instance

/-- Both packets were sent at the same time, and the second one is acknowledged after a tenth of a millisecond. -/
lemma second_acked : ∃ s, Detecting roomy newServer s ∧ SecondAcked 1000000 112 s := by
  have hrun : Run (Turn roomy) (xqcSendCtlCreate newServer) (sentAt 1000000 0 ++ sentAt 1000000 1) _ :=
    (((((Run.nil.snoc (.one _ _ _ rfl (.write _ _))).snoc (.one _ _ _ rfl (.append _ _ _ (by decide)))).snoc
      (.one _ _ _ rfl (.send _ _ _ _ _ 0 (by decide)))).snoc (.one _ _ _ rfl (.write _ _))).snoc
      (.one _ _ _ rfl (.append _ _ _ (by decide)))).snoc (.one _ _ _ rfl (.send _ _ _ _ _ 1 (by decide)))
  exact ⟨_, .ack (ackOf 1) 1000100 1000100 hrun (by decide), by decide +kernel⟩

/-- A second later the first packet is lost. -/
theorem late_packet_is_declared_lost : ∃ s, Detecting roomy newServer s ∧ SecondAcked 1000000 112 s ∧
    LossMatches .appData 2000100 1 s roomy := by
  obtain ⟨s, hdetect, hs⟩ := second_acked
  refine ⟨s, hdetect, hs, ?_⟩
  obtain ⟨hla, hlist, hkt, hdelay, -, -, hnum, hsent⟩ := hs
  have hmatch := (loss_matches_rfc_iff roomy newServer (by simp [Conn.Fresh, newServer]) s hdetect .appData 2000100).2 1 hla
  have hwait : waiting .appData 2000100 1 s = [] := by
    simp [waiting, hlist, Waits, hkt]
  refine hmatch.mpr ⟨?_, ?_, ?_⟩
  · intro p hopen _
    obtain rfl : p = 0 := by simpa [hlist] using hopen.1
    refine .inl (.inr ?_)
    rw [deadline, hsent, hdelay]
    decide
  · intro q hq; rw [noted, hwait] at hq; cases hq
  · intro p hp; rw [hwait] at hp; cases hp

/-- At once the first packet is neither three packets
    behind nor late, but the number up to which packets are lost is 1. -/
theorem fresh_packet_is_declared_lost : newServer.Fresh ∧ ∃ s, Detecting roomy newServer s ∧ SecondAcked 1000000 112 s ∧
    ¬ RfcLost 1000100 1 s 0 ∧ ¬ LossMatches .appData 1000100 1 s roomy := by
  have hfresh : newServer.Fresh := by simp [Conn.Fresh, newServer]
  obtain ⟨s, hdetect, hs⟩ := second_acked
  obtain ⟨hinv, hlined⟩ := hdetect.lined hfresh
  refine ⟨hfresh, s, hdetect, hs, ?_⟩
  obtain ⟨hla, hlist, hkt, hdelay, hsettled, hflight, hnum, hsent⟩ := hs
  have hnot : ¬ RfcLost 1000100 1 s 0 := by
    rw [RfcLost, deadline, hsent, hdelay, hnum, hkt]
    decide
  refine ⟨hnot, fun hm => ?_⟩
  have hopen : Open .appData 1 s 0 := ⟨by rw [hlist]; simp, hsettled, by rw [hnum]; decide⟩
  rcases hm.each hinv hlined 0 hopen hflight with hlost | hw
  · exact hnot hlost
  · exact absurd hw.1 (by rw [hkt]; decide)

end RlccQuic.Transport.SendCtl
