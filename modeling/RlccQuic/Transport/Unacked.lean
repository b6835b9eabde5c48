/-
  RlccQuic.Transport.Unacked — what happens to the unacked lists.

  A packet comes to the tail of the unacked list of its space when it is sent. Whatever else the control does, packets
  only leave these lists, and those that stay keep their order, their numbers and their origins (`Ebbs`).

  Proved: so it is with an ACK frame, loss detection and timeouts, with dropping packets, with a Retry and with encoding
  what waits (`onAckReceived_ebbs`, `timeout_ebbs`, `dropSpace_ebbs`, `onRecvRetry_ebbs`, `encPacket_ebbs`).
-/

import RlccQuic.Transport.Inflight

namespace RlccQuic.Transport.SendCtl

open Lib List
open FrameParser (AckInfo)
open Function (update_of_ne update)

variable {B : Prop}

/-! ## The relation -/

structure Recedes (s t : Ctl) : Prop where
  sub : ∀ n, (t.lists (.unacked n)).Sublist (s.lists (.unacked n))
  same : ∀ {n p}, p ∈ t.lists (.unacked n) →
    (t.pkts p).pktNum = (s.pkts p).pktNum ∧ (t.pkts p).origin = (s.pkts p).origin

structure Ebbs (s t : Ctl) : Prop extends Recedes s t where
  numbers : t.packetNumber = s.packetNumber

variable {s t : Ctl} {n : Pns}

lemma Recedes.mem (h : Recedes s t) {p : Id} (hp : p ∈ t.lists (.unacked n)) : p ∈ s.lists (.unacked n) :=
  (h.sub n).subset hp

lemma Recedes.trans {u : Ctl} (h : Recedes s t) (h' : Recedes t u) : Recedes s u where
  sub n := (h'.sub n).trans (h.sub n)
  same hp :=
    ⟨(h'.same hp).1.trans (h.same (h'.mem hp)).1, (h'.same hp).2.trans (h.same (h'.mem hp)).2⟩

lemma Recedes.of_eq (hp : t.pkts = s.pkts) (hl : t.lists = s.lists) : Recedes s t := by
  refine ⟨?_, ?_⟩
  · intro n; rw [hl]
  · intro n p _; rw [hp]; exact ⟨rfl, rfl⟩

lemma Ebbs.of_eq (hp : t.pkts = s.pkts) (hl : t.lists = s.lists) (hn : t.packetNumber = s.packetNumber) :
    Ebbs s t :=
  ⟨.of_eq hp hl, hn⟩

lemma Ebbs.refl (s : Ctl) : Ebbs s s := .of_eq rfl rfl rfl

lemma Ebbs.trans {u : Ctl} (h : Ebbs s t) (h' : Ebbs t u) : Ebbs s u :=
  ⟨h.toRecedes.trans h'.toRecedes, h'.numbers.trans h.numbers⟩

/-! ## The changes the code is made of -/

lemma ebbs_conn (s : Ctl) (c : Conn) : Ebbs s { s with conn := c } := .of_eq rfl rfl rfl

variable (p : Id) {k : Place}

lemma ebbs_move (hk : ∀ n, k ≠ .unacked n) : Ebbs s (s.move p k) := by
  refine ⟨⟨?_, fun _ => ⟨rfl, rfl⟩⟩, rfl⟩
  intro n
  simp only [Ctl.move, Links.move, update_of_ne (hk n).symm]; exact erase_sublist

lemma ebbs_moveToHead : Ebbs s (s.moveToHead p) := by
  refine ⟨⟨?_, fun _ => ⟨rfl, rfl⟩⟩, rfl⟩
  intro n; exact erase_sublist

lemma ebbs_update {p : Id} {po : PacketOut} (hn : po.pktNum = (s.pkts p).pktNum)
    (ho : po.origin = (s.pkts p).origin) : Ebbs s { s with pkts := update s.pkts p po } := by
  refine ⟨⟨fun _ => .refl _, ?_⟩, rfl⟩
  intro n q _
  by_cases hq : q = p
  · subst hq; simp only [Function.update_self]; exact ⟨hn, ho⟩
  · simp only [update_of_ne hq]; exact ⟨trivial, trivial⟩

lemma ebbs_modify {f : PacketOut → PacketOut}
    (hf : ∀ po, (f po).pktNum = po.pktNum ∧ (f po).origin = po.origin) : Ebbs s (s.modify p f) :=
  ebbs_update (hf _).1 (hf _).2

lemma ebbs_updateAway {p : Id} (po : PacketOut) (hp : ∀ n, p ∉ s.lists (.unacked n)) :
    Ebbs s { s with pkts := update s.pkts p po } := by
  refine ⟨⟨fun _ => .refl _, ?_⟩, rfl⟩
  intro n q hq
  have hne : q ≠ p := by
    rintro rfl
    exact hp n hq
  simp only [update_of_ne hne]; exact ⟨trivial, trivial⟩

lemma ebbs_decrease (s : Ctl) : Ebbs s (xqcSendCtlDecreaseInflight p s) := by
  unfold xqcSendCtlDecreaseInflight
  dsimp only; split
  · have htake : Ebbs s (takeOff (s.pkts p).pns (s.pkts p).usedSize s) :=
      .of_eq (by simp) (by simp) (by simp)
    exact htake.trans (ebbs_update rfl rfl)
  · exact .refl s

lemma walk_ebbs {σ : Type _} {on : σ → List Id} {body : Id → σ → σ × Bool} {P : σ → Prop} (ctl : σ → Ctl)
    (hinv : ∀ p t, P t → p ∈ on t → P (body p t).1) (hbody : ∀ p t, P t → p ∈ on t → Ebbs (ctl t) (ctl (body p t).1))
    {s : σ} (h : P s) : Ebbs (ctl s) (ctl (walk on body s)) := by
  refine (walk_inv (P := fun t => P t ∧ Ebbs (ctl s) (ctl t)) ?_ ⟨h, .refl _⟩).2
  intro p t ht hp; exact ⟨hinv p t ht.1 hp, ht.2.trans (hbody p t ht.1 hp)⟩

lemma each_ebbs {on : Ctl → List Id} {body : Id → Ctl → Ctl × Bool} (hbody : ∀ p t, Ebbs t (body p t).1) (s : Ctl) :
    Ebbs s (walk on body s) :=
  walk_ebbs (P := fun _ => True) id (fun _ _ _ _ => trivial) (fun p t _ _ => hbody p t) trivial

/-! ## Acknowledged packets -/

lemma remove_ebbs (s : Ctl) : Ebbs s (xqcSendCtlMaybeRemoveUnacked p s) := by
  unfold xqcSendCtlMaybeRemoveUnacked
  dsimp only; split
  · exact .refl s
  · have hfree : Ebbs s (s.move p .free) := ebbs_move p (by simp)
    split
    · exact hfree
    · rename_i o _
      have hcount : Ebbs s ((s.move p .free).modify o fun q => q.withRefs (q.originRefCnt - 1)) :=
        hfree.trans (ebbs_update rfl rfl)
      split
      · exact hcount.trans (ebbs_move o (by simp))
      · exact hcount

lemma noteHandshakeDone_ebbs (s : Ctl) : Ebbs s (noteHandshakeDone p s) := by
  unfold noteHandshakeDone; split
  · exact .of_eq rfl rfl rfl
  · exact .refl s

lemma leaveFlight_ebbs (s : Ctl) : Ebbs s (leaveFlight p s) := by
  unfold leaveFlight; split
  · exact (ebbs_decrease p s).trans (ebbs_update rfl rfl)
  · exact .refl s

lemma setAcked_ebbs (s : Ctl) : Ebbs s (setAcked p s) := by
  have hown : Ebbs s (s.modify p ({ · with acked := true })) := ebbs_update rfl rfl
  unfold setAcked; split
  · exact hown
  · exact hown.trans (ebbs_update rfl rfl)

lemma onPacketAcked_ebbs (s : Ctl) : Ebbs s (xqcSendCtlOnPacketAcked p s) :=
  ((noteHandshakeDone_ebbs p s).trans (leaveFlight_ebbs p _)).trans (setAcked_ebbs p _)

lemma indirectly_ebbs (s : Ctl) : Ebbs s (xqcSendCtlIndirectlyAckPo p s).2 := by
  unfold xqcSendCtlIndirectlyAckPo
  dsimp only; split
  · refine Ebbs.trans ?_ (remove_ebbs p _)
    split
    · exact onPacketAcked_ebbs p s
    · exact .refl s
  · exact .refl s

/-! ## New packets and copies -/

lemma not_unacked_of_idle {d : Id} (h : ¬ s.Live d) (n : Pns) : d ∉ s.lists (.unacked n) :=
  fun hd => h ⟨_, by simp, hd⟩

lemma not_unacked_of_mem (h : Ledger B s) {p : Id} (hp : p ∈ s.lists k) (hk : ∀ n, k ≠ .unacked n)
    (n : Pns) : p ∉ s.lists (.unacked n) :=
  fun hn => hk n (h.place_unique hp hn)

variable (w : World)

lemma get_ebbs {s' : Ctl} {d : Option Id} (h : Ledger B s) (hg : xqcPacketOutGet w s = (d, s')) : Ebbs s s' := by
  cases d with
  | none => rw [get_none hg]; exact .of_eq rfl rfl rfl
  | some d =>
    have hspare := (h.get hg).1
    have hlists : (∀ n, (s'.lists (.unacked n)).Sublist (s.lists (.unacked n))) ∧ s'.packetNumber = s.packetNumber := by
      unfold xqcPacketOutGet at hg; split at hg
      · cases hg; exact ⟨fun n => erase_sublist, rfl⟩
      · dsimp only at hg; split at hg
        · cases hg; exact ⟨fun n => .refl _, rfl⟩
        · cases hg
    refine ⟨⟨hlists.1, ?_⟩, hlists.2⟩
    intro n p hp
    have hne : p ≠ d := by
      rintro rfl
      exact not_unacked_of_idle hspare.idle n hp
    rw [hspare.others hne]; exact ⟨rfl, rfl⟩

lemma rewriteAck_ebbs {d : Id} (hd : ∀ n, d ∉ s.lists (.unacked n)) : Ebbs s (rewriteAck w d s) := by
  unfold rewriteAck
  dsimp only; split
  · generalize hcut : ({ s with
      asked := s.asked + 1
      pkts := update s.pkts d
        { s.pkts d with frameTypes := (s.pkts d).frameTypes.erase .ack, usedSize := (s.pkts d).ackOffset } } : Ctl) = t
    have ht : Ebbs s t := by
      rw [← hcut]; exact (ebbs_updateAway _ hd).trans (.of_eq rfl rfl rfl)
    have hdt : ∀ n, d ∉ t.lists (.unacked n) := fun n hn => hd n (ht.mem hn)
    split
    · exact ht.trans (ebbs_updateAway _ hdt)
    · split
      · exact ht.trans (ebbs_move d (by simp))
      · exact ht
  · exact .refl s

lemma copyTo_ebbs (h : Ledger B s) (p : Id) (hk : ∀ n, k ≠ .unacked n) : Ebbs s (copyTo w k p s) := by
  unfold copyTo
  rcases hg : xqcPacketOutGet w s with ⟨d, s1⟩
  have h1 := get_ebbs w h hg
  cases d with
  | none => exact h1
  | some d =>
    have hd := not_unacked_of_idle (h.get hg).1.idle
    have h2 : Ebbs s1 (xqcPacketOutCopy d p s1) := (ebbs_updateAway _ hd).trans (ebbs_update rfl rfl)
    have h3 := rewriteAck_ebbs w (s := xqcPacketOutCopy d p s1) (d := d) fun n hn => hd n (h2.mem hn)
    exact h1.trans (h2.trans (h3.trans ((ebbs_move d hk).trans (ebbs_update rfl rfl))))

lemma writeNew_ebbs (type : PktType) (h : Ledger B s) : Ebbs s (xqcWriteNewPacket w type s).2 := by
  unfold xqcWriteNewPacket
  rcases hg : xqcPacketOutGet w s with ⟨d, s1⟩
  have h1 := get_ebbs w h hg
  cases d with
  | none => exact h1
  | some d =>
    have hd := not_unacked_of_idle (h.get hg).1.idle
    refine h1.trans (Ebbs.trans ?_ (ebbs_move d (by simp)))
    exact (ebbs_updateAway _ hd).trans (.of_eq rfl rfl rfl)

lemma genPing_ebbs (h : Inv B s) : Ebbs s (xqcConnGenPing w n s).2 := by
  have h1 := writeNew_ebbs w (pingType n) h.ledger
  have hinv := writeNew_inv w (pingType n) h
  unfold xqcConnGenPing
  rcases hw : xqcWriteNewPacket w (pingType n) s with ⟨d, s1⟩
  rw [hw] at h1 hinv
  cases d with
  | none => exact h1
  | some d =>
    have hd := hinv.2 d (by simp)
    exact h1.trans (ebbs_updateAway _ (not_unacked_of_mem hinv.1.ledger hd (by simp)))

lemma pingOnPto_ebbs (h : Inv B s) : Ebbs s (xqcConnSendPingOnPto w n s) := by
  have h1 := genPing_ebbs w (n := n) h
  unfold xqcConnSendPingOnPto
  rcases hw : xqcConnGenPing w n s with ⟨d, s1⟩
  rw [hw] at h1
  cases d with
  | none => exact h1
  | some d => exact h1.trans (ebbs_move d (by simp))

/-! ## Loss detection -/

variable {now : UInt64}

lemma detectLostRound_ebbs {la : UInt64} {p : Id} (h : Inv B s) : Ebbs s (detectLostRound w n now la p s).1 := by
  unfold detectLostRound; split
  · exact .refl s
  · have hi := indirectly_ebbs p s
    obtain ⟨s', hd⟩ | ⟨hd, -⟩ := indirectly_cases p s
    · rw [hd] at hi ⊢; exact hi
    · rw [hd]
      dsimp only; split
      · split
        · dsimp only; split
          · exact (ebbs_decrease p s).trans (copyTo_ebbs w (h.ledger.decrease p) p (by simp))
          · exact (ebbs_decrease p s).trans (ebbs_move p (by simp))
        · exact .refl s
      · exact .of_eq rfl rfl rfl

lemma detectLost_ebbs (h : Inv B s) : Ebbs s (xqcSendCtlDetectLost w n now s) := by
  have h0 : Inv B { s with lossTime := update s.lossTime n 0 } :=
    h.congr rfl
  have e0 : Ebbs s { s with lossTime := update s.lossTime n 0 } := .of_eq rfl rfl rfl
  unfold xqcSendCtlDetectLost
  dsimp only; split
  · exact e0
  · exact e0.trans (walk_ebbs (P := Inv B) id (fun p t ht hp => detectLostRound_inv w ht hp)
      (fun p t ht _ => detectLostRound_ebbs w ht) h0)

/-! ## ACK received -/

lemma ackRound_ebbs (n : Pns) (la rt : UInt64) (p : Id) (a : AckPass) : Ebbs a.ctl (ackRound n la rt p a).1.ctl := by
  rcases ackRound_ctl n la rt p a with heq | ⟨r, heq⟩
  · rw [heq]; exact .refl _
  · have h0 : Ebbs a.ctl (noteAcked n p a.ctl) := by
      unfold noteAcked
      split <;> exact .of_eq rfl rfl rfl
    rw [heq]
    exact (h0.trans ((onPacketAcked_ebbs p _).trans (remove_ebbs p _))).trans (.of_eq rfl rfl rfl)

/-- After the pass only the estimates of round trips change before losses are looked for. -/
lemma finishAck_eq (ack : AckInfo) (la rt clock : UInt64) (a : AckPass) :
    ∃ r, finishAck w ack la rt clock a = xqcSendCtlDetectLost w ack.pns rt { a.ctl with rtt := r } := by
  unfold finishAck
  split <;> split <;> exact ⟨_, rfl⟩

lemma finishAck_ebbs {ack : AckInfo} {la rt clock : UInt64} {a : AckPass} (h : Inv B a.ctl) :
    Ebbs a.ctl (finishAck w ack la rt clock a) := by
  obtain ⟨r, hr⟩ := finishAck_eq w ack la rt clock a
  have h0 : Ebbs a.ctl { a.ctl with rtt := r } := .of_eq rfl rfl rfl
  rw [hr]; exact h0.trans (detectLost_ebbs w (h.congr rfl))

def largestOf (ack : AckInfo) : UInt64 := (ack.ranges.head?.map (·.high)).getD 0

def ackStart (ack : AckInfo) (s : Ctl) : AckPass where
  ctl := { s with
    largestAcked := update s.largestAcked ack.pns (some
      (match s.largestAcked ack.pns with
      | none => largestOf ack
      | some la => Word.maxU64 la (largestOf ack))) }
  ranges := ack.ranges.reverse
  updateRtt := false
  hasAckEliciting := false
  spurious := none

/-- The pass of `xqc_send_ctl_on_ack_received` over the unacked list. -/
def ackPass (ack : AckInfo) (ackRecvTime : UInt64) (s : Ctl) : AckPass :=
  walk (·.ctl.lists (.unacked ack.pns)) (ackRound ack.pns (largestOf ack) ackRecvTime) (ackStart ack s)

lemma onAckReceived_eq (ack : AckInfo) (rt clock : UInt64) (s : Ctl) :
    xqcSendCtlOnAckReceived w ack rt clock s =
      if largestOf ack > s.largestSent ack.pns then (.error .eproto, (ackStart ack s).ctl)
      else (.ok (), finishAck w ack (largestOf ack) rt clock (ackPass ack rt s)) := rfl

lemma ackPass_inv {ack : AckInfo} {rt : UInt64} (h : Inv B s) : Inv B (ackPass ack rt s).ctl :=
  walk_inv (P := fun a : AckPass => Inv B a.ctl) (fun _ _ ha hp => ackRound_inv ha hp)
    (h.congr rfl)

lemma ackPass_ebbs (ack : AckInfo) (rt : UInt64) (s : Ctl) : Ebbs s (ackPass ack rt s).ctl := by
  have h0 : Ebbs s (ackStart ack s).ctl := .of_eq rfl rfl rfl
  exact h0.trans (walk_ebbs (P := fun _ => True) AckPass.ctl (fun _ _ _ _ => trivial) (fun _ _ _ _ => ackRound_ebbs _ _ _ _ _)
    trivial)

theorem onAckReceived_ebbs {ack : AckInfo} {rt clock : UInt64} (h : Inv B s) :
    Ebbs s (xqcSendCtlOnAckReceived w ack rt clock s).2 := by
  rw [onAckReceived_eq]; split
  · exact .of_eq rfl rfl rfl
  · exact (ackPass_ebbs ack rt s).trans (finishAck_ebbs w (ackPass_inv h))

/-! ## Timeouts -/

lemma probeRound_ebbs {p : Id} {t : ProbePass} (h : Inv B t.ctl) : Ebbs t.ctl (probeRound w p t).1.ctl := by
  unfold probeRound
  have hi := indirectly_ebbs p t.ctl
  obtain ⟨s', hd⟩ | ⟨hd, -⟩ := indirectly_cases p t.ctl
  · rw [hd] at hi ⊢; exact hi
  · rw [hd]
    dsimp only; split
    · split
      · exact .refl _
      · have ht : Inv B (t.ctl.modify p ({ · with tlp := true })) := h.touch rfl
        have hmark : Ebbs t.ctl (t.ctl.modify p ({ · with tlp := true })) := ebbs_update rfl rfl
        have hc : Ebbs t.ctl (xqcSendCtlCopyToPtoProbeList w p
            (xqcSendCtlDecreaseInflight p (t.ctl.modify p ({ · with tlp := true })))) :=
          hmark.trans ((ebbs_decrease p _).trans (copyTo_ebbs w (ht.ledger.decrease p) p (by simp)))
        split
        · exact hc
        · split <;> exact hc
    · exact .refl _

lemma probeLoop_ebbs : ∀ (fuel : Nat) {t : ProbePass}, Inv B t.ctl → Ebbs t.ctl (probeLoop w n fuel t).ctl := by
  intro fuel
  induction fuel with
  | zero => intro t h; exact .refl _
  | succ fuel ih =>
    intro t h; unfold probeLoop
    split
    · exact .refl _
    · have hw : Inv B (walk (·.ctl.lists (.unacked n)) (probeRound w) t).ctl :=
        walk_inv (P := fun t : ProbePass => Inv B t.ctl) (fun p t ht hp => probeRound_inv w ht hp) h
      have he : Ebbs t.ctl (walk (·.ctl.lists (.unacked n)) (probeRound w) t).ctl :=
        walk_ebbs (P := fun t : ProbePass => Inv B t.ctl) ProbePass.ctl (fun p t ht hp => probeRound_inv w ht hp)
          (fun p t ht _ => probeRound_ebbs w ht) h
      generalize walk (·.ctl.lists (.unacked n)) (probeRound w) t = u at hw he
      dsimp only; split
      · split
        · exact he.trans (ih (t := { u with findHsd := false }) hw)
        · exact he
      · exact he.trans (ih hw)

lemma pings_ebbs : ∀ (k : Nat) {s : Ctl}, Inv B s → Ebbs s (pings w n k s) := by
  intro k
  induction k with
  | zero => intro s h; exact .refl s
  | succ k ih => intro s h; exact (pingOnPto_ebbs w h).trans (ih (pingOnPto_inv w h))

theorem timeout_ebbs {fuel : Nat} {pto : Pns} {idle : Option Pns} (h : Inv B s) :
    Ebbs s (xqcSendCtlLossDetectionTimeout w fuel now pto idle s) := by
  unfold xqcSendCtlLossDetectionTimeout; split
  · exact detectLost_ebbs w h
  · split
    · exact (probeLoop_ebbs w fuel (t := ⟨s, _, _⟩) h).trans (pings_ebbs w _ (probeLoop_inv w fuel h))
    · split
      · exact .refl s
      · exact genPing_ebbs w h

/-! ## Dropping packets, and putting them back -/

lemma dropQueued_ebbs (k : Place) (kind : PacketOut → Bool) (s : Ctl) : Ebbs s (dropQueued k kind s) := by
  refine each_ebbs (fun p t => ?_) s
  split
  · exact ebbs_move p (by simp)
  · exact .refl t

lemma dropUnacked_ebbs (n : Pns) (kind : PacketOut → Bool) (s : Ctl) : Ebbs s (dropUnacked n kind s) := by
  refine each_ebbs (fun p t => ?_) s
  split
  · exact (ebbs_move p (by simp)).trans (ebbs_decrease p _)
  · exact .refl t

lemma dropApp_ebbs (kind : PacketOut → Bool) (s : Ctl) :
    Ebbs s (dropQueued .probe kind (dropQueued .lost kind (dropQueued .send kind (dropUnacked .appData kind s)))) :=
  (dropUnacked_ebbs .appData kind s).trans ((dropQueued_ebbs .send kind _).trans ((dropQueued_ebbs .lost kind _).trans
    (dropQueued_ebbs .probe kind _)))

lemma dropType_ebbs (type : PktType) (s : Ctl) : Ebbs s (xqcSendCtlDropPacketsWithType type s) :=
  (dropUnacked_ebbs type.pns _ s).trans ((dropQueued_ebbs .highPri _ _).trans ((dropQueued_ebbs .send _ _).trans
    ((dropQueued_ebbs .lost _ _).trans (dropQueued_ebbs .probe _ _))))

theorem dropSpace_ebbs (n : Pns) (s : Ctl) : Ebbs s (xqcSendCtlDropPktsWithPn n s) := by
  cases n with
  | init => exact (dropType_ebbs .init s).trans (.of_eq rfl rfl rfl)
  | hsk => exact (dropType_ebbs .hsk s).trans (.of_eq rfl rfl rfl)
  | appData => exact .of_eq rfl rfl rfl

lemma requeue_ebbs (k : Place) (s : Ctl) : Ebbs s (requeue k s) :=
  each_ebbs (fun p _ => ebbs_move p (by simp)) _

lemma requeueUnacked_ebbs (n : Pns) (s : Ctl) : Ebbs s (requeueUnacked n s) :=
  each_ebbs (fun p _ => (ebbs_move p (by simp)).trans (ebbs_decrease p _)) s

lemma reset_ebbs (s : Ctl) : Ebbs s (xqcSendCtlReset s) := by
  refine Ebbs.trans ?_ (requeue_ebbs .probe _)
  refine Ebbs.trans ?_ (requeue_ebbs .lost _)
  refine Ebbs.trans ?_ (requeue_ebbs .highPri _)
  refine Ebbs.trans ?_ (requeueUnacked_ebbs .appData _)
  refine Ebbs.trans ?_ (requeueUnacked_ebbs .hsk _)
  refine Ebbs.trans ?_ (requeueUnacked_ebbs .init _)
  exact .of_eq rfl rfl rfl

lemma destroy_ebbs (s : Ctl) : Ebbs s (xqcSendCtlDestroyPacketsLists s) :=
  ⟨⟨fun _ => nil_sublist _, fun hp => absurd hp not_mem_nil⟩, rfl⟩

lemma reassemble_ebbs {s' : Ctl} {p : Id} (h : Resending B s) (hr : xqcConnReassemblePacket w p s = some s') :
    Ebbs s s' := by
  unfold xqcConnReassemblePacket at hr
  dsimp only at hr
  have h1 := writeNew_ebbs w (s.pkts p).pktType h.ledger
  rcases hw : xqcWriteNewPacket w (s.pkts p).pktType s with ⟨d, s1⟩
  rw [hw] at h1 hr
  cases d with
  | none => cases hr
  | some d =>
    obtain ⟨t, ht, hblank, rfl⟩ := writeNew_some w h.ledger hw
    have hsend := h.adopt ht hblank.origin hblank.acked
    have hd : d ∈ (t.move d .send).lists .send := ht.ledger.mem_move.mpr (.inl ⟨rfl, rfl⟩)
    have hplace : ∀ u, Ebbs (t.move d .send) u →
        Ebbs s (if FrameKind.crypto ∈ (s.pkts p).frameTypes then u.move d .highPri else u) := by
      intro u hu
      split
      · exact h1.trans (hu.trans (ebbs_move d (by simp)))
      · exact h1.trans hu
    rw [← Option.some.inj hr]
    refine hplace _ (Ebbs.trans ?_ (ebbs_updateAway _ ?_))
    · exact .of_eq rfl rfl rfl
    · exact not_unacked_of_mem hsend.ledger hd (by simp)

lemma resendRound_ebbs {p : Id} {t : Ctl × Bool} (h : Resending B t.1) : Ebbs t.1 (resendRound w p t).1.1 := by
  obtain ⟨s, failed⟩ := t
  unfold resendRound
  dsimp only; split
  · exact .refl s
  · split
    · cases hr : xqcConnReassemblePacket w p s with
      | none => exact .refl s
      | some s' => exact (reassemble_ebbs w h hr).trans (ebbs_move p (by simp))
    · exact ebbs_move p (by simp)

theorem onRecvRetry_ebbs (h : Inv B s) (hr : s.conn.retryRecvd = false) : Ebbs s (xqcConnOnRecvRetry w s) := by
  have h0 := reset_resending h hr
  have e0 : Ebbs s (xqcSendCtlReset { s with conn := { s.conn with retryRecvd := true } }) :=
    (ebbs_conn s _).trans (reset_ebbs _)
  unfold xqcConnOnRecvRetry xqcConnResendPackets
  dsimp only
  generalize xqcSendCtlReset { s with conn := { s.conn with retryRecvd := true } } = t at h0 e0
  have hall : Ebbs t (walk (fun u : Ctl × Bool => u.1.lists .send) (resendRound w) (t, false)).1 :=
    walk_ebbs (P := fun u : Ctl × Bool => Resending B u.1) (fun u : Ctl × Bool => u.1)
      (fun p u hu hp => (resendRound_spec w (p := p) hu hp).1) (fun p u hu _ => resendRound_ebbs w hu) (s := (t, false)) h0
  generalize walk (fun u : Ctl × Bool => u.1.lists .send) (resendRound w) (t, false) = r at hall
  obtain ⟨u, failed⟩ := r
  cases failed with
  | false => exact e0.trans hall
  | true => exact e0.trans (hall.trans (destroy_ebbs u))

/-! ## What waits -/

lemma handshakeComplete_ebbs (rejected : Bool) (s : Ctl) : Ebbs s (xqcConnHandshakeComplete rejected s) := by
  unfold xqcConnHandshakeComplete
  dsimp only; split
  · split
    · exact .of_eq rfl rfl rfl
    · exact (ebbs_conn s _).trans (dropSpace_ebbs .hsk _)
  · have hinit := (ebbs_conn s { s.conn with handshakeCompleted := true }).trans (dropSpace_ebbs .init _)
    split
    · exact hinit.trans (dropApp_ebbs _ _)
    · exact hinit

lemma buff_ebbs (s : Ctl) : Ebbs s (xqcConnBuff1rttPackets s) := by
  refine each_ebbs (fun p t => ?_) s
  split
  · exact ebbs_move p (by simp)
  · exact .refl t

lemma writeBuffed_ebbs (s : Ctl) : Ebbs s (xqcConnWriteBuffed1rttPackets s) := by
  unfold xqcConnWriteBuffed1rttPackets; split
  · exact each_ebbs (fun p _ => ebbs_move p (by simp)) _
  · exact .refl s

/-! ## Sending -/

lemma encPacketWithPn_ebbs {p : Id} (hp : ∀ n, p ∉ s.lists (.unacked n)) : Ebbs s (xqcEncPacketWithPn w p s) :=
  Ebbs.trans (t := { s with asked := s.asked + 1 }) (.of_eq rfl rfl rfl) (ebbs_updateAway _ hp)

lemma encPacket_recedes {p : Id} (now : UInt64) (hp : ∀ n, p ∉ s.lists (.unacked n)) :
    Recedes s (xqcConnEncPacket w now p s) :=
  (ebbs_updateAway _ hp).toRecedes.trans (.of_eq rfl rfl)

lemma increase_ebbs (s : Ctl) : Ebbs s (xqcSendCtlIncreaseInflight p s) := by
  unfold xqcSendCtlIncreaseInflight
  dsimp only; split
  · refine Ebbs.trans ?_ (ebbs_modify p fun _ => ⟨rfl, rfl⟩)
    exact .of_eq rfl rfl rfl
  · exact .refl s

lemma onPacketSent_ebbs (s : Ctl) : Ebbs s (xqcSendCtlOnPacketSent p s) := by
  have hnote : Ebbs s (noteSent p s) := by
    unfold noteSent
    split <;> exact .of_eq rfl rfl rfl
  have hmark : ∀ t : Ctl, Ebbs t (t.modify p sentMark) := by
    intro t
    refine ebbs_modify p fun po => ?_
    unfold sentMark
    split <;> exact ⟨rfl, rfl⟩
  rw [onPacketSent_eq]; split
  · split
    · exact hnote.trans (hmark _)
    · exact hnote.trans ((increase_ebbs p _).trans (hmark _))
  · exact hnote

lemma sendPacketWithPn_recedes (now : UInt64) (r : Sent) (p : Id) (s : Ctl) :
    Recedes s (xqcSendPacketWithPn now r p s) := by
  have htime : Ebbs s (s.modify p ({ · with sentTime := now })) := ebbs_update rfl rfl
  unfold xqcSendPacketWithPn; split
  · refine Recedes.trans ?_ (onPacketSent_ebbs p _).toRecedes
    exact htime.toRecedes.trans (.of_eq rfl rfl)
  · exact htime.toRecedes

end RlccQuic.Transport.SendCtl
