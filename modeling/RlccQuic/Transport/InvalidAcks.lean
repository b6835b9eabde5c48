/-
  RlccQuic.Transport.InvalidAcks — acknowledgements of packets that were not sent (`xqc_send_ctl_on_ack_received`).

  A frame whose largest number is above all numbers sent must be refused, and change nothing. The code notes the frame's
  largest number as acknowledged before it looks, and it compares with `ctl_largest_sent`, which is 0 before anything
  was sent and is not raised by a path challenge.

  Proved: in a run whose ACK frames name no number above `ctl_largest_sent`, in a space something was sent in, the
  largest number acknowledged is never above all numbers sent, and of the next frame the code decides right, and keeps
  its state where it refuses, exactly if it is such a frame (`acks_are_judged_right_iff`).
-/

import RlccQuic.Transport.Watched

namespace RlccQuic.Transport.InvalidAcks

open Lib SendCtl Watched List Function UInt64
open FrameParser (AckInfo)

/-! ## The numbers sent -/

abbrev Log : Type := Pns → List UInt64

def log (e : Note) (s : Ctl) (sent : Log) : Log :=
  match e with
  | .sending p | .challenged p => update sent (s.pkts p).pns ((s.pkts p).pktNum :: sent (s.pkts p).pns)
  | _ => sent

/-- The frame names nothing above what the control has sent. -/
def Sane (x : State Log) (ack : AckInfo) : Prop :=
  largestOf ack ≤ x.ctl.largestSent ack.pns ∧ x.more ack.pns ≠ []

/-- The frame is refused exactly if its largest number is above every number sent, and then the control is as it was. -/
def JudgedRight (w : World) (x : State Log) (ack : AckInfo) (recvTime clock : UInt64) : Prop :=
  ((xqcSendCtlOnAckReceived w ack recvTime clock x.ctl).1 = .error .eproto ↔ ∀ num ∈ x.more ack.pns, num < largestOf ack) ∧
    ((xqcSendCtlOnAckReceived w ack recvTime clock x.ctl).1 = .error .eproto →
      (xqcSendCtlOnAckReceived w ack recvTime clock x.ctl).2 = x.ctl)

structure Known (x : State Log) : Prop where
  top : ∀ n, x.ctl.largestSent n = 0 ∨ x.ctl.largestSent n ∈ x.more n
  acked : ∀ {n la}, x.ctl.largestAcked n = some la → la ≤ x.ctl.largestSent n ∧ x.more n ≠ []

/-! ## What leaves the largest numbers alone -/

def view (x : State Log) : (Pns → UInt64) × (Pns → Option UInt64) × Log := (x.ctl.largestSent, x.ctl.largestAcked, x.more)

variable {x y : State Log}

lemma Known.of_view (h : Known x) (hv : view y = view x) : Known y := by
  obtain ⟨hs, ha, hm⟩ : y.ctl.largestSent = x.ctl.largestSent ∧ y.ctl.largestAcked = x.ctl.largestAcked ∧ y.more = x.more := by
    simpa [view] using hv
  exact ⟨by rw [hs, hm]; exact h.top, by rw [ha, hs, hm]; exact h.acked⟩

lemma marks_aside : Aside fun s : Ctl => (s.largestSent, s.largestAcked) := fun _ _ _ _ _ _ _ _ _ => rfl

lemma view_on {f : Ctl → Ctl}
    (hm : ((f x.ctl).largestSent, (f x.ctl).largestAcked) = (x.ctl.largestSent, x.ctl.largestAcked)) :
    view (x.on f) = view x := by
  obtain ⟨hs, ha⟩ := Prod.mk.inj hm
  simp only [view, State.on, hs, ha]

variable (p : Id)

lemma view_decrease (x : State Log) : view (x.on (xqcSendCtlDecreaseInflight p)) = view x :=
  view_on (marks_aside.decrease p x.ctl)

lemma view_insertFree (x : State Log) : view (insertFree log p x) = view x := rfl

variable (w : World)

lemma view_get (x : State Log) : view (Watched.xqcPacketOutGet log w x).2 = view x := by
  have hmarks := marks_aside.get x.ctl w
  unfold Watched.xqcPacketOutGet
  rcases hg : SendCtl.xqcPacketOutGet w x.ctl with ⟨d, s⟩
  rw [hg] at hmarks
  have hset : view { x with ctl := s } = view x := view_on (f := fun _ => s) hmarks
  cases d <;> exact hset

lemma view_rewriteAck (d : Id) (x : State Log) : view (Watched.rewriteAck log w d x) = view x := by
  have hon : view (x.on (SendCtl.rewriteAck w d)) = view x := view_on (marks_aside.rewriteAck d x.ctl w)
  unfold Watched.rewriteAck; split
  · exact hon
  · exact hon

lemma view_copyTo (k : Place) (p : Id) (x : State Log) : view (Watched.copyTo log w k p x) = view x := by
  have hget := view_get w x
  unfold Watched.copyTo
  rcases hg : Watched.xqcPacketOutGet log w x with ⟨d, y⟩
  rw [hg] at hget
  cases d with
  | none => exact hget
  | some d =>
    rw [← hget]
    exact view_rewriteAck w d (tell log (.copied d p) (y.on (xqcPacketOutCopy d p)))

lemma view_remove (x : State Log) : view (Watched.xqcSendCtlMaybeRemoveUnacked log p x) = view x := by
  unfold Watched.xqcSendCtlMaybeRemoveUnacked
  dsimp only; split
  · rfl
  · split
    · rfl
    · split <;> rfl

lemma view_acked (x : State Log) : view (Watched.xqcSendCtlOnPacketAcked log p x) = view x :=
  view_on (marks_aside.onPacketAcked p x.ctl)

lemma view_indirectly (x : State Log) : view (Watched.xqcSendCtlIndirectlyAckPo log p x).2 = view x := by
  unfold Watched.xqcSendCtlIndirectlyAckPo
  dsimp only; split
  · rw [view_remove]; split
    · exact view_acked p x
    · rfl
  · rfl

lemma view_write (type : PktType) (x : State Log) : view (Watched.xqcWriteNewPacket log w type x).2 = view x := by
  have hget := view_get w x
  unfold Watched.xqcWriteNewPacket
  rcases hg : Watched.xqcPacketOutGet log w x with ⟨d, y⟩
  rw [hg] at hget
  cases d with
  | none | some d => exact hget

/-! ## What moves them -/

lemma Known.logged (h : Known x) (n : Pns) (num : UInt64) :
    Known { x with more := update x.more n (num :: x.more n) } := by
  have hmem : ∀ {m a}, a ∈ x.more m → a ∈ update x.more n (num :: x.more n) m := by
    intro m a ha
    by_cases hm : m = n
    · subst hm; simp [ha]
    · rwa [update_of_ne hm]
  refine ⟨fun m => (h.top m).imp_right hmem, ?_⟩
  intro m la hla
  obtain ⟨hle, hne⟩ := h.acked hla
  obtain ⟨a, ha⟩ := exists_mem_of_ne_nil _ hne
  exact ⟨hle, ne_nil_of_mem (hmem ha)⟩

lemma Known.raised (h : Known x) {n : Pns} {num : UInt64} (hlog : num ∈ x.more n)
    (hgt : x.ctl.largestSent n < num) : Known (x.on fun s => { s with largestSent := update s.largestSent n num }) := by
  refine ⟨fun m => ?_, fun {m la} hla => ?_⟩
  · by_cases hm : m = n
    · subst hm; exact .inr (by simpa [State.on] using hlog)
    · simpa [State.on, update_of_ne hm] using h.top m
  · obtain ⟨hle, hne⟩ := h.acked hla
    refine ⟨?_, hne⟩
    by_cases hm : m = n
    · subst hm; simpa [State.on] using UInt64.le_of_lt (UInt64.lt_of_le_of_lt hle hgt)
    · simpa [State.on, update_of_ne hm] using hle

lemma Known.sent (h : Known x) (p : Id) : Known (Watched.xqcSendCtlOnPacketSent log p x) := by
  have hlog := h.logged (x.ctl.pkts p).pns (x.ctl.pkts p).pktNum
  have hnote : Known ((tell log (.sending p) x).on (noteSent p)) := by
    show Known { (tell log (.sending p) x) with ctl := noteSent p x.ctl }
    by_cases hgt : (x.ctl.pkts p).pktNum > x.ctl.largestSent (x.ctl.pkts p).pns
    · rw [noteSent, if_pos hgt]; exact hlog.raised (by simp) hgt
    · rw [noteSent, if_neg hgt]; exact hlog
  have hincrease : ∀ s : Ctl, (xqcSendCtlIncreaseInflight p s).largestSent = s.largestSent ∧
      (xqcSendCtlIncreaseInflight p s).largestAcked = s.largestAcked := by
    intro s; unfold xqcSendCtlIncreaseInflight
    dsimp only
    split <;> exact ⟨rfl, rfl⟩
  have hrest : view ((tell log (.sending p) x).on (SendCtl.xqcSendCtlOnPacketSent p)) =
      view ((tell log (.sending p) x).on (noteSent p)) := by
    have hmarks : (SendCtl.xqcSendCtlOnPacketSent p x.ctl).largestSent = (noteSent p x.ctl).largestSent ∧
        (SendCtl.xqcSendCtlOnPacketSent p x.ctl).largestAcked = (noteSent p x.ctl).largestAcked := by
      rw [onPacketSent_eq]; split
      · split
        · exact ⟨rfl, rfl⟩
        · exact hincrease _
      · exact ⟨rfl, rfl⟩
    simp only [view, State.on, Watched.tell, hmarks.1, hmarks.2]
  unfold Watched.xqcSendCtlOnPacketSent
  dsimp only; split
  · exact hnote.of_view hrest
  · exact hnote.of_view hrest

lemma Known.ackStart (h : Known x) {info : AckInfo} (hs : Sane x info) :
    Known (x.on fun s => (SendCtl.ackStart info s).ctl) := by
  refine ⟨h.top, fun {n la} hla => ?_⟩
  by_cases hn : n = info.pns
  · subst hn
    refine ⟨?_, hs.2⟩
    simp only [State.on, SendCtl.ackStart, update_self, Option.some.injEq] at hla
    rw [← hla]
    cases hold : x.ctl.largestAcked info.pns with
    | none => exact hs.1
    | some old =>
      have hle := (h.acked hold).1
      have hmax := hs.1
      rw [le_iff_toNat_le, Word.toNat_maxU64]; exact max_le hle hmax
  · refine h.acked (n := n) ?_
    simpa [State.on, SendCtl.ackStart, update_of_ne hn] using hla

lemma view_takeIn {n : Pns} {p : Id} {la : UInt64} (hla : x.ctl.largestAcked n = some la)
    (hle : (x.ctl.pkts p).pktNum ≤ la) : view (Watched.takeIn log n p x) = view x := by
  rw [Watched.takeIn, view_remove, view_acked]
  unfold noteAcked
  by_cases hge : (x.ctl.pkts p).pktNum ≥ la
  · have heq : (x.ctl.pkts p).pktNum = la := UInt64.le_antisymm hle hge
    refine view_on ?_
    rw [hla, if_pos (by simpa using hge)]
    rw [heq, ← hla, update_eq_self]
  · exact view_on (by rw [hla, if_neg (by simpa using hge)])

lemma reset_marks (s : Ctl) : (xqcSendCtlReset s).largestSent = s.largestSent ∧
    (xqcSendCtlReset s).largestAcked = fun _ => none := by
  have hqueue : ∀ (k : Place) (t : Ctl), (requeue k t).largestSent = t.largestSent ∧
      (requeue k t).largestAcked = t.largestAcked := fun k t =>
    walk_inv (P := fun u : Ctl => u.largestSent = t.largestSent ∧ u.largestAcked = t.largestAcked) (fun _ _ hu _ => hu)
      ⟨rfl, rfl⟩
  have hunacked : ∀ (n : Pns) (t : Ctl), (requeueUnacked n t).largestSent = t.largestSent ∧
      (requeueUnacked n t).largestAcked = t.largestAcked := by
    intro n t
    refine walk_inv (P := fun u : Ctl => u.largestSent = t.largestSent ∧ u.largestAcked = t.largestAcked) ?_ ⟨rfl, rfl⟩
    intro p u hu _
    obtain ⟨hs, ha⟩ := Prod.mk.inj (marks_aside.decrease p (u.move p .send))
    exact ⟨hs.trans hu.1, ha.trans hu.2⟩
  simp only [xqcSendCtlReset, hqueue, hunacked, and_self]

lemma Known.reset (h : Known x) : Known (x.on xqcSendCtlReset) := by
  obtain ⟨hsent, hacked⟩ := reset_marks x.ctl
  refine ⟨fun n => ?_, fun {n la} hla => ?_⟩
  · rw [State.on, hsent]; exact h.top n
  · rw [State.on, hacked] at hla; cases hla

lemma view_encode (now : UInt64) (p : Id) (x : State Log) : view (x.on (xqcConnEncPacket w now p)) = view x := by
  exact view_on rfl

lemma view_lose (x : State Log) : view (Watched.lose log w p x) = view x := by
  unfold Watched.lose
  dsimp only; split
  · exact (view_copyTo w .lost p _).trans (view_decrease p x)
  · exact (view_insertFree p _).trans (view_decrease p x)

lemma view_probe (x : State Log) : view (Watched.probe log w p x) = view x :=
  (view_copyTo w .probe p _).trans (view_decrease p (x.on fun s => s.modify p ({ · with tlp := true })))

/-! ## Runs -/

def Allowed (x : State Log) : Op → Prop
  | .ackStart info => Sane x info
  | _ => True

lemma Known.challenge (h : Known x) (sent : Bool) :
    Known (Watched.xqcConnServerSendPathChallenge log w sent x) := by
  have hwrite := h.of_view (view_write w .shortHeader x)
  unfold Watched.xqcConnServerSendPathChallenge
  rcases hg : Watched.xqcWriteNewPacket log w .shortHeader x with ⟨d, y⟩
  rw [hg] at hwrite
  cases d with
  | none => exact hwrite
  | some d =>
    cases sent with
    | false => exact Known.of_view (x := y) hwrite rfl
    | true => exact (Known.logged (x := y) hwrite _ _).of_view rfl

lemma view_reassemble {p : Id} (hy : Watched.xqcConnReassemblePacket log w p x = some y) :
    view y = view x := by
  have hwrite := view_write w (x.ctl.pkts p).pktType x
  unfold Watched.xqcConnReassemblePacket at hy
  rcases hg : Watched.xqcWriteNewPacket log w (x.ctl.pkts p).pktType x with ⟨d, z⟩
  rw [hg] at hwrite
  cases d with
  | none => simp [hg] at hy
  | some d =>
    simp only [hg, Option.some.injEq] at hy; rw [← hwrite, ← hy]
    split <;> rfl

lemma view_settle (x : State Log) : view (Watched.settle log p x) = view x := by
  unfold Watched.settle
  dsimp only
  split <;> rfl

lemma Known.sendOne (h : Known x) (q : Queue) (now : UInt64) (taken : Bool) (p : Id) :
    Known (Watched.sendOne log w q now taken p x) := by
  unfold Watched.sendOne; split
  · have hready : Known ((x.on fun s => (xqcEncPacketWithPn w p s).modify p ({ · with sentTime := now })).on fun s =>
        { s with packetNumber := update s.packetNumber (s.pkts p).pns (s.packetNumber (s.pkts p).pns + 1) }) :=
      h.of_view rfl
    refine (hready.sent p).of_view ?_
    split
    · rfl
    · exact view_settle p _
  · exact h.of_view rfl

lemma known_step {o : Op} (h : Known x) (hs : Guard Allowed (Does log w) x o y) : Known y := by
  obtain ⟨hallowed, hdoes⟩ := hs
  cases hdoes with
  | write type => exact h.of_view (view_write w type x)
  | append p f fin hp => exact h.of_view rfl
  | recycle p hp he => exact h.of_view (view_insertFree p x)
  | toHead p hp | shift p k hp hk | unbuff p hp | mark p lost tlp => exact h.of_view rfl
  | send q now taken p hp => exact h.sendOne w q now taken p
  | encode q p now hp => exact h.of_view (view_encode w now p x)
  | sent q p hp => exact (h.sent p).of_view (view_settle p _)
  | settle k p hk hp hi => exact h.of_view (view_indirectly p x)
  | lose n p hp hi hf => exact h.of_view (view_lose p w x)
  | probe n p hp hi he => exact h.of_view (view_probe p w x)
  | ackStart info => exact h.ackStart hallowed
  | ack n p la hp hla hle => exact h.of_view (view_takeIn hla hle)
  | drop k p told hk hp =>
    refine h.of_view (Eq.trans ?_ ((view_decrease p _).trans (view_insertFree p x)))
    split <;> rfl
  | challenge sent => exact h.challenge w sent
  | reset => exact h.reset
  | reassemble y p hp hy => exact h.of_view (view_reassemble w hy)
  | destroy | rest rtt lossTime conn asked => exact h.of_view rfl

lemma known_create (conn : Conn) : Known (create conn fun _ => []) :=
  ⟨fun _ => .inl rfl, fun hla => by simp [create, xqcSendCtlCreate] at hla⟩

/-- A frame with the largest number above what the control has sent is refused too late. -/
lemma JudgedRight.sane (h : Known x) {ack : AckInfo} {recvTime clock : UInt64}
    (hj : JudgedRight w x ack recvTime clock) : Sane x ack := by
  obtain ⟨hiff, hkeep⟩ := hj
  by_cases hgt : largestOf ack > x.ctl.largestSent ack.pns
  · -- refused, but the largest number acknowledged is that of the frame
    rw [onAckReceived_eq, if_pos hgt] at hkeep
    have hsame := congrArg (fun s : Ctl => s.largestAcked ack.pns) (hkeep rfl)
    simp only [SendCtl.ackStart, update_self] at hsame
    exfalso
    cases hla : x.ctl.largestAcked ack.pns with
    | none => simp [hla] at hsame
    | some old =>
      have hle := (h.acked hla).1
      rw [hla, Option.some.injEq] at hsame
      rw [← hsame, le_iff_toNat_le, Word.toNat_maxU64] at hle
      rw [gt_iff_lt, lt_iff_toNat_lt] at hgt; omega
  · refine ⟨UInt64.not_lt.mp hgt, fun hnone => ?_⟩
    rw [onAckReceived_eq, if_neg hgt, hnone] at hiff
    simp at hiff

lemma Sane.judgedRight (h : Known x) {ack : AckInfo} (hs : Sane x ack) (recvTime clock : UInt64) :
    JudgedRight w x ack recvTime clock := by
  have hle : ¬ largestOf ack > x.ctl.largestSent ack.pns := UInt64.not_lt.mpr hs.1
  unfold JudgedRight; rw [onAckReceived_eq, if_neg hle]
  refine ⟨⟨fun hr => by simp at hr, fun hall => ?_⟩, fun hr => by simp at hr⟩
  exfalso
  rcases h.top ack.pns with h0 | hmem
  · obtain ⟨num, hnum⟩ := exists_mem_of_ne_nil _ hs.2
    have hlt := hall num hnum
    have hzero := hs.1
    rw [h0, le_iff_toNat_le] at hzero
    rw [lt_iff_toNat_lt] at hlt
    simp at hzero
    omega
  · exact hle (hall _ hmem)

/-- In a run whose ACK frames are `Sane`, the largest number acknowledged is not above all
    numbers sent; and exactly the next frames that are `Sane` are judged right. -/
theorem acks_are_judged_right_iff (conn : Conn) {ops : List Op} {x : State Log}
    (hrun : Run (Guard Allowed (Does log w)) (create conn fun _ => []) ops x) :
    (∀ n la, x.ctl.largestAcked n = some la → ∃ num ∈ x.more n, la ≤ num) ∧
      ∀ ack recvTime clock, JudgedRight w x ack recvTime clock ↔ Sane x ack := by
  have h : Known x := Run.inv (P := Known) (fun _ _ _ hk hs => known_step w hk hs) (known_create conn) hrun
  refine ⟨fun n la hla => ?_, fun ack recvTime clock => ⟨JudgedRight.sane w h, fun hs => hs.judgedRight w h recvTime clock⟩⟩
  obtain ⟨hle, hne⟩ := h.acked hla
  rcases h.top n with h0 | hmem
  · obtain ⟨num, hnum⟩ := exists_mem_of_ne_nil _ hne
    refine ⟨num, hnum, UInt64.le_trans hle ?_⟩
    rw [h0]; exact UInt64.zero_le
  · exact ⟨_, hmem, hle⟩

def ackOf (num : UInt64) : AckInfo := { pns := .appData, ackDelay := 0, ranges := [⟨num, num⟩] }

def firstPacket : List Op := [.write .shortHeader, .append 0 filling false, .send .send 100 true]

theorem an_ack_of_the_first_packet_is_taken_in : ∃ x,
    Run (Guard Allowed (Does log roomy)) (create newServer fun _ => []) (firstPacket ++ [.ackStart (ackOf 0)]) x ∧
      x.ctl.largestAcked .appData = some 0 ∧ JudgedRight roomy x (ackOf 0) 700 700 := by
  have hsent : Run (Guard Allowed (Does log roomy)) (create newServer fun _ => []) firstPacket _ :=
    ((Run.nil.snoc ⟨trivial, .write _ _⟩).snoc ⟨trivial, .append _ _ _ _ (by decide)⟩).snoc
      ⟨trivial, .send _ _ _ _ 0 (by decide)⟩
  have hrun : Run (Guard Allowed (Does log roomy)) (create newServer fun _ => [])
      (firstPacket ++ [.ackStart (ackOf 0)]) _ := hsent.snoc ⟨⟨by decide, by decide⟩, .ackStart _ _⟩
  exact ⟨_, hrun, by decide, ((acks_are_judged_right_iff roomy newServer hrun).2 (ackOf 0) 700 700).mpr ⟨by decide, by decide⟩⟩

/-- Before anything was sent a frame for number 0 is taken in; and a frame for number 5 is
    refused when only number 0 was sent, but 5 is the largest number acknowledged then. -/
theorem a_refused_ack_is_noted : ∃ x,
    ¬ JudgedRight roomy (create newServer fun _ => []) (ackOf 0) 700 700 ∧
      Run (Does log roomy) (create newServer fun _ => []) firstPacket x ∧ x.more .appData = [0] ∧
      (xqcSendCtlOnAckReceived roomy (ackOf 5) 700 700 x.ctl).1 = .error .eproto ∧
      (xqcSendCtlOnAckReceived roomy (ackOf 5) 700 700 x.ctl).2.largestAcked .appData = some 5 := by
  refine ⟨_, fun hj => ?_, ((Run.nil.snoc (.write _ _)).snoc (.append _ _ _ _ (by decide))).snoc (.send _ _ _ _ 0 (by decide)),
    by decide, rfl, by decide⟩
  exact absurd (JudgedRight.sane roomy (known_create newServer) hj).2 (by decide)

end RlccQuic.Transport.InvalidAcks
