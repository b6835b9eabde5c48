/-
  RlccQuic.Transport.RttRuns — round-trip samples over whole runs.

  Beside the send control a history is kept: the numbers that were sent, with whether the packet was ack-eliciting, the
  numbers that were acknowledged, and those that gave a sample. It is written along the run and read by nobody. A sample
  is due (RFC 9002, 5.1) if the packet with the frame's largest number is newly acknowledged and some newly acknowledged
  packet was ack-eliciting.

  Proved: a packet of an unacked list has been sent (`turn_known`); in every run in which each frame meets `Plain`, samples
  are taken when they are due, from the packet with the largest number, and no packet gives two (`samples_are_due`). A packet
  with outstanding copies that is acknowledged twice gives two (`acknowledged_again_is_sampled_again`).
-/

import RlccQuic.Transport.RttSamples

namespace RlccQuic.Transport.SendCtl

open Lib List
open FrameParser (AckInfo)

instance (num : UInt64) (rs : List FrameParser.PktnoRange) : Decidable (Within num rs) := by
  unfold Within
  infer_instance

/-! ## The history -/

structure Past where
  /-- The numbers that were sent, and whether the packet was ack-eliciting then. -/
  sent : Pns → UInt64 → Option Bool
  /-- The numbers in the ranges of the frames so far. -/
  acked : Pns → UInt64 → Bool
  /-- The packets that gave a sample. -/
  samples : List (Pns × UInt64)

namespace Past

def empty : Past := ⟨fun _ _ => none, fun _ _ => false, []⟩

def note (po : PacketOut) (past : Past) : Past :=
  { past with
    sent := fun n num =>
      if n = po.pns ∧ num = po.pktNum then some (decide po.frameTypes.isAckEliciting) else past.sent n num }

def noteAll (pkts : Id → PacketOut) (past : Past) (ps : List Id) : Past := ps.foldl (fun past p => past.note (pkts p)) past

/-- The packet is sent if its space has used up a number. -/
def noteOne (s t : Ctl) (p : Id) (past : Past) : Past :=
  if t.packetNumber (t.pkts p).pns ≠ s.packetNumber (t.pkts p).pns then past.note (t.pkts p) else past

/-- The frame is taken in, unless it acknowledges what was not sent. -/
def noteAck (ack : AckInfo) (recvTime : UInt64) (s : Ctl) (past : Past) : Past :=
  if largestOf ack ≤ s.largestSent ack.pns then
    { past with
      acked := fun n num => past.acked n num || (decide (n = ack.pns) && decide (Within num ack.ranges))
      samples := if updatesRtt ack recvTime s then past.samples ++ [(ack.pns, largestOf ack)] else past.samples }
  else past

def Knows (past : Past) (n : Pns) (num : UInt64) : Prop := (past.sent n num).isSome = true

end Past

/-- The history after a call that leads from `s` to `t`. -/
def remember (w : World) (s : Ctl) (c : Call) (t : Ctl) (past : Past) : Past :=
  match c with
  | .one (.send q _ _ _) =>
    match (s.lists q.place).head? with
    | some p => past.noteOne s t p
    | none => past
  | .one (.ack info recvTime _) => past.noteAck info recvTime s
  | .burst q now k sent =>
    let u := (fillBurst w q now ((s.lists q.place).take k) s).2
    past.noteAll u.pkts ((u.lists q.place).take sent)
  | .challenge true =>
    match xqcWriteNewPacket w .shortHeader s with
    | (some d, _) => past.note (t.pkts d)
    | (none, _) => past
  | _ => past

structure Seen where
  ctl : Ctl
  past : Past

def Recorded (w : World) (x : Seen) (c : Call) (y : Seen) : Prop :=
  Turn w x.ctl c y.ctl ∧ y.past = remember w x.ctl c y.ctl x.past

/-! ## What is listed was sent -/

variable {n : Pns} {s t : Ctl} {p : Id} {q : Queue}

section Known

open Past

lemma note_knows {past : Past} {po : PacketOut} {num : UInt64} (h : past.Knows n num) :
    (past.note po).Knows n num := by
  unfold Knows note
  dsimp only; split
  · rfl
  · exact h

lemma note_knows_self (past : Past) (po : PacketOut) : (past.note po).Knows po.pns po.pktNum := by
  simp [Knows, note]

lemma noteAll_knows {pkts : Id → PacketOut} {num : UInt64} (ps : List Id) : ∀ {past : Past},
    past.Knows n num → (past.noteAll pkts ps).Knows n num := by
  induction ps with
  | nil => exact fun h => h
  | cons p ps ih => exact fun h => ih (note_knows h)

lemma noteAll_knows_each {pkts : Id → PacketOut} (ps : List Id) : ∀ {past : Past}, ∀ p ∈ ps,
    (past.noteAll pkts ps).Knows (pkts p).pns (pkts p).pktNum := by
  induction ps with
  | nil => intro past p hp; cases hp
  | cons q ps ih =>
    intro past p hp
    rcases mem_cons.mp hp with rfl | hp
    · exact noteAll_knows ps (note_knows_self past (pkts p))
    · exact ih p hp

lemma noteOne_knows {past : Past} {num : UInt64} (h : past.Knows n num) : (past.noteOne s t p).Knows n num := by
  unfold noteOne; split
  · exact note_knows h
  · exact h

lemma noteAck_sent (ack : AckInfo) (rt : UInt64) (s : Ctl) (past : Past) :
    (past.noteAck ack rt s).sent = past.sent := by
  unfold noteAck
  split <;> rfl

def Known (past : Past) (s : Ctl) : Prop := ∀ n p, p ∈ s.lists (.unacked n) → past.Knows n (s.pkts p).pktNum

lemma Known.recedes {past past' : Past} (h : Known past s) (ht : Recedes s t)
    (hpast : ∀ {n num}, past.Knows n num → past'.Knows n num) : Known past' t := by
  intro n p hp; rw [(ht.same hp).1]
  exact hpast (h n p (ht.mem hp))

lemma Known.join {past : Past} (h : Known past s) (haway : ∀ n, p ∉ s.lists (.unacked n))
    (hp : past.Knows (s.pkts p).pns (s.pkts p).pktNum) : Known past (s.move p (.unacked (s.pkts p).pns)) := by
  intro n q hq; rw [unacked_join haway] at hq
  split at hq
  · rename_i hn
    rcases mem_append.mp hq with hq | hq
    · exact h n q hq
    · rw [mem_singleton.mp hq, hn]; exact hp
  · exact h n q hq

lemma Known.settle {past : Past} (h : Known past s) (haway : ∀ n, p ∉ s.lists (.unacked n))
    (hp : past.Knows (s.pkts p).pns (s.pkts p).pktNum) : Known past (settle p s) := by
  unfold SendCtl.settle
  dsimp only; split
  · exact h.join haway hp
  · exact h.recedes (ebbs_move p (by simp)).toRecedes id

variable {B : Prop} (w : World) {past : Past}

lemma sendOne_known (now : UInt64) {r : Sent} (h : Inv B s) (hk : Known past s)
    (hp : p ∈ s.lists q.place) (hr : r ≠ .short) :
    Known (past.noteOne s (sendOne w q now r p s) p) (sendOne w q now r p s) := by
  have haway := not_unacked_of_mem h.ledger hp q.place_unacked
  have hu := (encPacketWithPn_ebbs w haway).toRecedes.trans (sendPacketWithPn_recedes now r p _)
  cases r with
  | short => exact absurd rfl hr
  | error => exact hk.recedes hu noteOne_knows
  | all =>
    obtain ⟨-, hcount⟩ := sendPacketWithPn_num w (s := s) now p
    unfold sendOne settle
    simp only [reduceCtorEq, if_false]
    generalize xqcSendPacketWithPn now .all p (xqcEncPacketWithPn w p s) = u at hu hcount
    have hused : u.packetNumber (u.pkts p).pns ≠ s.packetNumber (u.pkts p).pns := by
      rw [hcount, Function.update_self]
      intro heq
      have := (UInt64.add_eq_left).mp heq; exact absurd this (by decide)
    have hnoted : Known (past.note (u.pkts p)) u := hk.recedes hu note_knows
    have hown := note_knows_self past (u.pkts p)
    have hjoin := hnoted.join (hu.away haway) hown
    have hone : ∀ k, past.noteOne s (u.move p k) p = past.note (u.pkts p) := fun k => if_pos hused
    split
    · rw [hone]; exact hjoin
    · rw [hone]; split
      · exact hjoin
      · exact hnoted.recedes (ebbs_move p (by simp)).toRecedes id

lemma sendRound_known {cwnd : UInt32} {now : UInt64} {r : Sent} (h : Inv B s)
    (hk : Known past s) (hp : p ∈ s.lists q.place) (hr : r ≠ .short) :
    Known (past.noteOne s (sendRound w q cwnd now r p s) p) (sendRound w q cwnd now r p s) := by
  refine sendRound_rule w (fun t => Known (past.noteOne s t p) t) h hp (fun t ht => hk.recedes ht.toRecedes noteOne_knows) ?_
  intro t hi ht hpt
  have hsent := sendOne_known w now hi (hk.recedes ht.toRecedes id) hpt hr
  unfold Past.noteOne at hsent ⊢
  rwa [ht.numbers] at hsent

lemma sendBurst_known (m : Nat) : ∀ {s : Ctl}, Inv False s → Known past s →
    (∀ p ∈ (s.lists q.place).take m, past.Knows (s.pkts p).pns (s.pkts p).pktNum) →
    Known past (xqcOnPacketsSendBurst q m s) := by
  induction m with
  | zero => exact fun _ hk _ => hk
  | succ m ih =>
    intro s h hk hall; unfold xqcOnPacketsSendBurst
    cases hl : s.lists q.place with
    | nil => exact hk
    | cons p l =>
      have hp : p ∈ s.lists q.place := by
        rw [hl]; exact mem_cons_self
      have hnd := h.ledger.single.nodup q.place
      rw [hl] at hall hnd
      have hebb := onPacketSent_ebbs p s
      have haway := not_unacked_of_mem h.ledger hp q.place_unacked
      obtain ⟨f, l', t, hrec⟩ := onPacketSent_record p s
      have hown : past.Knows ((xqcSendCtlOnPacketSent p s).pkts p).pns ((xqcSendCtlOnPacketSent p s).pkts p).pktNum := by
        rw [hrec]; exact hall p mem_cons_self
      refine ih (sent_settle h hp q.place_ne.1 q.place_ne.2 False.elim)
        ((hk.recedes hebb.toRecedes id).settle (hebb.toRecedes.away haway) hown) ?_
      -- the rest of the queue is as it was
      intro x hx; rw [sentInBurst_lists, hl, erase_cons_head] at hx
      have hne : x ≠ p := by
        rintro rfl
        exact (nodup_cons.mp hnd).1 (mem_of_mem_take hx)
      have hsame : (onPacketSentInBurst p s).pkts x = s.pkts x := onPacketSent_others hne s
      rw [hsame]; exact hall x (mem_cons_of_mem _ hx)

theorem turn_known {c : Call} (h : Inv False s) (hk : Known past s) (ht : Turn w s c t) :
    Known (remember w s c t past) t := by
  cases ht with
  | one e t hw hst =>
    by_cases hq : e.quiet = true
    · have hrec := (step_ebbs w h hst hq).toRecedes
      cases hst with
      | send q cwnd now r p hp => cases hq
      | ack info recvTime clock =>
        refine hk.recedes hrec ?_
        intro n num hn
        simp only [remember, Knows, noteAck_sent]; exact hn
      | _ => exact hk.recedes hrec id
    · cases hst with
      | send q cwnd now r p hp =>
        simp only [remember, hp]
        refine sendRound_known w h hk (mem_of_head hp) ?_
        rintro rfl
        cases hw
      | encode q p now hp | sent q p hp => cases hw
      | _ => exact absurd rfl hq
  | burst q now k sent hlen hs =>
    have hl : s.lists q.place = [] ++ ((s.lists q.place).take k ++ (s.lists q.place).drop k) := by simp
    obtain ⟨hinv, hrec, -, -⟩ := fillBurst_spec w now ((s.lists q.place).take k) h hl
    exact sendBurst_known sent hinv (hk.recedes hrec (noteAll_knows _)) (noteAll_knows_each _)
  | challenge sent =>
    refine hk.recedes (challenge_spec w h sent).2 ?_
    intro n num hn
    cases sent with
    | false => exact hn
    | true =>
      simp only [remember]; split
      · exact note_knows hn
      · exact hn

end Known

/-! ## Samples that are due -/

/-- The number was sent, is in a range of the frame and was in none before. -/
def Newly (past : Past) (ack : AckInfo) (num : UInt64) : Prop :=
  past.Knows ack.pns num ∧ Within num ack.ranges ∧ past.acked ack.pns num = false

def SampleDue (past : Past) (ack : AckInfo) : Prop :=
  Newly past ack (largestOf ack) ∧ ∃ num, Newly past ack num ∧ past.sent ack.pns num = some true

/-- The frame updates the estimator exactly if a sample is due; the sample is the time
    from sending the packet with the largest number. -/
structure SampledRight (w : World) (x : Seen) (ack : AckInfo) (recvTime clock : UInt64) : Prop where
  due : updatesRtt ack recvTime x.ctl = true ↔ SampleDue x.past ack
  latest : updatesRtt ack recvTime x.ctl = true → ∃ p ∈ x.ctl.lists (.unacked ack.pns),
    (x.ctl.pkts p).pktNum = largestOf ack ∧
    (xqcSendCtlOnAckReceived w ack recvTime clock x.ctl).2.rtt.latestRtt = recvTime - (x.ctl.pkts p).sentTime

/-- The frame's ranges are well formed. A largest number that was acknowledged before has left the unacked list, or a
    larger one was acknowledged. If it was sent and not acknowledged yet, it is in the list and no larger one was
    acknowledged, and a newly acknowledged packet of the list was sent ack-eliciting and is so without a
    NEW_CONNECTION_ID frame; or else it is not in the list and no newly acknowledged packet was ack-eliciting. -/
structure Plain (x : Seen) (ack : AckInfo) : Prop where
  ranges : WellFormed ack.ranges
  again : x.past.acked ack.pns (largestOf ack) = true → Listed ack x.ctl → ¬ NotPassed ack x.ctl
  first : x.past.Knows ack.pns (largestOf ack) → x.past.acked ack.pns (largestOf ack) = false →
    (largestOf ack ≤ x.ctl.largestSent ack.pns ∧ Listed ack x.ctl ∧ NotPassed ack x.ctl ∧
      ∃ p ∈ x.ctl.lists (.unacked ack.pns), Newly x.past ack (x.ctl.pkts p).pktNum ∧
        x.past.sent ack.pns (x.ctl.pkts p).pktNum = some true ∧ (leftTypes (x.ctl.pkts p)).isAckEliciting) ∨
    (¬ Listed ack x.ctl ∧ ∀ num, Newly x.past ack num → x.past.sent ack.pns num ≠ some true)

variable {x : Seen}

lemma Plain.sampledRight {w : World} {ack : AckInfo} (h : Plain x ack) (hinv : Inv False x.ctl)
    (hlined : Lined x.ctl) (hasc : Ascending x.ctl ack.pns) (hknown : Known x.past x.ctl) (rt clock : UInt64) :
    SampledRight w x ack rt clock := by
  have hiff := updatesRtt_iff hinv hlined hasc h.ranges rt
  refine ⟨?_, ?_⟩
  · cases hacked : x.past.acked ack.pns (largestOf ack) with
    | true =>
      constructor
      · intro hu
        obtain ⟨-, hl, hnp, -⟩ := hiff.mp hu
        exact absurd hnp (h.again hacked hl)
      · rintro ⟨⟨-, -, hno⟩, -⟩
        rw [hacked] at hno; cases hno
    | false =>
      constructor
      · intro hu
        obtain ⟨-, hl, -⟩ := hiff.mp hu
        -- the packet is in the list, so it was sent
        obtain ⟨p, hp, hnum⟩ := hl
        have hsent := hknown ack.pns p hp
        rw [hnum] at hsent
        rcases h.first hsent hacked with ⟨-, -, -, q, -, hnew, htrue, -⟩ | ⟨hno, -⟩
        · exact ⟨⟨hsent, largest_within h.ranges, hacked⟩, _, hnew, htrue⟩
        · exact absurd ⟨p, hp, hnum⟩ hno
      · rintro ⟨hnew, num, hnum, htrue⟩
        rcases h.first hnew.1 hacked with ⟨hsent, hl, hnp, q, hq, hqnew, -, heli⟩ | ⟨-, hnone⟩
        · exact hiff.mpr ⟨hsent, hl, hnp, q, hq, hqnew.2.1, heli⟩
        · exact absurd htrue (hnone num hnum)
  · intro hu
    obtain ⟨hsent, ⟨p, hp, hnum⟩, hnp, -⟩ := hiff.mp hu
    refine ⟨p, hp, hnum, ?_⟩
    rw [onAckReceived_latest w rt clock hsent]
    exact (ackPass_sampled hinv hlined hasc h.ranges rt).latest p hp hnum hnp

/-! ## Runs -/

/-- No counter of packet numbers wraps, and a frame meets `Plain`. -/
def Regular (x : Seen) (c : Call) (y : Seen) : Prop :=
  (∀ n, x.ctl.packetNumber n ≤ y.ctl.packetNumber n) ∧
    ∀ ack recvTime clock, c = .one (.ack ack recvTime clock) → Plain x ack

structure Once (past : Past) : Prop where
  acked : ∀ n num, (n, num) ∈ past.samples → past.acked n num = true
  once : ∀ n num, past.samples.count (n, num) ≤ 1

lemma Once.noteAck {past : Past} (h : Once past) {ack : AckInfo} {rt : UInt64}
    (hwf : WellFormed ack.ranges)
    (hnew : updatesRtt ack rt s = true → past.acked ack.pns (largestOf ack) = false) : Once (past.noteAck ack rt s) := by
  unfold Past.noteAck; split
  · cases hu : updatesRtt ack rt s with
    | false =>
      refine ⟨?_, h.once⟩
      intro n num hmem
      simp only [h.acked n num hmem, Bool.true_or]
    | true =>
      have hfresh : (ack.pns, largestOf ack) ∉ past.samples := by
        intro hmem
        have := h.acked _ _ hmem
        rw [hnew hu] at this; cases this
      refine ⟨?_, ?_⟩
      · intro n num hmem
        rcases mem_append.mp hmem with hmem | hmem
        · simp only [h.acked n num hmem, Bool.true_or]
        · obtain ⟨rfl, rfl⟩ := Prod.mk.inj (mem_singleton.mp hmem)
          simp [largest_within hwf]
      · intro n num
        simp only [if_true, count_append]
        by_cases heq : (ack.pns, largestOf ack) = (n, num)
        · rw [← heq, count_eq_zero.mpr hfresh]; simp
        · simpa [count_singleton, heq] using h.once n num
  · exact h

lemma remember_other (w : World) (s t : Ctl) (c : Call) (past : Past)
    (hc : ∀ ack rt clock, c ≠ .one (.ack ack rt clock)) :
    (remember w s c t past).acked = past.acked ∧ (remember w s c t past).samples = past.samples := by
  have hall : ∀ (pkts : Id → PacketOut) (ps : List Id) (past : Past),
      (past.noteAll pkts ps).acked = past.acked ∧ (past.noteAll pkts ps).samples = past.samples := by
    intro pkts ps
    induction ps with
    | nil => exact fun _ => ⟨rfl, rfl⟩
    | cons p ps ih => exact fun past => ih (past.note (pkts p))
  unfold remember; split
  · split
    · unfold Past.noteOne
      split <;> exact ⟨rfl, rfl⟩
    · exact ⟨rfl, rfl⟩
  · exact absurd rfl (hc _ _ _)
  · exact hall _ _ _
  · split <;> exact ⟨rfl, rfl⟩
  · exact ⟨rfl, rfl⟩

lemma recorded_once {w : World} {y : Seen} {c : Call} (hinv : Inv False x.ctl) (hlined : Lined x.ctl)
    (hranked : Ranked x.ctl) (hknown : Known x.past x.ctl) (honce : Once x.past) (hrec : Recorded w x c y)
    (hreg : Regular x c y) : Once y.past := by
  rw [hrec.2]
  by_cases hack : ∃ ack rt clock, c = .one (.ack ack rt clock)
  · obtain ⟨ack, rt, clock, rfl⟩ := hack
    have hplain := hreg.2 ack rt clock rfl
    have hright : SampledRight w x ack rt clock := hplain.sampledRight hinv hlined (hranked.ascending _) hknown rt clock
    refine honce.noteAck hplain.ranges ?_
    intro hu; exact (hright.due.mp hu).1.2.2
  · obtain ⟨hacked, hsamples⟩ := remember_other w x.ctl y.ctl c x.past
      fun ack rt clock hc => hack ⟨ack, rt, clock, hc⟩
    refine ⟨?_, ?_⟩
    · rw [hacked, hsamples]; exact honce.acked
    · rw [hsamples]; exact honce.once

/-- In every run of a new connection whose steps are all regular, a frame that meets
    `Plain` updates the estimator exactly if a sample is due, with the time since its
    largest packet was sent; and no packet has given two samples. -/
theorem samples_are_due (w : World) (conn : Conn) (hc : conn.Fresh) (cs : List Call) (x : Seen)
    (h : Run (fun x c y => Recorded w x c y ∧ Regular x c y) ⟨xqcSendCtlCreate conn, .empty⟩ cs x) :
    (∀ ack recvTime clock, Plain x ack → SampledRight w x ack recvTime clock) ∧
      ∀ n num, x.past.samples.count (n, num) ≤ 1 := by
  have hrun : ((Inv False x.ctl ∧ Lined x.ctl) ∧ Ranked x.ctl) ∧ Known x.past x.ctl ∧ Once x.past := by
    refine h.inv (P := fun x => ((Inv False x.ctl ∧ Lined x.ctl) ∧ Ranked x.ctl) ∧ Known x.past x.ctl ∧ Once x.past) ?_ ?_
    · rintro x c y ⟨⟨⟨hinv, hlined⟩, hranked⟩, hknown, honce⟩ ⟨hrec, hreg⟩
      refine ⟨⟨turn_lined w hinv hlined hrec.1, turn_ranked w hinv hranked hrec.1 hreg.1⟩, ?_,
        recorded_once hinv hlined hranked hknown honce hrec hreg⟩
      rw [hrec.2]; exact turn_known w hinv hknown hrec.1
    · refine ⟨⟨⟨create_inv hc, fun n => List.Pairwise.nil⟩, fun n => List.Pairwise.nil,
        fun hp => absurd hp not_mem_nil⟩, fun n p hp => absurd hp not_mem_nil, ?_, ?_⟩
      · intro n num hmem; cases hmem
      · intro n num; exact zero_le
  obtain ⟨⟨⟨hinv, hlined⟩, hranked⟩, hknown, honce⟩ := hrun
  refine ⟨?_, honce.once⟩
  intro ack rt clock hplain
  exact hplain.sampledRight hinv hlined (hranked.ascending _) hknown rt clock

/-! ## Two runs -/

def newSeen : Seen := ⟨xqcSendCtlCreate newServer, .empty⟩

def Seen.after (w : World) (x : Seen) (c : Call) (t : Ctl) : Seen := ⟨t, remember w x.ctl c t x.past⟩

lemma recorded_one {w : World} {e : Ev} (hw : e.whole = true) (h : Step w x.ctl e t) :
    Recorded w x (.one e) (x.after w (.one e) t) :=
  ⟨.one _ _ _ hw h, rfl⟩

def sentFirst : Seen :=
  let x := newSeen.after roomy (.one (.write .shortHeader)) (xqcWriteNewPacket roomy .shortHeader newSeen.ctl).2
  let x := x.after roomy (.one (.append 0 filling)) (x.ctl.modify 0 (PacketOut.addFrame filling))
  x.after roomy (.one (.send .send 0xFFFFFFFF 0 .all)) (sendRound roomy .send 0xFFFFFFFF 0 .all 0 x.ctl)

lemma sentFirst_run : Run (fun x c y => Recorded roomy x c y ∧ Regular x c y) newSeen ((oneMore 0).map .one) sentFirst :=
  ((Run.nil.snoc ⟨recorded_one rfl (.write _ _), fun n => (by cases n <;> decide), fun _ _ _ h => (by cases h)⟩).snoc
    ⟨recorded_one rfl (.append _ _ _ (by decide)), fun n => (by cases n <;> decide), fun _ _ _ h => (by cases h)⟩).snoc
    ⟨recorded_one rfl (.send _ _ _ _ _ 0 (by decide)), fun n => (by cases n <;> decide), fun _ _ _ h => (by cases h)⟩

lemma sentFirst_plain : Plain sentFirst ackOfFirst := by
  refine ⟨⟨by decide, by decide, isChain_singleton _⟩, fun h => absurd h (by decide), fun _ _ => .inl ?_⟩
  refine ⟨by decide, ⟨0, by decide, by decide⟩, ?_, 0, by decide, ⟨rfl, by decide, by decide⟩, by decide, by decide⟩
  intro la hla
  cases show (none : Option UInt64) = some la from hla

theorem first_packet_is_sampled : newServer.Fresh ∧
    Run (fun x c y => Recorded roomy x c y ∧ Regular x c y) newSeen ((oneMore 0).map .one) sentFirst ∧
    Plain sentFirst ackOfFirst ∧ updatesRtt ackOfFirst 700 sentFirst.ctl = true ∧
    (xqcSendCtlOnAckReceived roomy ackOfFirst 700 0 sentFirst.ctl).2.rtt.latestRtt = 700 := by
  have hfresh : newServer.Fresh := by simp [Conn.Fresh, newServer]
  obtain ⟨hright, -⟩ := samples_are_due roomy newServer hfresh _ _ sentFirst_run
  obtain ⟨hdue, hlatest⟩ := hright ackOfFirst 700 0 sentFirst_plain
  have hu := hdue.mpr ⟨⟨rfl, by decide, by decide⟩, 0, ⟨rfl, by decide, by decide⟩, by decide⟩
  obtain ⟨p, hp, -, htime⟩ := hlatest hu
  refine ⟨hfresh, sentFirst_run, sentFirst_plain, hu, ?_⟩
  decide

/-- The list keeps packet 0, acknowledged, for the copies that the timeout has made; a
    second frame with the same number gives a second sample. -/
theorem acknowledged_again_is_sampled_again : newServer.Fresh ∧ ∃ x y,
    Run (Recorded roomy) newSeen
      ((oneMore 0 ++ [Ev.timeout 3 400 .appData none, Ev.ack ackOfFirst 700 700]).map Call.one) x ∧
    Recorded roomy x (.one (.ack ackOfFirst 900 900)) y ∧
    updatesRtt ackOfFirst 900 x.ctl = true ∧ ¬ SampleDue x.past ackOfFirst ∧
    y.past.samples = [(.appData, 0), (.appData, 0)] := by
  have hsent : Run (Recorded roomy) newSeen ((oneMore 0).map .one) sentFirst := by
    simpa using sentFirst_run.map id fun _ _ _ h => h.1
  refine ⟨by simp [Conn.Fresh, newServer], _, _,
    (hsent.snoc (recorded_one rfl (.timeout _ _ _ _ _))).snoc (recorded_one rfl (.ack _ _ _ _)),
    recorded_one rfl (.ack _ _ _ _), ?_, ?_, ?_⟩
  · decide
  · rintro ⟨⟨-, -, hno⟩, -⟩
    exact absurd hno (by decide)
  · decide

end RlccQuic.Transport.SendCtl
