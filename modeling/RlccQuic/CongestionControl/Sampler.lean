/-
  RlccQuic.CongestionControl.Sampler — the delivery rate sampler (`xqc_sample.c`).

  A packet that is sent takes a snapshot of what was delivered, and when. An ACK adds the sizes of the packets it
  acknowledges, and is sampled with the snapshot of one of them. Packets are named by their number; those in the unacked
  list are the ones an ACK can still find, any other may have been forgotten (its data may have arrived in a copy).

  Proved: with times that do not run backwards every run keeps the delivered bytes those of the packets that were
  acknowledged while unacked, and the times of a snapshot in order, so that no interval wraps; and the sample of an ACK
  is that of the packet with the most delivered (`delivery_is_accounted`).
-/

import Mathlib.Logic.Function.Basic
import RlccQuic.Lib.Run
import RlccQuic.Lib.Word

namespace RlccQuic.CongestionControl.Sampler

open Lib List Function UInt64

/-! ## The sampler -/

structure Packet where
  usedSize : UInt32
  sentTime : UInt64
  delivered : UInt64
  /-- 0 once the packet was acknowledged. -/
  deliveredTime : UInt64
  firstSentTime : UInt64
  isAppLimited : Bool
  lost : UInt32
  txInFlight : UInt64
  deriving Inhabited, DecidableEq

structure Ctl where
  delivered : UInt64
  priorDelivered : UInt64
  deliveredTime : UInt64
  firstSentTime : UInt64
  appLimited : UInt64
  lostPktsNumber : UInt32
  deriving DecidableEq

structure Sample where
  priorDelivered : UInt64
  priorTime : UInt64
  priorLost : UInt32
  txInFlight : UInt64
  isAppLimited : Bool
  sendElapse : UInt64
  ackElapse : UInt64
  lagestAckTime : UInt64
  poSentTime : UInt64
  interval : UInt64
  acked : UInt32
  delivered : UInt32
  lostPkts : UInt32
  deriving DecidableEq

def xqcInitSampleBeforeAck : Sample :=
  { priorDelivered := 0, priorTime := 0, priorLost := 0, txInFlight := 0, isAppLimited := false, sendElapse := 0,
    ackElapse := 0, lagestAckTime := 0, poSentTime := 0, interval := 0, acked := 0, delivered := 0, lostPkts := 0 }

inductive SampleType where
  | valid
  | ackNothing
  | intervalTooSmall
  deriving DecidableEq, Repr

/-- `xqc_generate_sample`, up to what it copies from the send control and the rate. -/
def xqcGenerateSample (minrtt : UInt64) (c : Ctl) (s : Sample) : SampleType × Sample :=
  if s.priorTime = 0 then (.ackNothing, { s with interval := 0 })
  else
    let s := { s with
      acked := (c.delivered - c.priorDelivered).toUInt32
      interval := Word.maxU64 s.ackElapse s.sendElapse
      delivered := (c.delivered - s.priorDelivered).toUInt32
      lostPkts := c.lostPktsNumber - s.priorLost }
    if s.interval < minrtt then (.intervalTooSmall, { s with interval := 0 }) else (.valid, s)

def Sample.take (now : UInt64) (p : Packet) (s : Sample) : Sample :=
  { s with
    priorLost := p.lost, txInFlight := p.txInFlight, priorDelivered := p.delivered, priorTime := p.deliveredTime,
    isAppLimited := p.isAppLimited, sendElapse := p.sentTime - p.firstSentTime, ackElapse := now - p.deliveredTime,
    lagestAckTime := now }

def xqcUpdateSample (now : UInt64) (p : Packet) (s : Sample) (c : Ctl) : Packet × Sample × Ctl :=
  if p.deliveredTime = 0 then (p, s, c)
  else
    let c := { c with delivered := c.delivered + p.usedSize.toUInt64, deliveredTime := now }
    let newer := s.priorDelivered = 0 ∨ p.delivered > s.priorDelivered
    ({ p with deliveredTime := 0 }, { (if newer then s.take now p else s) with poSentTime := p.sentTime },
      if newer then { c with firstSentTime := p.sentTime } else c)

/-- `xqc_sample_on_sent`; `inflight` is `ctl_bytes_in_flight`. -/
def xqcSampleOnSent (inflight : UInt32) (now : UInt64) (p : Packet) (c : Ctl) : Packet × Ctl :=
  let c := if inflight = 0 then { c with deliveredTime := now, firstSentTime := now } else c
  ({ p with
      deliveredTime := c.deliveredTime, firstSentTime := c.firstSentTime, delivered := c.delivered,
      isAppLimited := decide (c.appLimited > 0), lost := c.lostPktsNumber,
      txInFlight := (inflight + p.usedSize).toUInt64 }, c)

/-! ## Runs -/

structure State where
  ctl : Ctl
  sample : Sample
  pkts : UInt64 → Packet
  unacked : List UInt64
  clock : UInt64
  /-- The packets sent, those named by an ACK frame, and those it found; each once. -/
  sent : List UInt64
  named : List UInt64
  found : List UInt64
  /-- The packets the last ACK found for the first time, with their snapshots. -/
  news : List Packet

def State.init : State where
  ctl := { delivered := 0, priorDelivered := 0, deliveredTime := 0, firstSentTime := 0, appLimited := 0, lostPktsNumber := 0 }
  sample := xqcInitSampleBeforeAck
  pkts := fun _ => default
  unacked := []
  clock := 0
  sent := []
  named := []
  found := []
  news := []

/-- A packet of the unacked list that the ACK frame names. -/
def State.ackOne (now : UInt64) (n : UInt64) (x : State) : State :=
  let x := { x with named := if n ∈ x.named then x.named else n :: x.named }
  if n ∈ x.unacked then
    let (p, s, c) := xqcUpdateSample now (x.pkts n) x.sample x.ctl
    { x with
      ctl := c, sample := s, pkts := update x.pkts n p
      found := if n ∈ x.found then x.found else n :: x.found
      news := if n ∈ x.found then x.news else x.news ++ [x.pkts n] }
  else x

inductive Ev where
  | send (n : UInt64) (size inflight : UInt32) (now : UInt64)
  | ack (ns : List UInt64) (now : UInt64)
  /-- The packet leaves the unacked list. -/
  | forget (n : UInt64)
  | lose (count : UInt32)
  | appLimit (limit : UInt64)

def State.after (x : State) : Ev → State
  | .send n size inflight now =>
    let (p, c) := xqcSampleOnSent inflight now { x.pkts n with usedSize := size, sentTime := now } x.ctl
    { x with ctl := c, pkts := update x.pkts n p, unacked := x.unacked ++ [n], clock := now, sent := n :: x.sent }
  | .ack ns now =>
    ns.foldl (fun x n => x.ackOne now n)
      { x with
        ctl := { x.ctl with priorDelivered := x.ctl.delivered }, sample := xqcInitSampleBeforeAck, clock := now, news := [] }
  | .forget n => { x with unacked := x.unacked.erase n }
  | .lose count => { x with ctl := { x.ctl with lostPktsNumber := x.ctl.lostPktsNumber + count } }
  | .appLimit limit => { x with ctl := { x.ctl with appLimited := limit } }

/-- Times do not run backwards, a number is used once, and what is in flight is unacked. -/
def Orderly (x : State) : Ev → Prop
  | .send n _ inflight now => n ∉ x.sent ∧ x.clock ≤ now ∧ now ≠ 0 ∧ (x.unacked = [] → inflight = 0)
  | .ack ns now => x.clock ≤ now ∧ ∀ n ∈ ns, n ∈ x.sent
  | _ => True

/-! ## Which packet is sampled -/

/-- The sample is that of `p`, and its intervals did not wrap. -/
structure Uses (p : Packet) (s : Sample) : Prop where
  taken : s = { xqcInitSampleBeforeAck.take s.lagestAckTime p with poSentTime := s.poSentTime }
  send : s.sendElapse.toNat + p.firstSentTime.toNat = p.sentTime.toNat
  ack : s.ackElapse.toNat + p.deliveredTime.toNat = s.lagestAckTime.toNat

/-- The sample is that of the packet with the most delivered, the first of these, or the
    last one as long as nothing was delivered. -/
def Sampled (news : List Packet) (s : Sample) : Prop :=
  (news = [] ∧ s = xqcInitSampleBeforeAck) ∨ ∃ l p r, news = l ++ p :: r ∧ Uses p s ∧
    (p.delivered = 0 → r = [] ∧ ∀ q ∈ l, q.delivered = 0) ∧
    (p.delivered ≠ 0 → (∀ q ∈ l, q.delivered < p.delivered) ∧ ∀ q ∈ r, q.delivered ≤ p.delivered)

variable {now : UInt64} {p : Packet} {s : Sample}

lemma uses_take (t : UInt64)
    (hs : s = xqcInitSampleBeforeAck ∨ ∃ q, Uses q s) (hsent : p.firstSentTime ≤ p.sentTime) (hnow : p.deliveredTime ≤ now) :
    Uses p { s.take now p with poSentTime := t } := by
  refine ⟨?_, ?_, ?_⟩
  · rcases hs with rfl | ⟨q, hq⟩
    · rfl
    · rw [hq.taken]; rfl
  · show (p.sentTime - p.firstSentTime).toNat + _ = _
    rw [UInt64.toNat_sub_of_le _ _ hsent]
    exact Nat.sub_add_cancel (le_iff_toNat_le.mp hsent)
  · show (now - p.deliveredTime).toNat + _ = now.toNat
    rw [UInt64.toNat_sub_of_le _ _ hnow]
    exact Nat.sub_add_cancel (le_iff_toNat_le.mp hnow)

lemma Uses.setSent (h : Uses p s) (t : UInt64) : Uses p { s with poSentTime := t } :=
  ⟨by rw [h.taken]; rfl, h.send, h.ack⟩

lemma Sampled.update {news : List Packet} {c : Ctl} (h : Sampled news s)
    (hsent : p.firstSentTime ≤ p.sentTime) (hnow : p.deliveredTime ≤ now) (h0 : p.deliveredTime ≠ 0) :
    Sampled (news ++ [p]) (xqcUpdateSample now p s c).2.1 := by
  have huses : s = xqcInitSampleBeforeAck ∨ ∃ q, Uses q s := by
    rcases h with ⟨-, hs⟩ | ⟨_, q, _, -, hq, -⟩
    · exact .inl hs
    · exact .inr ⟨q, hq⟩
  unfold xqcUpdateSample; rw [if_neg h0]
  by_cases hnew : s.priorDelivered = 0 ∨ p.delivered > s.priorDelivered
  · refine .inr ⟨news, p, [], rfl, ?_, ?_, ?_⟩
    · simp only [hnew]; exact uses_take p.sentTime huses hsent hnow
    · intro hp
      refine ⟨rfl, fun q hq => ?_⟩
      rcases h with ⟨rfl, -⟩ | ⟨l, m, r, rfl, hm, hzero, -⟩
      · cases hq
      · have hprior : s.priorDelivered = m.delivered := by rw [hm.taken]; rfl
        rw [hprior, hp] at hnew
        obtain ⟨rfl, hl⟩ := hzero (hnew.resolve_right UInt64.not_lt_zero)
        rcases mem_append.mp hq with hq | hq
        · exact hl q hq
        · rw [mem_singleton.mp hq]; exact hnew.resolve_right UInt64.not_lt_zero
    · intro hp
      refine ⟨fun q hq => ?_, nofun⟩
      rcases h with ⟨rfl, -⟩ | ⟨l, m, r, rfl, hm, hzero, hmost⟩
      · cases hq
      · have hprior : s.priorDelivered = m.delivered := by rw [hm.taken]; rfl
        rw [hprior] at hnew
        by_cases hm0 : m.delivered = 0
        · obtain ⟨rfl, hl⟩ := hzero hm0
          have hq0 : q.delivered = 0 := by
            rcases mem_append.mp hq with hq | hq
            · exact hl q hq
            · rw [mem_singleton.mp hq]; exact hm0
          rw [hq0]; exact UInt64.pos_iff_ne_zero.mpr hp
        · have hgt := hnew.resolve_left hm0
          obtain ⟨hl, hr⟩ := hmost hm0
          rcases mem_append.mp hq with hq | hq
          · exact UInt64.lt_trans (hl q hq) hgt
          · rcases mem_cons.mp hq with rfl | hq
            · exact hgt
            · exact UInt64.lt_of_le_of_lt (hr q hq) hgt
  · rcases h with ⟨-, rfl⟩ | ⟨l, m, r, rfl, hm, hzero, hmost⟩
    · exact absurd (.inl rfl) hnew
    · have hprior : s.priorDelivered = m.delivered := by rw [hm.taken]; rfl
      have hkeep := hnew
      rw [hprior, not_or] at hkeep
      refine .inr ⟨l, m, r ++ [p], by simp, ?_, fun hm0 => absurd hm0 hkeep.1, fun hm0 => ?_⟩
      · simp only [hnew]; exact hm.setSent p.sentTime
      · obtain ⟨hl, hr⟩ := hmost hm0
        refine ⟨hl, fun q hq => ?_⟩
        rcases mem_append.mp hq with hq | hq
        · exact hr q hq
        · rw [mem_singleton.mp hq]; exact UInt64.not_lt.mp hkeep.2

/-! ## What a run keeps -/

def bytes (pkts : UInt64 → Packet) (ns : List UInt64) : Nat := (ns.map fun n => (pkts n).usedSize.toNat).sum

structure Snapshot (clock : UInt64) (found : Prop) (p : Packet) : Prop where
  sent : p.firstSentTime ≤ p.sentTime
  delivered : p.deliveredTime ≤ clock
  found : p.deliveredTime = 0 ↔ found

structure Sound (x : State) : Prop where
  first : x.ctl.firstSentTime ≤ x.clock
  last : x.ctl.deliveredTime ≤ x.clock
  started : x.unacked ≠ [] → x.ctl.deliveredTime ≠ 0
  snapshot : ∀ n ∈ x.unacked, Snapshot x.clock (n ∈ x.found) (x.pkts n)
  unacked : ∀ n ∈ x.unacked, n ∈ x.sent ∧ (x.pkts n).sentTime ≤ x.clock
  found : ∀ n ∈ x.found, n ∈ x.sent
  delivered : x.ctl.delivered = UInt64.ofNat (bytes x.pkts x.found)
  sample : Sampled x.news x.sample

lemma bytes_update (pkts : UInt64 → Packet) (n : UInt64) (p : Packet) {ns : List UInt64}
    (h : n ∈ ns → p.usedSize = (pkts n).usedSize) : bytes (update pkts n p) ns = bytes pkts ns := by
  refine congrArg List.sum (map_congr_left fun m hm => ?_)
  by_cases hmn : m = n
  · subst hmn; rw [update_self, h hm]
  · rw [update_of_ne hmn]

variable {x : State}

lemma Sound.ackOne (h : Sound x) (n : UInt64) (h0 : x.unacked ≠ [] → x.clock ≠ 0) :
    Sound (x.ackOne x.clock n) ∧ (x.ackOne x.clock n).clock = x.clock ∧ (x.ackOne x.clock n).unacked = x.unacked := by
  unfold State.ackOne
  by_cases hn : n ∈ x.unacked
  · rw [if_pos hn]
    have hsnap := h.snapshot n hn
    by_cases hfound : n ∈ x.found
    · -- acknowledged before: nothing is counted
      have hz := hsnap.found.mpr hfound
      simp only [xqcUpdateSample, hz, if_true, hfound, update_eq_self, and_true]
      exact ⟨h.first, h.last, h.started, h.snapshot, h.unacked, h.found, h.delivered, h.sample⟩
    · have hz : (x.pkts n).deliveredTime ≠ 0 := fun hz => hfound (hsnap.found.mp hz)
      have hsample := h.sample.update (c := x.ctl) hsnap.sent hsnap.delivered hz
      simp only [xqcUpdateSample, hz, if_false, hfound, and_true] at hsample ⊢
      have hother : ∀ m ∈ x.unacked, m ≠ n →
          update x.pkts n { x.pkts n with deliveredTime := 0 } m = x.pkts m := fun m _ hm => update_of_ne hm _ _
      refine ⟨?_, ?_, ?_, ?_, ?_, ?_, ?_, hsample⟩
      · split
        · exact (h.unacked n hn).2
        · exact h.first
      · dsimp only
        split <;> exact UInt64.le_refl _
      · intro hne
        split <;> exact h0 hne
      · intro m hm
        by_cases hmn : m = n
        · subst hmn
          refine ⟨?_, ?_, ?_⟩ <;> simp only [update_self]
          · exact hsnap.sent
          · exact UInt64.zero_le
          · simp
        · obtain ⟨h1, h2, h3⟩ := h.snapshot m hm
          refine ⟨?_, ?_, ?_⟩ <;> simp only [hother m hm hmn]
          · exact h1
          · exact h2
          · rw [h3, mem_cons, or_iff_right hmn]
      · intro m hm
        by_cases hmn : m = n
        · subst hmn; simp only [update_self]; exact h.unacked m hm
        · simp only [hother m hm hmn]; exact h.unacked m hm
      · exact forall_mem_cons.mpr ⟨(h.unacked n hn).1, h.found⟩
      · have hsum : bytes (update x.pkts n { x.pkts n with deliveredTime := 0 }) (n :: x.found) =
            (x.pkts n).usedSize.toNat + bytes x.pkts x.found := by
          rw [bytes_update x.pkts n { x.pkts n with deliveredTime := 0 } fun _ => rfl]
          rfl
        rw [hsum, UInt64.ofNat_add, UInt64.ofNat_uInt32ToNat, ← h.delivered, UInt64.add_comm]
        split <;> rfl
  · rw [if_neg hn]
    exact ⟨⟨h.first, h.last, h.started, h.snapshot, h.unacked, h.found, h.delivered, h.sample⟩, rfl, rfl⟩

lemma Sound.ackAll (h : Sound x) (h0 : x.unacked ≠ [] → x.clock ≠ 0) (ns : List UInt64)
    (hnow : now = x.clock) : Sound (ns.foldl (fun x n => x.ackOne now n) x) := by
  subst hnow
  induction ns generalizing x with
  | nil => exact h
  | cons n ns ih =>
    obtain ⟨hone, hclock, hun⟩ := h.ackOne n h0
    have hrest := ih hone (by rw [hclock, hun]; exact h0)
    rwa [hclock] at hrest

lemma Sound.send (h : Sound x) {n : UInt64} {size inflight : UInt32}
    (ho : Orderly x (.send n size inflight now)) : Sound (x.after (.send n size inflight now)) := by
  obtain ⟨hnew, hclock, hnow, hidle⟩ := ho
  have hother : ∀ m ∈ x.unacked, m ≠ n := fun m hm hmn => hnew (hmn ▸ (h.unacked m hm).1)
  have hle : ∀ {t}, t ≤ x.clock → t ≤ now := fun ht => UInt64.le_trans ht hclock
  -- the control that the snapshot is taken of
  have hctl : ∃ c : Ctl, (xqcSampleOnSent inflight now { x.pkts n with usedSize := size, sentTime := now } x.ctl).2 = c ∧
      c.firstSentTime ≤ now ∧ c.deliveredTime ≤ now ∧ c.deliveredTime ≠ 0 ∧ c.delivered = x.ctl.delivered := by
    refine ⟨_, rfl, ?_⟩
    unfold xqcSampleOnSent; split
    · exact ⟨UInt64.le_refl _, UInt64.le_refl _, hnow, rfl⟩
    · rename_i hbusy
      exact ⟨hle h.first, hle h.last, h.started fun hnone => hbusy (hidle hnone), rfl⟩
  obtain ⟨c, hc, hfirst, hlast, hzero, hsum⟩ := hctl
  have hpacket : ∃ p : Packet, (xqcSampleOnSent inflight now { x.pkts n with usedSize := size, sentTime := now } x.ctl).1 = p ∧
      p.sentTime = now ∧ p.firstSentTime = c.firstSentTime ∧ p.deliveredTime = c.deliveredTime := by
    refine ⟨_, rfl, rfl, ?_, ?_⟩ <;> rw [← hc] <;> rfl
  obtain ⟨p, hp, hsent, hpf, hpd⟩ := hpacket
  have hafter : x.after (.send n size inflight now) = { x with
      ctl := c, pkts := update x.pkts n p, unacked := x.unacked ++ [n], clock := now, sent := n :: x.sent } := by
    rw [← hc, ← hp]; rfl
  rw [hafter]
  refine ⟨hfirst, hlast, fun _ => hzero, ?_, ?_, fun m hm => mem_cons_of_mem n (h.found m hm), ?_, h.sample⟩
  · intro m hm
    dsimp only at hm ⊢
    rcases mem_append.mp hm with hm | hm
    · obtain ⟨h1, h2, h3⟩ := h.snapshot m hm
      rw [update_of_ne (hother m hm)]; exact ⟨h1, hle h2, h3⟩
    · rw [mem_singleton.mp hm, update_self]
      refine ⟨by rw [hpf, hsent]; exact hfirst, by rw [hpd]; exact hlast, ?_⟩
      rw [hpd]; exact ⟨fun hz => absurd hz hzero, fun hf => absurd (h.found n hf) hnew⟩
  · intro m hm
    dsimp only at hm ⊢
    rcases mem_append.mp hm with hm | hm
    · rw [update_of_ne (hother m hm)]
      exact ⟨mem_cons_of_mem n (h.unacked m hm).1, hle (h.unacked m hm).2⟩
    · rw [mem_singleton.mp hm, update_self, hsent]; exact ⟨mem_cons_self, UInt64.le_refl _⟩
  · dsimp only
    rw [hsum, h.delivered, bytes_update x.pkts n p fun hf => absurd (h.found n hf) hnew]

lemma Sound.step {y : State} {e : Ev} (h : Sound x) (hs : Guard Orderly (fun x e y => y = x.after e) x e y) : Sound y := by
  obtain ⟨ho, rfl⟩ := hs
  cases e with
  | send n size inflight now => exact h.send ho
  | ack ns now =>
    have hle : ∀ {t}, t ≤ x.clock → t ≤ now := fun ht => UInt64.le_trans ht ho.1
    refine Sound.ackAll (x := { x with
      ctl := { x.ctl with priorDelivered := x.ctl.delivered }, sample := xqcInitSampleBeforeAck, clock := now, news := [] })
      ⟨hle h.first, hle h.last, h.started, ?_, fun n hn => ⟨(h.unacked n hn).1, hle (h.unacked n hn).2⟩, h.found, h.delivered,
        .inl ⟨rfl, rfl⟩⟩ ?_ ns rfl
    · intro n hn
      obtain ⟨h1, h2, h3⟩ := h.snapshot n hn
      exact ⟨h1, hle h2, h3⟩
    · intro hne hzero
      have hlast := hle h.last
      rw [show now = 0 from hzero] at hlast
      exact h.started hne (UInt64.le_zero_iff.mp hlast)
  | forget n =>
    refine ⟨h.first, h.last, fun hne => h.started fun hnil => hne ?_, fun m hm => h.snapshot m (mem_of_mem_erase hm),
      fun m hm => h.unacked m (mem_of_mem_erase hm), h.found, h.delivered, h.sample⟩
    simp [State.after, hnil]
  | lose count | appLimit limit => exact ⟨h.first, h.last, h.started, h.snapshot, h.unacked, h.found, h.delivered, h.sample⟩

lemma sound_init : Sound State.init := by
  refine ⟨UInt64.le_refl _, UInt64.le_refl _, fun h => absurd rfl h, ?_, ?_, ?_, rfl, .inl ⟨rfl, rfl⟩⟩ <;> intro n hn <;> cases hn

/-- In every run with times that do not run backwards: the delivered bytes are those of
    the packets that were acknowledged while unacked, each once; the snapshots of unacked
    packets are in order; and the sample of the last ACK is that of the packet with the
    most delivered, with intervals that did not wrap. -/
theorem delivery_is_accounted {es : List Ev} {x : State} (hrun : Run (Guard Orderly fun x e y => y = x.after e) State.init es x) :
    x.ctl.delivered = UInt64.ofNat (bytes x.pkts x.found) ∧
      (∀ n ∈ x.unacked, (x.pkts n).firstSentTime ≤ (x.pkts n).sentTime ∧ (x.pkts n).deliveredTime ≤ x.clock) ∧
      Sampled x.news x.sample := by
  have h : Sound x := Run.inv (P := Sound) (fun _ _ _ hx hs => hx.step hs) sound_init hrun
  exact ⟨h.delivered, fun n hn => ⟨(h.snapshot n hn).sent, (h.snapshot n hn).delivered⟩, h.sample⟩

theorem a_second_packet_is_sampled : ∃ x,
    Run (Guard Orderly fun x e y => y = x.after e) State.init
      [.send 0 1200 0 100, .ack [0] 150, .send 1 1000 0 200, .send 2 800 1000 210, .ack [1, 2] 260] x ∧
    x.ctl.delivered = 3000 ∧ x.sample.priorDelivered = 1200 ∧ x.sample.sendElapse = 0 ∧ x.sample.ackElapse = 60 ∧
    Sampled x.news x.sample := by
  have hrun : Run (Guard Orderly fun x e y => y = State.after x e) State.init
      [.send 0 1200 0 100, .ack [0] 150, .send 1 1000 0 200, .send 2 800 1000 210, .ack [1, 2] 260] _ :=
    ((((Run.nil.snoc ⟨⟨by decide, by decide, by decide, by decide⟩, rfl⟩).snoc ⟨⟨by decide, fun _ h => h⟩, rfl⟩).snoc
      ⟨⟨by decide, by decide, by decide, by decide⟩, rfl⟩).snoc ⟨⟨by decide, by decide, by decide, by decide⟩, rfl⟩).snoc
      ⟨⟨by decide, forall_mem_cons.mpr ⟨by decide, forall_mem_singleton.mpr (by decide)⟩⟩, rfl⟩
  exact ⟨_, hrun, by decide, by decide, by decide, by decide, (delivery_is_accounted hrun).2.2⟩

/-- A packet that was forgotten, because a copy of it has arrived, is acknowledged. -/
theorem a_forgotten_packet_is_not_counted : ∃ x,
    Run (Guard Orderly fun x e y => y = x.after e) State.init [.send 0 1200 0 100, .forget 0, .ack [0] 150] x ∧
    x.named = [0] ∧ x.ctl.delivered ≠ UInt64.ofNat (bytes x.pkts x.named) := by
  have hrun : Run (Guard Orderly fun x e y => y = State.after x e) State.init [.send 0 1200 0 100, .forget 0, .ack [0] 150] _ :=
    ((Run.nil.snoc ⟨⟨by decide, by decide, by decide, by decide⟩, rfl⟩).snoc ⟨trivial, rfl⟩).snoc
      ⟨⟨by decide, fun _ h => h⟩, rfl⟩
  exact ⟨_, hrun, by decide, by decide⟩

end RlccQuic.CongestionControl.Sampler
