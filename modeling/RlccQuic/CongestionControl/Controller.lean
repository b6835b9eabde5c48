/-
  RlccQuic.CongestionControl.Controller — the congestion controller of `rlcc.c`.

  `xqc_rlcc_t` is a record of machine words. Modelled: `xqc_rlcc_init`, the sampling state machine `xqc_rlcc_on_ack`
  with its report (the sampling plan in use, plan 2: one `min_rtt`, then up to 100 ms), `get_result_from_reply` (the
  action plan in use, plan 2: a window step), `xqc_rlcc_reset_cwnd`, `xqc_rlcc_get_cwnd`, `xqc_rlcc_get_pacing_rate`,
  and the pacer's `xqc_pacing_time_until_send`, which divides by that rate.

  Both plans are local constants of the source; the branches of the other plans are never entered and are not modelled.
  The clock is read by the caller of a function and passed in.
-/

import RlccQuic.Lib.Text
import RlccQuic.Lib.Word

namespace RlccQuic.CongestionControl.Controller

open Lib Lib.Text Lib.Word

/-! ## Constants -/

def xqcQuicMinMss : Nat := 1200

def xqcAckSpace : Nat := 16

def xqcMss : Nat := xqcQuicMinMss + xqcAckSpace

def rlccInitWinInt : Nat := 32

def rlccInitWin : Nat := 32 * xqcMss

def rlccMinWindowInt : Nat := 4

def rlccMinWindow : Nat := 4 * xqcMss

/-- `XQC_RLCC_INF`, the round-trip time before the first sample. -/
def rlccInf : UInt64 := 0x7fffffff

def sampleInterval : UInt64 := 100000

def msec2sec : Nat := 1000000

def kInitialRtt : Nat := 250

def xqcDefaultPacingRate : Nat := 2 * xqcMss * 1000000 / (kInitialRtt * 1000)

/-- `(~0) / (uint64_t)MSEC2SEC`: the all-ones int is widened to 64 bits first. -/
def xqcPacingRateMax : Nat := (2 ^ 64 - 1) / msec2sec

/-! ## State -/

structure Rlcc where
  cwnd : UInt64
  pacingRate : UInt64
  timestamp : UInt64
  sampleStart : UInt64
  sampleStop : UInt64
  rtt : UInt64
  srtt : UInt64
  lostInterval : Int
  lost : UInt32
  beforeLost : UInt32
  deliveryRate : UInt32
  inflight : UInt32
  minRtt : UInt64
  minRttTimestamp : UInt64
  rlccPathFlag : UInt32
  cwndInt : UInt32
  beforeTotalSent : UInt64
  sentTimestamp : UInt64
  throughput : UInt32
  deriving DecidableEq, Repr

/-- What `xqc_rlcc_on_ack` reads of `xqc_sample_t`; `ctlBytesSend` is `sampler->send_ctl->ctl_bytes_send`. -/
structure Sample where
  now : UInt64
  rtt : UInt64
  srtt : UInt64
  bytesInflight : UInt32
  lostPkts : UInt32
  isAppLimited : UInt32
  deliveryRate : UInt32
  ctlBytesSend : UInt64
  deriving DecidableEq, Repr

structure CcParams where
  customizeOn : Bool
  rlccPathFlag : UInt32
  deriving DecidableEq, Repr

/-! ## Rate and window -/

def xqcClamp (a lo hi : UInt64) : UInt64 := maxU64 (minU64 a hi) lo

/-- The round-trip time the rate is computed with: 250 ms before the first one. -/
def srttOrInitial (srtt : UInt64) : UInt64 := if srtt = 0 then UInt64.ofNat (kInitialRtt * 1000) else srtt

def pacingRateOf (cwnd srtt : UInt64) : UInt64 :=
  xqcClamp (cwnd * UInt64.ofNat msec2sec / srttOrInitial srtt) (UInt64.ofNat xqcDefaultPacingRate)
    (UInt64.ofNat xqcPacingRateMax)

def xqcRlccCalcPacingRateByCwnd (r : Rlcc) : Rlcc := { r with pacingRate := pacingRateOf r.cwnd r.srtt }

def xqcRlccGetCwnd (r : Rlcc) : UInt64 := r.cwnd

def xqcRlccGetPacingRate (r : Rlcc) : UInt32 := r.pacingRate.toUInt32

def xqcRlccResetCwnd (r : Rlcc) : Rlcc :=
  xqcRlccCalcPacingRateByCwnd { r with cwnd := UInt64.ofNat rlccMinWindow, cwndInt := UInt32.ofNat rlccMinWindowInt }

/-- `xqc_rlcc_init`: the two clock reads are `t0` and `t1`. The result also has
    the message published on the state channel, if the flow has a flag. -/
def xqcRlccInit (t0 t1 : UInt64) (params : CcParams) : Rlcc × Option Text :=
  let r : Rlcc :=
    { cwnd := UInt64.ofNat rlccInitWin, pacingRate := 0, timestamp := t0, sampleStart := 0, sampleStop := 0,
      rtt := rlccInf, srtt := 0, lostInterval := 0, lost := 0, beforeLost := 0, deliveryRate := 0, inflight := 0,
      minRtt := rlccInf, minRttTimestamp := 0, rlccPathFlag := 0, cwndInt := UInt32.ofNat rlccInitWinInt,
      beforeTotalSent := 0, sentTimestamp := t1, throughput := 0 }
  let r := xqcRlccCalcPacingRateByCwnd r
  let r := if params.customizeOn then { r with rlccPathFlag := params.rlccPathFlag } else r
  (r, if r.rlccPathFlag ≠ 0 then some "state:init".toList else none)

/-! ## Actions -/

/-- A reply on the action channel: an array, whose third element is the text, or something else. -/
inductive Reply where
  | array (text : Text)
  | other
  deriving DecidableEq, Repr

/-- The window step of plan 2 for the scanned `cwnd_value`. The sum wraps at 32
    bits, and a decrease larger than the window leaves the window as it is. -/
def addWindow (c : UInt32) (v : Int) : UInt32 :=
  let tmp := if v > 0 then v else -v
  if UInt32.ofInt tmp ≤ c ∨ v > 0 then c + UInt32.ofInt v else c

def applyCwndValue (r : Rlcc) (v : Int) : Rlcc :=
  let c := addWindow r.cwndInt v
  let c := if c < UInt32.ofNat rlccMinWindowInt then UInt32.ofNat rlccMinWindowInt else c
  xqcRlccCalcPacingRateByCwnd { r with cwndInt := c, cwnd := (c * UInt32.ofNat xqcMss).toUInt64 }

/-- `get_result_from_reply`. A text with no number leaves `cwnd_value` uninitialised; `ub` is what it then holds. -/
def getResultFromReply (reply : Reply) (ub : Int) (r : Rlcc) : Rlcc :=
  match reply with
  | .array text => applyCwndValue r ((scanInt text).getD ub)
  | .other => r

/-! ## Acks -/

def probeMinrtt (r : Rlcc) (s : Sample) : Rlcc :=
  if r.minRtt = 0 ∨ s.rtt < r.minRtt then { r with minRtt := s.rtt, minRttTimestamp := s.now } else r

/-- Before the sampling window: every ack restarts the samples and the counts. -/
def beforeSample (now : UInt64) (s : Sample) (r : Rlcc) : Rlcc :=
  { r with
    rtt := s.rtt, srtt := s.rtt, inflight := s.bytesInflight, lost := s.lostPkts, deliveryRate := s.deliveryRate,
    beforeTotalSent := s.ctlBytesSend, sentTimestamp := now, beforeLost := s.lostPkts }

/-- `x -= x >> 2; x += y >> 2`, at 64 and at 32 bits. -/
def smooth64 (x y : UInt64) : UInt64 := x - (x >>> 2) + (y >>> 2)

def smooth32 (x y : UInt32) : UInt32 := x - (x >>> 2) + (y >>> 2)

/-- Inside the sampling window: every ack moves the samples by a quarter. -/
def smoothSample (s : Sample) (r : Rlcc) : Rlcc :=
  { r with
    rtt := smooth64 r.rtt s.rtt, srtt := smooth64 r.srtt s.srtt, inflight := smooth32 r.inflight s.bytesInflight,
    lost := smooth32 r.lost s.lostPkts, deliveryRate := smooth32 r.deliveryRate s.deliveryRate }

def sentInterval (s : Sample) (r : Rlcc) : UInt32 := (s.ctlBytesSend - r.beforeTotalSent).toUInt32

/-- The end of a sampling window: the next one is set up and the counts of this one are taken. `1e6 * sent_interval` is
    below 2^52, so the double quotient has the whole part of the exact one. -/
def stopSample (now : UInt64) (ub : UInt32) (s : Sample) (r : Rlcc) : Rlcc :=
  let start := now + r.minRtt
  { r with
    timestamp := now, sampleStart := start, sampleStop := start + minU64 r.minRtt sampleInterval,
    throughput := quotToU32 (1000000 * (sentInterval s r).toNat) (now - r.sentTimestamp).toNat ub,
    lostInterval := max (asInt32 (s.lostPkts - r.beforeLost)) 0 }

/-- The twelve values handed to `sprintf`, as its format prints them: `%d` for 32-bit words, `%ld` for times. -/
def stateFields (sent : UInt32) (s : Sample) (r : Rlcc) : List Int :=
  [asInt32 (r.cwnd >>> 10).toUInt32, asInt32 (r.pacingRate >>> 10).toUInt32, asInt64 r.rtt, asInt64 r.minRtt,
    asInt64 r.srtt, asInt32 r.inflight, r.lostInterval, asInt32 r.lost, asInt32 s.isAppLimited,
    asInt32 r.deliveryRate, asInt32 r.throughput, asInt32 sent]

/-- The state of the controller when `xqc_rlcc_on_ack` comes to its report check. -/
def sampled (now : UInt64) (s : Sample) (r : Rlcc) : Rlcc :=
  let r := probeMinrtt r s
  let r := if r.sampleStart > now then beforeSample now s r else r
  if r.sampleStart ≤ now then smoothSample s r else r

/-- `xqc_rlcc_on_ack` at clock `now`: the new state and the state message it
    publishes, if the window has ended and the flow has a flag. -/
def xqcRlccOnAck (now : UInt64) (ub : UInt32) (s : Sample) (r : Rlcc) : Rlcc × Option Text :=
  let r := sampled now s r
  if r.sampleStop ≤ now then
    let sent := sentInterval s r
    let r := stopSample now ub s r
    (r, if r.rlccPathFlag ≠ 0 then some (record ';' (stateFields sent s r)) else none)
  else (r, none)

/-! ## Pacing -/

/-- What `xqc_pacing_time_until_send` reads and writes of `xqc_pacing_t`. -/
structure Pacing where
  bytesBudget : UInt32
  pendingBudget : UInt32
  deriving DecidableEq, Repr

def pacingDelayUs : UInt64 := 1000

/-- `xqc_pacing_rate_calc` for a controller that has `on_ack_multiple_pkts`, as this one does. -/
def xqcPacingRateCalc (r : Rlcc) : UInt64 := (xqcRlccGetPacingRate r).toUInt64

def xqcPacingTimeUntilSend (r : Rlcc) (p : Pacing) (bytes : UInt32) : Option (UInt64 × Pacing) :=
  if p.bytesBudget ≥ bytes then some (0, p)
  else if xqcPacingRateCalc r = 0 then none
  else
    let delay := (bytes - p.bytesBudget).toUInt64 * 1000000 / xqcPacingRateCalc r
    some (maxU64 delay pacingDelayUs, { p with pendingBudget := bytes - p.bytesBudget })

end RlccQuic.CongestionControl.Controller
