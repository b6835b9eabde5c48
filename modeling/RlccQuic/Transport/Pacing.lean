/-
  RlccQuic.Transport.Pacing — the budget of bytes that may be sent at once (`xqc_pacing.c`).

  The budget grows with the time since the last packet, up to a bound, and is charged for each packet. The test compares
  with the budget as it was left by the last packet; what has accrued since is added only when the next packet is
  charged. The pacing rate comes from the congestion controller and is a parameter.

  Proved: the test compares with the budget as it is left (`canWrite_iff`).
-/

import RlccQuic.Lib.Word

namespace RlccQuic.Transport

structure Pacing where
  pacingOn : Bool
  bytesBudget : UInt32
  lastSentTime : UInt64
  pendingBudget : UInt32
  timerIsSet : Bool
  expireTime : UInt64
  deriving DecidableEq, Repr

namespace Pacing

open Lib UInt32 Word

def xqcMss : UInt64 := 1216

def xqcMaxBurstNum : UInt64 := 10 * xqcMss

/-- `XQC_PACING_DELAY_US` and `XQC_CLOCK_GRANULARITY_US`. -/
def xqcPacingDelayUs : UInt64 := 1000

def xqcPacingMaxBurstSize (rate : UInt64) : UInt32 :=
  (maxU64 xqcMaxBurstNum ((xqcPacingDelayUs + xqcPacingDelayUs) * rate / 1000000)).toUInt32

def xqcPacingCalcBudget (rate now : UInt64) (p : Pacing) : UInt32 :=
  let most := xqcPacingMaxBurstSize rate
  let budget :=
    if p.lastSentTime = 0 then most
    else p.bytesBudget + ((now - p.lastSentTime) * rate / 1000000).toUInt32
  if budget < most then budget else most

def xqcPacingOnPacketSent (rate now : UInt64) (bytes : UInt32) (p : Pacing) : Pacing :=
  let budget := xqcPacingCalcBudget rate now p
  { p with bytesBudget := if bytes > budget then 0 else budget - bytes, lastSentTime := now }

def xqcSendPacingTimerUpdate (expire : UInt64) (p : Pacing) : Pacing :=
  if expire - p.expireTime < 1000 then p else { p with timerIsSet := true, expireTime := expire }

def xqcPacingTimeUntilSend (rate : UInt64) (bytes : UInt32) (p : Pacing) : UInt64 × Pacing :=
  if p.bytesBudget ≥ bytes then (0, p)
  else
    (maxU64 ((bytes - p.bytesBudget).toUInt64 * 1000000 / rate) xqcPacingDelayUs,
      { p with pendingBudget := bytes - p.bytesBudget })

def xqcPacingCanWrite (rate now : UInt64) (totalBytes : UInt32) (p : Pacing) : Bool × Pacing :=
  if p.timerIsSet then (false, p)
  else
    let (delay, p) := xqcPacingTimeUntilSend rate totalBytes p
    if delay ≠ 0 then (false, xqcSendPacingTimerUpdate (now + delay) p) else (true, p)

/-! ## The test -/

lemma untilSend_delay (rate : UInt64) (bytes : UInt32) (p : Pacing) :
    (xqcPacingTimeUntilSend rate bytes p).1 = 0 ↔ bytes ≤ p.bytesBudget := by
  unfold xqcPacingTimeUntilSend; split
  · rename_i h; exact ⟨fun _ => h, fun _ => rfl⟩
  · rename_i h
    refine ⟨fun hzero => ?_, fun hle => absurd hle h⟩
    -- a delay is never shorter than the granularity of the clock
    have hnat := congrArg UInt64.toNat hzero
    rw [toNat_maxU64] at hnat
    have hgran : xqcPacingDelayUs.toNat = 1000 := rfl
    have hnull : (0 : UInt64).toNat = 0 := rfl
    omega

theorem canWrite_iff (rate now : UInt64) (bytes : UInt32) (p : Pacing) :
    (xqcPacingCanWrite rate now bytes p).1 = true ↔ p.timerIsSet = false ∧ bytes ≤ p.bytesBudget := by
  unfold xqcPacingCanWrite; rw [← untilSend_delay rate]
  split
  · rename_i h; simp [h]
  · rename_i h
    dsimp only; split
    · rename_i hdelay; simp [hdelay]
    · rename_i hdelay; simpa [h] using hdelay

end Pacing

end RlccQuic.Transport
