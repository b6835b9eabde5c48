/-
  RlccQuic.Transport.PacingTimer — the pacing timer (`xqc_pacing.c`, and the timer's part of `xqc_send_ctl.h`).

  A test that fails notes the bytes that are missing and sets the timer; when it expires these are added to the budget.
  A timer that is not set has the expiry time 0, so `xqc_send_pacing_timer_update`, which passes over a time less than a
  millisecond after the old one, takes every time that is not so early after the clock began. The time of expiry is a
  word of the clock, and the pacing rate may be another one in each call.

  Proved: a packet that is refused is let through after the timer (`pacing_does_not_stall`).
-/

import RlccQuic.Transport.Pacing
import RlccQuic.Lib.Run

namespace RlccQuic.Transport.Pacing

open Lib Word

def xqcPacingInit (pacingOn : Bool) : Pacing := ⟨pacingOn, xqcMaxBurstNum.toUInt32, 0, 0, false, 0⟩

def xqcPacingOnTimeout (rate now : UInt64) (p : Pacing) : Pacing :=
  { p with
    bytesBudget :=
      if xqcPacingCalcBudget rate now p > p.bytesBudget + p.pendingBudget then xqcPacingCalcBudget rate now p
      else p.bytesBudget + p.pendingBudget
    pendingBudget := 0
    lastSentTime := now }

def xqcPacingOnAppLimit (now : UInt64) (p : Pacing) : Pacing :=
  { p with bytesBudget := xqcMaxBurstNum.toUInt32, lastSentTime := now }

def xqcSendCtlTimerExpire (rate now clock : UInt64) (p : Pacing) : Pacing :=
  if p.timerIsSet ∧ p.expireTime ≤ now then
    let p := xqcPacingOnTimeout rate clock p
    if p.expireTime ≤ now then { p with timerIsSet := false, expireTime := 0 } else p
  else p

inductive Ev where
  | canWrite (rate now : UInt64) (bytes : UInt32)
  | sent (rate now : UInt64) (bytes : UInt32)
  | appLimit (now : UInt64)
  | expire (rate now clock : UInt64)

def after (p : Pacing) : Ev → Pacing
  | .canWrite rate now bytes => (xqcPacingCanWrite rate now bytes p).2
  | .sent rate now bytes => xqcPacingOnPacketSent rate now bytes p
  | .appLimit now => xqcPacingOnAppLimit now p
  | .expire rate now clock => xqcSendCtlTimerExpire rate now clock p

def step (p : Pacing) (ev : Ev) (p' : Pacing) : Prop := p' = p.after ev

def Cleared (p : Pacing) : Prop := p.timerIsSet = false → p.expireTime = 0

lemma canWrite_set {rate now : UInt64} {bytes : UInt32} {p : Pacing} (h : p.timerIsSet = true) :
    xqcPacingCanWrite rate now bytes p = (false, p) := if_pos h

lemma step_cleared {p p' : Pacing} {ev : Ev} (h : Cleared p) (hs : step p ev p') : Cleared p' := by
  subst hs
  cases ev with
  | canWrite rate now bytes =>
    have hkept : Cleared (xqcPacingTimeUntilSend rate bytes p).2 := by
      unfold xqcPacingTimeUntilSend
      split <;> exact h
    show Cleared (xqcPacingCanWrite rate now bytes p).2
    unfold xqcPacingCanWrite; split
    · exact h
    · dsimp only; split
      · unfold xqcSendPacingTimerUpdate; split
        · exact hkept
        · exact fun hoff => by cases hoff
      · exact hkept
  | sent rate now bytes | appLimit now => exact h
  | expire rate now clock =>
    show Cleared (xqcSendCtlTimerExpire rate now clock p)
    unfold xqcSendCtlTimerExpire; split
    · dsimp only; split
      · exact fun _ => rfl
      · exact h
    · exact h

section Refused

variable {rate now : UInt64} {n : UInt32} {p : Pacing}

lemma toNat_delay (rate : UInt64) (hshort : p.bytesBudget < n) :
    (maxU64 ((n - p.bytesBudget).toUInt64 * 1000000 / rate) xqcPacingDelayUs).toNat =
      max 1000 ((n.toNat - p.bytesBudget.toNat) * 1000000 / rate.toNat) := by
  have hsub := UInt32.toNat_sub_of_le n p.bytesBudget (UInt32.le_of_lt hshort)
  have hlt := n.toNat_lt
  rw [toNat_maxU64, UInt64.toNat_div, UInt64.toNat_mul, UInt32.toNat_toUInt64, hsub, Nat.max_comm]
  have hfits : (n.toNat - p.bytesBudget.toNat) * 1000000 < 2 ^ 64 := by omega
  show max 1000 ((n.toNat - p.bytesBudget.toNat) * 1000000 % 2 ^ 64 / rate.toNat) = _
  rw [Nat.mod_eq_of_lt hfits]

lemma refused_sets_timer (hidle : p.timerIsSet = false) (hclear : p.expireTime = 0)
    (hclock : now.toNat + max 1000 ((n.toNat - p.bytesBudget.toNat) * 1000000 / rate.toNat) < 2 ^ 64)
    (hrefused : (xqcPacingCanWrite rate now n p).1 = false) :
    p.bytesBudget < n ∧ ∃ expire : UInt64,
      expire.toNat = now.toNat + max 1000 ((n.toNat - p.bytesBudget.toNat) * 1000000 / rate.toNat) ∧
      (xqcPacingCanWrite rate now n p).2 =
        { p with pendingBudget := n - p.bytesBudget, timerIsSet := true, expireTime := expire } := by
  have hshort : p.bytesBudget < n := by
    rw [← UInt32.not_le]
    intro hle; rw [(canWrite_iff rate now n p).mpr ⟨hidle, hle⟩] at hrefused
    cases hrefused
  have hdelay := toNat_delay rate hshort
  generalize hd : maxU64 ((n - p.bytesBudget).toUInt64 * 1000000 / rate) xqcPacingDelayUs = delay at hdelay
  have hexpire : (now + delay).toNat = now.toNat + delay.toNat := by
    rw [UInt64.toNat_add, Nat.mod_eq_of_lt (by omega)]
  refine ⟨hshort, now + delay, by rw [hexpire, hdelay], ?_⟩
  have hlate : ¬ now + delay - 0 < 1000 := by
    rw [UInt64.sub_zero, UInt64.lt_iff_toNat_lt, hexpire]
    show ¬ _ < 1000
    omega
  have hne : delay ≠ 0 := by
    rintro rfl
    rw [show (0 : UInt64).toNat = 0 from rfl] at hdelay; omega
  unfold xqcPacingCanWrite xqcPacingTimeUntilSend xqcSendPacingTimerUpdate
  rw [if_neg (by rw [hidle]; exact Bool.false_ne_true), if_neg (UInt32.not_le.mpr hshort), hd]
  dsimp only; rw [if_pos hne, hclear, if_neg hlate]

end Refused

def Waits (p : Pacing) : Ev → Prop
  | .canWrite _ _ _ => True
  | .expire _ now _ => now < p.expireTime
  | .sent _ _ _ | .appLimit _ => False

lemma waiting_changes_nothing {p p' : Pacing} {ev : Ev} (h : p.timerIsSet = true) (hs : Guard Waits step p ev p') : p' = p := by
  obtain ⟨hw, rfl⟩ := hs
  cases ev with
  | canWrite rate now bytes => exact congrArg Prod.snd (canWrite_set h)
  | expire rate now clock => exact if_neg fun hdue => UInt64.not_le.mpr hw hdue.2
  | sent rate now bytes | appLimit now => exact hw.elim

/-- In every state of a run, a packet of any size that is refused while no timer is set: the
    timer is set for as long as the missing bytes take, at least a millisecond, and once it
    has expired with nothing sent meanwhile the packet is let through. -/
theorem pacing_does_not_stall (pacingOn : Bool) (evs : List Ev) (p : Pacing) (h : Run step (xqcPacingInit pacingOn) evs p)
    (hidle : p.timerIsSet = false) (rate now : UInt64) (n : UInt32)
    (hclock : now.toNat + max 1000 ((n.toNat - p.bytesBudget.toNat) * 1000000 / rate.toNat) < 2 ^ 64)
    (hrefused : (xqcPacingCanWrite rate now n p).1 = false) :
    (p.after (.canWrite rate now n)).timerIsSet = true ∧
      (p.after (.canWrite rate now n)).expireTime.toNat =
        now.toNat + max 1000 ((n.toNat - p.bytesBudget.toNat) * 1000000 / rate.toNat) ∧
      ∀ es q, Run (Guard Waits step) (p.after (.canWrite rate now n)) es q →
        ∀ rate' now' clock, q.expireTime ≤ now' → (q.after (.expire rate' now' clock)).timerIsSet = false ∧
          ∀ rate'' now'', (xqcPacingCanWrite rate'' now'' n (q.after (.expire rate' now' clock))).1 = true := by
  have hclear : Cleared p := h.inv (P := Cleared) (fun _ _ _ hc hs => step_cleared hc hs) fun _ => rfl
  obtain ⟨hshort, expire, htime, hset⟩ := refused_sets_timer hidle (hclear hidle) hclock hrefused
  have hafter : p.after (.canWrite rate now n) = _ := hset
  refine ⟨by rw [hafter], by rw [hafter]; exact htime, fun es q hwait rate' now' clock hdue => ?_⟩
  have hq : q = p.after (.canWrite rate now n) := hwait.inv (P := (· = p.after (.canWrite rate now n)))
    (fun _ _ _ he hs => by subst he; exact waiting_changes_nothing (by rw [hafter]) hs) rfl
  have hexpired : q.after (.expire rate' now' clock) =
      { xqcPacingOnTimeout rate' clock q with timerIsSet := false, expireTime := 0 } := by
    show xqcSendCtlTimerExpire rate' now' clock q = _
    unfold xqcSendCtlTimerExpire
    rw [if_pos ⟨by rw [hq, hafter], hdue⟩]
    exact if_pos hdue
  rw [hexpired]
  refine ⟨rfl, fun rate'' now'' => (canWrite_iff ..).mpr ⟨rfl, ?_⟩⟩
  -- the budget and what was missing are the packet's bytes
  have hsum : q.bytesBudget + q.pendingBudget = n := by
    rw [hq, hafter]
    show p.bytesBudget + (n - p.bytesBudget) = n
    rw [UInt32.add_comm, UInt32.sub_add_cancel]
  show n ≤ if _ > q.bytesBudget + q.pendingBudget then _ else q.bytesBudget + q.pendingBudget
  rw [hsum]; split
  · rename_i hmore; exact UInt32.le_of_lt hmore
  · exact UInt32.le_refl n

/-- 7840 bytes are missing, at a megabyte a second. -/
theorem a_large_packet_waits_for_the_timer :
    (xqcPacingCanWrite 1000000 5 20000 (xqcPacingInit true)).1 = false ∧
      ((xqcPacingInit true).after (.canWrite 1000000 5 20000)).expireTime.toNat = 7845 ∧
      (xqcPacingCanWrite 1000000 7845 20000
        (((xqcPacingInit true).after (.canWrite 1000000 5 20000)).after (.expire 1000000 7845 7845))).1 = true := by
  obtain ⟨-, htime, hthrough⟩ := pacing_does_not_stall true [] _ .nil rfl 1000000 5 20000 (by decide) (by decide)
  exact ⟨by decide, htime.trans (by decide), (hthrough [] _ .nil 1000000 7845 7845 (by decide)).2 1000000 7845⟩

end RlccQuic.Transport.Pacing
