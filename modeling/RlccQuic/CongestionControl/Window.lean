/-
  RlccQuic.CongestionControl.Window — the window and the rate of the controller over a run.

  Three fields of different widths are meant to agree: `cwnd_int` (32 bits), `cwnd` (64 bits, but computed as a 32-bit
  product) and `pacing_rate` (64 bits, handed out as 32). `Exact` says that they do. An action or a reset keeps it
  exactly when the window it asks for, in bytes and in bytes per second, is below 2^32 (`Fits`); acks never break it.

  Proved: the states of a run are all exact exactly when every event fits (`run_exact_iff_fits`); when the smaller of
  two actions leaves the smaller window (`action_monotone_iff`); a run that fits is the run of the same policy over
  unbounded numbers (`run_refines_ideal`).
-/

import RlccQuic.Lib.Run
import RlccQuic.CongestionControl.Controller

namespace RlccQuic.CongestionControl.Window

open Lib Lib.Text Lib.Word Controller UInt64

/-! ## Events -/

inductive Ev where
  | action (v : Int)
  | ack (now : UInt64) (ub : UInt32) (s : Sample)
  /-- An ack seen only through the round-trip time it leaves. -/
  | srtt (t : UInt64)
  | reset
  deriving DecidableEq, Repr

def step (r : Rlcc) : Ev → Rlcc
  | .action v => getResultFromReply (.array (showInt v)) 0 r
  | .ack now ub s => (xqcRlccOnAck now ub s r).1
  | .srtt t => { r with srtt := t }
  | .reset => xqcRlccResetCwnd r

def IsInt : Ev → Prop
  | .action v => v.natAbs < 2 ^ 31
  | _ => True

structure Exact (r : Rlcc) : Prop where
  cwnd : (xqcRlccGetCwnd r).toNat = r.cwndInt.toNat * xqcMss
  floor : rlccMinWindow ≤ (xqcRlccGetCwnd r).toNat
  rate : (xqcRlccGetPacingRate r).toNat = r.pacingRate.toNat
  default : xqcDefaultPacingRate ≤ (xqcRlccGetPacingRate r).toNat
  paced : ∀ p bytes, (xqcPacingTimeUntilSend r p bytes).isSome

/-! ## The rate -/

variable (srtt : UInt64)

lemma srttOrInitial_pos : 0 < (srttOrInitial srtt).toNat := by
  unfold srttOrInitial; split
  · decide
  · rename_i h
    have : srtt.toNat ≠ 0 := fun e => h (UInt64.toNat_inj.mp e)
    omega

lemma toNat_pacingRateOf (cwnd srtt : UInt64) :
    (pacingRateOf cwnd srtt).toNat =
      max (min (cwnd.toNat * msec2sec % 2 ^ 64 / (srttOrInitial srtt).toNat) xqcPacingRateMax) xqcDefaultPacingRate := by
  have hm : (UInt64.ofNat msec2sec).toNat = msec2sec := by decide
  have hd : (UInt64.ofNat xqcDefaultPacingRate).toNat = xqcDefaultPacingRate := by decide
  have hx : (UInt64.ofNat xqcPacingRateMax).toNat = xqcPacingRateMax := by decide
  simp only [pacingRateOf, xqcClamp, toNat_maxU64, toNat_minU64, UInt64.toNat_div, UInt64.toNat_mul, hm, hd, hx]

lemma default_le_pacingRateOf (cwnd srtt : UInt64) : xqcDefaultPacingRate ≤ (pacingRateOf cwnd srtt).toNat := by
  rw [toNat_pacingRateOf]; omega

lemma mul_mod_of_narrow {n : Nat} (h : n < 2 ^ 32) : n * msec2sec % 2 ^ 64 = n * msec2sec :=
  Nat.mod_eq_of_lt (by unfold msec2sec; omega)

/-- For a window of 32 bits the rate fits in 32 bits exactly when the window
    sent once per round-trip time is below 2^32 bytes a second. -/
lemma pacingRateOf_lt_iff {cwnd : UInt64} (hc : cwnd.toNat < 2 ^ 32) :
    (pacingRateOf cwnd srtt).toNat < 2 ^ 32 ↔ cwnd.toNat * msec2sec < 2 ^ 32 * (srttOrInitial srtt).toNat := by
  have hpos := srttOrInitial_pos srtt
  have hmax : 2 ^ 32 ≤ xqcPacingRateMax := by decide
  have hdef : xqcDefaultPacingRate < 2 ^ 32 := by decide
  rw [toNat_pacingRateOf, mul_mod_of_narrow hc, ← Nat.div_lt_iff_lt_mul hpos]; omega

/-! ## The window -/

/-- The window the policy asks for, over unbounded numbers. -/
def target (c : Nat) (v : Int) : Nat :=
  max rlccMinWindowInt (if 0 < v ∨ v.natAbs ≤ c then (c + v).toNat else c)

variable {v : Int}

lemma toNat_addWindow {c : UInt32} (hc : c.toNat < 2 ^ 31) (hv : v.natAbs < 2 ^ 31) :
    (addWindow c v).toNat = if 0 < v ∨ v.natAbs ≤ c.toNat then (c.toNat + v).toNat else c.toNat := by
  have habs : (UInt32.ofInt (if v > 0 then v else -v)).toNat = v.natAbs := by
    rw [toNat_ofInt32]
    split <;> omega
  have hcond : (UInt32.ofInt (if v > 0 then v else -v) ≤ c ∨ v > 0) ↔ (0 < v ∨ v.natAbs ≤ c.toNat) := by
    rw [UInt32.le_iff_toNat_le]; omega
  unfold addWindow
  by_cases h : 0 < v ∨ v.natAbs ≤ c.toNat
  · rw [if_pos (hcond.mpr h), if_pos h, UInt32.toNat_add, toNat_ofInt32]; omega
  · rw [if_neg (fun h' => h (hcond.mp h')), if_neg h]

def flooredWindow (c : UInt32) (v : Int) : UInt32 :=
  if addWindow c v < UInt32.ofNat rlccMinWindowInt then UInt32.ofNat rlccMinWindowInt else addWindow c v

lemma toNat_flooredWindow {c : UInt32} (hc : c.toNat < 2 ^ 31) (hv : v.natAbs < 2 ^ 31) :
    (flooredWindow c v).toNat = target c.toNat v := by
  have h4 : (UInt32.ofNat rlccMinWindowInt).toNat = rlccMinWindowInt := by decide
  unfold flooredWindow target; rw [← toNat_addWindow hc hv]
  split <;> rename_i h <;> rw [UInt32.lt_iff_toNat_lt] at h <;> omega

/-- The bytes of a window, as the 32-bit product computes them. -/
def windowBytes (c : UInt32) : UInt64 := (c * UInt32.ofNat xqcMss).toUInt64

lemma toNat_windowBytes (c : UInt32) : (windowBytes c).toNat = c.toNat * xqcMss % 2 ^ 32 := by
  have hmss : (UInt32.ofNat xqcMss).toNat = xqcMss := by decide
  rw [windowBytes, UInt32.toNat_toUInt64, UInt32.toNat_mul, hmss]

variable (r : Rlcc)

lemma applyCwndValue_eq (v : Int) :
    applyCwndValue r v =
      { r with
        cwndInt := flooredWindow r.cwndInt v
        cwnd := windowBytes (flooredWindow r.cwndInt v)
        pacingRate := pacingRateOf (windowBytes (flooredWindow r.cwndInt v)) r.srtt } := rfl

lemma resetCwnd_eq :
    xqcRlccResetCwnd r =
      { r with
        cwnd := UInt64.ofNat rlccMinWindow
        cwndInt := UInt32.ofNat rlccMinWindowInt
        pacingRate := pacingRateOf (UInt64.ofNat rlccMinWindow) r.srtt } := rfl

lemma step_action (v : Int) : step r (.action v) = applyCwndValue r v := by
  simp only [step, getResultFromReply, scanInt_showInt, Option.getD_some]

/-! ## Acks leave the window and the rate alone -/

lemma sampled_window (now : UInt64) (s : Sample) (r : Rlcc) :
    (sampled now s r).cwnd = r.cwnd ∧ (sampled now s r).cwndInt = r.cwndInt ∧
      (sampled now s r).pacingRate = r.pacingRate := by
  unfold sampled probeMinrtt
  dsimp only
  split <;> split <;> split <;> exact ⟨rfl, rfl, rfl⟩

lemma onAck_window (now : UInt64) (ub : UInt32) (s : Sample) (r : Rlcc) :
    (xqcRlccOnAck now ub s r).1.cwnd = r.cwnd ∧ (xqcRlccOnAck now ub s r).1.cwndInt = r.cwndInt ∧
      (xqcRlccOnAck now ub s r).1.pacingRate = r.pacingRate := by
  unfold xqcRlccOnAck
  dsimp only
  split <;> exact sampled_window now s r

/-! ## Exactness -/

/-- What every event keeps: the window is a 32-bit product and the rate is at least the default. -/
def Narrow (r : Rlcc) : Prop := r.cwnd.toNat < 2 ^ 32 ∧ xqcDefaultPacingRate ≤ r.pacingRate.toNat

lemma exact_iff {r : Rlcc} (hr : Narrow r) :
    Exact r ↔ r.cwnd.toNat = r.cwndInt.toNat * xqcMss ∧ rlccMinWindow ≤ r.cwnd.toNat ∧ r.pacingRate.toNat < 2 ^ 32 := by
  have hrate : (xqcRlccGetPacingRate r).toNat = r.pacingRate.toNat % 2 ^ 32 := toNat_toUInt32 _
  constructor
  · intro h; have := h.rate; exact ⟨h.cwnd, h.floor, by omega⟩
  · rintro ⟨hc, hf, hp⟩
    have hsame : (xqcRlccGetPacingRate r).toNat = r.pacingRate.toNat := by omega
    have hdef : xqcDefaultPacingRate ≤ (xqcRlccGetPacingRate r).toNat := by have := hr.2; omega
    refine ⟨hc, hf, hsame, hdef, fun p bytes => ?_⟩
    have hne : xqcPacingRateCalc r ≠ 0 := by
      intro e
      have h0 : (xqcRlccGetPacingRate r).toNat = 0 := by
        rw [← UInt32.toNat_toUInt64, show (xqcRlccGetPacingRate r).toUInt64 = 0 from e]; rfl
      have : 0 < xqcDefaultPacingRate := by decide
      omega
    unfold xqcPacingTimeUntilSend
    split <;> rfl

lemma Exact.congr {r r' : Rlcc} (h1 : r'.cwnd = r.cwnd) (h2 : r'.cwndInt = r.cwndInt)
    (h3 : r'.pacingRate = r.pacingRate) (hr : Narrow r) : Exact r' ↔ Exact r := by
  have hr' : Narrow r' := by unfold Narrow; rw [h1, h3]; exact hr
  rw [exact_iff hr', exact_iff hr, h1, h2, h3]

lemma step_narrow (e : Ev) (hr : Narrow r) : Narrow (step r e) := by
  cases e with
  | action v =>
    refine ⟨?_, default_le_pacingRateOf _ _⟩
    exact Nat.mod_lt _ (by decide)
  | ack now ub s =>
    obtain ⟨h1, _, h3⟩ := onAck_window now ub s r
    simp only [step, Narrow, h1, h3]; exact hr
  | srtt t => exact hr
  | reset =>
    refine ⟨?_, default_le_pacingRateOf _ _⟩
    show (UInt64.ofNat rlccMinWindow).toNat < 2 ^ 32
    decide

/-! ## When a step keeps it -/

/-- The event asks for a window below 2^32 bytes and a rate below 2^32 bytes a second, judged by the state it meets. -/
def Fits (r : Rlcc) : Ev → Prop
  | .action v =>
    target r.cwndInt.toNat v * xqcMss < 2 ^ 32 ∧
      target r.cwndInt.toNat v * xqcMss * msec2sec < 2 ^ 32 * (srttOrInitial r.srtt).toNat
  | .reset => rlccMinWindow * msec2sec < 2 ^ 32 * (srttOrInitial r.srtt).toNat
  | _ => True

lemma target_ge (c : Nat) (v : Int) : rlccMinWindowInt ≤ target c v := Nat.le_max_left _ _

lemma cwndInt_lt {r : Rlcc} (hr : Narrow r) (hx : Exact r) : r.cwndInt.toNat < 2 ^ 31 := by
  have h1 : r.cwnd.toNat = r.cwndInt.toNat * xqcMss := hx.cwnd
  have h2 := hr.1
  unfold xqcMss xqcQuicMinMss xqcAckSpace at h1
  omega

lemma action_exact_iff {r : Rlcc} (hr : Narrow r) (hx : Exact r) (hv : v.natAbs < 2 ^ 31) :
    Exact (step r (.action v)) ↔ Fits r (.action v) := by
  have hc31 := cwndInt_lt hr hx
  have hw := toNat_flooredWindow hc31 hv
  have hbytes := toNat_windowBytes (flooredWindow r.cwndInt v)
  have hnarrow : (windowBytes (flooredWindow r.cwndInt v)).toNat < 2 ^ 32 := by omega
  have hmin : rlccMinWindow ≤ target r.cwndInt.toNat v * xqcMss := Nat.mul_le_mul_right xqcMss (target_ge _ v)
  rw [exact_iff (step_narrow r (.action v) hr), step_action, applyCwndValue_eq]
  simp only [hw, pacingRateOf_lt_iff r.srtt hnarrow, hbytes, Fits]
  -- below 2^32 the product is what it should be, and then the other parts are the same
  by_cases hlt : target r.cwndInt.toNat v * xqcMss < 2 ^ 32
  · rw [Nat.mod_eq_of_lt hlt]; exact ⟨fun h => ⟨hlt, h.2.2⟩, fun h => ⟨rfl, hmin, h.2⟩⟩
  · exact ⟨fun h => by omega, fun h => absurd h.1 hlt⟩

lemma reset_exact_iff {r : Rlcc} (hr : Narrow r) : Exact (step r .reset) ↔ Fits r .reset := by
  have hcw : (UInt64.ofNat rlccMinWindow).toNat = rlccMinWindow := by decide
  have hci : (UInt32.ofNat rlccMinWindowInt).toNat = rlccMinWindowInt := by decide
  have hnarrow : (UInt64.ofNat rlccMinWindow).toNat < 2 ^ 32 := by decide
  rw [exact_iff (step_narrow r .reset hr), step, resetCwnd_eq]
  simp only [pacingRateOf_lt_iff r.srtt hnarrow, hcw, hci, Fits]
  exact ⟨fun h => h.2.2, fun h => ⟨rfl, Nat.le_refl _, h⟩⟩

lemma step_exact_iff (e : Ev) (hr : Narrow r) (hx : Exact r) (he : IsInt e) : Exact (step r e) ↔ Fits r e := by
  cases e with
  | action v => exact action_exact_iff hr hx he
  | ack now ub s =>
    obtain ⟨h1, h2, h3⟩ := onAck_window now ub s r
    exact ⟨fun _ => trivial, fun _ => (Exact.congr h1 h2 h3 hr).mpr hx⟩
  | srtt t =>
    have hcongr : Exact (step r (.srtt t)) ↔ Exact r := Exact.congr rfl rfl rfl hr
    exact ⟨fun _ => trivial, fun _ => hcongr.mpr hx⟩
  | reset => exact reset_exact_iff hr

/-! ## Runs -/

variable (t0 t1 : UInt64) (params : CcParams)

lemma init_window :
    (xqcRlccInit t0 t1 params).1.cwnd = UInt64.ofNat rlccInitWin ∧
      (xqcRlccInit t0 t1 params).1.cwndInt = UInt32.ofNat rlccInitWinInt ∧
      (xqcRlccInit t0 t1 params).1.pacingRate = pacingRateOf (UInt64.ofNat rlccInitWin) 0 := by
  unfold xqcRlccInit xqcRlccCalcPacingRateByCwnd
  split <;> simp only [and_self]

lemma init_narrow : Narrow (xqcRlccInit t0 t1 params).1 := by
  obtain ⟨h1, _, h3⟩ := init_window t0 t1 params
  rw [Narrow, h1, h3]
  decide

lemma init_exact : Exact (xqcRlccInit t0 t1 params).1 := by
  obtain ⟨h1, h2, h3⟩ := init_window t0 t1 params
  rw [exact_iff (init_narrow t0 t1 params), h1, h2, h3]
  decide

/-- The three fields agree in every state of a run exactly when every action and
    every reset of the run asks for a window and a rate below 2^32. -/
theorem run_exact_iff_fits (t0 t1 : UInt64) (params : CcParams) (es : List Ev) (hes : ∀ e ∈ es, IsInt e) :
    (∀ r ∈ visited step (xqcRlccInit t0 t1 params).1 es, Exact r) ↔
      Meets Fits step (xqcRlccInit t0 t1 params).1 es :=
  visited_forall_iff step_narrow step_exact_iff es _ (init_narrow t0 t1 params) (init_exact t0 t1 params) hes

/-- An action of 3532014 on the first window: the 32-bit product wraps to 640
    bytes, less than a packet. -/
theorem an_action_that_wraps_the_window_is_not_exact :
    IsInt (.action 3532014) ∧
      ¬ ∀ r ∈ visited step (xqcRlccInit 0 0 ⟨true, 1001⟩).1 [.action 3532014], Exact r := by
  refine ⟨by rw [IsInt]; decide, fun h => ?_⟩
  have hx := h (step (xqcRlccInit 0 0 ⟨true, 1001⟩).1 (.action 3532014)) (by simp [visited])
  exact absurd hx.floor (by decide)

/-- A window step and a reset at 50 ms fit, so the whole run is exact. -/
theorem a_step_and_a_reset_at_50_ms_are_exact :
    IsInt (.action 10) ∧
      ∀ r ∈ visited step (xqcRlccInit 0 0 ⟨true, 1001⟩).1 [.srtt 50000, .action 10, .reset], Exact r :=
  ⟨by rw [IsInt]; decide,
    (run_exact_iff_fits 0 0 ⟨true, 1001⟩ [.srtt 50000, .action 10, .reset] (by simp [IsInt])).mpr
      ⟨trivial, by rw [Fits]; decide, by rw [Fits, step_action]; decide, trivial⟩⟩

/-! ## Actions in order -/

/-- A decrease that is larger than the window is ignored, one that is not is made: the
    larger one leaves the larger window. -/
def Dodges (c : Nat) (a b : Int) : Prop := rlccMinWindowInt < c ∧ a < -c ∧ -c ≤ b ∧ b < 0

lemma target_le_iff {c : Nat} {a b : Int} (hab : a ≤ b) : target c a ≤ target c b ↔ ¬ Dodges c a b := by
  unfold target Dodges rlccMinWindowInt
  by_cases ha : 0 < a ∨ a.natAbs ≤ c
  · rw [if_pos ha, if_pos (by omega)]; omega
  · rw [if_neg ha]
    by_cases hb : 0 < b ∨ b.natAbs ≤ c
    · rw [if_pos hb]; omega
    · rw [if_neg hb]; omega

lemma target_lt {c : Nat} (hc : c < 2 ^ 21) (hv : v.natAbs < 2 ^ 20) : target c v < 2 ^ 21 + 2 ^ 20 := by
  unfold target rlccMinWindowInt
  split <;> omega

lemma toNat_action_cwnd {r : Rlcc} (hc : r.cwndInt.toNat < 2 ^ 21) (hv : v.natAbs < 2 ^ 20) :
    (xqcRlccGetCwnd (step r (.action v))).toNat = target r.cwndInt.toNat v * xqcMss := by
  have hlt := target_lt hc hv
  rw [step_action, applyCwndValue_eq]
  show (windowBytes _).toNat = _
  rw [toNat_windowBytes, toNat_flooredWindow (by omega) (by omega)]
  unfold xqcMss xqcQuicMinMss xqcAckSpace
  omega

/-- Of two actions the smaller one leaves the smaller window, unless it is ignored and the
    other is not. -/
theorem action_monotone_iff (r : Rlcc) (hc : r.cwndInt.toNat < 2 ^ 21) (a b : Int) (hab : a ≤ b) (ha : a.natAbs < 2 ^ 20)
    (hb : b.natAbs < 2 ^ 20) :
    xqcRlccGetCwnd (step r (.action a)) ≤ xqcRlccGetCwnd (step r (.action b)) ↔ ¬ Dodges r.cwndInt.toNat a b := by
  have hmss : 0 < xqcMss := by decide
  rw [le_iff_toNat_le, toNat_action_cwnd hc ha, toNat_action_cwnd hc hb, Nat.mul_le_mul_right_iff hmss, target_le_iff hab]

/-- On the first window of 32 packets a decrease by 33 is ignored. -/
theorem a_larger_decrease_leaves_a_larger_window :
    (xqcRlccInit 0 0 ⟨true, 1001⟩).1.cwndInt.toNat < 2 ^ 21 ∧
      ¬ xqcRlccGetCwnd (step (xqcRlccInit 0 0 ⟨true, 1001⟩).1 (.action (-33))) ≤
        xqcRlccGetCwnd (step (xqcRlccInit 0 0 ⟨true, 1001⟩).1 (.action (-1))) := by
  decide

theorem decreases_within_the_window_are_in_order :
    xqcRlccGetCwnd (step (xqcRlccInit 0 0 ⟨true, 1001⟩).1 (.action (-32))) ≤
      xqcRlccGetCwnd (step (xqcRlccInit 0 0 ⟨true, 1001⟩).1 (.action (-1))) :=
  (action_monotone_iff _ (by decide) (-32) (-1) (by decide) (by decide) (by decide)).mpr
    (fun h => absurd h.2.1 (by decide))

/-! ## The policy over unbounded numbers -/

/-- What the controller is for: a window in packets, and the rate that sends it once per round-trip time. -/
structure Ideal where
  window : Nat
  srtt : Nat
  rate : Nat
  deriving DecidableEq, Repr

def idealRate (w srtt : Nat) : Nat :=
  max xqcDefaultPacingRate (w * xqcMss * msec2sec / if srtt = 0 then kInitialRtt * 1000 else srtt)

/-- An ack may leave any round-trip time; actions and resets set window and rate. -/
inductive IdealStep : Ideal → Ev → Ideal → Prop
  | action {i v} :
    IdealStep i (.action v) ⟨target i.window v, i.srtt, idealRate (target i.window v) i.srtt⟩
  | ack {i now ub s t} : IdealStep i (.ack now ub s) { i with srtt := t }
  | srtt {i t} : IdealStep i (.srtt t) { i with srtt := t.toNat }
  | reset {i} : IdealStep i .reset ⟨rlccMinWindowInt, i.srtt, idealRate rlccMinWindowInt i.srtt⟩

def abs (r : Rlcc) : Ideal := ⟨r.cwndInt.toNat, r.srtt.toNat, r.pacingRate.toNat⟩

lemma toNat_srttOrInitial :
    (srttOrInitial srtt).toNat = if srtt.toNat = 0 then kInitialRtt * 1000 else srtt.toNat := by
  unfold srttOrInitial
  by_cases h : srtt = 0
  · rw [if_pos h, if_pos (by rw [h]; rfl)]; decide
  · have h0 : ¬ srtt.toNat = 0 := fun e => h (UInt64.toNat_inj.mp e)
    rw [if_neg h, if_neg h0]

lemma abs_paced {r : Rlcc} (hr : Narrow r) (hx : Exact r) (hp : r.pacingRate = pacingRateOf r.cwnd r.srtt) :
    abs r = ⟨r.cwndInt.toNat, r.srtt.toNat, idealRate r.cwndInt.toNat r.srtt.toNat⟩ := by
  obtain ⟨hcwnd, -, hlt⟩ := (exact_iff hr).mp hx
  have hmax : 2 ^ 32 ≤ xqcPacingRateMax := by decide
  rw [hp, toNat_pacingRateOf, mul_mod_of_narrow hr.1] at hlt
  rw [abs, idealRate, ← toNat_srttOrInitial, ← hcwnd, hp, toNat_pacingRateOf, mul_mod_of_narrow hr.1]
  congr 1; omega

lemma step_refines_ideal {r : Rlcc} {e : Ev} (hr : Narrow r) (hx : Exact r) (he : IsInt e) (hf : Fits r e) :
    IdealStep (abs r) e (abs (step r e)) := by
  have hpaced := abs_paced (step_narrow r e hr) ((step_exact_iff r e hr hx he).mpr hf)
  cases e with
  | action v =>
    rw [step_action, applyCwndValue_eq] at hpaced ⊢
    rw [hpaced rfl, toNat_flooredWindow (cwndInt_lt hr hx) he]; exact .action
  | ack now ub s =>
    obtain ⟨_, h2, h3⟩ := onAck_window now ub s r
    have habs : abs (step r (.ack now ub s)) = { abs r with srtt := (xqcRlccOnAck now ub s r).1.srtt.toNat } := by
      simp only [abs, step, h2, h3]
    rw [habs]; exact .ack
  | srtt t => exact .srtt
  | reset => rw [hpaced rfl]; exact .reset

/-- A run whose events all fit is a run of the policy over unbounded numbers. -/
theorem run_refines_ideal : ∀ (es : List Ev) (r : Rlcc), Narrow r → Exact r → (∀ e ∈ es, IsInt e) →
    Meets Fits step r es → Run IdealStep (abs r) es (abs (es.foldl step r)) := by
  intro es
  induction es with
  | nil => exact fun _ _ _ _ _ => .nil
  | cons e es ih =>
    intro r hr hx hes hm
    have he := hes e List.mem_cons_self
    have hx' := (step_exact_iff r e hr hx he).mpr hm.1
    exact .cons (step_refines_ideal hr hx he hm.1)
      (ih _ (step_narrow r e hr) hx' (fun e' h => hes e' (List.mem_cons_of_mem _ h)) hm.2)

theorem a_step_and_a_reset_refine_the_policy : let r := (xqcRlccInit 0 0 ⟨true, 1001⟩).1
    Run IdealStep (abs r) [.srtt 50000, .action 10, .reset] (abs ([.srtt 50000, .action 10, .reset].foldl step r)) :=
  run_refines_ideal _ _ (init_narrow ..) (init_exact ..) (by simp [IsInt])
    ⟨trivial, by rw [Fits]; decide, by rw [Fits, step_action]; decide, trivial⟩

end RlccQuic.CongestionControl.Window
