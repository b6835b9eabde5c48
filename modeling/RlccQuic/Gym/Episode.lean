/-
  RlccQuic.Gym.Episode — `RlccEnv`: `reset` and `step` over the messages that come in.

  Messages arrive in one order on the two subscribed channels. `_get_obs` reads until a state or the end of a flow; a
  call that finds neither waits. `reset` starts a flow and calls itself again while it meets ends of flows; `step` sends
  an action and reads the next state. The last state seen by `step` is kept in `last_state`, which is `None` until
  `step` has returned a state once; `reset` never sets it.

  Proved: what `_get_obs` returns is the first state or end (`getObs_of_next`); after a `reset` that returned, a call of
  `step` is safe exactly when `last_state` has been set or the call needs no `last_state` (`step_safe_iff`). A flow that
  ends before the first state breaks it (`a_flow_that_ends_at_once_raises`).
-/

import RlccQuic.Gym.Observation
import RlccQuic.Lib.Run

namespace RlccQuic.Gym.Episode

open Lib Lib.Text Observation List

/-! ## Messages -/

inductive Msg where
  | subscribe
  | message (data : Text)
  deriving DecidableEq, Repr

abbrev Field := { t : Text // ';' ∉ t }

def fieldsText (fs : List Text) : Text := [';'].intercalate fs

/-- The texts of `rlccenv.py` on the `mininet` channel. -/
def doneText (flag time : Field) : Text :=
  fieldsText ["rlcc_flag:".toList ++ flag.1, "state:done".toList, "time:".toList ++ time.1 ++ " sec".toList]

def linkText (flag rate delay loss : Field) : Text :=
  fieldsText ["rlcc_flag:".toList ++ flag.1, "bandwidth:".toList ++ rate.1, "rtt:".toList ++ delay.1,
    "loss:".toList ++ loss.1]

def stoppedText (flag : Field) : Text :=
  fieldsText ["rlcc_flag:".toList ++ flag.1, "state:stop_by_mininet".toList]

inductive Emitted : Msg → Prop
  | subscribe : Emitted .subscribe
  | init : Emitted (.message "state:init".toList)
  | state (vs : List Int) (h : vs.length = scale.length) : Emitted (.message (record ';' vs))
  | done (flag time : Field) : Emitted (.message (doneText flag time))
  | link (flag rate delay loss : Field) : Emitted (.message (linkText flag rate delay loss))
  | stopped (flag : Field) : Emitted (.message (stoppedText flag))

lemma decode_fieldsText {fs : List Text} (h : ∀ f ∈ fs, ';' ∉ f) (hne : fs ≠ []) (hlen : fs.length ≤ 5) :
    decode (fieldsText fs) = if fs.length = 3 then .done else .skip := by
  have hs : (fieldsText fs).splitOn ';' = fs := splitOn_intercalate ';' h hne
  unfold decode; rw [hs]
  simp only
  rw [if_neg (by omega)]

lemma sep_append {a b : Text} (ha : ';' ∉ a) (hb : ';' ∉ b) : ';' ∉ a ++ b := by
  simp only [mem_append, not_or]; exact ⟨ha, hb⟩

lemma decode_doneText (flag time : Field) : decode (doneText flag time) = .done := by
  refine decode_fieldsText (fun f hf => ?_) (by simp) (by simp)
  simp only [mem_cons, not_mem_nil, or_false] at hf
  rcases hf with rfl | rfl | rfl
  · exact sep_append (by decide) flag.2
  · decide
  · exact sep_append (sep_append (by decide) time.2) (by decide)

lemma decode_linkText (flag rate delay loss : Field) : decode (linkText flag rate delay loss) = .skip := by
  refine decode_fieldsText (fun f hf => ?_) (by simp) (by simp)
  simp only [mem_cons, not_mem_nil, or_false] at hf
  rcases hf with rfl | rfl | rfl | rfl
  · exact sep_append (by decide) flag.2
  · exact sep_append (by decide) rate.2
  · exact sep_append (by decide) delay.2
  · exact sep_append (by decide) loss.2

lemma decode_stoppedText (flag : Field) : decode (stoppedText flag) = .skip := by
  refine decode_fieldsText (fun f hf => ?_) (by simp) (by simp)
  simp only [mem_cons, not_mem_nil, or_false] at hf
  rcases hf with rfl | rfl
  · exact sep_append (by decide) flag.2
  · decide

/-- No emitted message is one that `np.array` rejects. -/
lemma emitted_decodes {data : Text} (h : Emitted (.message data)) :
    decode data = .skip ∨ decode data = .done ∨ ∃ vs, vs.length = scale.length ∧ decode data = .state vs := by
  cases h with
  | init => left; decide
  | state vs h => right; right; exact ⟨vs, h, decode_record h⟩
  | done flag time => right; left; exact decode_doneText flag time
  | link flag rate delay loss => left; exact decode_linkText flag rate delay loss
  | stopped flag => left; exact decode_stoppedText flag

/-! ## Reading -/

inductive Raise where
  | typeError
  | valueError
  | keyError
  | recursionError
  deriving DecidableEq, Repr

inductive Outcome (α : Type) where
  | ret (a : α)
  | blocked
  | raised (e : Raise)
  deriving Repr

/-- `_get_obs`: a state, or the one entry `[0]` for the end of a flow. -/
def getObs : List Msg → Outcome (List Rat × List Msg)
  | [] => .blocked
  | .subscribe :: ms => getObs ms
  | .message data :: ms =>
    match decode data with
    | .state vs => .ret (scaled vs, ms)
    | .done => .ret ([0], ms)
    | .skip => getObs ms
    | .invalid => .raised .valueError

/-- The first message that is not passed over, as it is decoded. -/
def next : List Msg → Option Decoded
  | [] => none
  | .subscribe :: ms => next ms
  | .message data :: ms =>
    match decode data with
    | .skip => next ms
    | d => some d

/-- `_get_obs` returns the first state or end of a flow, and waits if there is none. -/
theorem getObs_of_next : ∀ {ms : List Msg}, (∀ m ∈ ms, Emitted m) →
    (next ms = none ∧ getObs ms = .blocked) ∨
    (∃ ms', next ms = some .done ∧ getObs ms = .ret ([0], ms') ∧ ∀ m ∈ ms', m ∈ ms) ∨
    (∃ vs ms', vs.length = scale.length ∧ next ms = some (.state vs) ∧ getObs ms = .ret (scaled vs, ms') ∧
      ∀ m ∈ ms', m ∈ ms) := by
  intro ms
  induction ms with
  | nil => intro _; exact .inl ⟨rfl, rfl⟩
  | cons m ms ih =>
    intro hms
    have hmem : ∀ x ∈ ms, x ∈ m :: ms := fun x hx => mem_cons_of_mem _ hx
    -- a message that is passed over leaves the question to the rest
    have hpass : next (m :: ms) = next ms → getObs (m :: ms) = getObs ms →
        (next (m :: ms) = none ∧ getObs (m :: ms) = .blocked) ∨
        (∃ ms', next (m :: ms) = some .done ∧ getObs (m :: ms) = .ret ([0], ms') ∧ ∀ x ∈ ms', x ∈ m :: ms) ∨
        (∃ vs ms', vs.length = scale.length ∧ next (m :: ms) = some (.state vs) ∧
          getObs (m :: ms) = .ret (scaled vs, ms') ∧ ∀ x ∈ ms', x ∈ m :: ms) := by
      intro hn hg; rw [hn, hg]
      rcases ih (fun x hx => hms x (hmem x hx)) with h | ⟨ms', h1, h2, h3⟩ | ⟨vs, ms', h0, h1, h2, h3⟩
      · exact .inl h
      · exact .inr (.inl ⟨ms', h1, h2, fun x hx => hmem x (h3 x hx)⟩)
      · exact .inr (.inr ⟨vs, ms', h0, h1, h2, fun x hx => hmem x (h3 x hx)⟩)
    cases m with
    | subscribe => exact hpass rfl rfl
    | message data =>
      rcases emitted_decodes (hms _ mem_cons_self) with hd | hd | ⟨vs, hlen, hd⟩
      · exact hpass (by simp only [next, hd]) (by simp only [getObs, hd])
      · exact .inr (.inl ⟨ms, by simp only [next, hd], by simp only [getObs, hd], hmem⟩)
      · exact .inr (.inr ⟨vs, ms, hlen, by simp only [next, hd], by simp only [getObs, hd], hmem⟩)

/-! ## The environment -/

/-- Plan 1 scales the pacing rate; plans 2 (owl) and 3 (satcc) step the window. -/
inductive Plan where
  | rate
  | owl
  | satcc
  deriving DecidableEq, Repr

inductive Action where
  | factor (q : Rat)
  | index (i : Int)
  deriving DecidableEq, Repr

/-- `action_space`: a box of one factor, or one of seven or three indices. -/
def Plan.space : Plan → Action → Prop
  | .rate, .factor q => 1 / 2 ≤ q ∧ q ≤ 3
  | .owl, .index i => 0 ≤ i ∧ i < 7
  | .satcc, .index i => 0 ≤ i ∧ i < 3
  | _, _ => False

def Plan.actionMin : Plan → Int
  | .owl => -10
  | _ => -1

def Plan.actionMax : Plan → Int
  | .owl => 10
  | _ => 1

/-- `_action_to_direction`; a key that is not there raises. -/
def actionToDirection : Plan → Int → Option Int
  | .owl, 0 => some (-10)
  | .owl, 1 => some (-3)
  | .owl, 2 => some (-1)
  | .owl, 3 => some 0
  | .owl, 4 => some 1
  | .owl, 5 => some 3
  | .owl, 6 => some 10
  | .satcc, 0 => some 1
  | .satcc, 1 => some 0
  | .satcc, 2 => some (-1)
  | _, _ => none

def clip (a lo hi : Int) : Int := min (max a lo) hi

/-- What the environment publishes: on `redis` the flag or the flag with `stop`, on
    the action channel `0,<factor>` or the window step. -/
inductive Pub where
  | start
  | stop
  | pacing (q : Rat)
  | cwnd (v : Int)
  deriving DecidableEq, Repr

def actionMessage : Plan → Action → Option Pub
  | .rate, .factor q => some (.pacing (min (max q (1 / 2)) 3))
  | p, .index i => (actionToDirection p (clip i p.actionMin (p.actionMax + 1))).map .cwnd
  | _, _ => none

lemma actionMessage_of_space {p : Plan} {a : Action} (h : p.space a) : ∃ m, actionMessage p a = some m := by
  cases p with
  | rate =>
    cases a with
    | factor q => exact ⟨_, rfl⟩
    | index i => cases h
  | owl =>
    cases a with
    | factor q => cases h
    | index i =>
      obtain ⟨h0, h7⟩ := h
      have hi : i = 0 ∨ i = 1 ∨ i = 2 ∨ i = 3 ∨ i = 4 ∨ i = 5 ∨ i = 6 := by omega
      rcases hi with rfl | rfl | rfl | rfl | rfl | rfl | rfl <;> exact ⟨_, rfl⟩
  | satcc =>
    cases a with
    | factor q => cases h
    | index i =>
      obtain ⟨h0, h3⟩ := h
      have hi : i = 0 ∨ i = 1 ∨ i = 2 := by omega
      rcases hi with rfl | rfl | rfl <;> exact ⟨_, rfl⟩

structure Config where
  plan : Plan
  maxsteps : Nat
  reward : List Rat → Rat

/-- `_reward`, the reward used when the configuration has none. -/
def defaultReward (state : List Rat) : Rat :=
  state.getD (state.length - 2) 0 - state.getD 2 0 + state.getD 3 0

structure RlccEnv where
  lastState : Option (List Rat)
  state : Option (List Rat)
  stepCount : Nat
  /-- Everything published so far. -/
  sent : List Pub
  deriving DecidableEq, Repr

def RlccEnv.init : RlccEnv := { lastState := none, state := none, stepCount := 0, sent := [] }

def RlccEnv.publish (env : RlccEnv) (p : Pub) : RlccEnv := { env with sent := env.sent ++ [p] }

/-- `reset`. The first argument is how deep Python lets it call itself. -/
def reset : Nat → RlccEnv → List Msg → Outcome (List Rat × RlccEnv × List Msg)
  | 0, _, _ => .raised .recursionError
  | depth + 1, env, ms =>
    let env := if env.stepCount > 50 then { env.publish .stop with stepCount := 0 } else env
    let env := env.publish .start
    match getObs ms with
    | .ret (st, ms) =>
      let env := { env with state := some st }
      if st.length = 1 then
        match reset depth env ms with
        | .ret (_, env, ms) => .ret (observation (env.state.getD []), env, ms)
        | .blocked => .blocked
        | .raised e => .raised e
      else .ret (observation st, env, ms)
    | .blocked => .blocked
    | .raised e => .raised e

structure StepResult where
  obs : List Rat
  reward : Rat
  terminated : Bool
  truncated : Bool
  deriving DecidableEq, Repr

/-- `self.last_state[:-3], self.reward_function(self.last_state), …`, which raises while `last_state` is `None`. -/
def lastResult (cfg : Config) (env : RlccEnv) (ms : List Msg) (terminated truncated : Bool) :
    Outcome (StepResult × RlccEnv × List Msg) :=
  match env.lastState with
  | none => .raised .typeError
  | some st => .ret (⟨observation st, cfg.reward st, terminated, truncated⟩, env, ms)

def step (cfg : Config) (a : Action) (env : RlccEnv) (ms : List Msg) : Outcome (StepResult × RlccEnv × List Msg) :=
  let env := { env with stepCount := env.stepCount + 1 }
  if env.stepCount ≥ cfg.maxsteps then
    lastResult cfg { env.publish .stop with stepCount := 0 } ms false true
  else
    match actionMessage cfg.plan a with
    | none => .raised .keyError
    | some p =>
      let env := env.publish p
      match getObs ms with
      | .ret (st, ms) =>
        let env := { env with state := some st }
        if st.length = 1 then lastResult cfg env ms true false
        else .ret (⟨observation st, cfg.reward st, false, false⟩, { env with lastState := some st }, ms)
      | .blocked => .blocked
      | .raised e => .raised e

/-! ## Calls -/

structure Sys where
  env : RlccEnv
  msgs : List Msg
  deriving DecidableEq, Repr

inductive Call where
  | reset
  | step (a : Action)
  deriving DecidableEq, Repr

inductive Returns (cfg : Config) (depth : Nat) : Sys → Call → Sys → Prop
  | reset {s o env ms} : reset depth s.env s.msgs = .ret (o, env, ms) → Returns cfg depth s .reset ⟨env, ms⟩
  | step {s a r env ms} : cfg.plan.space a → step cfg a s.env s.msgs = .ret (r, env, ms) →
    Returns cfg depth s (.step a) ⟨env, ms⟩

/-- A call of `step` returns an observation of nine entries, or waits because no
    state and no end of a flow has come in. -/
def Safe (ms : List Msg) : Outcome (StepResult × RlccEnv × List Msg) → Prop
  | .ret (r, _, _) => r.obs.length = 9
  | .blocked => next ms = none
  | .raised _ => False

structure Inv (s : Sys) : Prop where
  emitted : ∀ m ∈ s.msgs, Emitted m
  lastState : ∀ st, s.env.lastState = some st → st.length = 12

lemma observation_length {st : List Rat} (h : st.length = 12) : (observation st).length = 9 := by
  rw [observation, length_take, h]
  decide

lemma lastResult_safe_iff {cfg : Config} {env : RlccEnv} {last : Option (List Rat)} {ms ms' : List Msg} {b c : Bool}
    (he : env.lastState = last) (h : ∀ st, last = some st → st.length = 12) :
    Safe ms (lastResult cfg env ms' b c) ↔ last ≠ none := by
  unfold lastResult; rw [he]
  cases hl : last with
  | none => exact ⟨fun h => h.elim, fun h => absurd rfl h⟩
  | some st => exact ⟨fun _ hn => (by cases hn), fun _ => observation_length (h st hl)⟩

lemma step_safe_iff_of_inv {cfg : Config} {s : Sys} {a : Action} (hs : Inv s) (ha : cfg.plan.space a) :
    Safe s.msgs (step cfg a s.env s.msgs) ↔
      (s.env.lastState = none → s.env.stepCount + 1 < cfg.maxsteps ∧ next s.msgs ≠ some .done) := by
  obtain ⟨p, hp⟩ := actionMessage_of_space ha
  unfold step
  simp only
  by_cases hmax : s.env.stepCount + 1 ≥ cfg.maxsteps
  · rw [if_pos hmax]
    refine (lastResult_safe_iff (by rfl) hs.lastState).trans ?_
    exact ⟨fun h hn => absurd hn h, fun h hn => by have := (h hn).1; omega⟩
  · rw [if_neg hmax, hp]
    simp only
    rcases getObs_of_next hs.emitted with ⟨hn, hg⟩ | ⟨ms', hn, hg, _⟩ | ⟨vs, ms', hlen, hn, hg, _⟩
    · rw [hg]; exact ⟨fun _ _ => ⟨by omega, by rw [hn]; exact fun e => by cases e⟩, fun _ => hn⟩
    · rw [hg]
      refine (lastResult_safe_iff (by rfl) hs.lastState).trans ?_
      exact ⟨fun h hl => absurd hl h, fun h hl => (h hl).2 hn⟩
    · rw [hg]
      have h12 := scaled_length hlen
      simp only
      rw [if_neg (by rw [h12]; decide)]
      exact ⟨fun _ _ => ⟨by omega, by rw [hn]; exact fun e => by cases e⟩, fun _ => observation_length h12⟩

/-! ## Runs of calls -/

/-- `reset` never touches `last_state`, and reads from the front. -/
lemma reset_keeps : ∀ {depth : Nat} {env env' : RlccEnv} {ms ms' : List Msg} {o : List Rat},
    (∀ m ∈ ms, Emitted m) → reset depth env ms = .ret (o, env', ms') →
      env'.lastState = env.lastState ∧ ∀ m ∈ ms', m ∈ ms := by
  intro depth
  induction depth with
  | zero => intro env env' ms ms' o _ h; cases h
  | succ depth ih =>
    intro env env' ms ms' o hms h
    have hl : ∀ e : RlccEnv, ((if e.stepCount > 50 then { e.publish .stop with stepCount := 0 } else e).publish
        .start).lastState = e.lastState := by
      intro e
      by_cases h50 : e.stepCount > 50
      · rw [if_pos h50]; rfl
      · rw [if_neg h50]; rfl
    unfold reset at h
    simp only at h
    rcases getObs_of_next hms with ⟨_, hg⟩ | ⟨rest, _, hg, hmem⟩ | ⟨vs, rest, hlen, _, hg, hmem⟩
    · rw [hg] at h; cases h
    · rw [hg] at h
      simp only [length_singleton, if_true] at h
      -- an end of a flow: the nested call reads on
      split at h
      · rename_i o1 env1 ms1 hr; cases h
        obtain ⟨h1, h2⟩ := ih (fun m hm => hms m (hmem m hm)) hr
        exact ⟨h1.trans (hl env), fun m hm => hmem m (h2 m hm)⟩
      · cases h
      · cases h
    · rw [hg] at h
      have h12 := scaled_length hlen
      simp only at h
      rw [if_neg (by rw [h12]; decide)] at h
      cases h; exact ⟨hl env, hmem⟩

/-- A returned `step` keeps `last_state` or sets it to a state. -/
lemma step_keeps {cfg : Config} {s : Sys} {a : Action} {r : StepResult} {env : RlccEnv} {ms : List Msg}
    (hs : Inv s) (ha : cfg.plan.space a) (h : step cfg a s.env s.msgs = .ret (r, env, ms)) :
    (env.lastState = s.env.lastState ∨ ∃ st, st.length = 12 ∧ env.lastState = some st) ∧ ∀ m ∈ ms, m ∈ s.msgs := by
  have hlast : ∀ {e : RlccEnv} {ms' : List Msg} {b c : Bool}, e.lastState = s.env.lastState →
      lastResult cfg e ms' b c = .ret (r, env, ms) → env.lastState = s.env.lastState ∧ ms = ms' := by
    intro e ms' b c he h; unfold lastResult at h
    split at h
    · cases h
    · cases h; exact ⟨he, rfl⟩
  obtain ⟨p, hp⟩ := actionMessage_of_space ha
  unfold step at h
  simp only at h
  by_cases hmax : s.env.stepCount + 1 ≥ cfg.maxsteps
  · rw [if_pos hmax] at h
    obtain ⟨h1, rfl⟩ := hlast (by rfl) h
    exact ⟨.inl h1, fun _ hm => hm⟩
  · rw [if_neg hmax, hp] at h
    simp only at h
    rcases getObs_of_next hs.emitted with ⟨_, hg⟩ | ⟨rest, _, hg, hmem⟩ | ⟨vs, rest, hlen, _, hg, hmem⟩
    · rw [hg] at h; cases h
    · rw [hg] at h
      obtain ⟨h1, rfl⟩ := hlast (by rfl) h
      exact ⟨.inl h1, hmem⟩
    · rw [hg] at h
      have h12 := scaled_length hlen
      simp only at h
      rw [if_neg (by rw [h12]; decide)] at h
      cases h; exact ⟨.inr ⟨_, h12, rfl⟩, hmem⟩

lemma returns_inv {cfg : Config} {depth : Nat} (s : Sys) (c : Call) (t : Sys) (hs : Inv s)
    (h : Returns cfg depth s c t) : Inv t := by
  cases h with
  | reset hr =>
    obtain ⟨h1, h2⟩ := reset_keeps hs.emitted hr
    exact ⟨fun m hm => hs.emitted m (h2 m hm), fun st hst => hs.lastState st (by rw [← h1]; exact hst)⟩
  | step ha hr =>
    obtain ⟨h1, h2⟩ := step_keeps hs ha hr
    refine ⟨fun m hm => hs.emitted m (h2 m hm), fun st hst => ?_⟩
    rcases h1 with h1 | ⟨st', h12, h1⟩
    · exact hs.lastState st (by rw [← h1]; exact hst)
    · rw [h1] at hst; cases hst; exact h12

/-- After a `reset` that returned, and whatever calls returned since: a call of
    `step` is safe exactly when `last_state` has been set, or the call neither
    times out nor meets the end of a flow before a state. -/
theorem step_safe_iff (cfg : Config) (depth : Nat) (ms : List Msg) (hms : ∀ m ∈ ms, Emitted m) (cs : List Call) (s : Sys)
    (hrun : Run (Returns cfg depth) ⟨.init, ms⟩ (.reset :: cs) s) (a : Action) (ha : cfg.plan.space a) :
    Safe s.msgs (step cfg a s.env s.msgs) ↔
      (s.env.lastState = none → s.env.stepCount + 1 < cfg.maxsteps ∧ next s.msgs ≠ some .done) :=
  step_safe_iff_of_inv (hrun.inv returns_inv ⟨hms, fun _ h => by cases h⟩) ha

def zeroState : Msg := .message (record ';' (List.replicate 12 0))

def flowDone : Msg := .message (doneText ⟨"1001".toList, by decide⟩ ⟨"0.10".toList, by decide⟩)

def owlConfig : Config := { plan := .owl, maxsteps := 1800, reward := defaultReward }

/-- What the first `reset` leaves when a state comes in first. -/
lemma reset_of_zeroState (ms : List Msg) :
    Run (Returns owlConfig 1000) ⟨.init, zeroState :: ms⟩ [.reset]
      ⟨{ lastState := none, state := some (scaled (List.replicate 12 0)), stepCount := 0, sent := [.start] }, ms⟩ := by
  refine .cons (Returns.reset ?_ (o := observation (scaled (List.replicate 12 0)))) .nil
  have hlen : (List.replicate 12 (0 : Int)).length = scale.length := rfl
  unfold reset
  simp only [zeroState, getObs, decode_record hlen]
  rfl

/-- `reset` returns on a state, the flow ends before the next one, and the first
    `step` takes the slice of a `None`. -/
theorem a_flow_that_ends_at_once_raises :
    (∀ m ∈ [zeroState, flowDone], Emitted m) ∧ owlConfig.plan.space (.index 3) ∧
      ∃ s, Run (Returns owlConfig 1000) ⟨.init, [zeroState, flowDone]⟩ [.reset] s ∧
        ¬ Safe s.msgs (step owlConfig (.index 3) s.env s.msgs) := by
  refine ⟨?_, ⟨by decide, by decide⟩, _, reset_of_zeroState [flowDone], ?_⟩
  · intro m hm
    simp only [mem_cons, not_mem_nil, or_false] at hm
    rcases hm with rfl | rfl
    · exact .state _ rfl
    · exact .done _ _
  · unfold step; exact fun h => h

/-- With a second state behind the first, the first `step` is safe. -/
theorem a_second_state_makes_the_first_step_safe :
    ∃ s, Run (Returns owlConfig 1000) ⟨.init, [zeroState, zeroState]⟩ [.reset] s ∧
      Safe s.msgs (step owlConfig (.index 3) s.env s.msgs) := by
  have hms : ∀ m ∈ [zeroState, zeroState], Emitted m := by
    intro m hm
    simp only [mem_cons, not_mem_nil, or_false, or_self] at hm; subst hm
    exact .state _ rfl
  refine ⟨_, reset_of_zeroState [zeroState],
    (step_safe_iff owlConfig 1000 _ hms [] _ (reset_of_zeroState [zeroState]) (.index 3) ⟨by decide, by decide⟩).mpr ?_⟩
  intro _
  refine ⟨by decide, ?_⟩
  exact fun e => by cases e

end RlccQuic.Gym.Episode
