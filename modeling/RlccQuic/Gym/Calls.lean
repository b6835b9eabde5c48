/-
  RlccQuic.Gym.Calls — `RlccEnv` message by message.

  A call of `reset` or `step` publishes first and then reads messages until one lets it return. Between two messages
  anything else may happen, so a call is cut at its reads; what the calls returned is kept.

  Proved: the calls of `RlccQuic.Gym.Episode` that return are these, message by message (`reset_takes`, `step_takes`).
-/

import RlccQuic.Gym.Episode

namespace RlccQuic.Gym.Calls

open Lib Observation Episode List Option

/-! ## Calls, cut at their reads -/

inductive Mode where
  /-- No call is under way. -/
  | out
  /-- In `reset`, which may call itself that many times more. -/
  | inReset (depth : Nat)
  | inStep
  | raised (e : Raise)
  deriving DecidableEq, Repr

def Mode.reading : Mode → Bool
  | .inReset _ | .inStep => true
  | _ => false

/-- What a call returned; for `step` also whether a client of the flag had ended since the last reset began. -/
inductive Seen where
  | reset (obs : List Rat)
  | step (r : StepResult) (finished : Bool)
  deriving DecidableEq, Repr

def Seen.terminated : Seen → Bool
  | .reset _ => false
  | .step r _ => r.terminated

/-- `terminated`, with no client of the flag ended since the reset. -/
def Seen.unfounded : Seen → Bool
  | .reset _ => false
  | .step r finished => r.terminated && !finished

structure Agent where
  env : RlccEnv
  mode : Mode
  /-- A client of the flag has ended since the last reset began. -/
  finished : Bool
  seen : List Seen
  deriving DecidableEq, Repr

def Agent.init : Agent := { env := .init, mode := .out, finished := false, seen := [] }

def beginReset (env : RlccEnv) : RlccEnv :=
  (if env.stepCount > 50 then { env.publish .stop with stepCount := 0 } else env).publish .start

def Agent.reset (ag : Agent) : Nat → Agent
  | 0 => { ag with mode := .raised .recursionError }
  | depth + 1 => { ag with env := beginReset ag.env, mode := .inReset depth, finished := false }

/-- The return of `step`, or the exception in place of it. -/
def Agent.answer (ag : Agent) (env : RlccEnv) : Outcome (StepResult × RlccEnv × List Msg) → Agent
  | .ret (r, env, _) => { ag with env := env, mode := .out, seen := ag.seen ++ [.step r ag.finished] }
  | .raised e => { ag with env := env, mode := .raised e }
  | .blocked => { ag with env := env }

def Agent.call (cfg : Config) (a : Action) (ag : Agent) : Agent :=
  let env := { ag.env with stepCount := ag.env.stepCount + 1 }
  if env.stepCount ≥ cfg.maxsteps then
    let env := { env.publish .stop with stepCount := 0 }
    ag.answer env (lastResult cfg env [] false true)
  else
    match actionMessage cfg.plan a with
    | none => { ag with env := env, mode := .raised .keyError }
    | some p => { ag with env := env.publish p, mode := .inStep }

/-- The rest of a call, once `_get_obs` has something to return. -/
def Agent.resume (cfg : Config) (ag : Agent) (st : List Rat) : Agent :=
  let env := { ag.env with state := some st }
  match ag.mode with
  | .inReset depth =>
    if st.length = 1 then { ag with env := env }.reset depth
    else { ag with env := env, mode := .out, seen := ag.seen ++ [.reset (observation st)] }
  | .inStep =>
    if st.length = 1 then ag.answer env (lastResult cfg env [] true false)
    else ag.answer env (.ret (⟨observation st, cfg.reward st, false, false⟩, { env with lastState := some st }, []))
  | _ => ag

def Agent.take (cfg : Config) (ag : Agent) (m : Msg) : Agent :=
  match getObs [m] with
  | .blocked => ag
  | .ret (st, _) => ag.resume cfg st
  | .raised e => { ag with mode := .raised e }

/-! ## The calls of `RlccQuic.Gym.Episode` -/

lemma getObs_cons (m : Msg) (ms : List Msg) :
    getObs (m :: ms) = match getObs [m] with
      | .blocked => getObs ms
      | .ret (st, _) => .ret (st, ms)
      | .raised e => .raised e := by
  cases m with
  | subscribe => rfl
  | message data =>
    simp only [getObs]
    cases decode data <;> rfl

variable {cfg : Config} {ag : Agent}

lemma takes_blocked {m : Msg} (h : getObs [m] = .blocked) : ag.take cfg m = ag := by
  simp only [Agent.take, h]

variable {st : List Rat} {ms : List Msg}

lemma takes_ret {m : Msg}
    (h : getObs [m] = .ret (st, ms)) : ag.take cfg m = ag.resume cfg st := by
  simp only [Agent.take, h]

/-- Reading up to what `_get_obs` returns is taking the messages before it. -/
lemma getObs_takes (cfg : Config) (ag : Agent) : ∀ {ms ms' : List Msg} {st : List Rat},
    getObs ms = .ret (st, ms') → ∃ used, ms = used ++ ms' ∧ used.foldl (Agent.take cfg) ag = ag.resume cfg st := by
  intro ms
  induction ms with
  | nil => intro ms' st h; cases h
  | cons m ms ih =>
    intro ms' st h; rw [getObs_cons] at h
    cases hm : getObs [m] with
    | blocked =>
      rw [hm] at h
      obtain ⟨used, hu, hf⟩ := ih h
      exact ⟨m :: used, by rw [hu]; rfl, by rw [foldl_cons, takes_blocked hm, hf]⟩
    | ret p => rw [hm] at h; cases h; exact ⟨[m], rfl, takes_ret hm⟩
    | raised e => rw [hm] at h; cases h

lemma resume_done {depth : Nat} (hm : ag.mode = .inReset depth)
    (hlen : st.length = 1) :
    ag.resume cfg st = { ag with env := { ag.env with state := some st } }.reset depth := by
  simp only [Agent.resume, hm, hlen, if_true]

variable {env : RlccEnv} {r : StepResult}

/-- A call of `reset` that returns, message by message. -/
theorem reset_takes (cfg : Config) : ∀ {depth : Nat} {ag : Agent} {ms ms' : List Msg} {o : List Rat} {env : RlccEnv},
    reset depth ag.env ms = .ret (o, env, ms') → env.state.map observation = some o ∧ ∃ used, ms = used ++ ms' ∧
      used.foldl (Agent.take cfg) (ag.reset depth) =
        { ag with env := env, mode := .out, finished := false, seen := ag.seen ++ [.reset o] } := by
  intro depth
  induction depth with
  | zero => intro ag ms ms' o env h; cases h
  | succ depth ih =>
    intro ag ms ms' o env h
    rw [reset] at h
    dsimp only at h; rw [← beginReset] at h
    split at h
    · rename_i st rest hg
      obtain ⟨used, hu, hf⟩ := getObs_takes cfg (ag.reset (depth + 1)) hg
      split at h
      · -- an end of a flow: the nested call goes on with what is left
        rename_i hlen
        split at h
        · rename_i o' env' rest' hn
          obtain ⟨ho, used', hu', hf'⟩ := @ih { ag.reset (depth + 1) with
            env := { beginReset ag.env with state := some st } } rest rest' o' env' hn
          obtain ⟨st', hst, hobs⟩ := map_eq_some_iff.mp ho
          cases h
          rw [hst, getD_some]
          refine ⟨by rw [map_some], used ++ used', by rw [hu, hu', append_assoc], ?_⟩
          rw [foldl_append, hf, hobs, resume_done rfl hlen]; exact hf'
        all_goals cases h
      · rename_i hlen
        cases h
        refine ⟨rfl, used, hu, ?_⟩
        rw [hf]
        simp only [Agent.resume, Agent.reset, hlen, if_false]
    all_goals cases h

theorem a_reset_takes_a_state : ∃ o env, [zeroState].foldl (Agent.take owlConfig) (Agent.init.reset 2) =
    { Agent.init with env := env, seen := [.reset o] } := by
  obtain ⟨-, used, hu, hf⟩ := @reset_takes owlConfig 2 .init [zeroState] _ _ _ rfl
  rw [append_nil] at hu; rw [hu]; exact ⟨_, _, hf⟩

lemma answer_lastResult {env' env₀ : RlccEnv} {ms' : List Msg}
    {b c : Bool} (h : lastResult cfg env ms b c = .ret (r, env', ms')) :
    ms' = ms ∧ ag.answer env₀ (lastResult cfg env [] b c) =
      { ag with env := env', mode := .out, seen := ag.seen ++ [.step r ag.finished] } := by
  unfold lastResult at h ⊢
  cases hl : env.lastState with
  | none => rw [hl] at h; cases h
  | some st => rw [hl] at h; cases h; exact ⟨rfl, rfl⟩

/-- A call of `step` that returns, message by message. -/
theorem step_takes {a : Action} {ms ms' : List Msg}
    (h : step cfg a ag.env ms = .ret (r, env, ms')) : ∃ used, ms = used ++ ms' ∧
      used.foldl (Agent.take cfg) (ag.call cfg a) =
        { ag with env := env, mode := .out, seen := ag.seen ++ [.step r ag.finished] } := by
  unfold step at h
  dsimp only at h; split at h
  · rename_i hmax
    obtain ⟨rfl, hans⟩ := answer_lastResult h
    exact ⟨[], rfl, by simp only [Agent.call, if_pos hmax]; exact hans⟩
  · rename_i hmax
    split at h
    · cases h
    · rename_i p hp
      simp only [Agent.call, if_neg hmax, hp]
      split at h
      · rename_i st rest hg
        obtain ⟨used, hu, hf⟩ := getObs_takes cfg { ag with
          env := { ag.env with stepCount := ag.env.stepCount + 1 }.publish p, mode := .inStep } hg
        split at h
        · rename_i hlen
          obtain ⟨rfl, hans⟩ := answer_lastResult h
          refine ⟨used, hu, hf.trans ?_⟩
          simp only [Agent.resume, hlen]; exact hans
        · rename_i hlen
          cases h
          refine ⟨used, hu, hf.trans ?_⟩
          simp only [Agent.resume, hlen, if_false, Agent.answer]
      all_goals cases h

theorem a_step_takes_a_state : ∃ used r, [zeroState] = used ++ [] ∧
    (used.foldl (Agent.take owlConfig) (Agent.init.call owlConfig (.index 3))).seen = [.step r false] := by
  obtain ⟨used, hu, hf⟩ := @step_takes owlConfig .init _ _ (.index 3) [zeroState] _ rfl
  exact ⟨used, _, hu, congrArg Agent.seen hf⟩

/-! ## What a call adds -/

/-- What a call adds to what was seen, if it adds something of `step`: nothing
    terminated, or something with the present account of ended clients. -/
structure Adds (ag ag' : Agent) (terminated : Bool) : Prop where
  finished : ag'.finished = ag.finished
  seen : ∀ r b, .step r b ∈ ag'.seen → .step r b ∈ ag.seen ∨ (r.terminated = terminated ∧ b = ag.finished)

lemma adds_of_seen {ag' : Agent} (term : Bool) (hf : ag'.finished = ag.finished) (hs : ag'.seen = ag.seen) :
    Adds ag ag' term :=
  ⟨hf, fun r b h => .inl (by rw [hs] at h; exact h)⟩

lemma adds_answer {env' : RlccEnv} :
    Adds ag (ag.answer env (.ret (r, env', ms))) r.terminated := by
  refine ⟨rfl, fun r' b h => ?_⟩
  rcases mem_append.mp h with h | h
  · exact .inl h
  · cases mem_singleton.mp h
    exact .inr ⟨rfl, rfl⟩

lemma adds_lastResult {c : Config} {term trunc : Bool} :
    Adds ag (ag.answer env (lastResult c env [] term trunc)) term := by
  unfold lastResult
  cases env.lastState with
  | none => exact adds_of_seen _ rfl rfl
  | some st => exact adds_answer

lemma adds_call (c : Config) (a : Action) (ag : Agent) : Adds ag (ag.call c a) false := by
  unfold Agent.call
  by_cases hmax : ag.env.stepCount + 1 ≥ c.maxsteps
  · rw [if_pos hmax]; exact adds_lastResult
  · rw [if_neg hmax]
    cases actionMessage c.plan a <;> exact adds_of_seen _ rfl rfl

lemma adds_resume_done {c : Config} (hm : ag.mode = .inStep) : Adds ag (ag.resume c [0]) true := by
  unfold Agent.resume; rw [hm]
  exact adds_lastResult

lemma reset_seen (ag : Agent) (depth : Nat) : (ag.reset depth).seen = ag.seen := by cases depth <;> rfl

/-! ## What was read and returned -/

/-- The observation a call returned as it read it; a `step` that ends an episode returns an older one. -/
def Seen.fresh : Seen → Option (List Rat)
  | .reset obs => some obs
  | .step r _ => if r.terminated || r.truncated then none else some r.obs

def Agent.fresh (ag : Agent) : List (List Rat) := ag.seen.filterMap Seen.fresh

lemma fresh_reset (ag : Agent) (depth : Nat) : (ag.reset depth).fresh = ag.fresh := by
  rw [Agent.fresh, reset_seen, Agent.fresh]

lemma fresh_lastResult {b d : Bool} (h : (b || d) = true) :
    (ag.answer env (lastResult cfg env [] b d)).fresh = ag.fresh := by
  unfold lastResult
  cases env.lastState with
  | none => rfl
  | some st => simp [Agent.answer, Agent.fresh, Seen.fresh, h]

lemma fresh_call (a : Action) (ag : Agent) : (ag.call cfg a).fresh = ag.fresh := by
  unfold Agent.call
  by_cases hmax : ag.env.stepCount + 1 ≥ cfg.maxsteps
  · rw [if_pos hmax]; exact fresh_lastResult rfl
  · rw [if_neg hmax]
    cases actionMessage cfg.plan a <;> rfl

lemma fresh_done (ag : Agent) : (ag.resume cfg [0]).fresh = ag.fresh := by
  unfold Agent.resume
  cases ag.mode with
  | out | raised => rfl
  | inReset depth => exact fresh_reset _ _
  | inStep => exact fresh_lastResult rfl

lemma fresh_state (hm : ag.mode.reading = true) (hlen : st.length ≠ 1) :
    (ag.resume cfg st).fresh = ag.fresh ++ [observation st] := by
  unfold Agent.resume
  cases hmode : ag.mode with
  | out | raised => rw [hmode] at hm; cases hm
  | inReset | inStep => simp [hlen, Agent.answer, Agent.fresh, Seen.fresh]

end RlccQuic.Gym.Calls
