/-
  RlccQuic.Mininet.Experiments — the environments, the orchestrator and the flows of all flags together.

  Every environment reads its own `rlccstate_<flag>` channel and the `mininet` channel, which all flags share; the
  orchestrator's link and end-of-flow messages name a flag there, but `_get_obs` looks only at the number of fields.

  Proved: in a run where no end of another flag's flow reaches the environment, no stop kills another flag's client and
  no reset leaves an end of a flow of its own unread, the flags are independent (`run_independent`). In general they are
  not (`the_end_of_another_flow_terminates_the_step`), but an environment returns every state of its own clients once, in
  order, and no other (`run_shown`).
-/

import RlccQuic.Gym.Calls
import RlccQuic.Mininet.Orchestrator

namespace RlccQuic.Mininet.Experiments

open Lib Lib.Text Gym.Observation Gym.Episode Gym.Calls List Function
open Orchestrator (Orch Cmd Pc Phase)

/-! ## All flags -/

variable {φ : Type} [DecidableEq φ]

abbrev Report := { vs : List Int // vs.length = scale.length }

/-- What is published: on an environment's own channel the controller's first
    message and its states, on `mininet` a link or the end of a flow, each of a flag. -/
inductive Note (φ : Type) where
  | init
  | state (vs : Report)
  | link (g : φ) (rate delay loss : Field)
  | done (g : φ) (time : Field)
  deriving DecidableEq, Repr

/-- The message itself; `name` is the text of a flag. -/
def Note.msg (name : φ → Field) : Note φ → Msg
  | .init => .message "state:init".toList
  | .state vs => .message (record ';' vs.1)
  | .link g rate delay loss => .message (linkText (name g) rate delay loss)
  | .done g time => .message (doneText (name g) time)

structure Sys (φ : Type) where
  orch : Orch φ
  /-- What an environment has not read yet. -/
  queue : φ → List (Note φ)
  agent : φ → Agent

def Sys.init : Sys φ := { orch := .init, queue := fun _ => [], agent := fun _ => .init }

def command (f : φ) : Pub → Option (Cmd φ)
  | .start => some (.start f)
  | .stop => some (.stop f)
  | _ => none

/-- The messages on `redis` that an environment published between two states. -/
def commands (f : φ) (before after : RlccEnv) : List (Cmd φ) :=
  (after.sent.drop before.sent.length).filterMap (command f)

def receive (o : Orch φ) (cs : List (Cmd φ)) : Orch φ := { o with inbox := o.inbox ++ cs }

/-- The environment of `f` goes on, and what it publishes reaches the orchestrator. -/
def Sys.act (s : Sys φ) (f : φ) (ag : Agent) : Sys φ :=
  { s with
    orch := receive s.orch (commands f (s.agent f).env ag.env)
    agent := update s.agent f ag }

/-- A message on `mininet` reaches every environment. -/
def Sys.broadcast (s : Sys φ) (n : Note φ) : Sys φ := { s with queue := fun g => s.queue g ++ [n] }

def Sys.deliver (s : Sys φ) (f : φ) (n : Note φ) : Sys φ :=
  { s with queue := update s.queue f (s.queue f ++ [n]) }

def Sys.finish (s : Sys φ) (f : φ) : Sys φ :=
  { s with agent := update s.agent f { s.agent f with finished := true } }

inductive Ev (φ : Type) where
  | reset (f : φ)
  | call (f : φ) (a : Action)
  | take (f : φ) (n : Note φ)
  /-- The `k`-th client of `f` publishes. -/
  | publish (f : φ) (k : Nat) (n : Note φ)
  /-- The loop or a worker, publishing nothing. -/
  | loop (e : Orchestrator.Ev φ)
  | link (f : φ) (rate delay loss : Field)
  | publishDone (f : φ) (k : Nat) (time : Field)
  deriving DecidableEq, Repr

def ends : Orchestrator.Ev φ → Option φ
  | .kill _ (some (g, _)) => some g
  | .finish f _ => some f
  | _ => none

def silent : Orchestrator.Ev φ → Bool
  | .message _ | .link _ | .publishDone _ _ => false
  | _ => true

def Sys.ended (s : Sys φ) : Option φ → Sys φ
  | some f => s.finish f
  | none => s

/-- What a client's controller publishes: the first message, or the fields of a state. -/
def Note.fromClient : Note φ → Bool
  | .init | .state _ => true
  | .link _ _ _ _ | .done _ _ => false

variable (cfg : φ → Config) (name : φ → Field) (limit : Nat)

/-- `limit` is how deep Python lets `reset` call itself. -/
inductive Step : Sys φ → Ev φ → Sys φ → Prop
  | reset {s f} : (s.agent f).mode = .out → Step s (.reset f) (s.act f ((s.agent f).reset limit))
  | call {s f a} : (s.agent f).mode = .out → (cfg f).plan.space a →
    Step s (.call f a) (s.act f ((s.agent f).call (cfg f) a))
  | take {s f n rest} : (s.agent f).mode.reading = true → s.queue f = n :: rest →
    Step s (.take f n)
      ({ s with queue := update s.queue f rest }.act f ((s.agent f).take (cfg f) (n.msg name)))
  | publish {s f k n} : (s.orch.workers f)[k]? = some .running → n.fromClient = true →
    Step s (.publish f k n) (s.deliver f n)
  | loop {s e o} : silent e = true → Orchestrator.Step s.orch e o →
    Step s (.loop e) ({ s with orch := o }.ended (ends e))
  | link {s f rate delay loss o} : Orchestrator.Step s.orch (.link f) o →
    Step s (.link f rate delay loss) ({ s with orch := o }.broadcast (.link f rate delay loss))
  | publishDone {s f k time o} : Orchestrator.Step s.orch (.publishDone f k) o →
    Step s (.publishDone f k time) ({ s with orch := o }.broadcast (.done f time))

variable {es : List (Ev φ)} {s : Sys φ}

/-! ## One flag of the orchestrator -/

def view (f : φ) (pc : Pc φ) : Pc φ := if pc.flag = some f then pc else .idle

/-- The second orchestrator has the messages, the lock and the workers of `f` only. -/
structure OrchSim (f : φ) (o o' : Orch φ) : Prop where
  inbox : o'.inbox = o.inbox.filter (fun c => c.flag = f)
  pc : o'.pc = view f o.pc
  lock : o'.lock f = o.lock f
  workers : o'.workers f = o.workers f
  alone : ∀ g, g ≠ f → o'.workers g = []

lemma orchSim_init (f : φ) : OrchSim f (Orch.init : Orch φ) Orch.init :=
  ⟨rfl, rfl, rfl, rfl, fun _ _ => rfl⟩

variable {f : φ}

lemma view_own {pc : Pc φ} (h : pc.flag = some f) : view f pc = pc := if_pos h

variable {g : φ}

lemma view_other {pc : Pc φ} (h : pc.flag = some g) (hg : g ≠ f) : view f pc = .idle := by
  refine if_neg fun e => hg ?_
  rw [h] at e; exact Option.some.inj e

lemma view_idle (f : φ) : view f .idle = .idle := if_neg nofun

variable {o o' t : Orch φ}

/-- A move of the loop, from one place for `g` to another or to none. -/
lemma OrchSim.move (h : OrchSim f o o') (hg : g ≠ f) (hin : t.inbox = o.inbox)
    (hpc : o.pc.flag = some g) (hpc' : t.pc.flag = some g ∨ t.pc = .idle) (hlock : t.lock f = o.lock f)
    (hw : t.workers f = o.workers f) : OrchSim f t o' := by
  refine ⟨by rw [hin]; exact h.inbox, ?_, by rw [hlock]; exact h.lock, by rw [hw]; exact h.workers, h.alone⟩
  rw [h.pc, view_other hpc hg]
  rcases hpc' with h' | h'
  · exact (view_other h' hg).symm
  · rw [h', view_idle]

lemma OrchSim.work (h : OrchSim f o o') (hg : g ≠ f) (hin : t.inbox = o.inbox)
    (hpc : t.pc = o.pc) (hlock : t.lock f = o.lock f) {ps : List Phase}
    (hw : t.workers = update o.workers g ps) : OrchSim f t o' := by
  refine ⟨by rw [hin]; exact h.inbox, by rw [hpc]; exact h.pc, by rw [hlock]; exact h.lock, ?_, h.alone⟩
  rw [hw, update_of_ne (Ne.symm hg)]; exact h.workers

variable {e : Orchestrator.Ev φ}

/-- What another flag's events do is not seen, as long as no stop kills a client of `f`. -/
lemma orchSim_hidden (h : OrchSim f o o')
    (hs : Orchestrator.Step o e t) (hf : e.flag ≠ f) (hk : ends e ≠ some f) : OrchSim f t o' := by
  cases hs with
  | @message c =>
    refine ⟨?_, h.pc, h.lock, h.workers, h.alone⟩
    rw [h.inbox, filter_append, filter_cons_of_neg (by simpa [Orchestrator.Ev.flag] using hf), filter_nil, append_nil]
  | @recv c rest hpc hin =>
    refine ⟨?_, ?_, h.lock, h.workers, h.alone⟩
    · rw [h.inbox, hin, filter_cons_of_neg (by simpa [Orchestrator.Ev.flag] using hf)]
    · have hc : c.pc.flag = some c.flag := by cases c <;> rfl
      rw [h.pc, hpc, view_idle, view_other hc hf]
  | delLock hpc => exact h.move hf rfl (by rw [hpc]; rfl) (.inl rfl) (update_of_ne (Ne.symm hf) ..) rfl
  | @kill f' g k hpc hw =>
    have hg : g ≠ f := fun e => hk (by rw [e]; rfl)
    exact h.move hf rfl (by rw [hpc]; rfl) (.inl rfl) rfl (update_of_ne (Ne.symm hg) ..)
  | killNone hpc _ => exact h.move hf rfl (by rw [hpc]; rfl) (.inl rfl) rfl rfl
  | @check f' hpc =>
    refine h.move hf rfl (by rw [hpc]; rfl) ?_ rfl rfl
    cases hl : o.lock f' with
    | true => right; simp
    | false => left; simp [Pc.flag]; rfl
  | link hpc => exact h.move hf rfl (by rw [hpc]; rfl) (.inl rfl) rfl rfl
  | submit hpc =>
    exact h.move hf rfl (by rw [hpc]; rfl) (.inl rfl) rfl (update_of_ne (Ne.symm hf) ..)
  | setLock hpc => exact h.move hf rfl (by rw [hpc]; rfl) (.inr rfl) (update_of_ne (Ne.symm hf) ..) rfl
  | begin hw | finish hw => exact h.work hf rfl rfl rfl rfl
  | unlock hw => exact h.work hf rfl rfl (update_of_ne (Ne.symm hf) ..) rfl
  | publishDone hw => exact h.work hf rfl rfl rfl rfl

/-- A phase of a worker of `f` changes on both sides. -/
lemma OrchSim.setPhase (h : OrchSim f o o') (k : Nat) (p : Phase) :
    (o'.setPhase f k p).workers f = (o.setPhase f k p).workers f ∧
      ∀ g, g ≠ f → (o'.setPhase f k p).workers g = [] := by
  refine ⟨?_, fun g hg => ?_⟩
  · simp only [Orchestrator.Orch.setPhase, update_self, h.workers]
  · simp only [Orchestrator.Orch.setPhase, update_of_ne hg, h.alone g hg]

lemma orchSim_own (h : OrchSim f o o')
    (hs : Orchestrator.Step o e t) (hf : e.flag = f) (hk : ∀ g, ends e = some g → g = f) :
    ∃ t', Orchestrator.Step o' e t' ∧ OrchSim f t t' := by
  -- the loop is at the same place for `f` on both sides
  have hpc' : ∀ {pc : Pc φ}, o.pc = pc → pc.flag = some f → o'.pc = pc := fun hpc hfl => by
    rw [h.pc, hpc, view_own hfl]
  cases hs with
  | @message c =>
    refine ⟨_, .message, ?_, h.pc, h.lock, h.workers, h.alone⟩
    rw [h.inbox, filter_append, filter_cons_of_pos (by simpa [Orchestrator.Ev.flag] using hf),
      filter_nil]
  | @recv c rest hpc hin =>
    have hin' : o'.inbox = c :: rest.filter (fun c => c.flag = f) := by
      rw [h.inbox, hin, filter_cons_of_pos (by simpa [Orchestrator.Ev.flag] using hf)]
    have hc : c.pc.flag = some f := by
      rw [← hf]
      cases c <;> rfl
    exact ⟨_, .recv (by rw [h.pc, hpc, view_idle]) hin', rfl, (view_own hc).symm, h.lock, h.workers, h.alone⟩
  | @delLock f' hpc =>
    obtain rfl : f' = f := hf
    refine ⟨_, .delLock (hpc' hpc rfl), h.inbox, (view_own rfl).symm, ?_, h.workers, h.alone⟩
    simp only [update_self]
  | @kill f' g k hpc hw =>
    obtain rfl : f' = f := hf
    obtain rfl : g = f' := hk g rfl
    obtain ⟨h1, h2⟩ := h.setPhase k .ended
    exact ⟨_, .kill (hpc' hpc rfl) (by rw [h.workers]; exact hw), h.inbox, (view_own rfl).symm, h.lock, h1, h2⟩
  | @killNone f' hpc hnone =>
    obtain rfl : f' = f := hf
    refine ⟨_, .killNone (hpc' hpc rfl) (fun g => ?_), h.inbox, (view_own rfl).symm, h.lock, h.workers, h.alone⟩
    by_cases hg : g = f'
    · rw [hg, h.workers]; exact hnone _
    · rw [h.alone g hg]; exact not_mem_nil
  | @check f' hpc =>
    obtain rfl : f' = f := hf
    refine ⟨_, .check (hpc' hpc rfl), h.inbox, ?_, h.lock, h.workers, h.alone⟩
    simp only
    rw [show o'.lock f' = o.lock f' from h.lock]
    cases o.lock f' with
    | true => exact (view_idle _).symm
    | false => exact (view_own rfl).symm
  | @link f' hpc =>
    obtain rfl : f' = f := hf
    exact ⟨_, .link (hpc' hpc rfl), h.inbox, (view_own rfl).symm, h.lock, h.workers, h.alone⟩
  | @submit f' hpc =>
    obtain rfl : f' = f := hf
    refine ⟨_, .submit (hpc' hpc rfl), h.inbox, (view_own rfl).symm, h.lock, ?_, fun g hg => ?_⟩
    · simp only [update_self]; rw [h.workers]
    · simp only [update_of_ne hg]; exact h.alone g hg
  | @setLock f' hpc =>
    obtain rfl : f' = f := hf
    refine ⟨_, .setLock (hpc' hpc rfl), h.inbox, (view_idle _).symm, ?_, h.workers, h.alone⟩
    simp only [update_self]
  | @begin f' k hw =>
    obtain rfl : f' = f := hf
    obtain ⟨h1, h2⟩ := h.setPhase k .running
    exact ⟨_, .begin (by rw [h.workers]; exact hw), h.inbox, h.pc, h.lock, h1, h2⟩
  | @finish f' k hw =>
    obtain rfl : f' = f := hf
    obtain ⟨h1, h2⟩ := h.setPhase k .ended
    exact ⟨_, .finish (by rw [h.workers]; exact hw), h.inbox, h.pc, h.lock, h1, h2⟩
  | @unlock f' k hw =>
    obtain rfl : f' = f := hf
    obtain ⟨h1, h2⟩ := h.setPhase k .unlocked
    refine ⟨_, .unlock (by rw [h.workers]; exact hw), h.inbox, h.pc, ?_, h1, h2⟩
    simp only [update_self]
  | @publishDone f' k hw =>
    obtain rfl : f' = f := hf
    obtain ⟨h1, h2⟩ := h.setPhase k .done
    exact ⟨_, .publishDone (by rw [h.workers]; exact hw), h.inbox, h.pc, h.lock, h1, h2⟩

/-! ## One flag of the system -/

/-- A message the environment of `f` gets also when the other flags are still. -/
def Note.isFor (f : φ) : Note φ → Bool
  | .init | .state _ => true
  | .link g _ _ _ | .done g _ => g = f

def Ev.own (f : φ) : Ev φ → Bool
  | .reset g | .call g _ | .publish g _ _ | .link g _ _ _ | .publishDone g _ _ => g = f
  | .take g n => g = f ∧ n.isFor f
  | .loop e => e.flag = f

/-- No end of a flow of `f` is unread in `q` or still to be published. -/
structure Clean (s : Sys φ) (f : φ) (q : List (Note φ)) : Prop where
  done : ∀ time, .done f time ∉ q
  ended : .ended ∉ s.orch.workers f
  unlocked : .unlocked ∉ s.orch.workers f

/-- When the flags are kept apart for `f`: `reset` is called with no end of a flow of `f` outstanding, the environment
    reads no end of another flow, and a stop finds a client of its own flag. -/
def Apart (f : φ) (s : Sys φ) : Ev φ → Prop
  | .reset g => g = f → Clean s f (s.queue f)
  | .take g (.done h _) => g = f → h = f ∧ ((s.agent f).mode ≠ .inStep → Clean s f (s.queue f).tail)
  | .loop (.kill g _) => ∀ h, h ≠ g → h = f ∨ g = f → .running ∉ s.orch.workers h
  | _ => True

structure Sim (f : φ) (s s' : Sys φ) : Prop where
  orch : OrchSim f s.orch s'.orch
  queue : s'.queue f = (s.queue f).filter (Note.isFor f)
  agent : s'.agent f = s.agent f

lemma sim_init (f : φ) : Sim f (Sys.init : Sys φ) Sys.init := ⟨orchSim_init f, rfl, rfl⟩

omit [DecidableEq φ] in
lemma commands_flag {before after : RlccEnv} : ∀ c ∈ commands f before after, c.flag = f := by
  intro c hc
  obtain ⟨p, _, hp⟩ := mem_filterMap.mp hc
  cases p <;> cases hp <;> rfl

omit [DecidableEq φ] in
lemma commands_self (f : φ) (env : RlccEnv) : commands f env env = [] := by
  simp only [commands, drop_length, filterMap_nil]

variable {s' : Sys φ}

lemma sim_act (h : Sim f s s') (ag : Agent) : Sim f (s.act f ag) (s'.act f ag) := by
  refine ⟨⟨?_, h.orch.pc, h.orch.lock, h.orch.workers, h.orch.alone⟩, h.queue, ?_⟩
  · have hall : (commands f (s.agent f).env ag.env).filter (fun c => decide (c.flag = f)) =
        commands f (s.agent f).env ag.env :=
      filter_eq_self.mpr fun c hc => decide_eq_true (commands_flag c hc)
    simp only [Sys.act, receive, filter_append]; rw [h.agent, h.orch.inbox, hall]
  · simp only [Sys.act, update_self]

lemma sim_act_other (h : Sim f s s') (hg : g ≠ f) (ag : Agent) : Sim f (s.act g ag) s' := by
  refine ⟨⟨?_, h.orch.pc, h.orch.lock, h.orch.workers, h.orch.alone⟩, h.queue, ?_⟩
  · have hnone : (commands g (s.agent g).env ag.env).filter (fun c => decide (c.flag = f)) = [] := by
      refine filter_eq_nil_iff.mpr fun c hc => ?_
      rw [commands_flag c hc]
      simpa using hg
    simp only [Sys.act, receive, filter_append]; rw [h.orch.inbox, hnone, append_nil]
  · simp only [Sys.act, update_of_ne (Ne.symm hg)]; exact h.agent

lemma sim_ended (h : Sim f s s') : ∀ g : Option φ, Sim f (s.ended g) (s'.ended g) := by
  intro g
  cases g with
  | none => exact h
  | some g =>
    refine ⟨h.orch, h.queue, ?_⟩
    by_cases hg : f = g
    · subst hg
      simp only [Sys.ended, Sys.finish, update_self, h.agent]
    · simp only [Sys.ended, Sys.finish, update_of_ne hg, h.agent]

lemma sim_ended_other (h : Sim f s s') {g : Option φ} (hg : g ≠ some f) : Sim f (s.ended g) s' := by
  cases g with
  | none => exact h
  | some g =>
    refine ⟨h.orch, h.queue, ?_⟩
    have hne : f ≠ g := fun e => hg (by rw [e])
    simp only [Sys.ended, Sys.finish, update_of_ne hne, h.agent]

omit [DecidableEq φ] in
lemma take_link (c : Config) (ag : Agent) (g : φ) (rate delay loss : Field) :
    ag.take c (Note.msg name (.link g rate delay loss)) = ag := by
  refine takes_blocked ?_
  simp only [Note.msg, getObs, decode_linkText]

lemma act_self (s : Sys φ) (f : φ) : s.act f (s.agent f) = s := by
  simp only [Sys.act, commands_self, receive, append_nil, update_eq_self]

lemma sim_hidden (f : φ) (s : Sys φ) (e : Ev φ) (t s' : Sys φ) (h : Sim f s s')
    (hs : Guard (Apart f) (Step cfg name limit) s e t) (ho : e.own f = false) : Sim f t s' := by
  obtain ⟨hap, hstep⟩ := hs
  cases hstep with
  | @reset g hm => exact sim_act_other h (by simpa [Ev.own] using ho) _
  | @call g a hm ha => exact sim_act_other h (by simpa [Ev.own] using ho) _
  | @take g n rest hm hq =>
    by_cases hg : g = f
    · subst hg
      -- of the messages for all, the environment reads only links of other flags
      have hn : n.isFor g = false := by simpa [Ev.own] using ho
      cases n with
      | init | state vs => cases hn
      | done g' time =>
        have hgg := (hap rfl).1
        simp [Note.isFor, hgg] at hn
      | link g' rate delay loss =>
        rw [take_link, act_self]
        refine ⟨h.orch, ?_, h.agent⟩
        simp only [update_self]
        rw [h.queue, hq, filter_cons_of_neg (by simp [hn])]
    · have hs' : Sim f { s with queue := update s.queue g rest } s' :=
        ⟨h.orch, h.queue.trans (by simp only [update_of_ne (Ne.symm hg)]), h.agent⟩
      exact sim_act_other hs' hg _
  | @publish g k n hk hn =>
    have hg : g ≠ f := by simpa [Ev.own] using ho
    refine ⟨h.orch, ?_, h.agent⟩
    simp only [Sys.deliver, update_of_ne (Ne.symm hg)]; exact h.queue
  | @loop e o _ hstep =>
    have he : e.flag ≠ f := by simpa [Ev.own] using ho
    have hends : ends e ≠ some f := by
      cases hstep with
      | @kill g h' k hpc hw =>
        intro heq
        obtain rfl : h' = f := Option.some.inj heq
        exact hap h' (Ne.symm he) (.inl rfl) (mem_of_getElem? hw)
      | finish hw => exact fun heq => he (Option.some.inj heq)
      | _ => exact nofun
    have hs' : Sim f { s with orch := o } s' := ⟨orchSim_hidden h.orch hstep he hends, h.queue, h.agent⟩
    exact sim_ended_other hs' hends
  | @link g rate delay loss o hstep =>
    have hg : g ≠ f := by simpa [Ev.own] using ho
    refine ⟨orchSim_hidden h.orch hstep hg nofun, ?_, h.agent⟩
    simp only [Sys.broadcast, filter_append]
    rw [h.queue, filter_cons_of_neg (by simpa [Note.isFor] using hg), filter_nil, append_nil]
  | @publishDone g k time o hstep =>
    have hg : g ≠ f := by simpa [Ev.own] using ho
    refine ⟨orchSim_hidden h.orch hstep hg nofun, ?_, h.agent⟩
    simp only [Sys.broadcast, filter_append]
    rw [h.queue, filter_cons_of_neg (by simpa [Note.isFor] using hg), filter_nil, append_nil]

lemma sim_own (f : φ) (s : Sys φ) (e : Ev φ) (t s' : Sys φ) (h : Sim f s s')
    (hs : Guard (Apart f) (Step cfg name limit) s e t) (ho : e.own f = true) :
    ∃ t', Step cfg name limit s' e t' ∧ Sim f t t' := by
  obtain ⟨hap, hstep⟩ := hs
  cases hstep with
  | @reset g hm =>
    obtain rfl : g = f := by simpa [Ev.own] using ho
    refine ⟨_, .reset (by rw [h.agent]; exact hm), ?_⟩
    rw [h.agent]; exact sim_act h _
  | @call g a hm ha =>
    obtain rfl : g = f := by simpa [Ev.own] using ho
    refine ⟨_, .call (by rw [h.agent]; exact hm) ha, ?_⟩
    rw [h.agent]; exact sim_act h _
  | @take g n rest hm hq =>
    obtain ⟨rfl, hn⟩ : g = f ∧ n.isFor f = true := by simpa [Ev.own] using ho
    have hq' : s'.queue g = n :: rest.filter (Note.isFor g) := by rw [h.queue, hq, filter_cons_of_pos hn]
    refine ⟨_, .take (by rw [h.agent]; exact hm) hq', ?_⟩
    rw [h.agent]
    have hs' : Sim g { s with queue := update s.queue g rest }
        { s' with queue := update s'.queue g (rest.filter (Note.isFor g)) } :=
      ⟨h.orch, by simp only [update_self], h.agent⟩
    exact sim_act hs' _
  | @publish g k n hk hn =>
    obtain rfl : g = f := by simpa [Ev.own] using ho
    refine ⟨_, .publish (by rw [h.orch.workers]; exact hk) hn, h.orch, ?_, h.agent⟩
    have hfor : n.isFor g = true := by cases n <;> first | rfl | cases hn
    simp only [Sys.deliver, update_self, filter_append]
    rw [h.queue, filter_cons_of_pos hfor, filter_nil]
  | @loop e o hsil hstep =>
    have he : e.flag = f := by simpa [Ev.own] using ho
    have hends : ∀ g, ends e = some g → g = f := by
      intro g hg
      cases hstep with
      | @kill f' h' k hpc hw =>
        obtain rfl : h' = g := Option.some.inj hg
        by_cases hne : h' = f'
        · exact hne.trans he
        · exact absurd (mem_of_getElem? hw) (hap h' hne (.inr he))
      | finish hw => exact (Option.some.inj hg).symm.trans he
      | _ => cases hg
    obtain ⟨o', hstep', ho'⟩ := orchSim_own h.orch hstep he hends
    have hs' : Sim f { s with orch := o } { s' with orch := o' } := ⟨ho', h.queue, h.agent⟩
    exact ⟨_, .loop hsil hstep', sim_ended hs' _⟩
  | @link g rate delay loss o hstep =>
    obtain rfl : g = f := by simpa [Ev.own] using ho
    obtain ⟨o', hstep', ho'⟩ := orchSim_own h.orch hstep rfl nofun
    refine ⟨_, .link hstep', ho', ?_, h.agent⟩
    simp only [Sys.broadcast, filter_append]
    rw [h.queue, filter_cons_of_pos (by simp [Note.isFor]), filter_nil]
  | @publishDone g k time o hstep =>
    obtain rfl : g = f := by simpa [Ev.own] using ho
    obtain ⟨o', hstep', ho'⟩ := orchSim_own h.orch hstep rfl nofun
    refine ⟨_, .publishDone hstep', ho', ?_, h.agent⟩
    simp only [Sys.broadcast, filter_append]
    rw [h.queue, filter_cons_of_pos (by simp [Note.isFor]), filter_nil]

lemma step_det (s : Sys φ) (e : Ev φ) (t u : Sys φ) (ht : Step cfg name limit s e t) (hu : Step cfg name limit s e u) :
    t = u := by
  cases ht with
  | reset | call | publish => cases hu; rfl
  | take _ hq =>
    cases hu with
    | take _ hq' => rw [hq] at hq'; cases hq'; rfl
  | loop _ ho => cases hu with | loop _ ho' => rw [Orchestrator.step_det _ _ _ _ ho ho']
  | link ho => cases hu with | link ho' => rw [Orchestrator.step_det _ _ _ _ ho ho']
  | publishDone ho => cases hu with | publishDone ho' => rw [Orchestrator.step_det _ _ _ _ ho ho']

/-- The events of `f` alone are a run, in which the environment of `f` sees the same. -/
lemma run_alone
    (h : Run (Guard (Apart f) (Step cfg name limit)) Sys.init es s) :
    ∃ s', Run (Step cfg name limit) Sys.init (es.filter (Ev.own f)) s' ∧ s'.agent f = s.agent f := by
  obtain ⟨s', hr, hs'⟩ := Run.filter (Ev.own f) (sim_hidden cfg name limit f) (sim_own cfg name limit f) (sim_init f) h
  exact ⟨s', hr, hs'.agent⟩

/-- Two runs with the same events of `f` show the environment of `f` the same. -/
lemma run_noninterference {es' : List (Ev φ)}
    (h : Run (Guard (Apart f) (Step cfg name limit)) Sys.init es s)
    (h' : Run (Guard (Apart f) (Step cfg name limit)) Sys.init es' s')
    (heq : es'.filter (Ev.own f) = es.filter (Ev.own f)) : s'.agent f = s.agent f := by
  obtain ⟨t, ht, hts⟩ := run_alone cfg name limit h
  obtain ⟨t', ht', hts'⟩ := run_alone cfg name limit h'
  rw [heq] at ht'
  rw [← hts, ← hts', Run.det (step_det cfg name limit) ht ht']

/-! ## What `terminated` says -/

omit [DecidableEq φ] in
lemma adds_take_state (c : Config) (ag : Agent) (vs : Report) :
    Adds ag (ag.take c (Note.msg name (.state vs))) false := by
  have hg : getObs [Note.msg name (.state vs)] = .ret (scaled vs.1, []) := by
    simp only [Note.msg, getObs, decode_record vs.2]
  have hlen : (scaled vs.1).length ≠ 1 := by rw [scaled_length vs.2]; decide
  rw [takes_ret hg]
  unfold Agent.resume
  simp only
  cases ag.mode with
  | out | raised => exact adds_of_seen _ rfl rfl
  | inReset depth =>
    simp only [hlen, if_false]
    refine ⟨rfl, fun r b h => ?_⟩
    rcases mem_append.mp h with h | h
    · exact .inl h
    · cases mem_singleton.mp h
  | inStep => simp only [hlen, if_false]; exact adds_answer

omit [DecidableEq φ] in
lemma take_done (c : Config) (ag : Agent) (g : φ) (time : Field) :
    ag.take c (Note.msg name (.done g time)) = ag.resume c [0] := by
  refine takes_ret (show getObs _ = .ret ([0], []) from ?_)
  simp only [Note.msg, getObs, decode_doneText]

/-- Ended clients are accounted for, and every `terminated` result had one. -/
structure Inv (f : φ) (s : Sys φ) : Prop where
  clean : (s.agent f).finished = false → Clean s f (s.queue f)
  seen : ∀ r b, .step r b ∈ (s.agent f).seen → r.terminated = true → b = true

lemma mem_setPhase {k : Nat} {p x : Phase} (h : x ∈ (o.setPhase g k p).workers f) :
    x ∈ o.workers f ∨ (f = g ∧ x = p) := by
  by_cases hg : f = g
  · subst hg
    simp only [Orchestrator.Orch.setPhase, update_self] at h
    rcases mem_or_eq_of_mem_set h with h | h
    · exact .inl h
    · exact .inr ⟨rfl, h⟩
  · simp only [Orchestrator.Orch.setPhase, update_of_ne hg] at h; exact .inl h

/-- Only the end of a client of `f` leaves one to be accounted for. -/
lemma orch_keeps (hs : Orchestrator.Step o e t) (he : ends e ≠ some f)
    (h : .ended ∉ o.workers f ∧ .unlocked ∉ o.workers f) : .ended ∉ t.workers f ∧ .unlocked ∉ t.workers f := by
  -- a worker of `f` that changes its phase was neither, and becomes neither
  have hset : ∀ {g k p}, (f = g → p ≠ .ended ∧ p ≠ .unlocked) →
      .ended ∉ (o.setPhase g k p).workers f ∧ .unlocked ∉ (o.setPhase g k p).workers f := by
    intro g k p hp
    refine ⟨fun hx => ?_, fun hx => ?_⟩
    · rcases mem_setPhase hx with hx | ⟨hg, hx⟩
      · exact h.1 hx
      · exact (hp hg).1 hx.symm
    · rcases mem_setPhase hx with hx | ⟨hg, hx⟩
      · exact h.2 hx
      · exact (hp hg).2 hx.symm
  cases hs with
  | message | recv | delLock | killNone | check | link | setLock => exact h
  | kill _ hw => exact hset fun hg => absurd (by rw [hg]; rfl) he
  | @submit g hpc =>
    by_cases hg : f = g
    · subst hg; simpa using h
    · simpa only [update_of_ne hg] using h
  | begin hw => exact hset fun _ => ⟨nofun, nofun⟩
  | finish hw => exact hset fun hg => absurd (by rw [hg]; rfl) he
  | unlock hw =>
    refine hset fun hg => absurd (mem_of_getElem? hw) ?_
    rw [← hg]; exact h.1
  | publishDone hw => exact hset fun _ => ⟨nofun, nofun⟩

omit [DecidableEq φ] in
lemma inv_init (f : φ) : Inv f (Sys.init : Sys φ) :=
  ⟨fun _ => ⟨fun _ => not_mem_nil, not_mem_nil, not_mem_nil⟩, fun _ _ h => (by cases h)⟩

lemma Inv.act_other (h : Inv f s) (hg : f ≠ g) (ag : Agent) : Inv f (s.act g ag) := by
  refine ⟨fun hf => ?_, ?_⟩
  · simp only [Sys.act, update_of_ne hg] at hf
    exact ⟨(h.clean hf).done, (h.clean hf).ended, (h.clean hf).unlocked⟩
  · simp only [Sys.act, update_of_ne hg]; exact h.seen

lemma Inv.act {q : List (Note φ)} {ag : Agent} {term : Bool} (hq : ∀ n ∈ q, n ∈ s.queue f)
    (h : Inv f s) (ha : Adds (s.agent f) ag term) (ht : term = true → (s.agent f).finished = true) :
    Inv f ({ s with queue := update s.queue f q }.act f ag) := by
  refine ⟨fun hf => ?_, ?_⟩
  · simp only [Sys.act, update_self] at hf ⊢
    obtain ⟨hd, he, hu⟩ := h.clean (ha.finished ▸ hf)
    exact ⟨fun time hm => hd time (hq _ hm), he, hu⟩
  · simp only [Sys.act, update_self]
    intro r b hr hterm
    rcases ha.seen r b hr with hr | ⟨hr, hb⟩
    · exact h.seen r b hr hterm
    · rw [hb]; exact ht (hr.symm.trans hterm)

/-- `reset` with no end of a flow of `f` outstanding. -/
lemma Inv.reset {q : List (Note φ)} {ag : Agent} (h : Inv f s) (depth : Nat) (hc : Clean s f q)
    (hs : ag.seen = (s.agent f).seen) :
    Inv f ({ s with queue := update s.queue f q }.act f (ag.reset depth)) := by
  refine ⟨fun _ => ?_, ?_⟩
  · simp only [Sys.act, update_self]; exact ⟨hc.done, hc.ended, hc.unlocked⟩
  · simp only [Sys.act, update_self, reset_seen, hs]; exact h.seen

omit [DecidableEq φ] in
lemma Inv.queue {queue : φ → List (Note φ)} (h : Inv f s)
    (hq : ∀ time, .done f time ∈ queue f → .done f time ∈ s.queue f) : Inv f { s with queue := queue } :=
  ⟨fun hf => ⟨fun time hm => (h.clean hf).done time (hq time hm), (h.clean hf).ended, (h.clean hf).unlocked⟩, h.seen⟩

lemma Inv.orch (h : Inv f s)
    (hs : Orchestrator.Step s.orch e o) (he : ends e ≠ some f) : Inv f { s with orch := o } := by
  refine ⟨fun hf => ?_, h.seen⟩
  obtain ⟨hd, hend, hun⟩ := h.clean hf
  obtain ⟨h1, h2⟩ := orch_keeps hs he ⟨hend, hun⟩
  exact ⟨hd, h1, h2⟩

lemma inv_loop (h : Inv f s) (hs : Orchestrator.Step s.orch e o) : Inv f ({ s with orch := o }.ended (ends e)) := by
  by_cases he : ends e = some f
  · rw [he]
    refine ⟨fun hf => ?_, ?_⟩
    · simp [Sys.ended, Sys.finish] at hf
    · simp only [Sys.ended, Sys.finish, update_self]; exact h.seen
  · have h' := h.orch hs he
    cases hg : ends e with
    | none => exact h'
    | some g =>
      have hne : f ≠ g := fun e' => he (by rw [hg, e'])
      refine ⟨fun hf => ?_, ?_⟩
      · simp only [Sys.ended, Sys.finish, update_of_ne hne] at hf
        exact ⟨(h'.clean hf).done, (h'.clean hf).ended, (h'.clean hf).unlocked⟩
      · simp only [Sys.ended, Sys.finish, update_of_ne hne]; exact h.seen

lemma inv_take {n : Note φ} {rest : List (Note φ)} (h : Inv f s)
    (hm : (s.agent f).mode.reading = true) (hq : s.queue f = n :: rest) (hap : Apart f s (.take f n)) :
    Inv f ({ s with queue := update s.queue f rest }.act f ((s.agent f).take (cfg f) (n.msg name))) := by
  have hrest : ∀ m ∈ rest, m ∈ s.queue f := fun m hm => by rw [hq]; exact mem_cons_of_mem _ hm
  cases n with
  | init => exact h.act hrest (adds_of_seen false rfl rfl) nofun
  | link g rate delay loss => rw [take_link]; exact h.act hrest (adds_of_seen false rfl rfl) nofun
  | state vs => exact h.act hrest (adds_take_state name (cfg f) _ vs) nofun
  | done g time =>
    obtain ⟨rfl, hclean⟩ := hap rfl
    rw [take_done]
    cases hmode : (s.agent g).mode with
    | out | raised => rw [hmode] at hm; cases hm
    | inReset depth =>
      rw [resume_done hmode rfl]
      have hc := hclean (by rw [hmode]; exact nofun)
      rw [hq] at hc; exact h.reset depth hc rfl
    | inStep =>
      refine h.act hrest (adds_resume_done hmode) fun _ => ?_
      -- the end of the flow was in the queue, so it is accounted for
      by_contra hf
      exact (h.clean (by simpa using hf)).done time (by rw [hq]; exact mem_cons_self)

lemma step_inv (f : φ) (s : Sys φ) (e : Ev φ) (t : Sys φ) (h : Inv f s)
    (hs : Guard (Apart f) (Step cfg name limit) s e t) : Inv f t := by
  obtain ⟨hap, hstep⟩ := hs
  cases hstep with
  | @reset g hm =>
    by_cases hg : f = g
    · subst hg
      have h' := h.reset limit (hap rfl) rfl
      rw [update_eq_self] at h'; exact h'
    · exact h.act_other hg _
  | @call g a hm ha =>
    by_cases hg : f = g
    · subst hg
      have h' := h.act (fun _ hn => hn) (adds_call (cfg f) a (s.agent f)) nofun
      rw [update_eq_self] at h'; exact h'
    · exact h.act_other hg _
  | @take g n rest hm hq =>
    by_cases hg : f = g
    · subst hg; exact inv_take cfg name h hm hq hap
    · have h' : Inv f { s with queue := update s.queue g rest } :=
        h.queue fun time ht => by rw [update_of_ne hg] at ht; exact ht
      exact h'.act_other hg _
  | @publish g k n hk hn =>
    refine h.queue fun time ht => ?_
    by_cases hg : f = g
    · subst hg; rw [update_self] at ht
      rcases mem_append.mp ht with ht | ht
      · exact ht
      · cases mem_singleton.mp ht
        cases hn
    · rw [update_of_ne hg] at ht; exact ht
  | loop _ ho => exact inv_loop h ho
  | link ho =>
    refine (h.orch ho nofun).queue fun time ht => ?_
    rcases mem_append.mp ht with ht | ht
    · exact ht
    · cases mem_singleton.mp ht
  | @publishDone g k time o ho =>
    by_cases hfin : (s.agent f).finished = true
    · refine ⟨fun hf => ?_, h.seen⟩
      rw [show (s.agent f).finished = false from hf] at hfin; cases hfin
    · refine (h.orch ho nofun).queue fun time' ht => ?_
      rcases mem_append.mp ht with ht | ht
      · exact ht
      · -- a flow of `f` cannot publish its end before it is accounted for
        cases mem_singleton.mp ht
        cases ho with
        | publishDone hw => exact absurd (mem_of_getElem? hw) (h.clean (by simpa using hfin)).unlocked

lemma kill_own {t : Sys φ} {victim : Option (φ × Nat)}
    (h : Guard (Apart f) (Step cfg name limit) s (.loop (.kill f victim)) t) :
    ∀ g, g ≠ f → t.orch.workers g = s.orch.workers g := by
  obtain ⟨hap, hs⟩ := h
  intro g hg
  cases hs with
  | loop _ ho =>
    cases ho with
    | killNone => rfl
    | @kill _ h' k hpc hw =>
      by_cases hgh : g = h'
      · subst hgh; exact absurd (mem_of_getElem? hw) (hap g hg (.inr rfl))
      · exact update_of_ne hgh ..

/-- As long as the flags are kept apart for `f`: a `terminated` result means that a
    client of `f` ended after the last reset; a stop of `f` ends no other flag's
    client; and what the environment of `f` sees depends on the events of `f` only,
    which are also a run by themselves. -/
theorem run_independent (f : φ) (es : List (Ev φ)) (s : Sys φ)
    (h : Run (Guard (Apart f) (Step cfg name limit)) Sys.init es s) :
    (∀ r finished, .step r finished ∈ (s.agent f).seen → r.terminated = true → finished = true) ∧
    (∀ victim t, Guard (Apart f) (Step cfg name limit) s (.loop (.kill f victim)) t →
      ∀ g, g ≠ f → t.orch.workers g = s.orch.workers g) ∧
    (∀ es' s', Run (Guard (Apart f) (Step cfg name limit)) Sys.init es' s' →
      es'.filter (Ev.own f) = es.filter (Ev.own f) → (s'.agent f).seen = (s.agent f).seen) ∧
    ∃ s', Run (Step cfg name limit) Sys.init (es.filter (Ev.own f)) s' ∧ (s'.agent f).seen = (s.agent f).seen := by
  refine ⟨(Run.inv (step_inv cfg name limit f) (inv_init f) h).seen, fun victim t ht => kill_own cfg name limit ht, ?_, ?_⟩
  · intro es' s' h' heq; rw [run_noninterference cfg name limit h h' heq]
  · obtain ⟨s', hr, hs'⟩ := run_alone cfg name limit h
    exact ⟨s', hr, by rw [hs']⟩

/-! ## Two flags -/

/-- Two flags, `true` and `false`, with window steps and the default limits. -/
def twoFlags : Bool → Config := fun _ => { plan := .owl, maxsteps := 1800, reward := defaultReward }

def flagName : Bool → Field
  | true => ⟨['1'], by decide⟩
  | false => ⟨['2'], by decide⟩

def someField : Field := ⟨['0'], by decide⟩

def someReport : Report := ⟨List.replicate 12 0, by decide⟩

/-- A flow of flag `f` is started, from `reset` to the running client. -/
def startFlow (f : Bool) : List (Ev Bool) :=
  [.reset f, .loop (.recv (.start f)), .loop (.check f), .link f someField someField someField, .loop (.submit f),
    .loop (.setLock f), .loop (.begin f 0)]

/-- `reset` and a first `step` of flag `true` return states. -/
def firstStep : List (Ev Bool) :=
  [.publish true 0 (.state someReport), .take true (.link true someField someField someField),
    .take true (.state someReport), .call true (.index 3), .publish true 0 (.state someReport),
    .take true (.state someReport)]

/-- Two flows run, that of flag `b` ends, and the environment of flag `true` reads on. -/
lemma two_flows_run (b : Bool) : ∃ s, Run (Guard (Apart b) (Step twoFlags flagName 1000)) Sys.init
    (startFlow true ++ firstStep ++ startFlow false ++
      [.loop (.finish b 0), .loop (.unlock b 0), .publishDone b 0 someField, .call true (.index 3),
        .take true (.link false someField someField someField), .take true (.done b someField)]) s ∧
    s.orch.workers (!b) = [.running] ∧ (s.agent true).seen.any Seen.terminated = true ∧
    (s.agent true).seen.any Seen.unfounded = !b := by
  cases b <;> exact
    ⟨_, .cons ⟨fun _ => ⟨nofun, nofun, nofun⟩, .reset rfl⟩ <| .cons ⟨trivial, .loop rfl (.recv rfl rfl)⟩ <|
      .cons ⟨trivial, .loop rfl (.check rfl)⟩ <| .cons ⟨trivial, .link (.link rfl)⟩ <|
      .cons ⟨trivial, .loop rfl (.submit rfl)⟩ <| .cons ⟨trivial, .loop rfl (.setLock rfl)⟩ <|
      .cons ⟨trivial, .loop rfl (.begin rfl)⟩ <|
      .cons ⟨trivial, .publish rfl rfl⟩ <| .cons ⟨trivial, .take rfl rfl⟩ <| .cons ⟨trivial, .take rfl rfl⟩ <|
      .cons ⟨trivial, .call rfl ⟨by decide, by decide⟩⟩ <| .cons ⟨trivial, .publish rfl rfl⟩ <|
      .cons ⟨trivial, .take rfl rfl⟩ <|
      .cons ⟨fun _ => ⟨nofun, nofun, nofun⟩, .reset rfl⟩ <| .cons ⟨trivial, .loop rfl (.recv rfl rfl)⟩ <|
      .cons ⟨trivial, .loop rfl (.check rfl)⟩ <| .cons ⟨trivial, .link (.link rfl)⟩ <|
      .cons ⟨trivial, .loop rfl (.submit rfl)⟩ <| .cons ⟨trivial, .loop rfl (.setLock rfl)⟩ <|
      .cons ⟨trivial, .loop rfl (.begin rfl)⟩ <|
      .cons ⟨trivial, .loop rfl (.finish rfl)⟩ <| .cons ⟨trivial, .loop rfl (.unlock rfl)⟩ <|
      .cons ⟨trivial, .publishDone (.publishDone rfl)⟩ <| .cons ⟨trivial, .call rfl ⟨by decide, by decide⟩⟩ <|
      .cons ⟨trivial, .take rfl rfl⟩ <|
      .cons ⟨fun h => ⟨rfl, fun hm => absurd (by cases h <;> rfl) hm⟩, .take rfl rfl⟩ .nil, by rfl, by rfl, by rfl⟩

/-- A flow ends beside another one, and the next `step` of its own environment says so. -/
theorem a_flow_beside_another_terminates_its_own_step :
    ∃ s r, Run (Guard (Apart true) (Step twoFlags flagName 1000)) Sys.init
      (startFlow true ++ firstStep ++ startFlow false ++
        [.loop (.finish true 0), .loop (.unlock true 0), .publishDone true 0 someField, .call true (.index 3),
          .take true (.link false someField someField someField), .take true (.done true someField)]) s ∧
      .step r true ∈ (s.agent true).seen ∧ r.terminated = true := by
  obtain ⟨s, h, -, hany, -⟩ := two_flows_run true
  obtain ⟨x, hx, hr⟩ := any_eq_true.mp hany
  cases x with
  | reset obs => cases hr
  | step r finished =>
    have hf : finished = true := (run_independent twoFlags flagName 1000 true _ s h).1 r finished hx hr
    exact ⟨s, r, h, hf ▸ hx, hr⟩

/-- The environment of one flag reads the end of another flag's flow, and its `step`
    returns `terminated` while its own client runs. -/
theorem the_end_of_another_flow_terminates_the_step :
    ∃ s r, Run (Step twoFlags flagName 1000) Sys.init
      (startFlow true ++ firstStep ++ startFlow false ++
        [.loop (.finish false 0), .loop (.unlock false 0), .publishDone false 0 someField, .call true (.index 3),
          .take true (.link false someField someField someField), .take true (.done false someField)]) s ∧
      .step r false ∈ (s.agent true).seen ∧ r.terminated = true ∧ s.orch.workers true = [.running] := by
  obtain ⟨s, h, hw, -, hany⟩ := two_flows_run false
  obtain ⟨x, hx, hun⟩ := any_eq_true.mp hany
  cases x with
  | reset obs => cases hun
  | step r finished =>
    obtain ⟨hr, hf⟩ : r.terminated = true ∧ finished = false := by simpa [Seen.unfounded] using hun
    exact ⟨s, r, h.map id fun _ _ _ h => h.2, hf ▸ hx, hr, hw⟩

/-! ## Every state is returned once -/

def Note.obs : Note φ → Option (List Rat)
  | .state vs => some (observation (scaled vs.1))
  | _ => none

def Ev.obs (f : φ) : Ev φ → Option (List Rat)
  | .publish g _ n => if g = f then n.obs else none
  | _ => none

/-- What the environment of `f` has returned as it read it, and has still to read. -/
def Sys.shown (s : Sys φ) (f : φ) : List (List Rat) := (s.agent f).fresh ++ (s.queue f).filterMap Note.obs

/-- The environment of `g` goes on, with `q` left to read. -/
lemma shown_act {ag : Agent} {q : φ → List (Note φ)} (hq : f ≠ g → q f = s.queue f)
    (h : f = g → ag.fresh ++ (q f).filterMap Note.obs = s.shown f) :
    ({ s with queue := q }.act g ag).shown f = s.shown f ++ [] := by
  rw [append_nil]
  by_cases hg : f = g
  · rw [← h hg]; subst hg
    simp only [Sys.shown, Sys.act, update_self]
  · simp only [Sys.shown, Sys.act, update_of_ne hg, hq hg]

omit [DecidableEq φ] in
lemma shown_take {n : Note φ} {rest : List (Note φ)} (hm : (s.agent f).mode.reading = true)
    (hq : s.queue f = n :: rest) :
    ((s.agent f).take (cfg f) (n.msg name)).fresh ++ rest.filterMap Note.obs = s.shown f := by
  rw [Sys.shown, hq]
  cases n with
  | init => rfl
  | link g rate delay loss => rw [take_link]; rfl
  | done g time => rw [take_done, fresh_done]; rfl
  | state vs =>
    have hg : getObs [Note.msg name (.state vs)] = .ret (scaled vs.1, []) := by
      simp only [Note.msg, getObs, decode_record vs.2]
    rw [takes_ret hg, fresh_state hm (by rw [scaled_length vs.2]; decide), append_assoc]; rfl

lemma step_shown {e : Ev φ} {t : Sys φ} (hs : Step cfg name limit s e t) :
    t.shown f = s.shown f ++ [e].filterMap (Ev.obs f) := by
  cases hs with
  | reset => exact shown_act (fun _ => rfl) fun hg => by subst hg; rw [fresh_reset]; rfl
  | call => exact shown_act (fun _ => rfl) fun hg => by subst hg; rw [fresh_call]; rfl
  | take hm hq =>
    refine shown_act (fun hg => update_of_ne hg _ _) fun hg => ?_
    subst hg; rw [update_self]; exact shown_take cfg name hm hq
  | @publish g k n =>
    by_cases hg : f = g
    · subst hg
      simp only [Sys.shown, Sys.deliver, update_self, filterMap_append, append_assoc, filterMap_cons, filterMap_nil, Ev.obs,
        if_true]
    · simp only [Sys.shown, Sys.deliver, update_of_ne hg, filterMap_cons, filterMap_nil, Ev.obs, if_neg (Ne.symm hg),
        append_nil]
  | loop =>
    rw [show [_].filterMap _ = [] from rfl, append_nil]
    cases ends _ with
    | none => rfl
    | some g => by_cases hg : f = g <;> simp [Sys.shown, Sys.ended, Sys.finish, Agent.fresh, hg]
  | link | publishDone => simp only [Sys.shown, Sys.broadcast, filterMap_append, append_assoc]; rfl

/-- The observations that an environment returns as it reads them, with those it has still to read, are the ones that
    clients of its own flag published, each once and in order, whatever the other flags do. -/
theorem run_shown (h : Run (Step cfg name limit) Sys.init es s) (f : φ) :
    s.shown f = es.filterMap (Ev.obs f) := by
  induction h with
  | nil => rfl
  | snoc _ hs ih => rw [step_shown cfg name limit hs, ih, filterMap_append]

/-- Two states are published and returned while the other flag's flow starts. -/
theorem two_states_are_shown : ∃ es s, Run (Step twoFlags flagName 1000) Sys.init es s ∧
    s.shown true = es.filterMap (Ev.obs true) ∧ (es.filterMap (Ev.obs true)).length = 2 := by
  obtain ⟨s, h, -⟩ := two_flows_run true
  have hrun := h.map id fun _ _ _ h => h.2
  exact ⟨_, s, hrun, run_shown _ _ _ hrun true, rfl⟩

end RlccQuic.Mininet.Experiments
