/-
  RlccQuic.Mininet.Orchestrator — `RlccMininet.run_train` and its workers.

  The message loop takes `<flag>` and `<flag>stop` from the `redis` channel. A stop clears the flag's lock, kills one
  `test_client` process (whichever `pidof -s` finds) and falls through to the start: with the lock clear, the loop sets
  up the link, submits a worker and then sets the lock. A worker runs the client, clears the lock and publishes the end
  of the flow. Loop and workers interleave between any two of these actions.

  Proved: `run_locked`: in every run where a stop submits its worker only once the flag's earlier workers have cleared the
  lock, and no worker clears the lock between its submission and the setting of the lock, at most one client runs for
  each flag, and at rest the lock is set exactly for the flags with a client; a start needs no condition, since it finds
  the lock set. Without these the lock and the clients part (`a_stopped_worker_clears_the_lock_of_the_next`).
-/

import Mathlib.Logic.Function.Basic
import RlccQuic.Lib.Run

namespace RlccQuic.Mininet.Orchestrator

open Lib List Function

/-! ## State -/

inductive Cmd (φ : Type) where
  | start (f : φ)
  | stop (f : φ)
  deriving DecidableEq, Repr

/-- Where `run_train` is with the message it handles. -/
inductive Pc (φ : Type) where
  | idle
  /-- A stop, before `del_lock`. -/
  | delLock (f : φ)
  | kill (f : φ)
  | check (f : φ)
  /-- The lock was clear: before the link is set up. -/
  | link (f : φ)
  | submit (f : φ)
  | setLock (f : φ)
  deriving DecidableEq, Repr

inductive Phase where
  | queued
  | running
  /-- The client process has ended; the lock is not cleared yet. -/
  | ended
  | unlocked
  | done
  deriving DecidableEq, Repr

structure Orch (φ : Type) where
  inbox : List (Cmd φ)
  pc : Pc φ
  lock : φ → Bool
  /-- The workers of a flag, in the order of their submission. -/
  workers : φ → List Phase

def Orch.init {φ : Type} : Orch φ := { inbox := [], pc := .idle, lock := fun _ => false, workers := fun _ => [] }

/-! ## Steps -/

inductive Ev (φ : Type) where
  | message (c : Cmd φ)
  | recv (c : Cmd φ)
  | delLock (f : φ)
  /-- The stop of `f` kills the given worker's client, or finds none. -/
  | kill (f : φ) (victim : Option (φ × Nat))
  | check (f : φ)
  | link (f : φ)
  | submit (f : φ)
  | setLock (f : φ)
  | begin (f : φ) (k : Nat)
  | finish (f : φ) (k : Nat)
  | unlock (f : φ) (k : Nat)
  | publishDone (f : φ) (k : Nat)
  deriving DecidableEq, Repr

variable {φ : Type} [DecidableEq φ]

def Cmd.pc : Cmd φ → Pc φ
  | .start f => .check f
  | .stop f => .delLock f

def Orch.setPhase (s : Orch φ) (f : φ) (k : Nat) (p : Phase) : Orch φ :=
  { s with workers := update s.workers f ((s.workers f).set k p) }

inductive Step : Orch φ → Ev φ → Orch φ → Prop
  | message {s c} : Step s (.message c) { s with inbox := s.inbox ++ [c] }
  | recv {s c rest} : s.pc = .idle → s.inbox = c :: rest → Step s (.recv c) { s with inbox := rest, pc := c.pc }
  | delLock {s f} : s.pc = .delLock f →
    Step s (.delLock f) { s with lock := update s.lock f false, pc := .kill f }
  | kill {s f g k} : s.pc = .kill f → (s.workers g)[k]? = some .running →
    Step s (.kill f (some (g, k))) { s.setPhase g k .ended with pc := .check f }
  | killNone {s f} : s.pc = .kill f → (∀ g, .running ∉ s.workers g) →
    Step s (.kill f none) { s with pc := .check f }
  | check {s f} : s.pc = .check f →
    Step s (.check f) { s with pc := if s.lock f then .idle else .link f }
  | link {s f} : s.pc = .link f → Step s (.link f) { s with pc := .submit f }
  | submit {s f} : s.pc = .submit f →
    Step s (.submit f)
      { s with workers := update s.workers f (s.workers f ++ [.queued]), pc := .setLock f }
  | setLock {s f} : s.pc = .setLock f →
    Step s (.setLock f) { s with lock := update s.lock f true, pc := .idle }
  | begin {s f k} : (s.workers f)[k]? = some .queued → Step s (.begin f k) (s.setPhase f k .running)
  | finish {s f k} : (s.workers f)[k]? = some .running → Step s (.finish f k) (s.setPhase f k .ended)
  | unlock {s f k} : (s.workers f)[k]? = some .ended →
    Step s (.unlock f k) { s.setPhase f k .unlocked with lock := update s.lock f false }
  | publishDone {s f k} : (s.workers f)[k]? = some .unlocked → Step s (.publishDone f k) (s.setPhase f k .done)

/-! ## Flags -/

def Cmd.flag : Cmd φ → φ
  | .start f | .stop f => f

def Pc.flag : Pc φ → Option φ
  | .idle => none
  | .delLock f | .kill f | .check f | .link f | .submit f | .setLock f => some f

/-- The flag an event is about; the client a stop kills may be of another one. -/
def Ev.flag : Ev φ → φ
  | .message c | .recv c => c.flag
  | .delLock f | .kill f _ | .check f | .link f | .submit f | .setLock f => f
  | .begin f _ | .finish f _ | .unlock f _ | .publishDone f _ => f

lemma step_det (s : Orch φ) (e : Ev φ) (t u : Orch φ) (ht : Step s e t) (hu : Step s e u) : t = u := by
  cases ht with
  | recv hpc hin =>
    cases hu with
    | recv hpc' hin' => rw [hin] at hin'; cases hin'; rfl
  | _ => cases hu; rfl

/-! ## Clients and locks -/

def Phase.live : Phase → Bool
  | .queued | .running | .ended => true
  | .unlocked | .done => false

def Orch.live (s : Orch φ) (f : φ) : Nat := (s.workers f).countP Phase.live

def Orch.running (s : Orch φ) (f : φ) : Nat := (s.workers f).count .running

/-- Nothing is being handled: the loop waits for a message, every submitted client
    has started, and every ended one has cleared the lock. -/
def Orch.atRest (s : Orch φ) : Prop := s.pc = .idle ∧ ∀ f, .queued ∉ s.workers f ∧ .ended ∉ s.workers f

/-- At most one client for each flag, and at rest the lock says which flags have one. -/
structure Locked (s : Orch φ) : Prop where
  single : ∀ f, s.running f ≤ 1
  lock : s.atRest → ∀ f, s.lock f = true ↔ s.running f = 1

/-- Beside the state, whether the message that was taken last is a stop. -/
abbrev Noted (φ : Type) := Orch φ × Bool

def Ev.note : Ev φ → Bool → Bool
  | .recv (.start _), _ => false
  | .recv (.stop _), _ => true
  | _, stop => stop

def NotedStep (x : Noted φ) (e : Ev φ) (y : Noted φ) : Prop := Step x.1 e y.1 ∧ y.2 = e.note x.2

/-- A stop submits its worker only when the earlier ones of its flag have cleared the
    lock, and none clears it between a submission and the setting of the lock. -/
def Tidy (x : Noted φ) : Ev φ → Prop
  | .submit f => x.2 = true → x.1.live f = 0
  | .unlock f _ => x.1.pc ≠ .setLock f
  | _ => True

/-! ## Phase changes -/

variable {s : Orch φ} {f : φ} {k : Nat}

lemma live_setPhase {q : Phase} (p : Phase) (h : (s.workers f)[k]? = some q) :
    (s.setPhase f k p).live f + q.live.toNat = s.live f + p.live.toNat := by
  obtain ⟨hk, hq⟩ := List.getElem?_eq_some_iff.mp h
  have hpos : q.live = true → 0 < (s.workers f).countP Phase.live := by
    intro hl; exact countP_pos_iff.mpr ⟨q, hq ▸ getElem_mem hk, hl⟩
  simp only [Orch.live, Orch.setPhase, update_self]; rw [countP_set hk, hq]
  cases hl : q.live with
  | false => cases p.live <;> simp
  | true =>
    have := hpos hl
    cases p.live <;> simp <;> omega

lemma live_setPhase_of_ne {g : φ} (k : Nat) (p : Phase) (h : g ≠ f) : (s.setPhase f k p).live g = s.live g := by
  simp only [Orch.live, Orch.setPhase, update_of_ne h]

lemma live_setPhase_same {q : Phase} (p : Phase) (h : (s.workers f)[k]? = some q)
    (hp : p.live = q.live) (g : φ) : (s.setPhase f k p).live g = s.live g := by
  by_cases hg : g = f
  · subst hg
    have := live_setPhase p h
    rw [hp] at this; omega
  · exact live_setPhase_of_ne k p hg

/-! ## The invariant -/

/-- The loop is past the point where it clears the lock of `f`, or starts `f`. -/
def Pc.handles : Pc φ → φ → Bool
  | .kill g, f | .check g, f | .link g, f | .submit g, f | .setLock g, f => g = f
  | .idle, _ | .delLock _, _ => false

/-- The loop has passed the test of the lock of `f`, and not submitted its worker. -/
def Pc.passed : Pc φ → φ → Bool
  | .link g, f | .submit g, f => g = f
  | _, _ => false

/-- What holds of one flag between two steps of a tidy run. -/
structure InvAt (s : Orch φ) (stop : Bool) (f : φ) : Prop where
  single : s.live f ≤ 1
  locked : s.lock f = true → s.live f = 1
  /-- Only a stop, or the submission itself, has a client without the lock. -/
  clear : s.live f = 1 → s.lock f = true ∨ (s.pc.handles f = true ∧ (stop = true ∨ s.pc = .setLock f))
  submitted : s.pc = .setLock f → s.live f = 1
  passed : s.pc.passed f = true → s.lock f = false

def Inv (x : Noted φ) : Prop := ∀ f, InvAt x.1 x.2 f

lemma inv_init : Inv ((Orch.init, false) : Noted φ) :=
  fun _ => ⟨Nat.zero_le _, fun h => (by cases h), fun h => (by cases h), fun h => (by cases h), fun h => (by cases h)⟩

variable {stop : Bool}

/-- A change that keeps the live workers and the lock of `f`, and moves the loop on. -/
lemma InvAt.move {t : Orch φ} (hs : InvAt s stop f) (hlive : t.live f = s.live f) (hlock : t.lock f = s.lock f)
    (hpc : s.pc.handles f = true → stop = true ∨ s.pc = .setLock f →
      (t.pc.handles f = true ∧ (stop = true ∨ t.pc = .setLock f)) ∨ s.lock f = true)
    (hset : t.pc = .setLock f → s.pc = .setLock f)
    (hpass : t.pc.passed f = true → s.pc.passed f = true ∨ s.lock f = false) : InvAt t stop f := by
  refine ⟨?_, fun h => ?_, fun h => ?_, fun h => ?_, fun h => ?_⟩
  · rw [hlive]; exact hs.single
  · rw [hlock] at h; rw [hlive]; exact hs.locked h
  · rw [hlive] at h
    rw [hlock]
    rcases hs.clear h with h' | ⟨h1, h2⟩
    · exact .inl h'
    · exact (hpc h1 h2).symm
  · rw [hlive]; exact hs.submitted (hset h)
  · rw [hlock]; exact (hpass h).elim hs.passed id

/-- A change that leaves the loop where it is. -/
lemma InvAt.same {t : Orch φ} (hs : InvAt s stop f) (hlive : t.live f = s.live f) (hlock : t.lock f = s.lock f)
    (hpc : t.pc = s.pc) : InvAt t stop f :=
  hs.move hlive hlock (fun h1 h2 => .inl (by rw [hpc]; exact ⟨h1, h2⟩)) (fun h => hpc ▸ h) (fun h => .inl (hpc ▸ h))

lemma inv_delLock (hs : Inv (s, true)) (hpc : s.pc = .delLock f) :
    Inv ({ s with pc := .kill f, lock := update s.lock f false }, true) := by
  intro g
  by_cases hg : g = f
  · subst hg
    refine ⟨(hs g).single, fun h => ?_, fun _ => .inr ⟨by simp [Pc.handles], .inl rfl⟩, fun h => (by cases h),
      fun h => (by cases h)⟩
    simp at h
  · refine (hs g).move rfl (update_of_ne hg ..) (fun h => ?_) (fun h => (by cases h)) (fun h => (by cases h))
    have h : s.pc.handles g = true := h
    rw [hpc] at h; cases h

/-- The worker of a start is submitted when the test of the lock has found it clear, and so without a live worker. -/
lemma live_submit (hs : Inv (s, stop)) (hpc : s.pc = .submit f) (hstop : stop = true → s.live f = 0) : s.live f = 0 := by
  cases stop with
  | true => exact hstop rfl
  | false =>
    have hclear : s.lock f = false := (hs f).passed (show s.pc.passed f = true by rw [hpc]; simp [Pc.passed])
    have hle : s.live f ≤ 1 := (hs f).single
    by_contra hne
    rcases (hs f).clear (show s.live f = 1 by omega) with h | ⟨-, h | h⟩
    · exact absurd (hclear.symm.trans h) (by decide)
    · cases h
    · exact absurd (hpc.symm.trans h) (by simp)

lemma inv_submit (hs : Inv (s, stop)) (hpc : s.pc = .submit f) (hzero : s.live f = 0) :
    Inv ({ s with pc := .setLock f, workers := update s.workers f (s.workers f ++ [.queued]) }, stop) := by
  intro g
  by_cases hg : g = f
  · subst hg
    have hone : ({ s with pc := .setLock g, workers := update s.workers g (s.workers g ++ [.queued]) } :
        Orch φ).live g = 1 := by
      simp only [Orch.live, update_self, countP_append]
      rw [show (s.workers g).countP Phase.live = 0 from hzero]
      simp [Phase.live]
    exact ⟨Nat.le_of_eq hone, fun _ => hone, fun _ => .inr ⟨by simp [Pc.handles], .inr rfl⟩, fun _ => hone,
      fun h => (by cases h)⟩
  · refine (hs g).move ?_ rfl (fun h => ?_) (fun h => ?_) (fun h => (by cases h))
    · simp only [Orch.live, update_of_ne hg]
    · have h : s.pc.handles g = true := h
      rw [hpc] at h; exact absurd (by simpa [Pc.handles] using h) (Ne.symm hg)
    · cases h; exact absurd rfl hg

lemma inv_setLock (hs : Inv (s, stop)) (hpc : s.pc = .setLock f) :
    Inv ({ s with pc := .idle, lock := update s.lock f true }, stop) := by
  intro g
  by_cases hg : g = f
  · subst hg
    exact ⟨(hs g).single, fun _ => (hs g).submitted hpc, fun _ => .inl (update_self ..), fun h => (by cases h),
      fun h => (by cases h)⟩
  · refine (hs g).move rfl (update_of_ne hg ..) (fun h => ?_) (fun h => (by cases h)) (fun h => (by cases h))
    have h : s.pc.handles g = true := h
    rw [hpc] at h; exact absurd (by simpa [Pc.handles] using h) (Ne.symm hg)

lemma inv_unlock (hs : Inv (s, stop)) (hw : (s.workers f)[k]? = some .ended) (hpc : s.pc ≠ .setLock f) :
    Inv ({ s.setPhase f k .unlocked with lock := update s.lock f false }, stop) := by
  intro g
  by_cases hg : g = f
  · subst hg
    have hzero : (s.setPhase g k .unlocked).live g = 0 := by
      have h1 := live_setPhase .unlocked hw
      have h2 : s.live g ≤ 1 := (hs g).single
      simp only [Phase.live, Bool.toNat_true, Bool.toNat_false] at h1; omega
    refine ⟨Nat.le_trans (Nat.le_of_eq hzero) (Nat.zero_le _), fun h => ?_, fun h => ?_, fun h => absurd h hpc,
      fun _ => update_self ..⟩
    · simp at h
    · exact absurd (hzero.symm.trans h) (by decide)
  · exact (hs g).same (live_setPhase_of_ne k _ hg) (update_of_ne hg ..) rfl

/-- The loop goes on with the same message, and neither submits nor sets the lock. -/
lemma InvAt.on {t : Orch φ} (hs : InvAt s stop f) (hlive : t.live f = s.live f) (hlock : t.lock f = s.lock f)
    (hhandles : t.pc.handles f = s.pc.handles f) (hset : ∀ g, s.pc ≠ .setLock g ∧ t.pc ≠ .setLock g)
    (hpass : t.pc.passed f = true → s.pc.passed f = true) : InvAt t stop f := by
  refine hs.move hlive hlock (fun h1 h2 => .inl ⟨hhandles.trans h1, ?_⟩) (fun h => absurd h (hset f).2) (fun h => .inl (hpass h))
  exact h2.imp_right fun h => absurd h (hset f).1

/-- The message in hand, while the loop is before the kill of a stop. -/
def Stopping (x : Noted φ) : Prop := ∀ f, x.1.pc = .delLock f → x.2 = true

lemma step_stopping {x y : Noted φ} {e : Ev φ} (hx : Stopping x) (h : NotedStep x e y) : Stopping y := by
  obtain ⟨hstep, hnote⟩ := h
  obtain ⟨s, stop⟩ := x
  obtain ⟨t, stop'⟩ := y
  intro f hf
  have hf : t.pc = .delLock f := hf
  cases hstep with
  | @recv c rest hpc _ => cases c with
    | start g => cases hf
    | stop g => exact hnote
  | check hpc => dsimp only at hf; split at hf <;> cases hf
  | message | begin _ | finish _ | unlock _ | publishDone _ => exact hnote.trans (hx f hf)
  | _ => cases hf

lemma step_inv (x : Noted φ) (e : Ev φ) (y : Noted φ) (hx : Inv x ∧ Stopping x) (h : Guard Tidy NotedStep x e y) :
    Inv y ∧ Stopping y := by
  obtain ⟨htidy, hnoted⟩ := h
  refine ⟨?_, step_stopping hx.2 hnoted⟩
  obtain ⟨s, stop⟩ := x
  obtain ⟨t, stop'⟩ := y
  obtain ⟨hstep, hnote⟩ := hnoted
  obtain ⟨hs, hstop⟩ := hx
  dsimp only at hstep hnote
  cases hstep with
  | message => subst hnote; exact fun f => (hs f).same rfl rfl rfl
  | @recv c rest hpc _ =>
    have hs : ∀ f, InvAt s stop f := hs
    have hidle : ∀ f, InvAt s stop' f := by
      refine fun f => ⟨(hs f).single, (hs f).locked, fun h => ?_, (hs f).submitted, (hs f).passed⟩
      rcases (hs f).clear h with h | ⟨h, -⟩
      · exact .inl h
      · rw [hpc] at h; cases h
    refine fun f => (hidle f).move rfl rfl (fun h => ?_) (fun h => ?_) (fun h => ?_)
    · rw [hpc] at h; cases h
    · cases c <;> cases h
    · cases c <;> cases h
  | delLock hpc =>
    obtain rfl : stop = true := hstop _ hpc
    subst hnote; exact inv_delLock hs hpc
  | kill hpc hw =>
    subst hnote
    exact fun f => (hs f).on (live_setPhase_same .ended hw rfl f) rfl (by rw [hpc]; rfl) (by simp [hpc]) nofun
  | killNone hpc _ =>
    subst hnote; exact fun f => (hs f).on rfl rfl (by rw [hpc]; rfl) (by simp [hpc]) nofun
  | @check f hpc =>
    subst hnote
    refine fun g => (hs g).move rfl rfl (fun h h2 => ?_) (fun h => ?_) (fun h => ?_)
    · rw [hpc] at h h2
      obtain rfl : f = g := by simpa [Pc.handles] using h
      cases hl : s.lock f with
      | true => exact .inr rfl
      | false => left; simpa [Pc.handles] using h2
    · cases hl : s.lock f <;> simp [hl] at h
    · cases hl : s.lock f with
      | true => simp [hl, Pc.passed] at h
      | false =>
        obtain rfl : f = g := by simpa [hl, Pc.passed] using h
        exact .inr hl
  | link hpc =>
    subst hnote
    exact fun f => (hs f).on rfl rfl (by rw [hpc]; rfl) (by simp [hpc]) (fun h => by rw [hpc]; exact h)
  | submit hpc => subst hnote; exact inv_submit hs hpc (live_submit hs hpc htidy)
  | setLock hpc => subst hnote; exact inv_setLock hs hpc
  | begin hw => subst hnote; exact fun f => (hs f).same (live_setPhase_same .running hw rfl f) rfl rfl
  | finish hw => subst hnote; exact fun f => (hs f).same (live_setPhase_same .ended hw rfl f) rfl rfl
  | unlock hw => subst hnote; exact inv_unlock hs hw htidy
  | publishDone hw => subst hnote; exact fun f => (hs f).same (live_setPhase_same .done hw rfl f) rfl rfl

/-! ## Runs -/

omit [DecidableEq φ] in
lemma running_le_live (s : Orch φ) (f : φ) : s.running f ≤ s.live f := by
  refine countP_mono_left fun p _ hp => ?_
  obtain rfl : p = .running := by simpa using hp
  rfl

omit [DecidableEq φ] in
lemma live_eq_running (h : s.atRest) (f : φ) : s.live f = s.running f := by
  obtain ⟨hq, he⟩ := h.2 f
  refine countP_congr fun p hp => ?_
  cases p with
  | queued => exact absurd hp hq
  | ended => exact absurd hp he
  | running | unlocked | done => decide

lemma Inv.locked (hs : Inv (s, stop)) : Locked s := by
  refine ⟨fun f => Nat.le_trans (running_le_live s f) (hs f).single, fun hrest f => ⟨fun h => ?_, fun h => ?_⟩⟩
  · rw [← live_eq_running hrest]; exact (hs f).locked h
  · rw [← live_eq_running hrest] at h
    rcases (hs f).clear h with h' | ⟨h', -⟩
    · exact h'
    · have h' : s.pc.handles f = true := h'
      rw [hrest.1] at h'; cases h'

/-- In every run whose stops submit a worker when no worker of the flag is live, and whose
    workers do not clear the lock just before the loop sets it, the lock and the
    clients agree in every state. -/
theorem run_locked (es : List (Ev φ)) (s : Orch φ) (stop : Bool)
    (h : Run (Guard Tidy NotedStep) (Orch.init, false) es (s, stop)) : Locked s :=
  (Run.inv (P := fun x => Inv x ∧ Stopping x) step_inv ⟨inv_init, fun _ h => (by cases h)⟩ h).1.locked

lemma noted_cons {s t : Orch φ} {stop : Bool} {e : Ev φ} {es : List (Ev φ)} {y : Noted φ} (htidy : Tidy (s, stop) e)
    (h : Step s e t) (hr : Run (Guard Tidy NotedStep) (t, e.note stop) es y) :
    Run (Guard Tidy NotedStep) (s, stop) (e :: es) y :=
  .cons ⟨htidy, h, rfl⟩ hr

/-- One client is started, a second start finds the lock set, and the third one, after the client has ended, starts one. -/
theorem a_restarted_client_holds_the_lock :
    ∃ s : Orch Unit, Run (Guard Tidy NotedStep) (Orch.init, false)
      [.message (.start ()), .recv (.start ()), .check (), .link (), .submit (), .setLock (), .begin () 0,
        .message (.start ()), .recv (.start ()), .check (), .finish () 0, .unlock () 0, .publishDone () 0,
        .message (.start ()), .recv (.start ()), .check (), .link (), .submit (), .setLock (), .begin () 1] (s, false) ∧
      s.running () = 1 ∧ s.lock () = true ∧ Locked s := by
  refine Exists.imp (p := fun s => Run _ _ _ (s, false) ∧ s.running () = 1 ∧ s.lock () = true)
    (fun s h => ⟨h.1, h.2.1, h.2.2, run_locked _ s false h.1⟩) ?_
  exact
    ⟨_, noted_cons trivial .message <| noted_cons trivial (.recv rfl rfl) <| noted_cons trivial (.check rfl) <|
      noted_cons trivial (.link rfl) <| noted_cons nofun (.submit rfl) <| noted_cons trivial (.setLock rfl) <|
      noted_cons trivial (.begin rfl) <| noted_cons trivial .message <| noted_cons trivial (.recv rfl rfl) <|
      noted_cons trivial (.check rfl) <| noted_cons trivial (.finish rfl) <| noted_cons nofun (.unlock rfl) <|
      noted_cons trivial (.publishDone rfl) <| noted_cons trivial .message <| noted_cons trivial (.recv rfl rfl) <|
      noted_cons trivial (.check rfl) <| noted_cons trivial (.link rfl) <| noted_cons nofun (.submit rfl) <|
      noted_cons trivial (.setLock rfl) <| noted_cons trivial (.begin rfl) .nil, by decide⟩

lemma unlocked_beside_a_client {s : Orch Unit} (hpc : s.pc = .idle) (hw : s.workers () = [.done, .running])
    (hl : s.lock () = false) : s.atRest ∧ s.running () = 1 ∧ s.lock () = false ∧ ¬ Locked s := by
  have hrest : s.atRest := ⟨hpc, fun f => by rw [hw]; decide⟩
  have hr : s.running () = 1 := by
    rw [Orch.running, hw]
    decide
  refine ⟨hrest, hr, hl, fun hs => ?_⟩
  rw [(hs.lock hrest ()).mpr hr] at hl; cases hl

/-- A stop kills the client, and its worker clears the lock only after the loop has
    submitted the next worker and set the lock: the next client runs unlocked. -/
theorem a_stopped_worker_clears_the_lock_of_the_next :
    ∃ s : Orch Unit, Run Step Orch.init
      [.message (.start ()), .recv (.start ()), .check (), .link (), .submit (), .setLock (), .begin () 0,
        .message (.stop ()), .recv (.stop ()), .delLock (), .kill () (some ((), 0)), .check (), .link (),
        .submit (), .setLock (), .unlock () 0, .begin () 1, .publishDone () 0] s ∧
      s.atRest ∧ s.running () = 1 ∧ s.lock () = false ∧ ¬ Locked s := by
  refine Exists.imp (p := fun s => Run _ _ _ s ∧ s.pc = .idle ∧ s.workers () = [.done, .running] ∧ s.lock () = false)
    (fun s h => ⟨h.1, unlocked_beside_a_client h.2.1 h.2.2.1 h.2.2.2⟩) ?_
  exact
    ⟨_, .cons .message <| .cons (.recv rfl rfl) <| .cons (.check rfl) <| .cons (.link rfl) <|
      .cons (.submit rfl) <| .cons (.setLock rfl) <| .cons (.begin rfl) <|
      .cons .message <| .cons (.recv rfl rfl) <| .cons (.delLock rfl) <| .cons (.kill rfl rfl) <|
      .cons (.check rfl) <| .cons (.link rfl) <| .cons (.submit rfl) <| .cons (.setLock rfl) <|
      .cons (.unlock rfl) <| .cons (.begin rfl) <| .cons (.publishDone rfl) .nil, by decide⟩

end RlccQuic.Mininet.Orchestrator
