/-
  RlccQuic.CongestionControl.Signal — reports, signals and actions: the sender thread, the listener thread and the
  environment of each connection of one process.

  On a report the sender publishes the state, then locks, signals and unlocks. The listener locks, waits (which releases
  the lock), and once woken and holding the lock again reads one reply and applies it. The condition variable and the
  mutex are file statics: all connections share them. A signal wakes one waiting listener of any connection; with none
  waiting it is lost. The environment of a connection reads one state and publishes one action; the channels are FIFO.

  (1) `applied_pairs_with_published`: in every interleaving the k-th action applied is the one computed from the first k
  states, after the k-th was published; and while a listener holds the lock for its reply, its sender publishes at most
  one more state. The sender never waits for an action: the next state may go out first
  (`a_second_state_goes_out_before_the_first_action`). (2) `isolated_iff`: connections do not interfere exactly when
  there is at most one and the wait only returns on a signal.
-/

import Mathlib.Logic.IsEmpty.Basic
import RlccQuic.Lib.Run
import RlccQuic.Lib.Text

namespace RlccQuic.CongestionControl.Signal

open Lib Lib.Text List Function

/-! ## State -/

inductive Sender where
  | idle
  /-- The state is out, the lock not taken yet. -/
  | published
  | locked
  | signalled
  deriving DecidableEq, Repr

inductive Listener where
  | start
  | locked
  | waiting
  /-- Signalled, but without the lock. -/
  | woken
  /-- In `redisGetReply`, holding the lock. -/
  | reading
  | answered
  deriving DecidableEq, Repr

inductive Side where
  | sender
  | listener
  deriving DecidableEq, Repr

/-- The two channels of a connection, with what went through them, oldest first. -/
structure Chan where
  published : List Text
  unread : List Text
  seen : List Text
  /-- The environment has read a state and not published its action yet. -/
  owes : Bool
  acted : List Text
  pending : List Text
  applied : List Text
  deriving DecidableEq, Repr

def Chan.init : Chan :=
  { published := [], unread := [], seen := [], owes := false, acted := [], pending := [], applied := [] }

structure St (ι : Type) where
  sender : ι → Sender
  listener : ι → Listener
  chan : ι → Chan
  mutex : Option (ι × Side)

def St.init {ι : Type} : St ι :=
  { sender := fun _ => .idle, listener := fun _ => .start, chan := fun _ => .init, mutex := none }

/-! ## Steps -/

inductive Ev (ι : Type) where
  | publish (i : ι) (x : Text)
  | senderLock (i : ι)
  /-- With the listener it wakes, if any waits. -/
  | signal (i : ι) (woken : Option ι)
  | senderUnlock (i : ι)
  | listenerLock (i : ι)
  | wait (i : ι)
  /-- The wait returns without a signal. -/
  | spurious (i : ι)
  | wake (i : ι)
  | read (i : ι)
  /-- `redisGetReply` fails: nothing is applied. -/
  | readError (i : ι)
  | listenerUnlock (i : ι)
  | envRead (i : ι)
  | envAct (i : ι)
  deriving DecidableEq, Repr

variable {ι : Type} [DecidableEq ι]

/-- The steps of the threads and of the environments. `agent` is what the environment computes from the states it has
    seen; `sp` says whether a wait may return without a signal. -/
inductive Step (agent : List Text → Text) (sp : Bool) : St ι → Ev ι → St ι → Prop
  | publish {s i x} : s.sender i = .idle →
    Step agent sp s (.publish i x)
      { s with
        sender := update s.sender i .published
        chan := update s.chan i
          { s.chan i with published := (s.chan i).published ++ [x], unread := (s.chan i).unread ++ [x] } }
  | senderLock {s i} : s.sender i = .published → s.mutex = none →
    Step agent sp s (.senderLock i)
      { s with sender := update s.sender i .locked, mutex := some (i, .sender) }
  | signal {s i j} : s.sender i = .locked → s.listener j = .waiting →
    Step agent sp s (.signal i (some j))
      { s with
        sender := update s.sender i .signalled, listener := update s.listener j .woken }
  | signalLost {s i} : s.sender i = .locked → (∀ j, s.listener j ≠ .waiting) →
    Step agent sp s (.signal i none) { s with sender := update s.sender i .signalled }
  | senderUnlock {s i} : s.sender i = .signalled →
    Step agent sp s (.senderUnlock i) { s with sender := update s.sender i .idle, mutex := none }
  | listenerLock {s i} : s.listener i = .start → s.mutex = none →
    Step agent sp s (.listenerLock i)
      { s with listener := update s.listener i .locked, mutex := some (i, .listener) }
  | wait {s i} : s.listener i = .locked →
    Step agent sp s (.wait i) { s with listener := update s.listener i .waiting, mutex := none }
  | spurious {s i} : sp = true → s.listener i = .waiting →
    Step agent sp s (.spurious i) { s with listener := update s.listener i .woken }
  | wake {s i} : s.listener i = .woken → s.mutex = none →
    Step agent sp s (.wake i)
      { s with listener := update s.listener i .reading, mutex := some (i, .listener) }
  | read {s i a rest} : s.listener i = .reading → (s.chan i).pending = a :: rest →
    Step agent sp s (.read i)
      { s with
        listener := update s.listener i .answered
        chan := update s.chan i
          { s.chan i with pending := rest, applied := (s.chan i).applied ++ [a] } }
  | readError {s i} : s.listener i = .reading →
    Step agent sp s (.readError i) { s with listener := update s.listener i .answered }
  | listenerUnlock {s i} : s.listener i = .answered →
    Step agent sp s (.listenerUnlock i) { s with listener := update s.listener i .start, mutex := none }
  | envRead {s i x rest} : (s.chan i).owes = false → (s.chan i).unread = x :: rest →
    Step agent sp s (.envRead i)
      { s with
        chan := update s.chan i
          { s.chan i with unread := rest, seen := (s.chan i).seen ++ [x], owes := true } }
  | envAct {s i} : (s.chan i).owes = true →
    Step agent sp s (.envAct i)
      { s with
        chan := update s.chan i
          { s.chan i with
            owes := false
            acted := (s.chan i).acted ++ [agent (s.chan i).seen]
            pending := (s.chan i).pending ++ [agent (s.chan i).seen] } }

/-! ## The channels -/

/-- Nothing is lost or reordered on the two channels, and each action was computed from the states up to its own. -/
structure ChanInv (agent : List Text → Text) (c : Chan) : Prop where
  states : c.published = c.seen ++ c.unread
  actions : c.acted = c.applied ++ c.pending
  count : c.acted.length + c.owes.toNat = c.seen.length
  computed : ∀ k a, c.acted[k]? = some a → a = agent (c.seen.take (k + 1))

lemma ChanInv.init (agent : List Text → Text) : ChanInv agent .init :=
  ⟨rfl, rfl, rfl, fun _ _ h => by cases h⟩

variable {agent : List Text → Text} {c : Chan}

lemma ChanInv.publish (h : ChanInv agent c) (x : Text) :
    ChanInv agent { c with published := c.published ++ [x], unread := c.unread ++ [x] } :=
  ⟨by simp only [h.states, append_assoc], h.actions, h.count, h.computed⟩

lemma ChanInv.read {a : Text} {rest : List Text} (h : ChanInv agent c)
    (hp : c.pending = a :: rest) : ChanInv agent { c with pending := rest, applied := c.applied ++ [a] } :=
  ⟨h.states, by simp only [h.actions, hp, append_assoc, singleton_append], h.count, h.computed⟩

lemma ChanInv.envRead {x : Text} {rest : List Text} (h : ChanInv agent c)
    (ho : c.owes = false) (hu : c.unread = x :: rest) :
    ChanInv agent { c with unread := rest, seen := c.seen ++ [x], owes := true } := by
  have hlen : c.acted.length = c.seen.length := by
    have := h.count
    rw [ho] at this
    simpa using this
  refine ⟨by simp only [h.states, hu, append_assoc, singleton_append], h.actions, ?_, ?_⟩
  · simp [hlen]
  · intro k a hk
    -- the actions so far were computed from states that were already there
    have hlt : k < c.acted.length := by
      rcases Nat.lt_or_ge k c.acted.length with h' | h'
      · exact h'
      · rw [getElem?_eq_none h'] at hk; cases hk
    have htake : (c.seen ++ [x]).take (k + 1) = c.seen.take (k + 1) := take_append_of_le_length (by omega)
    simp only [htake]; exact h.computed k a hk

lemma ChanInv.envAct (h : ChanInv agent c) (ho : c.owes = true) :
    ChanInv agent
      { c with owes := false, acted := c.acted ++ [agent c.seen], pending := c.pending ++ [agent c.seen] } := by
  have hlen : c.acted.length + 1 = c.seen.length := by
    have := h.count
    rw [ho] at this
    simpa using this
  refine ⟨h.states, by simp only [h.actions, append_assoc], by simp [hlen], ?_⟩
  intro k a hk
  rcases Nat.lt_or_ge k c.acted.length with hlt | hge
  · rw [getElem?_append_left hlt] at hk; exact h.computed k a hk
  · rw [getElem?_append_right hge] at hk
    have hk0 : k = c.acted.length := by
      rcases Nat.eq_zero_or_pos (k - c.acted.length) with h0 | hpos
      · omega
      · rw [getElem?_eq_none (by simp only [length_singleton]; omega)] at hk; cases hk
    subst hk0
    simp only [Nat.sub_self, getElem?_cons_zero, Option.some.injEq] at hk
    simp only [hlen, take_length]; exact hk.symm

variable {sp : Bool}

lemma step_chanInv (s : St ι) (e : Ev ι) (t : St ι)
    (hs : ∀ i, ChanInv agent (s.chan i)) (h : Step agent sp s e t) : ∀ i, ChanInv agent (t.chan i) := by
  have hupd : ∀ {i : ι} {c : Chan}, ChanInv agent c → ∀ j, ChanInv agent (update s.chan i c j) := by
    intro i c hc j
    by_cases hj : j = i
    · subst hj; rw [update_self]; exact hc
    · rw [update_of_ne hj]; exact hs j
  cases h with
  | publish _ => exact hupd ((hs _).publish _)
  | read _ hp => exact hupd ((hs _).read hp)
  | envRead ho hu => exact hupd ((hs _).envRead ho hu)
  | envAct ho => exact hupd ((hs _).envAct ho)
  | _ => exact hs

/-! ## The mutex -/

def Sender.holds : Sender → Bool
  | .locked | .signalled => true
  | .idle | .published => false

def Listener.holds : Listener → Bool
  | .locked | .reading | .answered => true
  | .start | .waiting | .woken => false

/-- Of the threads of one side, the one that holds the mutex is where its position says that it does. -/
def Owned {P : Type} (holds : P → Bool) (side : Side) (f : ι → P) (m : Option (ι × Side)) : Prop :=
  ∀ i, holds (f i) = true ↔ m = some (i, side)

section Owned

variable {P : Type} {holds : P → Bool} {side : Side} {f : ι → P} {m : Option (ι × Side)} {i : ι} {p : P}

lemma Owned.keep (h : Owned holds side f m) (hp : holds p = holds (f i)) :
    Owned holds side (update f i p) m := by
  intro j
  by_cases hj : j = i
  · subst hj; rw [update_self, hp]; exact h j
  · rw [update_of_ne hj]; exact h j

lemma Owned.take (h : Owned holds side f none) (hp : holds p = true) :
    Owned holds side (update f i p) (some (i, side)) := by
  intro j
  by_cases hj : j = i
  · subst hj; rw [update_self]; exact ⟨fun _ => rfl, fun _ => hp⟩
  · rw [update_of_ne hj]
    exact ⟨fun h' => (by cases (h j).mp h'), fun h' => (by cases h'; exact absurd rfl hj)⟩

lemma Owned.release (h : Owned holds side f m) (hi : holds (f i) = true) (hp : holds p = false) :
    Owned holds side (update f i p) none := by
  have hm := (h i).mp hi
  intro j
  by_cases hj : j = i
  · subst hj; rw [update_self, hp]; exact ⟨fun h' => (by cases h'), fun h' => (by cases h')⟩
  · rw [update_of_ne hj]
    refine ⟨fun h' => ?_, fun h' => (by cases h')⟩
    rw [(h j).mp h'] at hm; cases hm
    exact absurd rfl hj

omit [DecidableEq ι] in
lemma Owned.other {side' : Side} (hne : side' ≠ side) (h : Owned holds side f none) :
    Owned holds side f (some (i, side')) := by
  intro j
  exact ⟨fun h' => (by cases (h j).mp h'), fun h' => (by cases h'; exact absurd rfl hne)⟩

omit [DecidableEq ι] in
lemma Owned.other_released {side' : Side} (hne : side' ≠ side) (h : Owned holds side f (some (i, side'))) :
    Owned holds side f none := by
  intro j
  refine ⟨fun h' => ?_, fun h' => (by cases h')⟩
  cases (h j).mp h'
  exact absurd rfl hne

end Owned

structure MutexInv (s : St ι) : Prop where
  sender : Owned Sender.holds .sender s.sender s.mutex
  listener : Owned Listener.holds .listener s.listener s.mutex

omit [DecidableEq ι] in
lemma MutexInv.init : MutexInv (St.init : St ι) :=
  ⟨fun _ => ⟨fun h => (by cases h), fun h => (by cases h)⟩, fun _ => ⟨fun h => (by cases h), fun h => (by cases h)⟩⟩

variable {s : St ι} {i : ι}

lemma MutexInv.listenerRelease {p : Listener} (hs : MutexInv s)
    (hi : (s.listener i).holds = true) (hp : p.holds = false) :
    MutexInv { s with listener := update s.listener i p, mutex := none } := by
  have hm := (hs.listener i).mp hi
  have hsender := hs.sender
  rw [hm] at hsender
  exact ⟨hsender.other_released (by decide), hs.listener.release hi hp⟩

lemma step_mutexInv (s : St ι) (e : Ev ι) (t : St ι) (hs : MutexInv s) (h : Step agent sp s e t) : MutexInv t := by
  cases h with
  | publish hi => exact ⟨hs.sender.keep (by rw [hi]; rfl), hs.listener⟩
  | senderLock hi hm =>
    obtain ⟨h1, h2⟩ := hs
    rw [hm] at h1 h2; exact ⟨h1.take rfl, h2.other (by decide)⟩
  | signal hi hj => exact ⟨hs.sender.keep (by rw [hi]; rfl), hs.listener.keep (by rw [hj]; rfl)⟩
  | signalLost hi _ => exact ⟨hs.sender.keep (by rw [hi]; rfl), hs.listener⟩
  | @senderUnlock i hi =>
    have hh : (s.sender i).holds = true := by rw [hi]; rfl
    have hlistener := hs.listener
    rw [(hs.sender i).mp hh] at hlistener
    exact ⟨hs.sender.release hh rfl, hlistener.other_released (by decide)⟩
  | listenerLock hi hm =>
    obtain ⟨h1, h2⟩ := hs
    rw [hm] at h1 h2; exact ⟨h1.other (by decide), h2.take rfl⟩
  | wait hi => exact hs.listenerRelease (by rw [hi]; rfl) rfl
  | spurious _ hi => exact ⟨hs.sender, hs.listener.keep (by rw [hi]; rfl)⟩
  | wake hi hm =>
    obtain ⟨h1, h2⟩ := hs
    rw [hm] at h1 h2; exact ⟨h1.other (by decide), h2.take rfl⟩
  | read hi _ | readError hi => exact ⟨hs.sender, hs.listener.keep (by rw [hi]; rfl)⟩
  | listenerUnlock hi => exact hs.listenerRelease (by rw [hi]; rfl) rfl
  | envRead _ _ | envAct _ => exact ⟨hs.sender, hs.listener⟩

/-! ## (1) Pairing of states and actions -/

/-- While the listener of `i` holds the mutex for its reply, the sender of `i` can
    publish a state but gets no further. -/
lemma step_reading {t : St ι} {e : Ev ι} (hs : MutexInv s)
    (hr : s.listener i = .reading) (h : Step agent sp s e t) (h1 : e ≠ .read i) (h2 : e ≠ .readError i) :
    t.listener i = .reading ∧
      ((∃ x, e = .publish i x ∧ s.sender i = .idle ∧ t.sender i = .published) ∨
        ((∀ x, e ≠ .publish i x) ∧ t.sender i = s.sender i)) := by
  have hm : s.mutex = some (i, .listener) := (hs.listener i).mp (by rw [hr]; rfl)
  have hfree : s.mutex ≠ none := by rw [hm]; exact fun h => by cases h
  -- a sender that holds the mutex is not there at all
  have hsender : ∀ j, (s.sender j).holds = true → False := by
    intro j hj; rw [(hs.sender j).mp hj] at hm
    cases hm
  -- a step of a listener in another position is not one of `i`
  have hother : ∀ {j : ι} {p q : Listener}, s.listener j = p → p ≠ .reading →
      update s.listener j q i = .reading := by
    intro j p q hj hp
    have hne : i ≠ j := by rintro rfl; exact hp (hj.symm.trans hr)
    rw [update_of_ne hne]; exact hr
  cases h with
  | @publish j x hj =>
    refine ⟨hr, ?_⟩
    by_cases hij : j = i
    · subst hij; exact .inl ⟨x, rfl, hj, update_self ..⟩
    · right
      refine ⟨fun y hy => ?_, update_of_ne (fun h => hij h.symm) ..⟩
      cases hy; exact hij rfl
  | senderLock _ hn => exact absurd hn hfree
  | signal hj _ | signalLost hj _ | senderUnlock hj => exact (hsender _ (by rw [hj]; rfl)).elim
  | listenerLock _ hn => exact absurd hn hfree
  | wait hj | spurious _ hj => exact ⟨hother hj (by decide), .inr ⟨fun _ h => (by cases h), rfl⟩⟩
  | wake _ hn => exact absurd hn hfree
  | @read j _ _ hj _ =>
    have hne : i ≠ j := by rintro rfl; exact h1 rfl
    exact ⟨(update_of_ne hne ..).trans hr, .inr ⟨fun _ h => (by cases h), rfl⟩⟩
  | @readError j hj =>
    have hne : i ≠ j := by rintro rfl; exact h2 rfl
    exact ⟨(update_of_ne hne ..).trans hr, .inr ⟨fun _ h => (by cases h), rfl⟩⟩
  | listenerUnlock hj => exact ⟨hother hj (by decide), .inr ⟨fun _ h => (by cases h), rfl⟩⟩
  | envRead _ _ | envAct _ => exact ⟨hr, .inr ⟨fun _ h => (by cases h), rfl⟩⟩

def Ev.isPublish (i : ι) : Ev ι → Bool
  | .publish j _ => j = i
  | _ => false

lemma isPublish_false {e : Ev ι} (h : ∀ x, e ≠ .publish i x) : e.isPublish i = false := by
  cases e with
  | publish j x => simp only [Ev.isPublish, decide_eq_false_iff_not]; rintro rfl; exact h x rfl
  | _ => rfl

/-- While the listener waits for its reply, the states that went out are the one
    its sender now has to report, if it does not come from before. -/
lemma run_reading (hs : MutexInv s)
    (hr : s.listener i = .reading) {es : List (Ev ι)} {t : St ι} (h : Run (Step agent sp) s es t)
    (hes : ∀ e ∈ es, e ≠ .read i ∧ e ≠ .readError i) :
    MutexInv t ∧ t.listener i = .reading ∧ es.countP (Ev.isPublish i) ≤ if t.sender i = .published then 1 else 0 := by
  induction h with
  | nil => exact ⟨hs, hr, Nat.zero_le _⟩
  | @snoc es t e u _ hstep ih =>
    obtain ⟨hm, hl, hc⟩ := ih (fun e he => hes e (mem_append_left _ he))
    obtain ⟨hne1, hne2⟩ := hes e (mem_append_right _ (mem_singleton.mpr rfl))
    obtain ⟨hl', hcase⟩ := step_reading hm hl hstep hne1 hne2
    refine ⟨step_mutexInv _ _ _ hm hstep, hl', ?_⟩
    rw [countP_append]
    rcases hcase with ⟨x, rfl, hidle, hpub⟩ | ⟨hnot, hsame⟩
    · rw [hidle, if_neg (by decide)] at hc
      rw [hpub, if_pos rfl, countP_singleton]
      split <;> omega
    · rw [hsame, countP_singleton, isPublish_false hnot]; simpa using hc

/-- In every interleaving: the k-th action applied is the one computed from the
    states up to the k-th, which had been published; and while a listener holds the
    mutex for its reply, at most one more state of its connection goes out. -/
theorem applied_pairs_with_published (agent : List Text → Text) (sp : Bool) (es : List (Ev ι)) (s : St ι)
    (h : Run (Step agent sp) St.init es s) (i : ι) :
    (∀ k a, (s.chan i).applied[k]? = some a →
      k < (s.chan i).published.length ∧ a = agent ((s.chan i).published.take (k + 1))) ∧
    (s.listener i = .reading → ∀ es' t, Run (Step agent sp) s es' t → (∀ e ∈ es', e ≠ .read i ∧ e ≠ .readError i) →
      es'.countP (Ev.isPublish i) ≤ 1) := by
  have hchan : ChanInv agent (s.chan i) := h.inv step_chanInv (fun _ => .init agent) i
  have hmutex : MutexInv s := h.inv step_mutexInv .init
  constructor
  · intro k a hk
    have hlt : k < (s.chan i).applied.length := by
      rcases Nat.lt_or_ge k (s.chan i).applied.length with h' | h'
      · exact h'
      · rw [getElem?_eq_none h'] at hk; cases hk
    have hacted : (s.chan i).acted[k]? = some a := by
      rw [hchan.actions, getElem?_append_left hlt]; exact hk
    have hcount := hchan.count
    have hlen : k + 1 ≤ (s.chan i).seen.length := by
      rw [hchan.actions, length_append] at hcount; omega
    have htake : (s.chan i).published.take (k + 1) = (s.chan i).seen.take (k + 1) := by
      rw [hchan.states]; exact take_append_of_le_length hlen
    rw [htake, hchan.states, length_append]; exact ⟨by omega, hchan.computed k a hacted⟩
  · intro hr es' t hrun hes
    obtain ⟨_, _, hc⟩ := run_reading hmutex hr hrun hes
    split at hc <;> omega

/-- An agent that answers with the number of states it has seen. -/
def counting (seen : List Text) : Text := showInt seen.length

/-- One report before the listener has reached its wait: the signal is lost, and
    the next state goes out before the first action is applied. -/
theorem a_second_state_goes_out_before_the_first_action :
    ∃ s, Run (Step counting false) (St.init : St Unit)
        [.publish () ['a'], .senderLock (), .signal () none, .senderUnlock (), .publish () ['b']] s ∧
      ¬ (s.chan ()).published.length ≤ (s.chan ()).applied.length + 1 :=
  ⟨_, .cons (.publish rfl) (.cons (.senderLock rfl rfl) (.cons (.signalLost rfl (fun _ h => by cases h))
    (.cons (.senderUnlock rfl) (.cons (.publish rfl) .nil)))), by decide⟩

def round : List (Ev Unit) :=
  [.listenerLock (), .wait (), .publish () ['a'], .senderLock (), .signal () (some ()), .senderUnlock (), .wake (),
    .envRead (), .envAct (), .read ()]

lemma run_round : ∃ s, Run (Step counting false) St.init round s ∧ (s.chan ()).applied[0]? = some ['1'] :=
  ⟨_, .cons (.listenerLock rfl rfl) (.cons (.wait rfl) (.cons (.publish rfl) (.cons (.senderLock rfl rfl)
    (.cons (.signal rfl rfl) (.cons (.senderUnlock rfl) (.cons (.wake rfl rfl) (.cons (.envRead rfl rfl)
    (.cons (.envAct rfl) (.cons (.read rfl rfl) .nil))))))))), by decide⟩

theorem a_round_applies_the_action_of_its_state :
    ∃ s, Run (Step counting false) St.init round s ∧ ['1'] = counting ((s.chan ()).published.take 1) := by
  obtain ⟨s, hrun, ha⟩ := run_round
  exact ⟨s, hrun, ((applied_pairs_with_published counting false round s hrun ()).1 0 ['1'] ha).2⟩

/-! ## (2) Isolation of connections -/

/-- A signal wakes only the signaller's own listener; a listener waits for a reply
    only with a state of its own still unanswered; no sender waits for the mutex
    while the listener of another connection holds it and its channel is silent. -/
structure IsolatedAt (agent : List Text → Text) (sp : Bool) (s : St ι) : Prop where
  own : ∀ i j t, Step agent sp s (.signal i (some j)) t → j = i
  unanswered : ∀ i, s.listener i = .reading → (s.chan i).applied.length < (s.chan i).published.length
  undelayed : ∀ i j, j ≠ i → ¬ (s.sender i = .published ∧ s.mutex = some (j, .listener) ∧ s.listener j = .reading ∧
    (s.chan j).pending = [])

variable (ι) in
def Isolated (agent : List Text → Text) (sp : Bool) : Prop :=
  ∀ es s, Run (Step agent sp) (St.init : St ι) es s → IsolatedAt agent sp s

def Sender.owed : Sender → Nat
  | .published | .locked => 1
  | .idle | .signalled => 0

def Listener.owed : Listener → Nat
  | .woken | .reading => 1
  | .start | .locked | .waiting | .answered => 0

/-- The published states cover the applied actions, the signal to come and the action to be read. -/
def Counted (s : St ι) : Prop :=
  ∀ i, (s.chan i).applied.length + (s.listener i).owed + (s.sender i).owed ≤ (s.chan i).published.length

omit [DecidableEq ι] in
lemma Counted.init : Counted (St.init : St ι) := fun _ => Nat.le_refl _

/-- With one connection and no wait that returns by itself, every step keeps the
    count: a signal passes what the sender owes on to its listener. -/
lemma step_counted (hone : ∀ i j : ι, i = j) (s : St ι) (e : Ev ι) (t : St ι)
    (hs : Counted s) (h : Step agent false s e t) : Counted t := by
  intro k
  have hk := hs k
  cases h with
  | @publish i x hi =>
    obtain rfl := hone k i
    simp only [update_self, Sender.owed, length_append, length_singleton] at hk ⊢; omega
  | @senderLock i hi _ =>
    obtain rfl := hone k i
    rw [hi] at hk; simp only [update_self]; exact hk
  | @signal i j hi hj =>
    obtain rfl := hone k i
    obtain rfl := hone k j
    rw [hi, hj] at hk
    simp only [update_self, Sender.owed, Listener.owed] at hk ⊢; omega
  | @signalLost i _ _ => obtain rfl := hone k i; simp only [update_self, Sender.owed]; omega
  | @senderUnlock i _ => obtain rfl := hone k i; simp only [update_self, Sender.owed]; omega
  | @listenerLock i _ _ => obtain rfl := hone k i; simp only [update_self, Listener.owed]; omega
  | @wait i _ => obtain rfl := hone k i; simp only [update_self, Listener.owed]; omega
  | spurious hsp _ => cases hsp
  | @wake i hi _ =>
    obtain rfl := hone k i
    rw [hi] at hk; simp only [update_self]; exact hk
  | @read i a rest hi _ =>
    obtain rfl := hone k i
    rw [hi] at hk
    simp only [update_self, Listener.owed, length_append, length_singleton] at hk ⊢; omega
  | @readError i _ => obtain rfl := hone k i; simp only [update_self, Listener.owed]; omega
  | @listenerUnlock i _ => obtain rfl := hone k i; simp only [update_self, Listener.owed]; omega
  | @envRead i x rest _ _ => obtain rfl := hone k i; simp only [update_self]; exact hk
  | @envAct i _ => obtain rfl := hone k i; simp only [update_self]; exact hk

/-- The listener of `j` at its wait, and the sender of `i` about to signal. -/
lemma run_to_signal (agent : List Text → Text) (sp : Bool) (i j : ι) :
    ∃ es s t, Run (Step agent sp) (St.init : St ι) es s ∧ Step agent sp s (.signal i (some j)) t := by
  refine ⟨[.listenerLock j, .wait j, .publish i [], .senderLock i], _, _,
    .cons (.listenerLock rfl rfl) (.cons (.wait ?_) (.cons (.publish rfl) (.cons (.senderLock ?_ rfl) .nil))),
    .signal ?_ ?_⟩
  · exact update_self ..
  · exact update_self ..
  · exact update_self ..
  · exact update_self ..

lemma run_spurious (agent : List Text → Text) (i : ι) :
    ∃ es s, Run (Step agent true) (St.init : St ι) es s ∧ s.listener i = .reading ∧ (s.chan i).published = [] := by
  refine ⟨[.listenerLock i, .wait i, .spurious i, .wake i], _,
    .cons (.listenerLock rfl rfl) (.cons (.wait ?_) (.cons (.spurious rfl ?_) (.cons (.wake ?_ rfl) .nil))), ?_, rfl⟩
  · exact update_self ..
  · exact update_self ..
  · exact update_self ..
  · exact update_self ..

/-- Connections of one process do not interfere, in any schedule, exactly when
    there is none, or only one and its wait returns on signals only. -/
theorem isolated_iff (agent : List Text → Text) (sp : Bool) :
    Isolated ι agent sp ↔ IsEmpty ι ∨ ((∀ i j : ι, i = j) ∧ sp = false) := by
  constructor
  · intro h
    rcases isEmpty_or_nonempty ι with he | ⟨⟨i⟩⟩
    · exact .inl he
    · refine .inr ⟨fun i j => ?_, ?_⟩
      · obtain ⟨es, s, t, hrun, hstep⟩ := run_to_signal agent sp i j
        exact ((h es s hrun).own i j t hstep).symm
      · cases sp with
        | false => rfl
        | true =>
          obtain ⟨es, s, hrun, hr, hp⟩ := run_spurious agent i
          have := (h es s hrun).unanswered i hr
          rw [hp] at this; exact absurd this (Nat.not_lt_zero _)
  · rintro (he | ⟨hone, rfl⟩) es s hrun
    · exact ⟨fun i => he.elim i, fun i => he.elim i, fun i => he.elim i⟩
    · have hc : Counted s := hrun.inv (step_counted hone) .init
      refine ⟨fun i j _ _ => hone j i, fun i hr => ?_, fun i j hne => absurd (hone j i) hne⟩
      have hi := hc i
      rw [hr] at hi
      simp only [Listener.owed] at hi; omega

/-- Two connections: the report of the first wakes the listener of the second,
    which then waits for an action nobody owes it, and the first one's next report
    waits for the mutex meanwhile. -/
theorem a_report_wakes_the_listener_of_another_connection :
    ∃ s, Run (Step counting false) (St.init : St Bool)
        [.listenerLock false, .wait false, .publish true ['a'], .senderLock true, .signal true (some false),
          .senderUnlock true, .wake false, .publish true ['b']] s ∧
      s.listener false = .reading ∧ (s.chan false).published = [] ∧ ¬ IsolatedAt counting false s := by
  refine ⟨_, .cons (.listenerLock rfl rfl) (.cons (.wait rfl) (.cons (.publish rfl) (.cons (.senderLock rfl rfl)
    (.cons (.signal rfl rfl) (.cons (.senderUnlock rfl) (.cons (.wake rfl rfl) (.cons (.publish rfl) .nil))))))),
    rfl, rfl, fun h => ?_⟩
  exact h.undelayed true false (by decide) ⟨rfl, rfl, rfl, rfl⟩

end RlccQuic.CongestionControl.Signal
