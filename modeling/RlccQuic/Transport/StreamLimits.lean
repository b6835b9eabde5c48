/-
  RlccQuic.Transport.StreamLimits — how many streams the peer may open (`xqc_stream.c`: `xqc_stream_do_create_flow_ctl`,
  `xqc_passive_create_stream`; `xqc_frame.c`: `xqc_process_streams_blocked_frame`; `xqc_packet_out.c`:
  `xqc_write_max_streams_to_packet`).

  The limit of a direction goes up by 1024 when a frame names a stream in the upper
  half of what is allowed, and to 1024 above what a STREAMS_BLOCKED frame says. It
  goes up before the MAX_STREAMS frame is written, which fails above 2^60 or without
  a packet; a STREAMS_BLOCKED frame's sum is cut to 2^60 for the frame only. A frame
  for a closed stream takes the same path as one that opens a stream, and a stream
  that is opened takes it twice.
  - `step_book`: what is opened, what is closed and what is still to come.
  - `step_good_iff`: when one event leaves the limits right.
  - `stream_limits_iff`: the limits are right in all states of a run exactly if every
    event of it meets that condition.
  - `blocked_frame_lifts_the_limit`: one STREAMS_BLOCKED frame.
-/

import Mathlib.Logic.Function.Basic
import RlccQuic.Lib.Run
import RlccQuic.Transport.Defs

namespace RlccQuic.Transport.StreamLimits

open Function
open Lib (visited Meets visited_forall_iff)
open UInt64 (le_iff_toNat_le not_lt lt_iff_toNat_lt)

def xqcMaxStreams : UInt64 := 0x1000000000000000

/-- `local_settings.max_streams_bidi` and `max_streams_uni`, which nothing changes. -/
def maxStreams : UInt64 := 1024

inductive Dir
  | bidi
  | uni
  deriving DecidableEq, Repr

def dirOf (id : UInt64) : Dir := if id &&& 2 = 0 then .bidi else .uni

def typeOf (id : UInt64) : UInt64 := id &&& 3

def sidOf (id : UInt64) : UInt64 := id >>> 2

structure Conn where
  connType : ConnType
  /-- `fc_max_streams_bidi_can_recv` and `fc_max_streams_uni_can_recv`. -/
  canRecv : Dir → UInt64
  /-- `max_stream_id_bidi_remote` and `max_stream_id_uni_remote`. -/
  maxRemote : Dir → Int
  /-- The keys of `streams_hash` and of `passive_streams_hash`. -/
  streams : UInt64 → Bool
  passive : UInt64 → Bool
  closing : Bool
  /-- Ghost: the last limit the peer was told, the initial parameter at first. -/
  advertised : Dir → UInt64
  /-- Ghost: the streams of the peer that were ever opened. -/
  opened : UInt64 → Bool
  /-- Ghost: a limit was raised by neither a new stream nor a STREAMS_BLOCKED frame. -/
  astray : Bool

def fresh (connType : ConnType) : Conn :=
  { connType
    canRecv := fun _ => maxStreams
    maxRemote := fun _ => -1
    streams := fun _ => false
    passive := fun _ => false
    closing := false
    advertised := fun _ => maxStreams
    opened := fun _ => false
    astray := false }

/-! ## The code -/

/-- `room` is whether there is a packet for the frame. -/
def xqcWriteMaxStreamsToPacket (c : Conn) (d : Dir) (n : UInt64) (room : Bool) : Conn :=
  if n ≤ xqcMaxStreams ∧ room then { c with advertised := update c.advertised d n } else c

def lift (c : Conn) (d : Dir) (n told : UInt64) (room : Bool) : Conn :=
  xqcWriteMaxStreamsToPacket { c with canRecv := update c.canRecv d n } d told room

/-- The receiving part; `none`: the stream is above the limit. -/
def xqcStreamDoCreateFlowCtl (c : Conn) (id : UInt64) (room : Bool) : Option Conn :=
  let d := dirOf id
  if 4 * c.canRecv d + typeOf id ≤ id then none
  else if c.canRecv d / 2 ≤ sidOf id then
    some (lift c d (c.canRecv d + maxStreams) (c.canRecv d + maxStreams) room)
  else some c

/-- `xqc_insert_passive_stream_hash`: every stream up to this one is there to be opened. -/
def insertPassive (c : Conn) (id : UInt64) : Conn :=
  { c with
    passive := fun j => (typeOf j = typeOf id ∧ c.maxRemote (dirOf id) < (sidOf j).toNat ∧ sidOf j ≤ sidOf id)
      || c.passive j
    maxRemote := update c.maxRemote (dirOf id) (sidOf id).toNat }

variable (c : Conn) (id : UInt64)

@[simp] lemma insertPassive_canRecv : (insertPassive c id).canRecv = c.canRecv := rfl

@[simp] lemma insertPassive_advertised : (insertPassive c id).advertised = c.advertised := rfl

@[simp] lemma insertPassive_closing : (insertPassive c id).closing = c.closing := rfl

@[simp] lemma insertPassive_opened : (insertPassive c id).opened = c.opened := rfl

/-- `memory` is whether the stream can be allocated. -/
def xqcCreateStreamWithConn (c : Conn) (id : UInt64) (room memory : Bool) : Conn :=
  if c.closing then c
  else match xqcStreamDoCreateFlowCtl c id room with
    | none => c
    | some c =>
      if memory then
        { c with streams := update c.streams id true, opened := update c.opened id true }
      else c

/-- The stream can be opened: it is new, or it was passed over by a later one. -/
def Openable (c : Conn) (id : UInt64) : Prop :=
  c.maxRemote (dirOf id) < (sidOf id).toNat ∨ c.passive id = true

instance (c : Conn) (id : UInt64) : Decidable (Openable c id) := inferInstanceAs (Decidable (_ ∨ _))

def xqcPassiveCreateStream (c : Conn) (id : UInt64) (room room' memory : Bool) : Conn :=
  match xqcStreamDoCreateFlowCtl c id room with
  | none => c
  | some c =>
    if c.maxRemote (dirOf id) < (sidOf id).toNat then
      xqcCreateStreamWithConn (insertPassive c id) id room' memory
    else if c.passive id then xqcCreateStreamWithConn c id room' memory
    else c

def IsPeers (c : Conn) (id : UInt64) : Prop :=
  match c.connType with
  | .server => id &&& 1 = 0
  | .client => id &&& 1 = 1

instance (c : Conn) (id : UInt64) : Decidable (IsPeers c id) := by
  unfold IsPeers
  split <;> infer_instance

def streamFrame (c : Conn) (id : UInt64) (room room' memory : Bool) : Conn :=
  if c.streams id = false ∧ IsPeers c id then xqcPassiveCreateStream c id room room' memory else c

def xqcProcessStreamsBlockedFrame (c : Conn) (limit : UInt64) (d : Dir) (room : Bool) : Conn :=
  if limit < c.canRecv d then c
  else
    let n := limit + maxStreams
    lift c d n (if limit < xqcMaxStreams ∧ xqcMaxStreams < n then xqcMaxStreams else n) room

/-! ## Runs -/

def Vint : Type := { n : UInt64 // n.toNat < 2 ^ 62 }

inductive Ev
  | streamsBlocked (limit : Vint) (d : Dir) (room : Bool)
  /-- STREAM, RESET_STREAM, STOP_SENDING, STREAM_DATA_BLOCKED or MAX_STREAM_DATA. -/
  | streamFrame (id : UInt64) (room room' memory : Bool)
  | destroyStream (id : UInt64)
  /-- The connection starts to close. -/
  | close

/-- `xqc_process_frames` drops the frames that come after the connection starts to close; here they are processed too. -/
def act (c : Conn) : Ev → Conn
  | .streamsBlocked limit d room => xqcProcessStreamsBlockedFrame c limit.val d room
  | .streamFrame id room room' memory => streamFrame c id room room' memory
  | .destroyStream id =>
    { c with streams := update c.streams id false, passive := update c.passive id false }
  | .close => { c with closing := true }

/-- The event may raise a limit: a STREAMS_BLOCKED frame, or a stream that was not opened before and is now. -/
def rightful (c c' : Conn) : Ev → Bool
  | .streamsBlocked .. => true
  | .streamFrame id .. => !c.opened id && c'.opened id
  | _ => false

def Raised (c c' : Conn) : Prop := c.canRecv .bidi < c'.canRecv .bidi ∨ c.canRecv .uni < c'.canRecv .uni

instance (c c' : Conn) : Decidable (Raised c c') := inferInstanceAs (Decidable (_ ∨ _))

def step (c : Conn) (e : Ev) : Conn :=
  { act c e with astray := c.astray || (decide (Raised c (act c e)) && !rightful c (act c e) e) }

/-- The limits are at most 2^60, are what the peer was told last, and were raised by
    nothing else than new streams and STREAMS_BLOCKED frames. -/
structure Good (c : Conn) : Prop where
  limit : ∀ d, c.canRecv d ≤ xqcMaxStreams
  told : ∀ d, c.canRecv d = c.advertised d
  astray : c.astray = false

/-! ## Raising a limit -/

variable (d : Dir) (n : UInt64)

lemma write_canRecv (room : Bool) : (xqcWriteMaxStreamsToPacket c d n room).canRecv = c.canRecv := by
  unfold xqcWriteMaxStreamsToPacket
  split <;> rfl

@[simp] lemma lift_canRecv (told : UInt64) (room : Bool) :
    (lift c d n told room).canRecv = update c.canRecv d n := write_canRecv ..

lemma lift_advertised (told : UInt64) (room : Bool) :
    (lift c d n told room).advertised =
      if told ≤ xqcMaxStreams ∧ room then update c.advertised d told else c.advertised := by
  unfold lift xqcWriteMaxStreamsToPacket
  split <;> rfl

lemma lift_advertised_of_ne {d d' : Dir} (hd : d' ≠ d) (n told : UInt64) (room : Bool) :
    (lift c d n told room).advertised d' = c.advertised d' := by
  rw [lift_advertised]; split
  · exact update_of_ne hd _ _
  · rfl

structure SameStreams (c c' : Conn) : Prop where
  connType : c'.connType = c.connType
  maxRemote : c'.maxRemote = c.maxRemote
  streams : c'.streams = c.streams
  passive : c'.passive = c.passive
  closing : c'.closing = c.closing
  opened : c'.opened = c.opened
  astray : c'.astray = c.astray

lemma lift_same (told : UInt64) (room : Bool) : SameStreams c (lift c d n told room) := by
  unfold lift xqcWriteMaxStreamsToPacket
  split <;> exact ⟨rfl, rfl, rfl, rfl, rfl, rfl, rfl⟩

lemma doCreate_same {c c' : Conn} {id : UInt64} {room : Bool} (h : xqcStreamDoCreateFlowCtl c id room = some c') :
    SameStreams c c' := by
  unfold xqcStreamDoCreateFlowCtl at h
  dsimp only at h; split at h
  · cases h
  · split at h
    · rw [← Option.some.inj h]; exact lift_same ..
    · rw [← Option.some.inj h]; exact ⟨rfl, rfl, rfl, rfl, rfl, rfl, rfl⟩

/-! ## The books -/

/-- An opened stream is not above the highest one, and is open or gone. -/
def Book (c : Conn) : Prop :=
  ∀ id, c.opened id = true →
    ((sidOf id).toNat : Int) ≤ c.maxRemote (dirOf id) ∧ (c.streams id = true ∨ c.passive id = false)

lemma Book.same {c c' : Conn} (h : Book c) (hs : SameStreams c c') : Book c' := by
  intro id ho; rw [hs.opened] at ho
  rw [hs.maxRemote, hs.streams, hs.passive]; exact h id ho

lemma Book.not_opened {c : Conn} (h : Book c) {id : UInt64} (hs : c.streams id = false) (ho : Openable c id) :
    c.opened id = false := by
  by_contra hne
  obtain ⟨hle, hgone⟩ := h id (by simpa using hne)
  rcases ho with hlt | hp
  · omega
  · rcases hgone with hg | hg
    · rw [hs] at hg; cases hg
    · rw [hp] at hg; cases hg

lemma Book.insertPassive {c : Conn} (h : Book c) {id : UInt64} (hlt : c.maxRemote (dirOf id) < (sidOf id).toNat) :
    Book (insertPassive c id) := by
  intro j hj
  obtain ⟨hle, hgone⟩ := h j hj
  have hdir : typeOf j = typeOf id → dirOf j = dirOf id := by
    intro ht
    have hbit : ∀ x : UInt64, x &&& 2 = (x &&& 3) &&& 2 := by
      intro x; rw [UInt64.and_assoc]
      rfl
    unfold dirOf; rw [hbit j, hbit id]
    exact congrArg (fun t => if t &&& 2 = 0 then Dir.bidi else Dir.uni) ht
  constructor
  · show _ ≤ update c.maxRemote (dirOf id) ((sidOf id).toNat : Int) (dirOf j)
    by_cases hd : dirOf j = dirOf id
    · rw [hd, update_self]; rw [hd] at hle; omega
    · rw [update_of_ne hd]; exact hle
  · refine hgone.imp_right fun hp => ?_
    have hnew : ¬ (typeOf j = typeOf id ∧ c.maxRemote (dirOf id) < (sidOf j).toNat ∧ sidOf j ≤ sidOf id) := by
      rintro ⟨ht, hm, -⟩
      rw [hdir ht] at hle; omega
    show (decide _ || c.passive j) = false
    rw [decide_eq_false hnew, hp]; rfl

lemma Book.create {c : Conn} (h : Book c) {id : UInt64} (hle : ((sidOf id).toNat : Int) ≤ c.maxRemote (dirOf id))
    (room memory : Bool) : Book (xqcCreateStreamWithConn c id room memory) := by
  unfold xqcCreateStreamWithConn; split
  · exact h
  · split
    · exact h
    · rename_i c' hc
      have hs := doCreate_same hc
      split
      · intro j hj
        by_cases hji : j = id
        · subst hji; exact ⟨hs.maxRemote ▸ hle, .inl (update_self ..)⟩
        · have hj : c'.opened j = true := by simpa [hji] using hj
          refine ⟨(h.same hs j hj).1, ((h.same hs j hj).2).imp_left fun hst => ?_⟩
          show update c'.streams id true j = true
          rw [update_of_ne hji]; exact hst
      · exact h.same hs

lemma streamFrame_book {c : Conn} (h : Book c) (id : UInt64) (room room' memory : Bool) :
    Book (streamFrame c id room room' memory) := by
  unfold streamFrame; split
  case isFalse => exact h
  case isTrue hnew =>
    unfold xqcPassiveCreateStream; split
    · exact h
    · rename_i c' hc
      have hs := doCreate_same hc
      split
      · rename_i hlt
        have hmax : (insertPassive c' id).maxRemote (dirOf id) = (sidOf id).toNat := by simp [insertPassive]
        exact ((h.same hs).insertPassive hlt).create (Int.le_of_eq hmax.symm) room' memory
      · rename_i hge
        split
        · exact (h.same hs).create (Int.not_lt.mp hge) room' memory
        · exact h.same hs

theorem step_book (e : Ev) (h : Book c) : Book (step c e) := by
  cases e with
  | streamsBlocked limit d room =>
    show Book (xqcProcessStreamsBlockedFrame c limit.val d room)
    unfold xqcProcessStreamsBlockedFrame; split
    · exact h
    · exact h.same (lift_same ..)
  | streamFrame id room room' memory => exact streamFrame_book h id room room' memory
  | destroyStream id =>
    intro j hj
    obtain ⟨hle, hgone⟩ := h j hj
    refine ⟨hle, ?_⟩
    show update c.streams id false j = true ∨ update c.passive id false j = false
    by_cases hji : j = id
    · subst hji; exact .inr (update_self ..)
    · rw [update_of_ne hji, update_of_ne hji]; exact hgone
  | close => exact h

/-! ## When an event leaves the limits right -/

/-- A frame for a stream of the peer that is not there, within the limit, in the upper half of it: the limit goes up. -/
structure Crowded (c : Conn) (id : UInt64) : Prop where
  absent : c.streams id = false
  peers : IsPeers c id
  within : id.toNat < 4 * (c.canRecv (dirOf id)).toNat + (typeOf id).toNat
  upper : (c.canRecv (dirOf id)).toNat / 2 ≤ (sidOf id).toNat

/-- The limit has room for the raise, and the last MAX_STREAMS frame can be written. For
    a frame that names a stream the stream has to be one that is opened by it; the limit
    goes up twice if the stream is still in the upper half after the first time. -/
def Calm (c : Conn) : Ev → Prop
  | .streamsBlocked limit d room =>
    c.canRecv d ≤ limit.val → limit.val.toNat + 1024 ≤ 2 ^ 60 ∧ room = true
  | .streamFrame id room room' memory =>
    Crowded c id → Openable c id ∧ c.closing = false ∧ memory = true ∧
      if ((c.canRecv (dirOf id)).toNat + 1024) / 2 ≤ (sidOf id).toNat then
        (c.canRecv (dirOf id)).toNat + 2048 ≤ 2 ^ 60 ∧ room' = true
      else (c.canRecv (dirOf id)).toNat + 1024 ≤ 2 ^ 60 ∧ room = true
  | _ => True

lemma toNat_max : xqcMaxStreams.toNat = 2 ^ 60 := by decide

lemma toNat_lifted {x : UInt64} (h : x.toNat < 2 ^ 63) : (x + maxStreams).toNat = x.toNat + 1024 := by
  exact Nat.mod_eq_of_lt (by change x.toNat + 1024 < 2 ^ 64; omega)

lemma typeOf_le : (typeOf id).toNat ≤ 3 := by
  unfold typeOf; exact Nat.and_le_right

lemma doCreate_eq (room : Bool) (h : (c.canRecv (dirOf id)).toNat < 2 ^ 61) :
    xqcStreamDoCreateFlowCtl c id room =
      if 4 * (c.canRecv (dirOf id)).toNat + (typeOf id).toNat ≤ id.toNat then none
      else if (c.canRecv (dirOf id)).toNat / 2 ≤ (sidOf id).toNat then
        some (lift c (dirOf id) (c.canRecv (dirOf id) + maxStreams) (c.canRecv (dirOf id) + maxStreams) room)
      else some c := by
  have ht := typeOf_le id
  have h4 : (4 * c.canRecv (dirOf id) + typeOf id).toNat =
      4 * (c.canRecv (dirOf id)).toNat + (typeOf id).toNat := by
    change (4 * (c.canRecv (dirOf id)).toNat % 2 ^ 64 + (typeOf id).toNat) % 2 ^ 64 = _
    omega
  have hlim : 4 * c.canRecv (dirOf id) + typeOf id ≤ id ↔
      4 * (c.canRecv (dirOf id)).toNat + (typeOf id).toNat ≤ id.toNat := by
    rw [le_iff_toNat_le, h4]
  have hhalf : c.canRecv (dirOf id) / 2 ≤ sidOf id ↔
      (c.canRecv (dirOf id)).toNat / 2 ≤ (sidOf id).toNat := by
    rfl
  unfold xqcStreamDoCreateFlowCtl
  simp only [hlim, hhalf]

lemma good_unraised {c : Conn} {e : Ev} (h : Good c) (hc : (act c e).canRecv = c.canRecv)
    (ha : (act c e).advertised = c.advertised) : Good (step c e) where
  limit d := (congrFun hc d).symm ▸ h.limit d
  told d := (congrFun hc d).trans ((h.told d).trans (congrFun ha d).symm)
  astray := by
    have hr : ¬ Raised c (act c e) := by
      unfold Raised; rw [hc]
      exact fun hr => hr.elim (UInt64.lt_irrefl _) (UInt64.lt_irrefl _)
    simp [step, h.astray, hr]

lemma good_raised_iff {c : Conn} {e : Ev} {d : Dir} (h : Good c)
    (hc : ∀ d', d' ≠ d → (act c e).canRecv d' = c.canRecv d')
    (ha : ∀ d', d' ≠ d → (act c e).advertised d' = c.advertised d')
    (hr : c.canRecv d < (act c e).canRecv d) :
    Good (step c e) ↔ (act c e).canRecv d ≤ xqcMaxStreams ∧ (act c e).canRecv d = (act c e).advertised d ∧
      rightful c (act c e) e = true := by
  have hraised : Raised c (act c e) := by
    cases d with
    | bidi => exact .inl hr
    | uni => exact .inr hr
  have hastray : (step c e).astray = !rightful c (act c e) e := by simp [step, h.astray, hraised]
  constructor
  · intro hg
    refine ⟨hg.limit d, hg.told d, ?_⟩
    have hf := hastray.symm.trans hg.astray
    simpa using hf
  · rintro ⟨hl, ht, hright⟩
    refine ⟨fun d' => ?_, fun d' => ?_, by rw [hastray, hright]; rfl⟩
    · by_cases hd : d' = d
      · exact hd ▸ hl
      · exact (hc d' hd).symm ▸ h.limit d'
    · by_cases hd : d' = d
      · exact hd ▸ ht
      · exact (hc d' hd).trans ((h.told d').trans (ha d' hd).symm)

lemma blocked_good_iff {c : Conn} (h : Good c) (limit : Vint) (d : Dir) (room : Bool) :
    Good (step c (.streamsBlocked limit d room)) ↔ Calm c (.streamsBlocked limit d room) := by
  have hlim := limit.property
  have hn : (limit.val + maxStreams).toNat = limit.val.toNat + 1024 := toNat_lifted (by omega)
  by_cases hlow : limit.val < c.canRecv d
  · have hact : act c (.streamsBlocked limit d room) = c := if_pos hlow
    have hg := good_unraised (e := .streamsBlocked limit d room) h (by rw [hact]) (by rw [hact])
    exact ⟨fun _ hle => absurd hlow (not_lt.mpr hle), fun _ => hg⟩
  have hle := not_lt.mp hlow
  have hact : act c (.streamsBlocked limit d room) = lift c d (limit.val + maxStreams)
      (if limit.val < xqcMaxStreams ∧ xqcMaxStreams < limit.val + maxStreams then xqcMaxStreams
        else limit.val + maxStreams) room := if_neg hlow
  have hnum := le_iff_toNat_le.mp hle
  rw [good_raised_iff (d := d) h]
  · have hcond : limit.val + maxStreams ≤ xqcMaxStreams ↔ limit.val.toNat + 1024 ≤ 2 ^ 60 := by
      rw [le_iff_toNat_le, hn, toNat_max]
    simp only [rightful, and_true, hact, lift_canRecv, update_self, Calm, hle, forall_const, hcond]
    refine and_congr_right fun hfits => ?_
    have hnot : ¬ (limit.val < xqcMaxStreams ∧ xqcMaxStreams < limit.val + maxStreams) :=
      fun hn => not_lt.mpr (hcond.mpr hfits) hn.2
    have htold := h.told d
    have hne : limit.val + maxStreams ≠ c.advertised d := by
      rw [← htold, ← UInt64.toNat_inj.ne, hn]; omega
    rw [if_neg hnot, lift_advertised]
    cases room with
    | true => simp [hcond.mpr hfits]
    | false => simpa using hne
  · intro d' hd; rw [hact, lift_canRecv, update_of_ne hd]
  · intro d' hd; rw [hact, lift_advertised_of_ne c hd]
  · rw [hact, lift_canRecv, update_self, lt_iff_toNat_lt, hn]; omega

/-! ## Frames that name a stream -/

/-- The limit after a frame that opens a stream found it in the upper half. -/
def once (c : Conn) (id : UInt64) (room : Bool) : Conn :=
  lift c (dirOf id) (c.canRecv (dirOf id) + maxStreams) (c.canRecv (dirOf id) + maxStreams) room

def enter (c : Conn) (id : UInt64) (memory : Bool) : Conn :=
  if memory then
    { c with streams := update c.streams id true, opened := update c.opened id true }
  else c

lemma create_eq (room memory : Bool) (hL : (c.canRecv (dirOf id)).toNat < 2 ^ 61)
    (hin : id.toNat < 4 * (c.canRecv (dirOf id)).toNat + (typeOf id).toNat) :
    xqcCreateStreamWithConn c id room memory =
      if c.closing then c
      else if (c.canRecv (dirOf id)).toNat / 2 ≤ (sidOf id).toNat then enter (once c id room) id memory
      else enter c id memory := by
  unfold xqcCreateStreamWithConn
  rw [doCreate_eq c id room hL, if_neg (Nat.not_le.mpr hin)]
  by_cases hu : (c.canRecv (dirOf id)).toNat / 2 ≤ (sidOf id).toNat
  · simp only [if_pos hu]; rfl
  · simp only [if_neg hu]; rfl

variable (memory : Bool)

@[simp] lemma enter_canRecv : (enter c id memory).canRecv = c.canRecv := by
  unfold enter
  split <;> rfl

@[simp] lemma enter_advertised : (enter c id memory).advertised = c.advertised := by
  unfold enter
  split <;> rfl

lemma enter_opened : (enter c id memory).opened id = (memory || c.opened id) := by
  unfold enter
  cases memory <;> simp

/-- A frame for a stream in the lower half, or above the limit, or for one that is there, raises nothing. -/
lemma frame_quiet {c : Conn} {id : UInt64} (room room' memory : Bool) (hL : (c.canRecv (dirOf id)).toNat < 2 ^ 61)
    (h : ¬ Crowded c id) :
    (streamFrame c id room room' memory).canRecv = c.canRecv ∧
      (streamFrame c id room room' memory).advertised = c.advertised := by
  unfold streamFrame; split
  case isFalse => exact ⟨rfl, rfl⟩
  case isTrue hnew =>
    unfold xqcPassiveCreateStream; rw [doCreate_eq c id room hL]
    by_cases hin : 4 * (c.canRecv (dirOf id)).toNat + (typeOf id).toNat ≤ id.toNat
    · rw [if_pos hin]; exact ⟨rfl, rfl⟩
    have hlow : ¬ (c.canRecv (dirOf id)).toNat / 2 ≤ (sidOf id).toNat :=
      fun hu => h ⟨hnew.1, hnew.2, Nat.not_le.mp hin, hu⟩
    have hcreate : ∀ c' : Conn, c'.canRecv = c.canRecv → c'.advertised = c.advertised →
        (xqcCreateStreamWithConn c' id room' memory).canRecv = c.canRecv ∧
          (xqcCreateStreamWithConn c' id room' memory).advertised = c.advertised := by
      intro c' hc ha
      rw [create_eq c' id room' memory (by rw [hc]; exact hL) (by rw [hc]; exact Nat.not_le.mp hin), hc, if_neg hlow]
      split
      · exact ⟨hc, ha⟩
      · exact ⟨(enter_canRecv ..).trans hc, (enter_advertised ..).trans ha⟩
    rw [if_neg hin, if_neg hlow]
    dsimp only; split
    · exact hcreate _ rfl rfl
    · split
      · exact hcreate _ rfl rfl
      · exact ⟨rfl, rfl⟩

lemma frame_crowded {c : Conn} {id : UInt64} (room room' memory : Bool) (hL : (c.canRecv (dirOf id)).toNat < 2 ^ 61)
    (h : Crowded c id) :
    streamFrame c id room room' memory =
      if c.maxRemote (dirOf id) < (sidOf id).toNat then
        xqcCreateStreamWithConn (insertPassive (once c id room) id) id room' memory
      else if c.passive id then xqcCreateStreamWithConn (once c id room) id room' memory
      else once c id room := by
  have hs : SameStreams c (once c id room) := lift_same ..
  unfold streamFrame xqcPassiveCreateStream
  rw [if_pos ⟨h.absent, h.peers⟩, doCreate_eq c id room hL, if_neg (Nat.not_le.mpr h.within), if_pos h.upper,
    ← once]
  dsimp only; rw [hs.maxRemote, hs.passive]

lemma once_canRecv (room : Bool) :
    (once c id room).canRecv = update c.canRecv (dirOf id) (c.canRecv (dirOf id) + maxStreams) :=
  lift_canRecv ..

lemma once_advertised_of_ne {id : UInt64} {d : Dir} (hd : d ≠ dirOf id) (room : Bool) :
    (once c id room).advertised d = c.advertised d := by
  unfold once; rw [lift_advertised_of_ne c hd]

/-- After a raise the peer was told the new limit exactly if it is at most 2^60 and the
    frame could be written; what it was told before was below. -/
lemma once_told_iff {c : Conn} {id : UInt64} (room : Bool) {x : UInt64}
    (hL : (c.canRecv (dirOf id)).toNat < 2 ^ 61) (hx : c.advertised (dirOf id) = x)
    (hlt : x.toNat < (c.canRecv (dirOf id)).toNat + 1024) :
    (once c id room).canRecv (dirOf id) ≤ xqcMaxStreams ∧
        (once c id room).canRecv (dirOf id) = (once c id room).advertised (dirOf id) ↔
      (c.canRecv (dirOf id)).toNat + 1024 ≤ 2 ^ 60 ∧ room = true := by
  have hy : (c.canRecv (dirOf id) + maxStreams).toNat = (c.canRecv (dirOf id)).toNat + 1024 :=
    toNat_lifted (by omega)
  have hfits : c.canRecv (dirOf id) + maxStreams ≤ xqcMaxStreams ↔
      (c.canRecv (dirOf id)).toNat + 1024 ≤ 2 ^ 60 := by
    rw [le_iff_toNat_le, hy, toNat_max]
  have hne : c.canRecv (dirOf id) + maxStreams ≠ x := by
    intro he; rw [← UInt64.toNat_inj, hy] at he
    omega
  rw [once_canRecv, update_self, hfits]
  refine and_congr_right fun hle => ?_
  unfold once; rw [lift_advertised]
  cases room with
  | true => simp [hfits.mpr hle]
  | false => simpa [hx] using hne

lemma opening_good_iff {c c2 : Conn} {id : UInt64} {room room' memory : Bool} (h : Good c) (hcr : Crowded c id)
    (hopened : c.opened id = false) (hc : c2.canRecv = (once c id room).canRecv)
    (ha : c2.advertised = (once c id room).advertised) (hcl : c2.closing = c.closing) (ho : c2.opened = c.opened)
    (hact : act c (.streamFrame id room room' memory) = xqcCreateStreamWithConn c2 id room' memory) :
    Good (step c (.streamFrame id room room' memory)) ↔ c.closing = false ∧ memory = true ∧
      if ((c.canRecv (dirOf id)).toNat + 1024) / 2 ≤ (sidOf id).toNat then
        (c.canRecv (dirOf id)).toNat + 2048 ≤ 2 ^ 60 ∧ room' = true
      else (c.canRecv (dirOf id)).toNat + 1024 ≤ 2 ^ 60 ∧ room = true := by
  have hlim : (c.canRecv (dirOf id)).toNat ≤ 2 ^ 60 := toNat_max ▸ le_iff_toNat_le.mp (h.limit _)
  have hy : (c2.canRecv (dirOf id)).toNat = (c.canRecv (dirOf id)).toNat + 1024 := by
    rw [hc, once_canRecv, update_self]; exact toNat_lifted (by omega)
  have hw := hcr.within
  have hcreate := create_eq c2 id room' memory (by omega) (by omega)
  rw [hy, hcl] at hcreate
  rw [hcreate] at hact
  have hoff : ∀ d, d ≠ dirOf id → c2.canRecv d = c.canRecv d := by
    intro d hd; rw [hc, once_canRecv, update_of_ne hd]
  have haoff : ∀ d, d ≠ dirOf id → c2.advertised d = c.advertised d := by
    intro d hd; rw [ha, once_advertised_of_ne c hd]
  by_cases hclosing : c.closing = true
  · rw [if_pos hclosing] at hact
    have hright : rightful c (act c (.streamFrame id room room' memory)) (.streamFrame id room room' memory) =
        false := by
      simp [rightful, hact, ho, hopened]
    rw [good_raised_iff (d := dirOf id) h (by rw [hact]; exact hoff) (by rw [hact]; exact haoff)
      (by rw [hact, lt_iff_toNat_lt, hy]; omega), hright]
    simp [hclosing]
  rw [if_neg hclosing] at hact
  have hopen : c.closing = false := by simpa using hclosing
  by_cases hu : ((c.canRecv (dirOf id)).toNat + 1024) / 2 ≤ (sidOf id).toNat
  · rw [if_pos hu] at hact
    have hadv : (c2.advertised (dirOf id)).toNat < (c2.canRecv (dirOf id)).toNat + 1024 := by
      have htold := h.told (dirOf id)
      rw [hy, ha, once, lift_advertised]; split
      · rw [update_self, toNat_lifted (by omega)]; omega
      · rw [← htold]; omega
    have hright : rightful c (act c (.streamFrame id room room' memory)) (.streamFrame id room room' memory) =
        memory := by
      simp [rightful, hact, enter_opened, (lift_same ..).opened, once, ho, hopened]
    have htwice := once_told_iff room' (by omega : (c2.canRecv (dirOf id)).toNat < 2 ^ 61) rfl hadv
    rw [good_raised_iff (d := dirOf id) h, hright, hact, enter_canRecv, enter_advertised, ← and_assoc, htwice, hy]
    · simp only [hopen, if_pos hu, true_and]; rw [and_comm]
    · intro d hd; rw [hact, enter_canRecv, once_canRecv, update_of_ne hd, hoff d hd]
    · intro d hd; rw [hact, enter_advertised, once_advertised_of_ne c2 hd, haoff d hd]
    · rw [hact, enter_canRecv, once_canRecv, update_self, lt_iff_toNat_lt,
        toNat_lifted (by omega)]
      omega
  · rw [if_neg hu] at hact
    have hright : rightful c (act c (.streamFrame id room room' memory)) (.streamFrame id room room' memory) =
        memory := by
      simp [rightful, hact, enter_opened, ho, hopened]
    have honce := once_told_iff room (by omega : (c.canRecv (dirOf id)).toNat < 2 ^ 61)
      (h.told (dirOf id)).symm (by omega)
    rw [good_raised_iff (d := dirOf id) h, hright, hact, enter_canRecv, enter_advertised, hc, ha, ← and_assoc,
      honce]
    · simp only [hopen, if_neg hu, true_and]; rw [and_comm]
    · intro d hd; rw [hact, enter_canRecv, hoff d hd]
    · intro d hd; rw [hact, enter_advertised, haoff d hd]
    · rw [hact, enter_canRecv, lt_iff_toNat_lt, hy]; omega

lemma frame_good_iff {c : Conn} (hb : Book c) (h : Good c) (id : UInt64) (room room' memory : Bool) :
    Good (step c (.streamFrame id room room' memory)) ↔ Calm c (.streamFrame id room room' memory) := by
  have hlim : (c.canRecv (dirOf id)).toNat ≤ 2 ^ 60 := toNat_max ▸ le_iff_toNat_le.mp (h.limit _)
  have hL : (c.canRecv (dirOf id)).toNat < 2 ^ 61 := by omega
  by_cases hcr : ¬ Crowded c id
  · obtain ⟨hc, ha⟩ := frame_quiet room room' memory hL hcr
    have hg := good_unraised (e := .streamFrame id room room' memory) h hc ha
    exact ⟨fun _ hcr' => absurd hcr' hcr, fun _ => hg⟩
  rw [not_not] at hcr
  have hact : act c (.streamFrame id room room' memory) = _ := frame_crowded room room' memory hL hcr
  simp only [Calm, hcr, forall_const]
  by_cases hopenable : Openable c id
  · have hopened := hb.not_opened hcr.absent hopenable
    have hs : SameStreams c (once c id room) := lift_same ..
    simp only [hopenable, true_and]
    by_cases hnew : c.maxRemote (dirOf id) < (sidOf id).toNat
    · rw [if_pos hnew] at hact
      exact opening_good_iff h hcr hopened (insertPassive_canRecv ..) (insertPassive_advertised ..)
        ((insertPassive_closing ..).trans hs.closing) ((insertPassive_opened ..).trans hs.opened) hact
    · rw [if_neg hnew, if_pos (hopenable.resolve_left hnew)] at hact
      exact opening_good_iff h hcr hopened rfl rfl hs.closing hs.opened hact
  · -- the stream is closed: the limit goes up and nothing is opened
    obtain ⟨hold, hgone⟩ := not_or.mp hopenable
    rw [if_neg hold, if_neg hgone] at hact
    have hs : SameStreams c (once c id room) := lift_same ..
    have hright : rightful c (act c (.streamFrame id room room' memory)) (.streamFrame id room room' memory) =
        false := by
      simp only [rightful, hact, hs.opened]
      cases c.opened id <;> rfl
    rw [good_raised_iff (d := dirOf id) h, hright]
    · simp [hopenable]
    · intro d hd; rw [hact, once_canRecv, update_of_ne hd]
    · intro d hd; rw [hact, once_advertised_of_ne c hd]
    · rw [hact, once_canRecv, update_self, lt_iff_toNat_lt, toNat_lifted (by omega)]; omega

theorem step_good_iff (e : Ev) (hb : Book c) (h : Good c) : Good (step c e) ↔ Calm c e := by
  cases e with
  | streamsBlocked limit d room => exact blocked_good_iff h limit d room
  | streamFrame id room room' memory => exact frame_good_iff hb h id room room' memory
  | destroyStream id | close => exact ⟨fun _ => trivial, fun _ => good_unraised h rfl rfl⟩

lemma fresh_good (t : ConnType) : Good (fresh t) := by
  refine ⟨fun d => ?_, fun d => rfl, rfl⟩
  show maxStreams ≤ xqcMaxStreams
  decide

lemma fresh_book (t : ConnType) : Book (fresh t) := by
  intro id h; cases h

/-- From a new connection on, the limits on the peer's streams are at most 2^60, are what
    the peer was told last and were raised by new streams and STREAMS_BLOCKED frames only,
    in all states of a run, exactly if every event of it is `Calm`. -/
theorem stream_limits_iff (t : ConnType) (es : List Ev) :
    (∀ c ∈ visited step (fresh t) es, Good c) ↔ Meets Calm step (fresh t) es :=
  visited_forall_iff (E := fun _ => True) step_book (fun c e hb h _ => step_good_iff c e hb h) es _
    (fresh_book t) (fresh_good t) (fun _ _ => trivial)

/-- STREAMS_BLOCKED with limit 2^60 - 1, which a peer may send at any time. -/
def greedy : Ev := .streamsBlocked ⟨0x0FFFFFFFFFFFFFFF, by decide⟩ .bidi true

/-- The server then lets the client open 2^60 + 1023 streams and tells it 2^60. -/
theorem blocked_frame_lifts_the_limit :
    ∃ c ∈ visited step (fresh .server) [greedy], ¬ Good c ∧ (c.canRecv .bidi).toNat = 2 ^ 60 + 1023 ∧
      (c.advertised .bidi).toNat = 2 ^ 60 := by
  refine ⟨step (fresh .server) greedy, by simp [visited], ?_, by decide, by decide⟩
  intro h; exact absurd (h.limit .bidi) (by decide)

/-- A client opens its streams 1023, 2047 and 4095, the last one is closed, and a frame for it comes late. -/
def lateRun : List Ev :=
  [.streamFrame (4 * 1023) true true true, .streamFrame (4 * 2047) true true true,
    .streamFrame (4 * 4095) true true true, .destroyStream (4 * 4095), .streamFrame (4 * 4095) true true true]

theorem late_frame_lifts_the_limit :
    (visited step (fresh .server) lateRun).map (fun c => ((c.canRecv .bidi).toNat, c.astray)) =
      [(1024, false), (2048, false), (4096, false), (6144, false), (6144, false), (7168, true)] := by
  decide

end RlccQuic.Transport.StreamLimits
