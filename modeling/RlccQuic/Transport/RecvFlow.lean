/-
  RlccQuic.Transport.RecvFlow — flow control on the receiving side, over all streams of a connection (`xqc_frame.c`:
  `xqc_process_stream_frame`, `xqc_process_reset_stream_frame`, `xqc_process_data_blocked_frame`,
  `xqc_process_stream_data_blocked_frame`; `xqc_stream.c`: `xqc_create_stream_with_conn`, `xqc_stream_recv`;
  `xqc_conn.c`: `xqc_conn_init_flow_ctl`, `xqc_conn_handshake_complete`).

  The handlers of frames count what is received and compare it with no limit: the
  comparison is in `xqc_stream_do_recv_flow_ctl`, which runs at the end of a read. The
  final size of a reset is a 62-bit integer that is added as it is.

  Ghost state: the largest offset a stream has received, and the final size of its reset.

  Proved: `fc_data_recved` is the sum over all streams exactly if the sum fits 64 bits; and a STREAM frame that goes over a limit
  while a byte before it is missing is answered by the next read, if that comes before the byte and before the limit is
  raised, as is a reset that goes over the limit of the connection (`recv_accounting`). A reset of any size goes over that
  limit, and data is read after it without an error once the limit is raised (`reset_goes_over_the_limit`).
-/

import Mathlib.Algebra.BigOperators.Group.Finset.Piecewise
import Mathlib.Algebra.Order.BigOperators.Group.Finset
import RlccQuic.Lib.Run
import RlccQuic.Transport.StreamFrames

namespace RlccQuic.Transport.RecvFlow

open Lib StreamRecv Finset Function UInt64 Option

/-! ## State -/

/-- A stream, without what it shares with its connection. -/
structure Own where
  type : StreamType
  dataIn : DataIn
  stateRecv : RecvStreamState
  maxRecvOffset : UInt64
  flowCtl : StreamFlowCtl
  /-- The stream was destroyed, and is not in `conn_all_streams` any more. -/
  closed : Bool
  /-- Ghost: the largest offset received. -/
  largest : Nat
  /-- Ghost: the final size of the reset, once there is one. -/
  finalSize : Option Nat
  deriving DecidableEq, Repr

inductive Advert where
  | maxData (n : UInt64)
  | maxStreamData (i : Nat) (n : UInt64)
  deriving DecidableEq, Repr

def Advert.of (i : Nat) : WindowFrame → Advert
  | .maxStreamData n => .maxStreamData i n
  | .maxData n => .maxData n

/-- A connection; its streams are counted in the order they were created in. -/
structure Net where
  client : Bool
  localSettings : TransSettings
  connFlowCtl : ConnFlowCtl
  connErr : UInt64
  next : Nat
  streams : Nat → Own
  written : List Advert

namespace Net

def view (n : Net) (i : Nat) : Stream where
  dataIn := (n.streams i).dataIn
  stateRecv := (n.streams i).stateRecv
  maxRecvOffset := (n.streams i).maxRecvOffset
  flowCtl := (n.streams i).flowCtl
  connFlowCtl := n.connFlowCtl
  connErr := n.connErr
  written := []

def put (i : Nat) (s : Stream) (n : Net) : Net :=
  { n with
    connFlowCtl := s.connFlowCtl
    connErr := s.connErr
    written := n.written ++ s.written.map (Advert.of i)
    streams := update n.streams i
      { n.streams i with
        dataIn := s.dataIn, stateRecv := s.stateRecv, maxRecvOffset := s.maxRecvOffset, flowCtl := s.flowCtl } }

def modify (i : Nat) (f : Own → Own) (n : Net) : Net :=
  { n with streams := update n.streams i (f (n.streams i)) }

def IsOpen (n : Net) (i : Nat) : Prop := i < n.next ∧ (n.streams i).closed = false

instance (n : Net) (i : Nat) : Decidable (n.IsOpen i) := by unfold IsOpen; infer_instance

end Net

/-- What `xqc_stream_set_flow_ctl` sets for the receiving side; the peer's settings are for the sending side. -/
def initFlowCtl (client : Bool) (type : StreamType) (settings : TransSettings) (last : UInt64) : StreamFlowCtl :=
  let limits := xqcStreamSetFlowCtl client type settings settings
  ⟨limits.fcMaxStreamDataCanRecv, limits.fcStreamRecvWindowSize, last⟩

/-! ## The sum -/

def Own.account (o : Own) : Nat := o.finalSize.getD o.largest

def Net.total (n : Net) : Nat := ∑ i ∈ range n.next, (n.streams i).account

/-- A frame that raises what stream `i` counts for to `size` passes the limit of the connection, or that of the stream.
    After a reset no frame does. -/
def Net.Passes (n : Net) (conn : Bool) (i size : Nat) : Prop :=
  (n.streams i).finalSize = none ∧ (n.streams i).account < size ∧
    if conn then n.connFlowCtl.fcMaxDataCanRecv.toNat < n.total - (n.streams i).account + size
    else (n.streams i).flowCtl.fcMaxStreamDataCanRecv.toNat < size

instance (n : Net) (conn : Bool) (i size : Nat) : Decidable (n.Passes conn i size) := by unfold Net.Passes; infer_instance

/-! ## Steps -/

/-- `xqc_create_stream_with_conn`: the limits are set before the type is, so all streams
    get those of a client's bidirectional one. -/
def xqcCreateStream (type : StreamType) (n : Net) : Net :=
  { n with
    next := n.next + 1
    streams := update n.streams n.next
      { type, dataIn := ⟨[], 0, 0, 0⟩, stateRecv := .recv, maxRecvOffset := 0
        flowCtl := initFlowCtl n.client .cliBid n.localSettings 0
        closed := false, largest := 0, finalSize := none } }

/-- The ghost state of a STREAM frame that was handled with `r`. -/
def noteFrame (i : Nat) (f : StreamFrame) (r : Except Err Unit) (n : Net) : Net :=
  n.modify i fun o => { o with largest := if r = .ok () ∧ o.finalSize = none then max o.largest f.dataEnd else o.largest }

def noteReset (i size : Nat) (n : Net) : Net :=
  n.modify i fun o => { o with finalSize := some (o.finalSize.getD size) }

def xqcProcessDataBlockedFrame (limit : UInt64) (n : Net) : Net :=
  let fc := n.connFlowCtl
  if fc.fcDataRead + fc.fcRecvWindowsSize ≤ limit then n
  else
    { n with
      connFlowCtl := { fc with fcMaxDataCanRecv := fc.fcDataRead + fc.fcRecvWindowsSize }
      written := n.written ++ [.maxData (fc.fcDataRead + fc.fcRecvWindowsSize)] }

def xqcProcessStreamDataBlockedFrame (i : Nat) (limit : UInt64) (n : Net) : Net :=
  let o := n.streams i
  let new := UInt64.ofNat o.dataIn.nextReadOffset + o.flowCtl.fcStreamRecvWindowSize
  if new ≤ limit then n
  else
    { n.modify i fun o => { o with flowCtl := { o.flowCtl with fcMaxStreamDataCanRecv := new } } with
      written := n.written ++ [.maxStreamData i new] }

/-- The receiving side of `xqc_conn_handshake_complete`: the limits of all streams that are
    not destroyed are set anew, now by their type. -/
def xqcConnHandshakeComplete (n : Net) : Net :=
  { n with
    streams := fun i =>
      let o := n.streams i
      if n.IsOpen i then
        { o with flowCtl := initFlowCtl n.client o.type n.localSettings o.flowCtl.fcLastWindowUpdateTime }
      else o }

inductive Ev where
  | create (type : StreamType)
  | stream (i : Nat) (f : StreamFrame)
  | resetStream (i finalSize : Nat) (lt : finalSize < 2 ^ 62)
  | dataBlocked (limit : UInt64)
  | streamDataBlocked (i : Nat) (limit : UInt64)
  | handshakeComplete
  | read (i size : Nat) (now srtt : UInt64)
  | destroy (i : Nat)

/-- A frame for a stream that is not there is ignored. -/
def step (n : Net) : Ev → Net
  | .create type => xqcCreateStream type n
  | .stream i f =>
    if n.IsOpen i then
      let r := xqcProcessStreamFrame f (n.view i)
      noteFrame i f r.1 (n.put i r.2)
    else n
  | .resetStream i size _ =>
    if n.IsOpen i then noteReset i size (n.put i (xqcProcessResetStreamFrame size (n.view i))) else n
  | .dataBlocked limit => xqcProcessDataBlockedFrame limit n
  | .streamDataBlocked i limit => if n.IsOpen i then xqcProcessStreamDataBlockedFrame i limit n else n
  | .handshakeComplete => xqcConnHandshakeComplete n
  | .read i size now srtt => if n.IsOpen i then n.put i (xqcStreamRecv size now srtt (n.view i)).2 else n
  | .destroy i => if n.IsOpen i then n.modify i fun o => { o with closed := true } else n

def Step (n : Net) (e : Ev) (m : Net) : Prop := m = step n e

structure Fresh (n : Net) : Prop where
  connFlowCtl : n.connFlowCtl = ⟨n.localSettings.maxData, 0, 0, n.localSettings.maxData, 0⟩
  connErr : n.connErr = 0
  next : n.next = 0
  written : n.written = []

/-! ## One stream -/

/-- What a stream keeps, with `a` the largest offset it has received. -/
structure Held (a : Nat) (s : Stream) : Prop where
  sound : Sound s
  recv : s.maxRecvOffset = UInt64.ofNat a
  lt : a < 2 ^ 63
  frames : ∀ g ∈ s.dataIn.framesTailq, g.dataEnd ≤ a
  merged : s.dataIn.mergedOffsetEnd ≤ a
  next : s.dataIn.nextReadOffset ≤ s.dataIn.mergedOffsetEnd

/-- Byte `j` lies beyond what can be read, and in no frame that waits. -/
def Missing (d : DataIn) (j : Nat) : Prop := d.mergedOffsetEnd ≤ j ∧ ¬ Covers d.framesTailq j

variable {d : DataIn}

lemma merged_le_of_not_covers (h : Shape d) {j : Nat} (hn : d.nextReadOffset ≤ j)
    (hj : ¬ Covers d.framesTailq j) : d.mergedOffsetEnd ≤ j := by
  by_contra hlt
  obtain ⟨g, hg, h1, h2⟩ := h.covered j hn (by omega)
  obtain ⟨f, hf, rfl⟩ := List.mem_map.mp hg
  rw [hi_frame, blank_dataEnd] at h2; exact hj ⟨f, hf, h1, h2⟩

variable {new : RecvFrame}

lemma insertPlace_split {l r left : List RecvFrame} : ∀ {right : List RecvFrame},
    insertPlace new left right = .ok (l, r) → l.reverse ++ r = left.reverse ++ right := by
  induction left with
  | nil =>
    intro right h
    obtain ⟨rfl, rfl⟩ := Prod.mk.inj (Except.ok.inj h)
    rfl
  | cons f left ih =>
    intro right h; rw [insertPlace] at h
    split at h
    · cases h
    split at h
    · obtain ⟨rfl, rfl⟩ := Prod.mk.inj (Except.ok.inj h)
      rfl
    · rw [ih h]; simp

lemma insert_mem {d' : DataIn} (h : xqcInsertStreamFrame new d = (.ok (), d')) :
    d'.nextReadOffset = d.nextReadOffset ∧ ∀ g ∈ d'.framesTailq, g ∈ d.framesTailq ∨ g = new := by
  unfold xqcInsertStreamFrame at h
  cases hp : insertPlace new d.framesTailq.reverse [] with
  | error e => rw [hp] at h; cases h
  | ok x =>
    rw [hp] at h
    obtain rfl := (Prod.mk.inj h).2
    have hsplit := insertPlace_split hp
    rw [List.reverse_reverse, List.append_nil] at hsplit
    refine ⟨rfl, fun g hg => ?_⟩
    rw [← hsplit]
    simp only [List.mem_append, List.mem_cons] at hg ⊢
    tauto

/-- What a STREAM frame does to a stream that has received up to `a` and then `b`. -/
structure Took (f : StreamFrame) (a b : Nat) (s t : Stream) : Prop where
  held : Held b t
  flowCtl : t.flowCtl = s.flowCtl
  connFlowCtl : t.connFlowCtl =
    { s.connFlowCtl with fcDataRecved := s.connFlowCtl.fcDataRecved + (UInt64.ofNat b - UInt64.ofNat a) }
  written : t.written = s.written
  reset : t.stateRecv.isReset = s.stateRecv.isReset
  connErr : s.connErr ≠ 0 → t.connErr = s.connErr
  next : t.dataIn.nextReadOffset = s.dataIn.nextReadOffset
  missing : ∀ j, Missing s.dataIn j → ¬ (f.dataOffset ≤ j ∧ j < f.dataEnd) → Missing t.dataIn j

variable {a i : Nat} {s t : Stream} {f : StreamFrame} {n : Net}

lemma Took.nothing (h : Held a s) (hd : t.dataIn.framesTailq = s.dataIn.framesTailq)
    (hm : t.dataIn.mergedOffsetEnd = s.dataIn.mergedOffsetEnd) (hn : t.dataIn.nextReadOffset = s.dataIn.nextReadOffset)
    (hr : t.stateRecv.isReset = s.stateRecv.isReset) (hx : t.maxRecvOffset = s.maxRecvOffset)
    (hf : t.flowCtl = s.flowCtl) (hc : t.connFlowCtl = s.connFlowCtl) (hw : t.written = s.written)
    (he : s.connErr ≠ 0 → t.connErr = s.connErr) : Took f a a s t where
  held :=
    { sound := by
        intro ht; unfold Shape
        rw [hm, hn, hd]; exact h.sound (hr ▸ ht)
      recv := hx.trans h.recv
      lt := h.lt
      frames := hd ▸ h.frames
      merged := hm ▸ h.merged
      next := by rw [hn, hm]; exact h.next }
  flowCtl := hf
  connFlowCtl := by rw [hc]; simp
  written := hw
  reset := hr
  connErr := he
  next := hn
  missing j hj _ := ⟨hm ▸ hj.1, hd ▸ hj.2⟩

lemma connError_took (h : Held a s) (err : UInt64) :
    Took f a a s (s.connError err) := by
  unfold Stream.connError; split
  · rename_i h0; exact .nothing h rfl rfl rfl rfl rfl rfl rfl rfl fun hne => absurd h0 hne
  · exact .nothing h rfl rfl rfl rfl rfl rfl rfl rfl fun _ => rfl

lemma noteFin_took {f g : StreamFrame} (h : Held a s) : Took f a a s (s.noteFin g) := by
  unfold Stream.noteFin; split
  · refine .nothing h rfl rfl rfl ?_ rfl rfl rfl rfl fun _ => rfl
    split
    · rename_i hs; rw [hs]; rfl
    · rfl
  · exact .nothing h rfl rfl rfl rfl rfl rfl rfl rfl fun _ => rfl

lemma allRecvd_took (h : Held a s) : Took f a a s s.allRecvd := by
  unfold Stream.allRecvd; split
  · rename_i hs
    refine .nothing h rfl rfl rfl ?_ rfl rfl rfl rfl fun _ => rfl
    rw [hs.2.2]; rfl
  · exact .nothing h rfl rfl rfl rfl rfl rfl rfl rfl fun _ => rfl

lemma Took.trans {b c : Nat} {s u : Stream} (h1 : Took f a b s t) (h2 : Took f b c t u) : Took f a c s u where
  held := h2.held
  flowCtl := h2.flowCtl.trans h1.flowCtl
  connFlowCtl := by
    have hsum : ∀ x y z w : UInt64, w + (y - x) + (z - y) = w + (z - x) := by grind
    rw [h2.connFlowCtl, h1.connFlowCtl, hsum]
  written := h2.written.trans h1.written
  reset := h2.reset.trans h1.reset
  connErr hs := by
    have h := h1.connErr hs
    exact (h2.connErr (h ▸ hs)).trans h
  next := h2.next.trans h1.next
  missing j hj hf := h2.missing j (h1.missing j hj hf) hf

/-- A frame is inserted, and its bytes beyond the largest offset are counted. -/
lemma insert_took (h : Held a s) (hr : s.stateRecv.isReset = false)
    (hi : xqcInsertStreamFrame ⟨f.dataOffset, f.data, 0⟩ s.dataIn = (.ok (), d)) :
    Took f a (max a f.dataEnd) s (Stream.countRecv f { s with dataIn := d }) := by
  have hend := f.dataEnd_lt
  have ha := h.lt
  have hnext := h.next
  have hmerged := h.merged
  have hnew : RecvFrame.dataEnd ⟨f.dataOffset, f.data, 0⟩ ≤ 2 ^ 63 := Nat.le_of_lt hend
  have hshape : Shape d := (h.sound hr).insert hnew rfl hi
  obtain ⟨hn, hmem⟩ := insert_mem hi
  have hframes : ∀ g ∈ d.framesTailq, g.dataEnd ≤ max a f.dataEnd := by
    intro g hg
    rcases hmem g hg with hold | rfl
    · exact (h.frames g hold).trans (le_max_left _ _)
    · exact le_max_right _ _
  have hd : (Stream.countRecv f { s with dataIn := d }).dataIn = d := by
    unfold Stream.countRecv
    split <;> rfl
  have hcount : (Stream.countRecv f { s with dataIn := d }).maxRecvOffset = UInt64.ofNat (max a f.dataEnd) ∧
      (Stream.countRecv f { s with dataIn := d }).connFlowCtl =
        { s.connFlowCtl with
          fcDataRecved := s.connFlowCtl.fcDataRecved + (UInt64.ofNat (max a f.dataEnd) - UInt64.ofNat a) } := by
    have hlt : s.maxRecvOffset < UInt64.ofNat f.dataEnd ↔ a < f.dataEnd := by
      rw [h.recv, lt_iff_toNat_lt, toNat_ofNat', toNat_ofNat', Nat.mod_eq_of_lt (by omega),
        Nat.mod_eq_of_lt (by omega)]
    unfold Stream.countRecv; split
    · rename_i hc; rw [max_eq_right (hlt.mp hc).le, ← h.recv]; exact ⟨rfl, rfl⟩
    · rename_i hc; rw [max_eq_left (not_lt.mp (mt hlt.mpr hc))]; exact ⟨h.recv, by simp⟩
  refine ⟨⟨?_, hcount.1, by omega, ?_, ?_, ?_⟩, ?_, hcount.2, ?_, ?_, ?_, ?_, ?_⟩
  · intro _; rw [hd]; exact hshape
  · rw [hd]; exact hframes
  · rw [hd]
    refine merged_le_of_not_covers hshape (by omega) ?_
    rintro ⟨g, hg, -, hlt⟩
    exact absurd hlt (not_lt.mpr (hframes g hg))
  · rw [hd]; exact hshape.le
  · unfold Stream.countRecv
    split <;> rfl
  · unfold Stream.countRecv
    split <;> rfl
  · unfold Stream.countRecv
    split <;> rfl
  · intro _; unfold Stream.countRecv
    split <;> rfl
  · rw [hd, hn]
  · intro j hj hf; rw [hd]
    have hnot : ¬ Covers d.framesTailq j := by
      rintro ⟨g, hg, h1, h2⟩
      rcases hmem g hg with hold | rfl
      · exact hj.2 ⟨g, hold, h1, h2⟩
      · exact hf ⟨h1, h2⟩
    exact ⟨merged_le_of_not_covers hshape (by have := hj.1; omega) hnot, hnot⟩

lemma insert_error_le {e : Err} (h : Held a s)
    (hi : xqcInsertStreamFrame new s.dataIn = (.error e, d)) : new.dataEnd ≤ a := by
  unfold xqcInsertStreamFrame at hi
  cases hp : insertPlace new s.dataIn.framesTailq.reverse [] with
  | ok x => rw [hp] at hi; cases hi
  | error e' =>
    obtain ⟨g, hg, -, hle⟩ := insertPlace_error hp
    exact hle.trans (h.frames g (List.mem_reverse.mp hg))

lemma streamFrame_took (h : Held a s) (f : StreamFrame) :
    Took f a (if (xqcProcessStreamFrame f s).1 = .ok () ∧ s.stateRecv.isReset = false then max a f.dataEnd else a) s
      (xqcProcessStreamFrame f s).2 := by
  have hsame : Took f a a s s := .nothing h rfl rfl rfl rfl rfl rfl rfl rfl fun _ => rfl
  unfold xqcProcessStreamFrame
  by_cases hr : s.stateRecv.isReset = true
  · rw [if_pos hr, if_neg (by simp [hr])]; exact hsame
  rw [if_neg hr]
  have hr' : s.stateRecv.isReset = false := by simpa using hr
  by_cases hold : s.AlreadyRecvd f
  · -- it ends within what was received before
    have hle : f.dataEnd ≤ a := hold.1.trans h.merged
    rw [if_pos hold, max_eq_left hle, ite_self]; exact hsame
  rw [if_neg hold]
  by_cases hchanged : f.fin = true ∧ s.dataIn.streamLength > 0 ∧ s.dataIn.streamLength ≠ f.dataEnd
  · rw [if_pos hchanged, if_neg (by simp)]; exact connError_took h _
  rw [if_neg hchanged]
  have hfin : Took f a a s (s.noteFin f) := noteFin_took h
  generalize s.noteFin f = t at hfin ⊢
  by_cases hbeyond : t.dataIn.streamLength > 0 ∧ f.dataEnd > t.dataIn.streamLength
  · rw [if_pos hbeyond, if_neg (by simp)]
    exact hfin.trans (connError_took hfin.held traFinalSizeError)
  rw [if_neg hbeyond]
  rcases hi : xqcInsertStreamFrame ⟨f.dataOffset, f.data, 0⟩ t.dataIn with ⟨r, d⟩
  cases r with
  | error e =>
    -- it lies inside a frame of the list
    have hle : f.dataEnd ≤ a := insert_error_le hfin.held hi
    rw [max_eq_left hle, ite_self]; exact hfin
  | ok u =>
    rw [if_pos ⟨rfl, hr'⟩]
    have htook := insert_took hfin.held (hfin.reset.trans hr') hi
    exact hfin.trans (htook.trans (allRecvd_took htook.held))

structure Calm (s t : Stream) : Prop where
  recv : t.maxRecvOffset = s.maxRecvOffset
  reset : t.stateRecv.isReset = s.stateRecv.isReset
  recved : t.connFlowCtl.fcDataRecved = s.connFlowCtl.fcDataRecved
  connErr : s.connErr ≠ 0 → t.connErr = s.connErr

lemma Calm.refl (s : Stream) : Calm s s := ⟨rfl, rfl, rfl, fun _ => rfl⟩

lemma Calm.trans {s u : Stream} (h1 : Calm s t) (h2 : Calm t u) : Calm s u := by
  refine ⟨h2.recv.trans h1.recv, h2.reset.trans h1.reset, h2.recved.trans h1.recved, fun hs => ?_⟩
  have h := h1.connErr hs
  exact (h2.connErr (h ▸ hs)).trans h

lemma connError_calm (err : UInt64) (s : Stream) : Calm s (s.connError err) := by
  unfold Stream.connError; split
  · rename_i h0; exact ⟨rfl, rfl, rfl, fun hne => absurd h0 hne⟩
  · exact .refl s

lemma doRecvFlowCtl_calm (now srtt : UInt64) (s : Stream) : Calm s (xqcStreamDoRecvFlowCtl now srtt s).2 := by
  have hs : Calm s (s.raiseStreamWindow now srtt) := by
    unfold Stream.raiseStreamWindow
    dsimp only
    split <;> exact ⟨rfl, rfl, rfl, fun _ => rfl⟩
  have hc : ∀ t : Stream, Calm t (t.raiseConnWindow now srtt) := by
    intro t; unfold Stream.raiseConnWindow
    dsimp only
    split <;> exact ⟨rfl, rfl, rfl, fun _ => rfl⟩
  unfold xqcStreamDoRecvFlowCtl; split
  · exact connError_calm _ s
  split
  · exact connError_calm _ s
  · exact hs.trans (hc _)

lemma finRead_calm (s : Stream) : Calm s s.finRead := by
  unfold Stream.finRead; split
  · rename_i hs; exact ⟨rfl, by rw [hs]; rfl, rfl, fun _ => rfl⟩
  · exact .refl s

lemma recv_calm (size : Nat) (now srtt : UInt64) (s : Stream) : Calm s (xqcStreamRecv size now srtt s).2 := by
  unfold xqcStreamRecv; split
  · rename_i hr; exact ⟨rfl, hr.symm, rfl, fun _ => rfl⟩
  dsimp only
  generalize readFrames s.dataIn.mergedOffsetEnd size s.dataIn.framesTailq s.dataIn.nextReadOffset [] = t
  generalize decide (s.dataIn.streamLength > 0 ∧ t.nextReadOffset = s.dataIn.streamLength) = fin
  have htaken : Calm s (s.taken t) := ⟨rfl, rfl, rfl, fun _ => rfl⟩
  have hfin : Calm s (if fin = true then (s.taken t).finRead else s.taken t) := by
    split
    · exact htaken.trans (finRead_calm _)
    · exact htaken
  have hflow := hfin.trans (doRecvFlowCtl_calm now srtt _)
  split
  · rename_i hx; rw [hx] at hflow; exact hflow
  · rename_i hx; rw [hx] at hflow
    split <;> exact hflow

lemma readFrames_ends (merged size : Nat) (fs : List RecvFrame) : ∀ (next : Nat) (buf : List UInt8),
    ∀ g ∈ (readFrames merged size fs next buf).frames, ∃ f ∈ fs, g.dataOffset = f.dataOffset ∧ g.dataEnd = f.dataEnd := by
  induction fs with
  | nil => intro next buf g hg; cases hg
  | cons f fs ih =>
    intro next buf g hg
    have hself : ∀ g ∈ f :: fs, ∃ f' ∈ f :: fs, g.dataOffset = f'.dataOffset ∧ g.dataEnd = f'.dataEnd :=
      fun g hg => ⟨g, hg, rfl, rfl⟩
    have htail : ∀ next buf, ∀ g ∈ (readFrames merged size fs next buf).frames,
        ∃ f' ∈ f :: fs, g.dataOffset = f'.dataOffset ∧ g.dataEnd = f'.dataEnd := by
      intro next buf g hg
      obtain ⟨f', hf', he⟩ := ih next buf g hg
      exact ⟨f', List.mem_cons_of_mem _ hf', he⟩
    unfold readFrames at hg
    dsimp only at hg
    generalize (if f.dataOffset < next then max f.nextReadOffset (next - f.dataOffset) else f.nextReadOffset) = cur at hg
    split at hg
    · exact hself g hg
    split at hg
    · exact hself g hg
    split at hg
    · exact htail _ _ g hg
    split at hg
    · exact htail _ _ g hg
    · rcases List.mem_cons.mp hg with rfl | hg
      · exact ⟨f, List.mem_cons_self, rfl, rfl⟩
      · exact ⟨g, List.mem_cons_of_mem _ hg, rfl, rfl⟩

lemma recv_held (h : Held a s) (size : Nat) (now srtt : UInt64) :
    Held a (xqcStreamRecv size now srtt s).2 ∧
      ∀ j, Missing s.dataIn j → Missing (xqcStreamRecv size now srtt s).2.dataIn j := by
  have hrecv := (recv_calm size now srtt s).recv.trans h.recv
  have hsound := recv_sound h.sound size now srtt
  cases hr : s.stateRecv.isReset with
  | true =>
    have hd : (xqcStreamRecv size now srtt s).2.dataIn = s.dataIn := by
      unfold xqcStreamRecv; rw [if_pos hr]
    exact ⟨⟨hsound, hrecv, h.lt, hd ▸ h.frames, hd ▸ h.merged, hd ▸ h.next⟩, fun j hj => hd ▸ hj⟩
  | false =>
    have hd := recv_dataIn hr size now srtt
    have hread := (h.sound hr).read size
    refine ⟨⟨hsound, hrecv, h.lt, ?_, ?_, ?_⟩, fun j hj => ?_⟩
    · rw [hd]
      intro g hg
      obtain ⟨f, hf, -, he⟩ := readFrames_ends _ _ _ _ _ g hg
      exact he ▸ h.frames f hf
    · rw [hd]; exact h.merged
    · rw [hd]; exact hread.2.le
    · rw [hd]; refine ⟨hj.1, ?_⟩
      rintro ⟨g, hg, h1, h2⟩
      obtain ⟨f, hf, ho, he⟩ := readFrames_ends _ _ _ _ _ g hg
      exact hj.2 ⟨f, hf, Nat.le_trans (Nat.le_of_eq ho.symm) h1, Nat.lt_of_lt_of_eq h2 he⟩

/-- A read of a stream that has received more than a limit allows is refused, with the error of flow control unless there is
    one already; no limit is raised. -/
lemma recv_refused (hr : s.stateRecv.isReset = false)
    (hover : s.connFlowCtl.fcMaxDataCanRecv < s.connFlowCtl.fcDataRecved ∨
      s.flowCtl.fcMaxStreamDataCanRecv < s.maxRecvOffset) (size : Nat) (now srtt : UInt64) :
    (xqcStreamRecv size now srtt s).1 = .error .eproto ∧
      (xqcStreamRecv size now srtt s).2.connErr = (if s.connErr = 0 then traFlowControlError else s.connErr) ∧
      (xqcStreamRecv size now srtt s).2.flowCtl = s.flowCtl ∧
      (xqcStreamRecv size now srtt s).2.connFlowCtl.fcMaxDataCanRecv = s.connFlowCtl.fcMaxDataCanRecv := by
  unfold xqcStreamRecv
  rw [if_neg (by simp [hr])]
  dsimp only
  generalize readFrames s.dataIn.mergedOffsetEnd size s.dataIn.framesTailq s.dataIn.nextReadOffset [] = t
  generalize decide (s.dataIn.streamLength > 0 ∧ t.nextReadOffset = s.dataIn.streamLength) = fin
  have hfin : ∃ st, (if fin = true then (s.taken t).finRead else s.taken t) = { s.taken t with stateRecv := st } := by
    unfold Stream.finRead
    split_ifs <;> exact ⟨_, rfl⟩
  obtain ⟨st, hst⟩ := hfin
  have herr : xqcStreamDoRecvFlowCtl now srtt { s.taken t with stateRecv := st } =
      (.error .eproto, Stream.connError traFlowControlError { s.taken t with stateRecv := st }) := by
    unfold xqcStreamDoRecvFlowCtl; split
    · rfl
    · rename_i hle
      exact if_pos (hover.resolve_left hle)
  rw [hst, herr]
  unfold Stream.connError
  by_cases h0 : s.connErr = 0
  · simp [Stream.taken, h0]
  · simp [Stream.taken, h0]

lemma resetStream_spec (h : Held a s) (hr : s.stateRecv.isReset = false) (size : Nat) :
    Held a (xqcProcessResetStreamFrame size s) ∧ (xqcProcessResetStreamFrame size s).stateRecv.isReset = true ∧
      (xqcProcessResetStreamFrame size s).connFlowCtl.fcDataRecved =
        s.connFlowCtl.fcDataRecved + (UInt64.ofNat size - UInt64.ofNat a) := by
  unfold xqcProcessResetStreamFrame
  rw [if_neg (by simp [hr]), h.recv]
  refine ⟨⟨?_, rfl, h.lt, ?_, h.merged, h.next⟩, rfl, rfl⟩
  · intro hc; cases hc
  · intro g hg; cases hg

lemma resetStream_limits (size : Nat) (s : Stream) :
    (xqcProcessResetStreamFrame size s).connFlowCtl.fcMaxDataCanRecv = s.connFlowCtl.fcMaxDataCanRecv ∧
      (xqcProcessResetStreamFrame size s).flowCtl = s.flowCtl ∧
      ∀ j, Missing s.dataIn j → Missing (xqcProcessResetStreamFrame size s).dataIn j := by
  unfold xqcProcessResetStreamFrame; split
  · exact ⟨rfl, rfl, fun _ hj => hj⟩
  · exact ⟨rfl, rfl, fun j hj => ⟨hj.1, fun ⟨_, hg, _⟩ => nomatch hg⟩⟩

lemma Held.congr (h : Held a s) (hd : t.dataIn = s.dataIn)
    (hr : t.stateRecv.isReset = s.stateRecv.isReset) (hx : t.maxRecvOffset = s.maxRecvOffset) : Held a t where
  sound ht := hd ▸ h.sound (hr ▸ ht)
  recv := hx.trans h.recv
  lt := h.lt
  frames := hd ▸ h.frames
  merged := hd ▸ h.merged
  next := hd ▸ h.next

lemma Held.into {o : Own} (h : Held a s) (ho : n.streams i = o)
    (hd : o.dataIn = s.dataIn) (hr : o.stateRecv = s.stateRecv) (hx : o.maxRecvOffset = s.maxRecvOffset) :
    Held a (n.view i) := by
  subst ho; exact h.congr hd (congrArg _ hr) hx

/-! ## All streams -/

structure Inv (n : Net) : Prop where
  held : ∀ i < n.next, Held (n.streams i).largest (n.view i)
  reset : ∀ i < n.next, (n.streams i).stateRecv.isReset = (n.streams i).finalSize.isSome
  sum : n.connFlowCtl.fcDataRecved = UInt64.ofNat n.total

variable {m : Net}

lemma total_change (hi : i < n.next) (hn : m.next = n.next)
    (hs : ∀ j ≠ i, m.streams j = n.streams j) : m.total + (n.streams i).account = n.total + (m.streams i).account := by
  have hmem : i ∈ range n.next := mem_range.mpr hi
  have hrest : ∑ j ∈ (range n.next).erase i, (m.streams j).account = ∑ j ∈ (range n.next).erase i, (n.streams j).account :=
    sum_congr rfl fun j hj => by rw [hs j (ne_of_mem_erase hj)]
  unfold Net.total
  rw [hn, ← add_sum_erase _ (fun j => (n.streams j).account) hmem, ← add_sum_erase _ (fun j => (m.streams j).account) hmem,
    hrest]
  omega

/-- Only stream `i` changes, and what it counts for is counted. -/
lemma Inv.change (h : Inv n) (hi : i < n.next) (hn : m.next = n.next)
    (hs : ∀ j ≠ i, m.streams j = n.streams j) (hheld : Held (m.streams i).largest (m.view i))
    (hreset : (m.streams i).stateRecv.isReset = (m.streams i).finalSize.isSome)
    (hrecved : m.connFlowCtl.fcDataRecved =
      n.connFlowCtl.fcDataRecved + (UInt64.ofNat (m.streams i).account - UInt64.ofNat (n.streams i).account)) : Inv m where
  held j hj := by
    by_cases hji : j = i
    · subst hji; exact hheld
    · rw [hs j hji]; exact (h.held j (hn ▸ hj)).into (hs j hji) rfl rfl rfl
  reset j hj := by
    by_cases hji : j = i
    · subst hji; exact hreset
    · rw [hs j hji]; exact h.reset j (hn ▸ hj)
  sum := by
    have ht := congrArg UInt64.ofNat (total_change hi hn hs)
    rw [ofNat_add, ofNat_add] at ht
    rw [hrecved, h.sum]
    grind

/-- What a step for stream `i` leaves to the others. -/
structure Only (i : Nat) (n m : Net) : Prop where
  next : m.next = n.next
  streams : ∀ j ≠ i, m.streams j = n.streams j

lemma put_only (i : Nat) (s : Stream) (n : Net) : Only i n (n.put i s) :=
  ⟨rfl, fun _ hj => update_of_ne hj _ _⟩

lemma modify_only (i : Nat) (f : Own → Own) (n : Net) : Only i n (n.modify i f) :=
  ⟨rfl, fun _ hj => update_of_ne hj _ _⟩

section Frame

variable {n : Net} {i : Nat} {f : StreamFrame} {s : Stream} {r : Except Err Unit}

lemma noteFrame_eq : noteFrame i f r (n.put i s) =
    { n.put i s with
      streams := update n.streams i
        { n.streams i with
          dataIn := s.dataIn, stateRecv := s.stateRecv, maxRecvOffset := s.maxRecvOffset, flowCtl := s.flowCtl
          largest := if r = .ok () ∧ (n.streams i).finalSize = none then max (n.streams i).largest f.dataEnd
            else (n.streams i).largest } } := by
  simp [noteFrame, Net.modify, Net.put]

lemma noteReset_eq {size : Nat} : noteReset i size (n.put i s) =
    { n.put i s with
      streams := update n.streams i
        { n.streams i with
          dataIn := s.dataIn, stateRecv := s.stateRecv, maxRecvOffset := s.maxRecvOffset, flowCtl := s.flowCtl
          finalSize := some ((n.streams i).finalSize.getD size) } } := by
  simp [noteReset, Net.modify, Net.put]

end Frame

lemma Inv.took (h : Inv n) (hi : i < n.next) (f : StreamFrame) :
    Took f (n.streams i).largest
      (if (xqcProcessStreamFrame f (n.view i)).1 = .ok () ∧ (n.streams i).finalSize = none then
        max (n.streams i).largest f.dataEnd else (n.streams i).largest)
      (n.view i) (xqcProcessStreamFrame f (n.view i)).2 := by
  have htook := streamFrame_took (h.held i hi) f
  have hr : (n.view i).stateRecv.isReset = false ↔ (n.streams i).finalSize = none := by
    show (n.streams i).stateRecv.isReset = false ↔ _
    rw [h.reset i hi, isSome_eq_false_iff, isNone_iff_eq_none]
  simpa only [hr] using htook

lemma streamFrame_inv (h : Inv n) (hi : i < n.next) (f : StreamFrame) :
    Inv (noteFrame i f (xqcProcessStreamFrame f (n.view i)).1 (n.put i (xqcProcessStreamFrame f (n.view i)).2)) := by
  have htook := h.took hi f
  have hreset := h.reset i hi
  rw [noteFrame_eq]
  generalize xqcProcessStreamFrame f (n.view i) = x at htook ⊢
  refine h.change hi rfl (fun j hj => update_of_ne hj _ _) ?_ ?_ ?_
  · simp only [update_self]; exact htook.held.into (update_self ..) rfl rfl rfl
  · simp only [update_self]; rw [htook.reset]; exact hreset
  · simp only [update_self, Net.put, htook.connFlowCtl, Own.account]
    cases hf : (n.streams i).finalSize with
    | none => rfl
    | some size => simp [Net.view]

lemma resetStream_inv (h : Inv n) (hi : i < n.next) (size : Nat) :
    Inv (noteReset i size (n.put i (xqcProcessResetStreamFrame size (n.view i)))) := by
  have hheld := h.held i hi
  have hreset := h.reset i hi
  rw [noteReset_eq]
  cases hf : (n.streams i).finalSize with
  | some m =>
    -- the reset is ignored
    rw [hf] at hreset
    have hsame : xqcProcessResetStreamFrame size (n.view i) = n.view i := by
      have hr : (n.view i).stateRecv.isReset = true := hreset
      unfold xqcProcessResetStreamFrame; rw [if_pos hr]
    rw [hsame]
    refine h.change hi rfl (fun j hj => update_of_ne hj _ _) ?_ ?_ ?_
    · simp only [update_self]; exact hheld.into (update_self ..) rfl rfl rfl
    · simp only [update_self]; exact hreset
    · simp [Net.put, Net.view, Own.account, hf]
  | none =>
    rw [hf] at hreset
    obtain ⟨ht, hr, hrecved⟩ := resetStream_spec hheld hreset size
    refine h.change hi rfl (fun j hj => update_of_ne hj _ _) ?_ ?_ ?_
    · simp only [update_self]; exact ht.into (update_self ..) rfl rfl rfl
    · simp only [update_self]; exact hr
    · simp only [update_self, Net.put, Own.account, hf, getD_none, getD_some]; exact hrecved

lemma read_inv (h : Inv n) (hi : i < n.next) (size : Nat) (now srtt : UInt64) :
    Inv (n.put i (xqcStreamRecv size now srtt (n.view i)).2) := by
  have hcalm := recv_calm size now srtt (n.view i)
  have hheld := (recv_held (h.held i hi) size now srtt).1
  refine h.change hi rfl (put_only i _ n).streams ?_ ?_ ?_
  · simp only [Net.put, update_self]; exact hheld.into (update_self ..) rfl rfl rfl
  · simp only [Net.put, update_self]; exact hcalm.reset.trans (h.reset i hi)
  · simp only [Net.put, update_self, Own.account]; rw [hcalm.recved]; simp [Net.view]

/-- Only limits, adverts and the mark of a destroyed stream change. -/
structure Still (n m : Net) : Prop where
  next : m.next = n.next
  streams : ∀ j, (m.streams j).dataIn = (n.streams j).dataIn ∧ (m.streams j).stateRecv = (n.streams j).stateRecv ∧
    (m.streams j).maxRecvOffset = (n.streams j).maxRecvOffset ∧ (m.streams j).largest = (n.streams j).largest ∧
    (m.streams j).finalSize = (n.streams j).finalSize
  recved : m.connFlowCtl.fcDataRecved = n.connFlowCtl.fcDataRecved
  connErr : m.connErr = n.connErr

lemma Still.refl (n : Net) : Still n n := ⟨rfl, fun _ => ⟨rfl, rfl, rfl, rfl, rfl⟩, rfl, rfl⟩

lemma modify_still (i : Nat) {f : Own → Own}
    (hf : ∀ o, (f o).dataIn = o.dataIn ∧ (f o).stateRecv = o.stateRecv ∧ (f o).maxRecvOffset = o.maxRecvOffset ∧
      (f o).largest = o.largest ∧ (f o).finalSize = o.finalSize) : Still n (n.modify i f) := by
  refine ⟨rfl, fun j => ?_, rfl, rfl⟩
  by_cases hj : j = i
  · subst hj; simp only [Net.modify, update_self]; exact hf _
  · rw [(modify_only i f n).streams j hj]; exact ⟨rfl, rfl, rfl, rfl, rfl⟩

lemma Still.total (hs : Still n m) : m.total = n.total := by
  unfold Net.total; rw [hs.next]
  refine sum_congr rfl fun j _ => ?_
  obtain ⟨-, -, -, hl, hf⟩ := hs.streams j
  unfold Own.account; rw [hl, hf]

lemma Inv.still (h : Inv n) (hs : Still n m) : Inv m where
  held j hj := by
    obtain ⟨hd, hr, hx, hl, -⟩ := hs.streams j
    rw [hl]; exact (h.held j (hs.next ▸ hj)).into rfl hd hr hx
  reset j hj := by
    obtain ⟨-, hr, -, -, hf⟩ := hs.streams j
    rw [hr, hf]; exact h.reset j (hs.next ▸ hj)
  sum := by
    rw [hs.recved, h.sum, hs.total]

lemma ite_open {P : Net → Prop} (h : P n) (hm : n.IsOpen i → P m) : P (if n.IsOpen i then m else n) := by
  split
  · exact hm ‹_›
  · exact h

def Ev.quiet : Ev → Bool
  | .dataBlocked _ | .streamDataBlocked _ _ | .handshakeComplete | .destroy _ => true
  | _ => false

lemma quiet_still {e : Ev} (he : e.quiet = true) : Still n (step n e) := by
  cases e with
  | dataBlocked limit =>
    unfold step xqcProcessDataBlockedFrame
    dsimp only; split
    · exact .refl n
    · exact ⟨rfl, fun _ => ⟨rfl, rfl, rfl, rfl, rfl⟩, rfl, rfl⟩
  | streamDataBlocked i limit =>
    refine ite_open (.refl n) fun _ => ?_
    unfold xqcProcessStreamDataBlockedFrame
    dsimp only; split
    · exact .refl n
    · generalize UInt64.ofNat (n.streams i).dataIn.nextReadOffset + (n.streams i).flowCtl.fcStreamRecvWindowSize = new
      have hm : Still n (n.modify i fun o => { o with flowCtl := { o.flowCtl with fcMaxStreamDataCanRecv := new } }) :=
        modify_still i fun _ => ⟨rfl, rfl, rfl, rfl, rfl⟩
      exact ⟨hm.next, hm.streams, hm.recved, hm.connErr⟩
  | handshakeComplete =>
    refine ⟨rfl, fun j => ?_, rfl, rfl⟩
    unfold step xqcConnHandshakeComplete
    dsimp only
    split <;> exact ⟨rfl, rfl, rfl, rfl, rfl⟩
  | destroy i => exact ite_open (.refl n) fun _ => modify_still i fun _ => ⟨rfl, rfl, rfl, rfl, rfl⟩
  | _ => cases he

lemma create_old (type : StreamType) {j : Nat} (hj : j < n.next) : (xqcCreateStream type n).streams j = n.streams j :=
  update_of_ne (Nat.ne_of_lt hj) _ _

lemma create_total (type : StreamType) : (xqcCreateStream type n).total = n.total := by
  have hnew : ((xqcCreateStream type n).streams n.next).account = 0 := by
    simp only [xqcCreateStream, update_self]
    rfl
  unfold Net.total
  rw [show (xqcCreateStream type n).next = n.next + 1 from rfl, sum_range_succ, hnew, Nat.add_zero]
  exact sum_congr rfl fun j hj => by rw [create_old type (mem_range.mp hj)]

lemma create_inv (h : Inv n) (type : StreamType) : Inv (xqcCreateStream type n) := by
  refine ⟨fun j hj => ?_, fun j hj => ?_, ?_⟩
  · rcases Nat.lt_succ_iff_lt_or_eq.mp hj with hj | rfl
    · rw [create_old type hj]; exact (h.held j hj).into (create_old type hj) rfl rfl rfl
    · have hself := update_self (β := fun _ => Own) n.next
      have hheld : Held 0 (Stream.fresh (n.streams n.next).flowCtl n.connFlowCtl) := by
        refine ⟨fresh_sound _ _, rfl, by decide, ?_, le_rfl, le_rfl⟩
        intro g hg; cases hg
      unfold xqcCreateStream
      simp only [hself]; exact hheld.into (hself ..) rfl rfl rfl
  · rcases Nat.lt_succ_iff_lt_or_eq.mp hj with hj | rfl
    · rw [create_old type hj]; exact h.reset j hj
    · simp only [xqcCreateStream, update_self]; rfl
  · rw [create_total]; exact h.sum

lemma step_inv (h : Inv n) (e : Ev) : Inv (step n e) := by
  cases e with
  | create type => exact create_inv h type
  | stream i f => exact ite_open h fun ho => streamFrame_inv h ho.1 f
  | resetStream i size lt => exact ite_open h fun ho => resetStream_inv h ho.1 size
  | read i size now srtt => exact ite_open h fun ho => read_inv h ho.1 size now srtt
  | _ => exact h.still (quiet_still rfl)

lemma Fresh.inv (h : Fresh n) : Inv n := by
  refine ⟨fun i hi => ?_, fun i hi => ?_, ?_⟩
  · exact absurd hi (by rw [h.next]; exact Nat.not_lt_zero i)
  · exact absurd hi (by rw [h.next]; exact Nat.not_lt_zero i)
  · unfold Net.total; rw [h.connFlowCtl, h.next]; rfl

lemma run_inv {n0 n : Net} {es : List Ev} (h0 : Fresh n0) (h : Run Step n0 es n) : Inv n := by
  refine h.inv (P := Inv) ?_ h0.inv
  rintro n e m hn rfl
  exact step_inv hn e

/-! ## Frames over a limit -/

lemma step_connErr (h : Inv n) (hne : n.connErr ≠ 0) (e : Ev) : (step n e).connErr = n.connErr := by
  have hopen {i : Nat} {m : Net} := ite_open (n := n) (i := i) (m := m) (P := fun m => m.connErr = n.connErr) rfl
  cases e with
  | create type => rfl
  | stream i f =>
    refine hopen fun ho => ?_
    rw [noteFrame_eq]; exact (h.took ho.1 f).connErr hne
  | resetStream i size lt =>
    refine hopen fun _ => ?_
    rw [noteReset_eq]
    unfold xqcProcessResetStreamFrame
    split <;> rfl
  | read i size now srtt => exact hopen fun _ => (recv_calm size now srtt (n.view i)).connErr hne
  | _ => exact (quiet_still rfl).connErr

lemma run_connErr {es : List Ev} (hrun : Run Step n es m) (h : Inv n) (hne : n.connErr ≠ 0) : m.connErr = n.connErr := by
  refine (hrun.inv (P := fun u => Inv u ∧ u.connErr = n.connErr) ?_ ⟨h, rfl⟩).2
  rintro u e v ⟨hu, he⟩ rfl
  exact ⟨step_inv hu e, (step_connErr hu (he ▸ hne) e).trans he⟩

/-- The connection, or stream `i`, has received more than its limit. -/
def Net.Over (n : Net) (conn : Bool) (i : Nat) : Prop :=
  if conn then n.connFlowCtl.fcMaxDataCanRecv.toNat < n.total
  else (n.streams i).flowCtl.fcMaxStreamDataCanRecv.toNat < (n.streams i).largest

/-- A frame that takes the connection, or stream `i`, over its limit: a STREAM frame while the byte at `gap` before it is
    missing, or a reset. No read looks at the limit of a stream that is reset. -/
def Exceeds (conn : Bool) (i : Nat) (gap : Option Nat) (n : Net) : Ev → Prop
  | .stream k f =>
    k = i ∧ n.IsOpen i ∧ n.Passes conn i f.dataEnd ∧ (xqcProcessStreamFrame f (n.view i)).1 = .ok () ∧
      ∃ j, gap = some j ∧ Missing (n.streams i).dataIn j ∧ j < f.dataOffset
  | .resetStream k size _ => k = i ∧ n.IsOpen i ∧ conn = true ∧ gap = none ∧ n.Passes conn i size
  | _ => False

/-- What leaves the byte at `gap` missing and the limit as it is: no frame with that byte, no advert that a blocked peer asks
    for, no reset to less than was received, and no read of a count that has wrapped. -/
def Undisturbed (conn : Bool) (i : Nat) (gap : Option Nat) (n : Net) : Ev → Prop
  | .stream k f => k = i → ∀ j ∈ gap, ¬ (f.dataOffset ≤ j ∧ j < f.dataEnd)
  | .resetStream k size _ => conn = true → (n.streams k).finalSize = none → (n.streams k).largest ≤ size
  | .dataBlocked _ => conn = false
  | .streamDataBlocked k _ => conn = true ∨ k ≠ i
  | .handshakeComplete => conn = true
  | .read _ _ _ _ => conn = true → n.total < 2 ^ 64
  | _ => True

structure Waits (conn : Bool) (i : Nat) (gap : Option Nat) (n : Net) : Prop where
  inv : Inv n
  lt : i < n.next
  missing : ∀ j ∈ gap, Missing (n.streams i).dataIn j
  exceeded : n.Over conn i

variable {conn : Bool} {gap : Option Nat} {k : Nat}

lemma Waits.over_limit (h : Waits conn i gap n) (hki : conn = false → k = i) (htotal : conn = true → n.total < 2 ^ 64) :
    (n.view k).connFlowCtl.fcMaxDataCanRecv < (n.view k).connFlowCtl.fcDataRecved ∨
      (n.view k).flowCtl.fcMaxStreamDataCanRecv < (n.view k).maxRecvOffset := by
  have hover := h.exceeded
  unfold Net.Over at hover
  cases conn with
  | true =>
    refine .inl ?_
    show n.connFlowCtl.fcMaxDataCanRecv < n.connFlowCtl.fcDataRecved
    rw [h.inv.sum, UInt64.lt_iff_toNat_lt, toNat_ofNat', Nat.mod_eq_of_lt (htotal rfl)]
    exact hover
  | false =>
    obtain rfl := hki rfl
    have hheld := h.inv.held k h.lt
    have hlt := hheld.lt
    refine .inr ?_
    rw [hheld.recv, UInt64.lt_iff_toNat_lt, toNat_ofNat', Nat.mod_eq_of_lt (by omega)]
    exact hover

/-- A step for one stream `k` that raises no limit over what it adds. -/
lemma Waits.only (h : Waits conn i gap n) (hinv : Inv m) (hm : Only k n m)
    (hmiss : k = i → ∀ j ∈ gap, Missing (m.streams i).dataIn j)
    (hconn : conn = true → m.connFlowCtl.fcMaxDataCanRecv = n.connFlowCtl.fcMaxDataCanRecv ∧ n.total ≤ m.total)
    (hstream : conn = false → k = i → (m.streams i).flowCtl = (n.streams i).flowCtl ∧
      (n.streams i).largest ≤ (m.streams i).largest) : Waits conn i gap m := by
  refine ⟨hinv, hm.next ▸ h.lt, fun j hj => ?_, ?_⟩
  · by_cases hki : k = i
    · exact hmiss hki j hj
    · rw [hm.streams i (Ne.symm hki)]; exact h.missing j hj
  · have hover := h.exceeded
    unfold Net.Over at hover ⊢
    cases conn with
    | true =>
      obtain ⟨hmax, hle⟩ := hconn rfl
      show _ < _
      rw [hmax]; exact Nat.lt_of_lt_of_le hover hle
    | false =>
      show _ < _
      by_cases hki : k = i
      · obtain ⟨hfc, hle⟩ := hstream rfl hki
        rw [hfc]; exact Nat.lt_of_lt_of_le hover hle
      · rw [hm.streams i (Ne.symm hki)]; exact hover

lemma total_le (hk : k < n.next) (hm : Only k n m) (ha : (n.streams k).account ≤ (m.streams k).account) :
    n.total ≤ m.total := by
  have := total_change hk hm.next hm.streams
  omega

/-- What stream `k` counts for after a STREAM frame. -/
lemma noteFrame_account {f : StreamFrame} {r : Except Err Unit} :
    (n.streams k).account ≤ ((noteFrame k f r (n.put k s)).streams k).account := by
  rw [noteFrame_eq]
  simp only [update_self, Own.account]
  cases hf : (n.streams k).finalSize with
  | none =>
    simp only [getD_none]; split
    · exact le_max_left ..
    · exact le_rfl
  | some size => exact le_rfl

lemma noteFrame_only {f : StreamFrame} {r : Except Err Unit} : Only k n (noteFrame k f r (n.put k s)) := by
  rw [noteFrame_eq]; exact ⟨rfl, fun _ hj => update_of_ne hj _ _⟩

lemma noteReset_only {size : Nat} : Only k n (noteReset k size (n.put k s)) := by
  rw [noteReset_eq]; exact ⟨rfl, fun _ hj => update_of_ne hj _ _⟩

lemma Waits.stream (h : Waits conn i gap n) (hk : k < n.next) {f : StreamFrame}
    (hf : k = i → ∀ j ∈ gap, ¬ (f.dataOffset ≤ j ∧ j < f.dataEnd)) :
    Waits conn i gap (noteFrame k f (xqcProcessStreamFrame f (n.view k)).1 (n.put k (xqcProcessStreamFrame f (n.view k)).2)) := by
  have htook := h.inv.took hk f
  have hmax := congrArg ConnFlowCtl.fcMaxDataCanRecv htook.connFlowCtl
  refine h.only (streamFrame_inv h.inv hk f) noteFrame_only ?_ (fun _ => ⟨?_, total_le hk noteFrame_only noteFrame_account⟩) ?_
  · rintro rfl j hj; rw [noteFrame_eq]
    simp only [update_self]
    exact htook.missing j (h.missing j hj) (hf rfl j hj)
  · rw [noteFrame_eq]; exact hmax
  · rintro - rfl; rw [noteFrame_eq]
    simp only [update_self]
    refine ⟨htook.flowCtl, ?_⟩
    split
    · exact le_max_left ..
    · exact le_rfl

lemma Waits.reset (h : Waits conn i gap n) (hk : k < n.next) {size : Nat}
    (hs : conn = true → (n.streams k).finalSize = none → (n.streams k).largest ≤ size) :
    Waits conn i gap (noteReset k size (n.put k (xqcProcessResetStreamFrame size (n.view k)))) := by
  obtain ⟨hmax, hfc, hmiss⟩ := resetStream_limits size (n.view k)
  refine h.only (resetStream_inv h.inv hk size) noteReset_only ?_ (fun hconn => ⟨?_, total_le hk noteReset_only ?_⟩) ?_
  · rintro rfl j hj; rw [noteReset_eq]
    simp only [update_self]
    exact hmiss j (h.missing j hj)
  · rw [noteReset_eq]; exact hmax
  · rw [noteReset_eq]
    simp only [update_self, Own.account, getD_some]
    cases hf : (n.streams k).finalSize with
    | none => exact hs hconn hf
    | some m => exact le_rfl
  · rintro - rfl; rw [noteReset_eq]
    simp only [update_self]; exact ⟨hfc, le_rfl⟩

lemma Waits.read (h : Waits conn i gap n) (hk : k < n.next) (htotal : conn = true → n.total < 2 ^ 64) (size : Nat)
    (now srtt : UInt64) : Waits conn i gap (n.put k (xqcStreamRecv size now srtt (n.view k)).2) := by
  have hmiss := (recv_held (h.inv.held k hk) size now srtt).2
  have hkeeps : conn = true ∨ k = i →
      (xqcStreamRecv size now srtt (n.view k)).2.flowCtl = (n.view k).flowCtl ∧
        (xqcStreamRecv size now srtt (n.view k)).2.connFlowCtl.fcMaxDataCanRecv = (n.view k).connFlowCtl.fcMaxDataCanRecv := by
    intro hc
    cases hr : (n.view k).stateRecv.isReset with
    | true => unfold xqcStreamRecv; rw [if_pos hr]; exact ⟨rfl, rfl⟩
    | false =>
      have hki : conn = false → k = i := fun hf => hc.resolve_left (by simp [hf])
      exact (recv_refused hr (h.over_limit hki htotal) size now srtt).2.2
  refine h.only (read_inv h.inv hk size now srtt) (put_only k _ n) ?_ (fun hc => ⟨(hkeeps (.inl hc)).2, ?_⟩) ?_
  · rintro rfl j hj
    simp only [Net.put, update_self]; exact hmiss j (h.missing j hj)
  · refine total_le hk (put_only k _ n) ?_
    simp only [Net.put, update_self]; exact le_rfl
  · rintro - rfl
    simp only [Net.put, update_self]; exact ⟨(hkeeps (.inr rfl)).1, le_rfl⟩

lemma Waits.create (h : Waits conn i gap n) (type : StreamType) : Waits conn i gap (xqcCreateStream type n) := by
  refine ⟨create_inv h.inv type, Nat.lt_succ_of_lt h.lt, create_old type h.lt ▸ h.missing, ?_⟩
  have hover := h.exceeded
  unfold Net.Over at hover ⊢
  rw [create_old type h.lt, create_total]; exact hover

lemma Waits.still (h : Waits conn i gap n) (hs : Still n m)
    (hconn : conn = true → m.connFlowCtl.fcMaxDataCanRecv = n.connFlowCtl.fcMaxDataCanRecv)
    (hstream : conn = false → (m.streams i).flowCtl = (n.streams i).flowCtl) : Waits conn i gap m := by
  obtain ⟨hd, -, -, hl, -⟩ := hs.streams i
  refine ⟨h.inv.still hs, hs.next ▸ h.lt, hd ▸ h.missing, ?_⟩
  have hover := h.exceeded
  unfold Net.Over at hover ⊢
  cases conn with
  | false =>
    show _ < _
    rw [hstream rfl, hl]; exact hover
  | true =>
    show _ < _
    rw [hconn rfl, hs.total]; exact hover

lemma step_waits (h : Waits conn i gap n) {e : Ev} (he : Undisturbed conn i gap n e) : Waits conn i gap (step n e) := by
  cases e with
  | create type => exact h.create type
  | stream k f => exact ite_open h fun ho => h.stream ho.1 he
  | resetStream k size lt => exact ite_open h fun ho => h.reset ho.1 he
  | read k size now srtt => exact ite_open h fun ho => h.read ho.1 he size now srtt
  | dataBlocked limit =>
    refine h.still (quiet_still rfl) (fun hc => absurd (hc.symm.trans he) (by decide)) fun _ => ?_
    unfold step xqcProcessDataBlockedFrame
    dsimp only; split <;> rfl
  | streamDataBlocked k limit =>
    refine h.still (quiet_still rfl) (fun _ => ?_) fun hc => ?_
    · refine ite_open (P := fun m => m.connFlowCtl.fcMaxDataCanRecv = _) rfl fun _ => ?_
      unfold xqcProcessStreamDataBlockedFrame
      dsimp only; split <;> rfl
    · have hne : i ≠ k := Ne.symm (he.resolve_left (by simp [hc]))
      refine ite_open (P := fun m => (m.streams i).flowCtl = _) rfl fun _ => ?_
      unfold xqcProcessStreamDataBlockedFrame
      dsimp only; split
      · rfl
      · simp only [Net.modify, update_of_ne hne]
  | handshakeComplete => exact h.still (quiet_still rfl) (fun _ => rfl) fun hc => absurd (he.symm.trans hc) (by decide)
  | destroy k =>
    refine h.still (quiet_still rfl) (fun _ => ?_) fun _ => ?_
    · exact ite_open (P := fun m => m.connFlowCtl.fcMaxDataCanRecv = _) rfl fun _ => rfl
    · refine ite_open (P := fun m => (m.streams i).flowCtl = _) rfl fun _ => ?_
      by_cases hik : i = k
      · subst hik; simp only [Net.modify, update_self]
      · simp only [Net.modify, update_of_ne hik]

/-- The account of stream `i` is raised to `size` or more, and no limit with it. -/
lemma Net.Passes.exceeded {size : Nat} (h : n.Passes conn i size) (hi : i < n.next) (hm : Only i n m)
    (hmax : m.connFlowCtl.fcMaxDataCanRecv = n.connFlowCtl.fcMaxDataCanRecv)
    (hconn : size ≤ (m.streams i).account) (hfc : (m.streams i).flowCtl = (n.streams i).flowCtl)
    (hstream : conn = false → size ≤ (m.streams i).largest) : m.Over conn i := by
  obtain ⟨-, hlt, hpass⟩ := h
  have htotal := total_change hi hm.next hm.streams
  have hle : (n.streams i).account ≤ n.total :=
    single_le_sum (f := fun j => (n.streams j).account) (fun _ _ => Nat.zero_le _) (mem_range.mpr hi)
  unfold Net.Over
  cases conn with
  | true =>
    have hpass : n.connFlowCtl.fcMaxDataCanRecv.toNat < n.total - (n.streams i).account + size := hpass
    show _ < _
    rw [hmax]; omega
  | false =>
    show _ < _
    rw [hfc]; exact Nat.lt_of_lt_of_le hpass (hstream rfl)

lemma Exceeds.waits (h : Inv n) {e : Ev} (he : Exceeds conn i gap n e) : Waits conn i gap (step n e) := by
  cases e with
  | stream k f =>
    obtain ⟨rfl, ho, hpass, hok, j, rfl, hj, hjf⟩ := he
    have htook := h.took ho.1 f
    have hmax := congrArg ConnFlowCtl.fcMaxDataCanRecv htook.connFlowCtl
    have hinv := step_inv h (.stream k f)
    rw [show step n (.stream k f) = _ from if_pos ho, noteFrame_eq] at hinv ⊢
    rw [if_pos ⟨hok, hpass.1⟩] at hinv htook ⊢
    refine ⟨hinv, ho.1, fun j' hj' => ?_, ?_⟩
    · obtain rfl := Option.some.inj hj'
      simp only [update_self]
      exact htook.missing j hj (by omega)
    · refine hpass.exceeded ho.1 ⟨rfl, fun _ hne => update_of_ne hne _ _⟩ ?_ ?_ ?_ fun _ => ?_
      · exact hmax
      · simp only [update_self, Own.account, hpass.1, getD_none]; exact le_max_right ..
      · simp only [update_self]; exact htook.flowCtl
      · simp only [update_self]; exact le_max_right ..
  | resetStream k size lt =>
    obtain ⟨rfl, ho, rfl, rfl, hpass⟩ := he
    obtain ⟨hmax, hfc, -⟩ := resetStream_limits size (n.view k)
    have hinv := step_inv h (.resetStream k size lt)
    rw [show step n (.resetStream k size lt) = _ from if_pos ho, noteReset_eq] at hinv ⊢
    refine ⟨hinv, ho.1, fun j hj => (nomatch hj), ?_⟩
    refine hpass.exceeded ho.1 ⟨rfl, fun _ hne => update_of_ne hne _ _⟩ hmax ?_ ?_ fun hc => (nomatch hc)
    · simp only [update_self, Own.account, hpass.1, getD_none, getD_some]; exact le_rfl
    · simp only [update_self]; exact hfc
  | _ => exact he.elim

/-- The read that comes while the frame waits: it is refused, and the error stays. -/
lemma Waits.answered (h : Waits conn i gap n) (ho : n.IsOpen k) (hr : (n.streams k).stateRecv.isReset = false)
    (hki : conn = false → k = i) (htotal : conn = true → n.total < 2 ^ 64) (size : Nat) (now srtt : UInt64) :
    (xqcStreamRecv size now srtt (n.view k)).1 = .error .eproto ∧
      (n.connErr = 0 ∨ n.connErr = traFlowControlError → ∀ es u, Run Step (step n (.read k size now srtt)) es u →
        u.connErr = traFlowControlError) := by
  obtain ⟨hres, herr, -⟩ := recv_refused hr (h.over_limit hki htotal) size now srtt
  refine ⟨hres, fun hold es u hrun => ?_⟩
  have hread : (step n (.read k size now srtt)).connErr = traFlowControlError := by
    rw [show step n (.read k size now srtt) = _ from if_pos ho]
    refine herr.trans ?_
    rcases hold with h0 | hflow
    · exact if_pos h0
    · exact (if_neg (by rw [show (n.view k).connErr = n.connErr from rfl, hflow]; decide)).trans hflow
  exact (run_connErr hrun (step_inv h.inv _) (by rw [hread]; decide)).trans hread

theorem recv_accounting {n0 : Net} (h0 : Fresh n0) :
    (∀ es n, Run Step n0 es n → (n.connFlowCtl.fcDataRecved.toNat = n.total ↔ n.total < 2 ^ 64)) ∧
      ∀ es n e conn i gap, Run Step n0 es n → Exceeds conn i gap n e →
        ∀ es' m, Run (Guard (Undisturbed conn i gap) Step) (step n e) es' m →
          (∀ j ∈ gap, (m.streams i).dataIn.mergedOffsetEnd ≤ j) ∧
          ∀ k size now srtt, m.IsOpen k → (m.streams k).stateRecv.isReset = false → (conn = false → k = i) →
            (conn = true → m.total < 2 ^ 64) →
            (xqcStreamRecv size now srtt (m.view k)).1 = .error .eproto ∧
              (m.connErr = 0 ∨ m.connErr = traFlowControlError →
                ∀ es'' u, Run Step (step m (.read k size now srtt)) es'' u → u.connErr = traFlowControlError) := by
  constructor
  · intro es n hrun
    rw [(run_inv h0 hrun).sum, toNat_ofNat', Nat.mod_eq_iff_lt (by decide)]
  · intro es n e conn i gap hrun he es' m hrun'
    have hm : Waits conn i gap m := by
      refine hrun'.inv (P := Waits conn i gap) ?_ (he.waits (run_inv h0 hrun))
      rintro n e m hn ⟨hg, rfl⟩
      exact step_waits hn hg
    exact ⟨fun j hj => (hm.missing j hj).1, fun k size now srtt ho hr hki ht => hm.answered ho hr hki ht size now srtt⟩

def newServer : Net where
  client := false
  localSettings := localDefaults
  connFlowCtl := ⟨localDefaults.maxData, 0, 0, localDefaults.maxData, 0⟩
  connErr := 0
  next := 0
  streams _ := ⟨.cliBid, ⟨[], 0, 0, 0⟩, .recv, 0, ⟨0, 0, 0⟩, true, 0, none⟩
  written := []

lemma newServer_fresh : Fresh newServer := ⟨rfl, rfl, rfl, rfl⟩

def byteAt (offset : Nat) (h : offset < 2 ^ 62) : StreamFrame := ⟨offset, [7], false, h, by decide⟩

def oneStream : Net := step newServer (.create .cliBid)

def farByte : Ev := .stream 0 (byteAt (2 ^ 36) (by decide))

lemma farByte_exceeds (conn : Bool) : Exceeds conn 0 (some 0) oneStream farByte := by
  have hmiss : Missing (oneStream.streams 0).dataIn 0 := ⟨le_rfl, fun ⟨_, hg, _⟩ => nomatch hg⟩
  exact ⟨rfl, by decide, by cases conn <;> decide, by decide, 0, rfl, hmiss, by decide⟩

/-- A byte far beyond both limits waits for those before it, and is never read: the first read answers it, also if the
    bytes before it come then. -/
theorem far_byte_is_answered :
    (step (step oneStream farByte) (.read 0 100 1 1)).connFlowCtl.fcDataRecved.toNat = 2 ^ 36 + 1 ∧
      (step (step (step oneStream farByte) (.read 0 100 1 1)) (.stream 0 (byteAt 0 (by decide)))).connErr =
        traFlowControlError := by
  have hone : Run Step newServer _ oneStream := .snoc .nil rfl
  have hread : Run Step newServer _ (step (step oneStream farByte) (.read 0 100 1 1)) := .snoc (.snoc hone rfl) rfl
  have hall := recv_accounting newServer_fresh
  obtain ⟨-, hans⟩ := hall.2 _ _ _ true 0 (some 0) hone (farByte_exceeds true) [] _ .nil
  obtain ⟨-, hclosed⟩ := hans 0 100 1 1 (by decide) (by decide) nofun (fun _ => by decide)
  refine ⟨((hall.1 _ _ hread).mpr (by decide)).trans (by decide), ?_⟩
  have hlast : Step (step (step oneStream farByte) (.read 0 100 1 1)) (.stream 0 (byteAt 0 (by decide))) _ := rfl
  exact hclosed (.inl (by decide)) _ _ (.snoc .nil hlast)

/-- A reset beyond the limit of the connection is not answered, nor is the byte of another
    stream after it. Once the peer says that it is blocked, the limit is raised, and the
    byte is read. -/
theorem reset_goes_over_the_limit :
    ∃ es n m, Run Step newServer es n ∧ n.Passes true 0 (2 ^ 40) ∧
      Run Step n [.resetStream 0 (2 ^ 40) (by decide), .stream 1 (byteAt 0 (by decide)), .dataBlocked 0] m ∧
      (xqcStreamRecv 100 0 0 (m.view 1)).1 = .ok ([7], false) ∧ (step m (.read 1 100 0 0)).connErr = 0 := by
  have hrun : Run Step newServer _ _ := .snoc (.snoc .nil (e := .create .cliBid) rfl) (e := .create .cliBid) rfl
  exact ⟨_, _, _, hrun, by decide, .snoc (.snoc (.snoc .nil rfl) rfl) rfl, by decide, by decide⟩

end RlccQuic.Transport.RecvFlow
