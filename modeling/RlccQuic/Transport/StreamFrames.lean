/-
  RlccQuic.Transport.StreamFrames — STREAM and RESET_STREAM frames on one stream, and its
  final size (`xqc_frame.c`: `xqc_process_stream_frame`, `xqc_process_reset_stream_frame`).

  A frame with FIN records the final size as the stream's length, and 0 is also the length of a stream whose end is not
  known. A frame that ends within what can be read already is dropped before its FIN is looked at, any frame after a
  reset is, and the final size of a reset is compared with nothing.

  What is read depends on where frames lie, not on what they hold: frames that disagree are read like frames of zeros.

  Proved: over every run of frames, resets and reads, the next one keeps the rules for final sizes exactly if a frame
  that contradicts the known size finds a stream that is not reset, with a recorded length that it contradicts, and ends
  beyond what can be read; a reset repeats the known size; and a read that comes to the known size finds it recorded
  (`final_size_rules_iff`). An empty stream never ends (`empty_stream_has_no_end`).
-/

import RlccQuic.Transport.StreamRecv

namespace RlccQuic.Transport.StreamRecv

open Lib List

/-! ## Frames -/

/-- A STREAM frame as it is parsed. The offset is a 62-bit integer of the wire, the length a 32-bit one. -/
structure StreamFrame where
  dataOffset : Nat
  data : List UInt8
  fin : Bool
  offset_lt : dataOffset < 2 ^ 62
  length_lt : data.length < 2 ^ 32

def StreamFrame.dataEnd (f : StreamFrame) : Nat := f.dataOffset + f.data.length

lemma StreamFrame.dataEnd_lt (f : StreamFrame) : f.dataEnd < 2 ^ 63 := by
  have h1 := f.offset_lt
  have h2 := f.length_lt
  unfold dataEnd
  omega

def traFinalSizeError : UInt64 := 0x6

namespace Stream

/-- The frame ends within what can be read, and is not an empty one with the first FIN. -/
def AlreadyRecvd (f : StreamFrame) (s : Stream) : Prop :=
  f.dataEnd ≤ s.dataIn.mergedOffsetEnd ∧ ¬ (f.fin = true ∧ f.data = [] ∧ s.dataIn.streamLength = 0)

instance (f : StreamFrame) (s : Stream) : Decidable (s.AlreadyRecvd f) := by unfold AlreadyRecvd; infer_instance

def noteFin (f : StreamFrame) (s : Stream) : Stream :=
  if f.fin then
    { s with
      dataIn := { s.dataIn with streamLength := f.dataEnd }
      stateRecv := if s.stateRecv = .recv then .sizeKnown else s.stateRecv }
  else s

/-- Receiver flow control: the bytes beyond the largest offset are counted. -/
def countRecv (f : StreamFrame) (s : Stream) : Stream :=
  if s.maxRecvOffset < UInt64.ofNat f.dataEnd then
    { s with
      connFlowCtl :=
        { s.connFlowCtl with fcDataRecved := s.connFlowCtl.fcDataRecved + (UInt64.ofNat f.dataEnd - s.maxRecvOffset) }
      maxRecvOffset := UInt64.ofNat f.dataEnd }
  else s

def allRecvd (s : Stream) : Stream :=
  if s.dataIn.streamLength = s.dataIn.mergedOffsetEnd ∧ s.dataIn.streamLength > 0 ∧ s.stateRecv = .sizeKnown then
    { s with stateRecv := .dataRecvd }
  else s

end Stream

def xqcProcessStreamFrame (f : StreamFrame) (s : Stream) : Except Err Unit × Stream :=
  if s.stateRecv.isReset then (.ok (), s)
  else if s.AlreadyRecvd f then (.ok (), s)
  else if f.fin = true ∧ s.dataIn.streamLength > 0 ∧ s.dataIn.streamLength ≠ f.dataEnd then
    (.error .eproto, s.connError traFinalSizeError)
  else
    let s := s.noteFin f
    if s.dataIn.streamLength > 0 ∧ f.dataEnd > s.dataIn.streamLength then
      (.error .eproto, s.connError traFinalSizeError)
    else
      match xqcInsertStreamFrame ⟨f.dataOffset, f.data, 0⟩ s.dataIn with
      | (.error _, _) => (.ok (), s)
      | (.ok (), d) => (.ok (), (Stream.countRecv f { s with dataIn := d }).allRecvd)

/-- What `xqc_process_reset_stream_frame` does to the receiving side. -/
def xqcProcessResetStreamFrame (finalSize : Nat) (s : Stream) : Stream :=
  if s.stateRecv.isReset then s
  else
    { s with
      stateRecv := .resetRecvd
      dataIn := { s.dataIn with framesTailq := [] }
      connFlowCtl := { s.connFlowCtl with
        fcDataRecved := s.connFlowCtl.fcDataRecved + (UInt64.ofNat finalSize - s.maxRecvOffset)
        fcDataRead := s.connFlowCtl.fcDataRead + (UInt64.ofNat finalSize - UInt64.ofNat s.dataIn.nextReadOffset) } }

/-! ## Where frames lie -/

def blank (f : RecvFrame) : RecvFrame := { f with data := List.replicate f.data.length 0 }

variable (f : RecvFrame)

@[simp] lemma blank_dataOffset : (blank f).dataOffset = f.dataOffset := rfl

@[simp] lemma blank_nextReadOffset : (blank f).nextReadOffset = f.nextReadOffset := rfl

@[simp] lemma blank_dataLength : (blank f).dataLength = f.dataLength := by
  simp [blank, RecvFrame.dataLength]

@[simp] lemma blank_dataEnd : (blank f).dataEnd = f.dataEnd := by
  simp [RecvFrame.dataEnd]

lemma readFrames_blank (merged size : Nat) (fs : List RecvFrame) : ∀ (next : Nat) (buf buf' : List UInt8),
    buf'.length = buf.length →
    (readFrames merged size (fs.map blank) next buf').frames = (readFrames merged size fs next buf).frames.map blank ∧
      (readFrames merged size (fs.map blank) next buf').nextReadOffset = (readFrames merged size fs next buf).nextReadOffset ∧
      (readFrames merged size (fs.map blank) next buf').recvBuf.length = (readFrames merged size fs next buf).recvBuf.length := by
  induction fs with
  | nil => intro next buf buf' h; exact ⟨rfl, rfl, h⟩
  | cons f fs ih =>
    intro next buf buf' h
    have hdata : (blank f).data.length = f.data.length := by simp [blank]
    rw [map_cons]
    unfold readFrames
    dsimp only
    rw [blank_dataOffset, blank_dataEnd, blank_nextReadOffset, blank_dataLength, h]
    generalize (if f.dataOffset < next then max f.nextReadOffset (next - f.dataOffset) else f.nextReadOffset) = cur
    split
    · exact ⟨rfl, rfl, h⟩
    split
    · exact ⟨rfl, rfl, h⟩
    split
    · exact ih next buf buf' h
    split
    · refine ih _ _ _ ?_
      simp only [length_append, length_take, length_drop, h, hdata]
    · refine ⟨rfl, rfl, ?_⟩
      simp only [length_append, length_take, length_drop, h, hdata]

lemma insertPlace_blank (new : RecvFrame) (left : List RecvFrame) : ∀ (right : List RecvFrame),
    insertPlace (blank new) (left.map blank) (right.map blank) =
      (insertPlace new left right).map fun x => (x.1.map blank, x.2.map blank) := by
  induction left with
  | nil => intro right; rfl
  | cons f left ih =>
    intro right; rw [map_cons]
    unfold insertPlace
    rw [blank_dataOffset, blank_dataOffset, blank_dataLength, blank_dataEnd, blank_dataEnd]
    split
    · rfl
    split
    · rfl
    · exact ih (f :: right)

lemma advance_blank (right : List RecvFrame) : ∀ n, advance n (right.map blank) = advance n right := by
  induction right with
  | nil => intro n; rfl
  | cons f right ih =>
    intro n; rw [map_cons]
    unfold advance; rw [lo_frame, hi_frame, blank_dataOffset, blank_dataEnd, ih, ih]
    rfl

lemma mergedWith_blank (new : RecvFrame) (right : List RecvFrame) (merged : Nat) :
    mergedWith (blank new) (right.map blank) merged = mergedWith new right merged := by
  unfold mergedWith; rw [blank_dataOffset, blank_dataEnd, advance_blank]

def zeros : List UInt8 := List.replicate (2 ^ 63) 0

def Shape (d : DataIn) : Prop := Pending zeros d.mergedOffsetEnd d.nextReadOffset (d.framesTailq.map blank)

lemma agrees_zeros {f : RecvFrame} (h : f.dataEnd ≤ 2 ^ 63) : Agrees zeros (blank f).dataOffset (blank f).data := by
  unfold Agrees zeros blank; rw [drop_replicate]
  unfold RecvFrame.dataEnd RecvFrame.dataLength at h
  have hsplit : 2 ^ 63 - f.dataOffset = f.data.length + (2 ^ 63 - f.dataOffset - f.data.length) := by omega
  rw [hsplit, ← replicate_append_replicate]; exact prefix_append _ _

def readEnd (d : DataIn) (size : Nat) : Nat := d.nextReadOffset + min size (d.mergedOffsetEnd - d.nextReadOffset)

lemma Shape.read {d : DataIn} (h : Shape d) (size : Nat) :
    (readFrames d.mergedOffsetEnd size d.framesTailq d.nextReadOffset []).nextReadOffset = readEnd d size ∧
      Shape { d with
        framesTailq := (readFrames d.mergedOffsetEnd size d.framesTailq d.nextReadOffset []).frames
        nextReadOffset := (readFrames d.mergedOffsetEnd size d.framesTailq d.nextReadOffset []).nextReadOffset } := by
  have hr := readFrames_spec size _ _ [] h
  obtain ⟨hframes, hnext, -⟩ := readFrames_blank d.mergedOffsetEnd size d.framesTailq d.nextReadOffset [] [] rfl
  have hend := hnext.symm.trans hr.nextReadOffset
  refine ⟨hend, ?_⟩
  unfold Shape; rw [hend, ← hframes]
  exact hr.pending

lemma Shape.insert {d d' : DataIn} (h : Shape d) {new : RecvFrame} (hnew : new.dataEnd ≤ 2 ^ 63)
    (hc : new.nextReadOffset = 0) (hi : xqcInsertStreamFrame new d = (.ok (), d')) : Shape d' := by
  unfold xqcInsertStreamFrame at hi
  cases hp : insertPlace new d.framesTailq.reverse [] with
  | error e => rw [hp] at hi; cases hi
  | ok x =>
    rw [hp] at hi
    obtain rfl := (Prod.mk.inj hi).2
    have hasc : Ascending ((d.framesTailq.map blank).reverse.reverse ++ []) := by
      simpa using h.ascending
    have hp' := insertPlace_blank new d.framesTailq.reverse []
    rw [hp, map_nil, map_reverse] at hp'
    obtain ⟨hparts, hl, hr⟩ := insertPlace_ok hasc (by simp) hp'
    rw [reverse_reverse, append_nil] at hparts
    have hpend := h
    unfold Shape at hpend; rw [← hparts] at hpend
    have hins := hpend.insert (fun f hf => hl f (mem_reverse.mp hf)) hr (agrees_zeros hnew) hc
    rw [mergedWith_blank] at hins
    unfold Shape
    simpa using hins

/-! ## The final size -/

def Sound (s : Stream) : Prop := s.stateRecv.isReset = false → Shape s.dataIn

lemma fresh_sound (fc : StreamFlowCtl) (conn : ConnFlowCtl) : Sound (Stream.fresh fc conn) :=
  fun _ => (fresh_inv zeros fc conn).pending

variable {s : Stream}

lemma streamFrame_sound (h : Sound s) (f : StreamFrame) : Sound (xqcProcessStreamFrame f s).2 := by
  have herr : Sound (s.connError traFinalSizeError) := by
    unfold Stream.connError
    split <;> exact h
  unfold xqcProcessStreamFrame; split
  · exact h
  rename_i hopen
  split
  · exact h
  split
  · exact herr
  have hshape : Shape (s.noteFin f).dataIn := by
    unfold Stream.noteFin; split
    · exact h (by simpa using hopen)
    · exact h (by simpa using hopen)
  have hlen : RecvFrame.dataEnd ⟨f.dataOffset, f.data, 0⟩ ≤ 2 ^ 63 := Nat.le_of_lt f.dataEnd_lt
  dsimp only
  generalize s.noteFin f = t at hshape ⊢
  split
  · unfold Stream.connError; split
    · exact fun _ => hshape
    · exact fun _ => hshape
  · rcases hi : xqcInsertStreamFrame ⟨f.dataOffset, f.data, 0⟩ t.dataIn with ⟨r, d⟩
    cases r with
    | error e => exact fun _ => hshape
    | ok u =>
      intro _
      have hd := hshape.insert hlen rfl hi
      unfold Stream.allRecvd Stream.countRecv
      dsimp only
      split_ifs <;> exact hd

lemma resetStream_sound (h : Sound s) (n : Nat) : Sound (xqcProcessResetStreamFrame n s) := by
  unfold xqcProcessResetStreamFrame; split
  · exact h
  · intro hc; cases hc

lemma doRecvFlowCtl_dataIn (now srtt : UInt64) (s : Stream) :
    (xqcStreamDoRecvFlowCtl now srtt s).2.dataIn = s.dataIn := by
  unfold xqcStreamDoRecvFlowCtl Stream.connError Stream.raiseConnWindow Stream.raiseStreamWindow
  dsimp only
  split_ifs <;> rfl

/-- What a read leaves in `*fin`, also if flow control refuses it then. -/
def recvFin (size : Nat) (s : Stream) : Bool :=
  if s.stateRecv.isReset then false
  else
    let t := readFrames s.dataIn.mergedOffsetEnd size s.dataIn.framesTailq s.dataIn.nextReadOffset []
    decide (s.dataIn.streamLength > 0 ∧ t.nextReadOffset = s.dataIn.streamLength)

/-- Where the stream's cursor is after a read of `size` bytes. -/
def recvEnd (size : Nat) (s : Stream) : Nat :=
  if s.stateRecv.isReset then s.dataIn.nextReadOffset else readEnd s.dataIn size

lemma recv_dataIn (h : s.stateRecv.isReset = false) (size : Nat) (now srtt : UInt64) :
    (xqcStreamRecv size now srtt s).2.dataIn =
      { s.dataIn with
        framesTailq := (readFrames s.dataIn.mergedOffsetEnd size s.dataIn.framesTailq s.dataIn.nextReadOffset []).frames
        nextReadOffset :=
          (readFrames s.dataIn.mergedOffsetEnd size s.dataIn.framesTailq s.dataIn.nextReadOffset []).nextReadOffset } := by
  unfold xqcStreamRecv
  rw [if_neg (by simp [h])]
  dsimp only
  generalize readFrames s.dataIn.mergedOffsetEnd size s.dataIn.framesTailq s.dataIn.nextReadOffset [] = t
  generalize decide (s.dataIn.streamLength > 0 ∧ t.nextReadOffset = s.dataIn.streamLength) = fin
  have hfin : (if fin = true then (s.taken t).finRead else s.taken t).dataIn = (s.taken t).dataIn := by
    unfold Stream.finRead
    split_ifs <;> rfl
  have hflow := doRecvFlowCtl_dataIn now srtt (if fin = true then (s.taken t).finRead else s.taken t)
  rw [hfin] at hflow; split
  · rename_i hx; rw [hx] at hflow; exact hflow
  · rename_i hx; rw [hx] at hflow
    split
    · exact hflow
    · exact hflow

lemma recv_sound (h : Sound s) (size : Nat) (now srtt : UInt64) : Sound (xqcStreamRecv size now srtt s).2 := by
  cases hr : s.stateRecv.isReset with
  | true =>
    unfold xqcStreamRecv; rw [if_pos hr]
    intro hc; cases hc
  | false => intro _; rw [recv_dataIn hr]; exact ((h hr).read size).2

lemma recv_nextReadOffset (h : Sound s) (size : Nat) (now srtt : UInt64) :
    (xqcStreamRecv size now srtt s).2.dataIn.nextReadOffset = recvEnd size s := by
  unfold recvEnd
  cases hr : s.stateRecv.isReset with
  | true => unfold xqcStreamRecv; rw [if_pos hr]; rfl
  | false => rw [recv_dataIn hr]; exact ((h hr).read size).1

lemma recv_fin {size : Nat} {now srtt : UInt64} {bytes : List UInt8} {fin : Bool}
    (h : (xqcStreamRecv size now srtt s).1 = .ok (bytes, fin)) : fin = recvFin size s := by
  unfold xqcStreamRecv at h
  unfold recvFin
  split at h
  · cases h
  · rename_i hr
    rw [if_neg hr]
    dsimp only at h ⊢
    split at h
    · cases h
    · split at h
      · cases h
      · exact ((Prod.mk.inj (Except.ok.inj h)).2).symm

lemma recvFin_iff (h : Sound s) (size : Nat) :
    recvFin size s = true ↔
      s.stateRecv.isReset = false ∧ 0 < s.dataIn.streamLength ∧ s.dataIn.streamLength = recvEnd size s := by
  unfold recvFin recvEnd
  cases hr : s.stateRecv.isReset with
  | true => simp
  | false =>
    simp only [Bool.false_eq_true, if_false, decide_eq_true_eq, true_and, ((h hr).read size).1, gt_iff_lt]
    rw [eq_comm (b := s.dataIn.streamLength)]

/-! ## Runs -/

namespace FinalSize

inductive Frame where
  | stream (f : StreamFrame)
  | resetStream (finalSize : Nat)

namespace Frame

def process : Frame → Stream → Except Err Unit × Stream
  | .stream f, s => xqcProcessStreamFrame f s
  | .resetStream n, s => (.ok (), xqcProcessResetStreamFrame n s)

def finalSize : Frame → Option Nat
  | .stream f => if f.fin then some f.dataEnd else none
  | .resetStream n => some n

/-- The frame implies another final size, or carries data beyond it. -/
def Contradicts (size : Nat) : Frame → Prop
  | .stream f => (f.fin = true ∧ f.dataEnd ≠ size) ∨ (f.data ≠ [] ∧ size < f.dataEnd)
  | .resetStream n => n ≠ size

/-- A connection error, and nothing of the frame is delivered. -/
def Refused (f : Frame) (s : Stream) : Prop :=
  (f.process s).1 = .error .eproto ∧ (f.process s).2.connErr ≠ 0 ∧ (f.process s).2.dataIn = s.dataIn

end Frame

/-- A stream, and the final size its peer has told it: in the first frame with FIN that
    was not refused, or in a reset. -/
structure Told where
  stream : Stream
  finalSize : Option Nat

inductive Ev where
  | frame (f : Frame)
  | read (size : Nat) (now srtt : UInt64)
  /-- The rest of the connection: other streams and limits. -/
  | elsewhere (flowCtl : StreamFlowCtl) (connFlowCtl : ConnFlowCtl) (connErr : UInt64)

def step (x : Told) : Ev → Told
  | .frame f =>
    { stream := (f.process x.stream).2
      finalSize := if x.finalSize = none ∧ (f.process x.stream).1 = .ok () then f.finalSize else x.finalSize }
  | .read size now srtt => { x with stream := (xqcStreamRecv size now srtt x.stream).2 }
  | .elsewhere flowCtl connFlowCtl connErr => { x with stream := { x.stream with flowCtl, connFlowCtl, connErr } }

def after (fc : StreamFlowCtl) (conn : ConnFlowCtl) (es : List Ev) : Told := es.foldl step ⟨Stream.fresh fc conn, none⟩

lemma frame_sound (h : Sound s) (f : Frame) : Sound (f.process s).2 := by
  cases f with
  | stream f => exact streamFrame_sound h f
  | resetStream n => exact resetStream_sound h n

lemma step_sound {x : Told} (h : Sound x.stream) (e : Ev) : Sound (step x e).stream := by
  cases e with
  | frame f => exact frame_sound h f
  | read size now srtt => exact recv_sound h size now srtt
  | elsewhere flowCtl connFlowCtl connErr => exact h

lemma after_sound (fc : StreamFlowCtl) (conn : ConnFlowCtl) (es : List Ev) : Sound (after fc conn es).stream := by
  refine List.foldlRecOn (motive := fun x => Sound x.stream) es step ?_ ?_
  · exact fresh_sound fc conn
  · intro x hx e _; exact step_sound hx e

/-! ## The rules -/

/-- The rules for final sizes are kept by what comes next. -/
def Ruled (x : Told) : Ev → Prop
  | .frame f => ∀ size, x.finalSize = some size → f.Contradicts size → f.Refused x.stream
  | .read n now srtt =>
    ∀ size, x.finalSize = some size → size ≤ (xqcStreamRecv n now srtt x.stream).2.dataIn.nextReadOffset →
      recvFin n x.stream = true
  | .elsewhere .. => True

/-- The recorded length refuses the frame, which is looked at. -/
def Exceeds (f : StreamFrame) (s : Stream) : Prop :=
  s.stateRecv.isReset = false ∧ s.dataIn.mergedOffsetEnd < f.dataEnd ∧ 0 < s.dataIn.streamLength ∧
    (s.dataIn.streamLength < f.dataEnd ∨ (f.fin = true ∧ s.dataIn.streamLength ≠ f.dataEnd))

def Recorded (x : Told) : Ev → Prop
  | .frame (.stream f) =>
    ∀ size, x.finalSize = some size → Frame.Contradicts size (.stream f) → Exceeds f x.stream
  | .frame (.resetStream n) => ∀ size, x.finalSize = some size → n = size
  | .read n _ _ =>
    ∀ size, x.finalSize = some size → size ≤ recvEnd n x.stream →
      x.stream.stateRecv.isReset = false ∧ 0 < x.stream.dataIn.streamLength ∧
        x.stream.dataIn.streamLength = recvEnd n x.stream
  | .elsewhere .. => True

lemma refused_iff {f : StreamFrame} : Frame.Refused (.stream f) s ↔ Exceeds f s := by
  have herr : ∀ t : Stream, (t.connError traFinalSizeError).connErr ≠ 0 ∧
      (t.connError traFinalSizeError).dataIn = t.dataIn := by
    intro t; unfold Stream.connError
    split
    · exact ⟨show traFinalSizeError ≠ 0 by decide, rfl⟩
    · exact ⟨‹_›, rfl⟩
  unfold Frame.Refused Exceeds Frame.process xqcProcessStreamFrame
  dsimp only
  cases hr : s.stateRecv.isReset with
  | true => simp
  | false =>
    rw [if_neg Bool.false_ne_true]
    by_cases hold : s.AlreadyRecvd f
    · rw [if_pos hold]
      refine iff_of_false (by simp) ?_
      rintro ⟨-, hm, -⟩
      exact absurd hold.1 (by omega)
    rw [if_neg hold]
    by_cases hchanged : f.fin = true ∧ s.dataIn.streamLength > 0 ∧ s.dataIn.streamLength ≠ f.dataEnd
    · rw [if_pos hchanged]
      obtain ⟨hfin, hpos, hne⟩ := hchanged
      refine iff_of_true ⟨rfl, herr s⟩ ⟨rfl, ?_, hpos, .inr ⟨hfin, hne⟩⟩
      by_contra hm
      exact hold ⟨by omega, fun hc => by omega⟩
    rw [if_neg hchanged]
    by_cases hfin : f.fin = true
    · -- the length has just been set to the frame's end
      have hnote : (s.noteFin f).dataIn.streamLength = f.dataEnd := by
        unfold Stream.noteFin; rw [if_pos hfin]
      rw [if_neg (by omega)]
      refine iff_of_false ?_ ?_
      · split <;> simp
      · rintro ⟨-, -, hpos, hlt | ⟨-, hne⟩⟩
        · exact hchanged ⟨hfin, hpos, by omega⟩
        · exact hchanged ⟨hfin, hpos, hne⟩
    · have hnote : s.noteFin f = s := by
        unfold Stream.noteFin; rw [if_neg hfin]
      rw [hnote]
      by_cases hbeyond : s.dataIn.streamLength > 0 ∧ f.dataEnd > s.dataIn.streamLength
      · rw [if_pos hbeyond]
        refine iff_of_true ⟨rfl, herr s⟩ ⟨rfl, ?_, hbeyond.1, .inl hbeyond.2⟩
        by_contra hm
        exact hold ⟨by omega, fun hc => hfin hc.1⟩
      · rw [if_neg hbeyond]
        refine iff_of_false ?_ ?_
        · split <;> simp
        · rintro ⟨-, -, hpos, hlt | ⟨hc, -⟩⟩
          · exact hbeyond ⟨hpos, hlt⟩
          · exact hfin hc

lemma ruled_iff {x : Told} (h : Sound x.stream) (e : Ev) : Ruled x e ↔ Recorded x e := by
  cases e with
  | frame f =>
    cases f with
    | stream f => exact forall₃_congr fun _ _ _ => refused_iff
    | resetStream n =>
      refine forall₂_congr fun size _ => ?_
      constructor
      · intro hr
        by_contra hne
        exact nomatch (hr hne).1
      · intro heq hne; exact absurd heq hne
  | read n now srtt =>
    unfold Ruled Recorded
    dsimp only; rw [recv_nextReadOffset h]
    exact forall₃_congr fun _ _ _ => recvFin_iff h n
  | elsewhere flowCtl connFlowCtl connErr => exact Iff.rfl

/-- After any frames and reads on a stream, the rules for final sizes are kept by the
    next one exactly if the told size is recorded where it matters. -/
theorem final_size_rules_iff (fc : StreamFlowCtl) (conn : ConnFlowCtl) (es : List Ev) (e : Ev) :
    Ruled (after fc conn es) e ↔ Recorded (after fc conn es) e :=
  ruled_iff (after_sound fc conn es) e

def emptyFin : StreamFrame := ⟨0, [], true, by decide, by decide⟩

/-- The size of an empty stream is told, nothing is left to read, and a read does not
    report its end; nor is a frame of data refused, or a reset with another size. -/
theorem empty_stream_has_no_end :
    let fc : StreamFlowCtl := ⟨16777216, 16777216, 0⟩
    let conn : ConnFlowCtl := ⟨16777216, 0, 0, 16777216, 0⟩
    let x := after fc conn [.frame (.stream emptyFin)]
    x.finalSize = some 0 ∧ ¬ Ruled x (.read 100 0 0) ∧ (xqcStreamRecv 100 0 0 x.stream).1 = .error .eagain ∧
      ¬ Ruled x (.frame (.stream ⟨0, [1], false, by decide, by decide⟩)) ∧ ¬ Ruled x (.frame (.resetStream 7)) := by
  refine ⟨by decide, ?_, by decide, ?_, ?_⟩
  · intro h; exact absurd (h 0 rfl (Nat.zero_le _)) (by decide)
  · intro h; exact absurd (h 0 rfl (.inr ⟨by decide, by decide⟩)).1 (by decide)
  · intro h; exact absurd (h 0 rfl (show 7 ≠ 0 by decide)).1 (by decide)

end FinalSize

end RlccQuic.Transport.StreamRecv
