/-
  RlccQuic.Transport.StreamRecv — the receiving side of a stream (`xqc_frame.c`: `xqc_insert_stream_frame`;
  `xqc_stream.c`: `xqc_stream_recv`, `xqc_stream_do_recv_flow_ctl`).

  A stream keeps the frames that were not read yet in order of their offset,
  overlapping as they came, the end of what can be read (`merged_offset_end`) and
  how far the application has read (`next_read_offset`); a frame that was read in
  part keeps its own cursor.
  - An insert walks from the tail. It refuses a frame that lies inside the last
    one that starts at or before it, and then moves the end in one scan over the
    frames behind the new one.
  - A read walks from the head, frees what it has read whole, and stops at the
    first frame beyond the end or when the buffer is full.

  Offsets are `Nat`: an offset is a 62-bit integer of the wire and a length a
  32-bit one, so their sum fits the code's 64 bits.

  Proved: a read of `b` bytes hands out the next `min b (end - read)` bytes of the text the frames agree with (`recv_spec`);
  over any run of inserts and reads the end is the frontier of the frames inserted (`run_spec`), so that what was read is a
  prefix of the text and, after reads of enough bytes, all that the frames cover (`stream_recv_in_order`).
-/

import Mathlib.Tactic.Tauto
import RlccQuic.Lib.Coverage
import RlccQuic.Lib.Word
import RlccQuic.Transport.Defs

namespace RlccQuic.Transport.StreamRecv

open Lib List

/-! ## Frames in -/

/-- `xqc_stream_frame_t` in a stream's list; `data_length` is the length of `data`. -/
structure RecvFrame where
  dataOffset : Nat
  data : List UInt8
  /-- `next_read_offset`, counted from the frame's own start. -/
  nextReadOffset : Nat
  deriving DecidableEq, Repr

namespace RecvFrame

def dataLength (f : RecvFrame) : Nat := f.data.length

def dataEnd (f : RecvFrame) : Nat := f.dataOffset + f.dataLength

instance : Extent RecvFrame := ⟨dataOffset, dataEnd⟩

end RecvFrame

@[simp] lemma lo_frame (f : RecvFrame) : Extent.lo f = f.dataOffset := rfl

@[simp] lemma hi_frame (f : RecvFrame) : Extent.hi f = f.dataEnd := rfl

structure DataIn where
  framesTailq : List RecvFrame
  mergedOffsetEnd : Nat
  nextReadOffset : Nat
  /-- The final size, 0 while it is not known. -/
  streamLength : Nat
  deriving DecidableEq, Repr

/-- The walk from the tail to the place of a new frame: `left` is what is before it,
    the nearest first, `right` what the walk has passed. -/
def insertPlace (new : RecvFrame) :
    (left right : List RecvFrame) → Except Err (List RecvFrame × List RecvFrame)
  | [], right => .ok ([], right)
  | frame :: left, right =>
    if new.dataOffset ≥ frame.dataOffset ∧ new.dataLength > 0 ∧ new.dataEnd ≤ frame.dataEnd then .error .edupFrame
    else if new.dataOffset ≥ frame.dataOffset then .ok (frame :: left, right)
    else insertPlace new left (frame :: right)

/-- The end of what can be read once a frame has come in before `right`. -/
def mergedWith (new : RecvFrame) (right : List RecvFrame) (merged : Nat) : Nat :=
  if merged ≥ new.dataOffset ∧ merged < new.dataEnd then advance new.dataEnd right else merged

def xqcInsertStreamFrame (new : RecvFrame) (d : DataIn) : Except Err Unit × DataIn :=
  match insertPlace new d.framesTailq.reverse [] with
  | .error e => (.error e, d)
  | .ok (left, right) =>
    (.ok (), { d with
      framesTailq := left.reverse ++ new :: right
      mergedOffsetEnd := mergedWith new right d.mergedOffsetEnd })

/-! ## Reading -/

/-- What a read leaves in the list, how far it has come and what it has copied. -/
structure Taken where
  frames : List RecvFrame
  nextReadOffset : Nat
  recvBuf : List UInt8
  deriving DecidableEq, Repr

/-- The loop of `xqc_stream_recv` over the list, `size` the buffer's. -/
def readFrames (mergedOffsetEnd size : Nat) : List RecvFrame → Nat → List UInt8 → Taken
  | [], next, buf => ⟨[], next, buf⟩
  | f :: fs, next, buf =>
    if f.dataOffset > mergedOffsetEnd then ⟨f :: fs, next, buf⟩
    else if buf.length ≥ size then ⟨f :: fs, next, buf⟩
    else if f.dataEnd < next then readFrames mergedOffsetEnd size fs next buf
    else
      let cur := if f.dataOffset < next then max f.nextReadOffset (next - f.dataOffset) else f.nextReadOffset
      let frameLeft := f.dataLength - cur
      if buf.length + frameLeft ≤ size then
        readFrames mergedOffsetEnd size fs (next + frameLeft) (buf ++ (f.data.drop cur).take frameLeft)
      else
        let n := size - buf.length
        ⟨{ f with nextReadOffset := cur + n } :: fs, next + n, buf ++ (f.data.drop cur).take n⟩

inductive RecvStreamState where
  | recv
  | sizeKnown
  | dataRecvd
  | dataRead
  | resetRecvd
  | resetRead
  deriving DecidableEq, Repr

/-- `stream_state_recv >= XQC_RECV_STREAM_ST_RESET_RECVD`. -/
def RecvStreamState.isReset : RecvStreamState → Bool
  | .resetRecvd | .resetRead => true
  | _ => false

/-- `xqc_stream_flow_ctl_t`, what a receiver uses of it. -/
structure StreamFlowCtl where
  fcMaxStreamDataCanRecv : UInt64
  fcStreamRecvWindowSize : UInt64
  fcLastWindowUpdateTime : UInt64
  deriving DecidableEq, Repr

/-- `xqc_conn_flow_ctl_t`, what a receiver uses of it. -/
structure ConnFlowCtl where
  fcMaxDataCanRecv : UInt64
  fcDataRecved : UInt64
  fcDataRead : UInt64
  fcRecvWindowsSize : UInt64
  fcLastWindowUpdateTime : UInt64
  deriving DecidableEq, Repr

inductive WindowFrame where
  | maxStreamData (n : UInt64)
  | maxData (n : UInt64)
  deriving DecidableEq, Repr

structure Stream where
  dataIn : DataIn
  stateRecv : RecvStreamState
  maxRecvOffset : UInt64
  flowCtl : StreamFlowCtl
  connFlowCtl : ConnFlowCtl
  /-- `conn_err`, 0 for none. -/
  connErr : UInt64
  written : List WindowFrame
  deriving DecidableEq, Repr

/-! ## Flow control -/

def xqcMaxRecvWindow : UInt64 := 16 * 1024 * 1024

def traFlowControlError : UInt64 := 0x3

/-- `XQC_CONN_ERR`: the first error of a connection stays. -/
def Stream.connError (err : UInt64) (s : Stream) : Stream := if s.connErr = 0 then { s with connErr := err } else s

/-- A window that is updated again within two round trips is doubled. -/
def grownWindow (window last now srtt : UInt64) : UInt64 :=
  if last = 0 then window
  else if now - last < 2 * srtt then Word.minU64 (window * 2) xqcMaxRecvWindow
  else window

def Stream.raiseStreamWindow (now srtt : UInt64) (s : Stream) : Stream :=
  let fc := s.flowCtl
  let available := fc.fcMaxStreamDataCanRecv - UInt64.ofNat s.dataIn.nextReadOffset
  if available < fc.fcStreamRecvWindowSize / 2 then
    let window := grownWindow fc.fcStreamRecvWindowSize fc.fcLastWindowUpdateTime now srtt
    let limit := fc.fcMaxStreamDataCanRecv + (window - available)
    { s with
      flowCtl := { fcMaxStreamDataCanRecv := limit, fcStreamRecvWindowSize := window, fcLastWindowUpdateTime := now }
      written := s.written ++ [.maxStreamData limit] }
  else s

/-- The connection's window, at least one and a half of the stream's. The code
    multiplies by 1.5 in doubles, which is exact for windows below 2^51. -/
def Stream.raiseConnWindow (now srtt : UInt64) (s : Stream) : Stream :=
  let fc := s.connFlowCtl
  let available := fc.fcMaxDataCanRecv - fc.fcDataRead
  if available < fc.fcRecvWindowsSize / 2 then
    let grown := grownWindow fc.fcRecvWindowsSize fc.fcLastWindowUpdateTime now srtt
    let window :=
      if 2 * grown.toNat < 3 * s.flowCtl.fcStreamRecvWindowSize.toNat then
        UInt64.ofNat (3 * s.flowCtl.fcStreamRecvWindowSize.toNat / 2)
      else grown
    let limit := fc.fcMaxDataCanRecv + (window - available)
    { s with
      connFlowCtl :=
        { fc with fcMaxDataCanRecv := limit, fcRecvWindowsSize := window, fcLastWindowUpdateTime := now }
      written := s.written ++ [.maxData limit] }
  else s

def xqcStreamDoRecvFlowCtl (now srtt : UInt64) (s : Stream) : Except Err Unit × Stream :=
  if s.connFlowCtl.fcDataRecved > s.connFlowCtl.fcMaxDataCanRecv then (.error .eproto, s.connError traFlowControlError)
  else if s.maxRecvOffset > s.flowCtl.fcMaxStreamDataCanRecv then (.error .eproto, s.connError traFlowControlError)
  else (.ok (), (s.raiseStreamWindow now srtt).raiseConnWindow now srtt)

/-! ## `xqc_stream_recv` -/

def Stream.taken (t : Taken) (s : Stream) : Stream :=
  { s with
    dataIn := { s.dataIn with framesTailq := t.frames, nextReadOffset := t.nextReadOffset }
    connFlowCtl := { s.connFlowCtl with fcDataRead := s.connFlowCtl.fcDataRead + UInt64.ofNat t.recvBuf.length } }

/-- The application has read all of a stream whose data had come in full. -/
def Stream.finRead (s : Stream) : Stream := if s.stateRecv = .dataRecvd then { s with stateRecv := .dataRead } else s

/-- The bytes copied and `fin`, or the error returned. A flow control error is returned after the bytes were taken. -/
def xqcStreamRecv (size : Nat) (now srtt : UInt64) (s : Stream) : Except Err (List UInt8 × Bool) × Stream :=
  if s.stateRecv.isReset then (.error .estreamReset, { s with stateRecv := .resetRead })
  else
    let t := readFrames s.dataIn.mergedOffsetEnd size s.dataIn.framesTailq s.dataIn.nextReadOffset []
    let fin := decide (s.dataIn.streamLength > 0 ∧ t.nextReadOffset = s.dataIn.streamLength)
    let s := s.taken t
    let s := if fin then s.finRead else s
    match xqcStreamDoRecvFlowCtl now srtt s with
    | (.error e, s) => (.error e, s)
    | (.ok (), s) => if t.recvBuf = [] ∧ fin = false then (.error .eagain, s) else (.ok (t.recvBuf, fin), s)

def handed : Except Err (List UInt8 × Bool) → List UInt8
  | .ok (bytes, _) => bytes
  | .error _ => []

/-! ## What is waiting to be read -/

/-- The frames of a list that is read from `next` on, with `merged` the end of what can
    be read, against the text they are pieces of. -/
structure Pending (S : List UInt8) (merged next : Nat) (fs : List RecvFrame) : Prop where
  ascending : Ascending fs
  agrees : ∀ f ∈ fs, Agrees S f.dataOffset f.data
  closed : Closed fs merged
  covered : ∀ i, next ≤ i → i < merged → Covers fs i
  /-- No frame is read beyond the stream's own cursor. -/
  cursor : ∀ f ∈ fs, f.nextReadOffset ≤ next - f.dataOffset
  le : next ≤ merged

lemma covers_cursor {f : RecvFrame} {fs : List RecvFrame} {cur i : Nat} :
    Covers ({ f with nextReadOffset := cur } :: fs) i ↔ Covers (f :: fs) i := by
  rw [covers_cons, covers_cons]; rfl

namespace Pending

variable {S : List UInt8} {merged next : Nat} {f : RecvFrame} {fs : List RecvFrame}

section

variable (h : Pending S merged next (f :: fs))
include h

/-- The first frame starts at or before the cursor: the byte at the cursor is in a
    frame, and no frame starts before the first. -/
lemma head_le (hf : f.dataOffset ≤ merged) : f.dataOffset ≤ next := by
  by_cases hn : next < merged
  · exact h.ascending.head_le (h.covered next le_rfl hn)
  · omega

lemma eq_of_head_beyond (hf : merged < f.dataOffset) : next = merged := by
  have hle := h.le
  by_contra hne
  have hh : f.dataOffset ≤ next := h.ascending.head_le (h.covered next le_rfl (by omega))
  omega

lemma tail {next' : Nat} (h1 : next ≤ next') (h2 : f.dataEnd ≤ next')
    (h3 : next' ≤ merged) : Pending S merged next' fs where
  ascending := (pairwise_cons.mp h.ascending).2
  agrees g hg := h.agrees g (mem_cons_of_mem _ hg)
  closed g hg := h.closed g (mem_cons_of_mem _ hg)
  covered i hi hlt := by
    rcases covers_cons.mp (h.covered i (by omega) hlt) with ⟨_, hc⟩ | hc
    · rw [hi_frame] at hc; omega
    · exact hc
  cursor g hg := by
    have := h.cursor g (mem_cons_of_mem _ hg); omega
  le := h3

lemma partly {next' cur : Nat} (h1 : next ≤ next') (h2 : next' ≤ merged)
    (hc : cur ≤ next' - f.dataOffset) : Pending S merged next' ({ f with nextReadOffset := cur } :: fs) where
  ascending := pairwise_cons.mpr (pairwise_cons.mp h.ascending)
  agrees := forall_mem_cons.mpr (forall_mem_cons.mp h.agrees)
  closed := forall_mem_cons.mpr (forall_mem_cons.mp h.closed)
  covered i hi hlt := covers_cursor.mpr (h.covered i (by omega) hlt)
  cursor := forall_mem_cons.mpr ⟨hc, fun g hg => by have := h.cursor g (mem_cons_of_mem _ hg); omega⟩
  le := h2

lemma cur_eq (hf : f.dataOffset ≤ next) :
    (if f.dataOffset < next then max f.nextReadOffset (next - f.dataOffset) else f.nextReadOffset) =
      next - f.dataOffset := by
  have := h.cursor f mem_cons_self
  split <;> omega

lemma copy_eq (hf : f.dataOffset ≤ next) {m : Nat} (hm : next + m ≤ f.dataEnd) :
    (f.data.drop (next - f.dataOffset)).take m = (S.drop next).take m := by
  have hlen : f.dataEnd = f.dataOffset + f.data.length := rfl
  rw [read_of_agrees (h.agrees f mem_cons_self) (by omega), Nat.add_sub_cancel' hf]

end

end Pending

/-! ## One read -/

/-- A read from `next` on that adds the next `k` bytes of the text to `buf`. -/
structure Reads (S : List UInt8) (merged next k : Nat) (buf : List UInt8) (fs : List RecvFrame) (t : Taken) : Prop where
  recvBuf : t.recvBuf = buf ++ (S.drop next).take k
  nextReadOffset : t.nextReadOffset = next + k
  pending : Pending S merged (next + k) t.frames
  /-- Only frames before the end are freed. -/
  covers : ∀ i, merged ≤ i → (Covers t.frames i ↔ Covers fs i)

lemma Reads.nothing {S buf : List UInt8} {merged next : Nat} {fs : List RecvFrame} (h : Pending S merged next fs) :
    Reads S merged next 0 buf fs ⟨fs, next, buf⟩ :=
  ⟨by simp, rfl, h, fun _ _ => Iff.rfl⟩

/-- The frame read first is freed; `m` of the bytes are its own. -/
lemma Reads.free {S buf : List UInt8} {merged next m k : Nat} {f : RecvFrame} {fs : List RecvFrame} {t : Taken}
    (hf : f.dataEnd ≤ merged) (h : Reads S merged (next + m) k (buf ++ (S.drop next).take m) fs t) :
    Reads S merged next (m + k) buf (f :: fs) t where
  recvBuf := by rw [h.recvBuf, append_assoc, ← drop_drop, ← take_add]
  nextReadOffset := by rw [h.nextReadOffset, Nat.add_assoc]
  pending := by rw [← Nat.add_assoc]; exact h.pending
  covers i hi := by
    rw [h.covers i hi, covers_cons, hi_frame]
    constructor
    · exact .inr
    · rintro (⟨_, hlt⟩ | hc)
      · omega
      · exact hc

lemma readFrames_spec {S : List UInt8} {merged : Nat} (size : Nat) (fs : List RecvFrame) :
    ∀ (next : Nat) (buf : List UInt8), Pending S merged next fs →
      Reads S merged next (min (size - buf.length) (merged - next)) buf fs (readFrames merged size fs next buf) := by
  induction fs with
  | nil =>
    intro next buf h
    have hn : merged - next = 0 := by
      by_contra hne
      exact not_covers_nil _ (h.covered next le_rfl (by omega))
    rw [hn, Nat.min_zero]; exact .nothing h
  | cons f fs ih =>
    intro next buf h; unfold readFrames
    by_cases hoff : f.dataOffset > merged
    · rw [if_pos hoff, h.eq_of_head_beyond hoff, Nat.sub_self, Nat.min_zero]
      exact .nothing (h.eq_of_head_beyond hoff ▸ h)
    rw [if_neg hoff]
    by_cases hfull : buf.length ≥ size
    · rw [if_pos hfull, Nat.sub_eq_zero_of_le hfull, Nat.zero_min]; exact .nothing h
    rw [if_neg hfull]
    have hle := h.head_le (not_lt.mp hoff)
    have hend : f.dataEnd ≤ merged := h.closed f mem_cons_self (not_lt.mp hoff)
    by_cases hread : f.dataEnd < next
    · rw [if_pos hread]
      have := Reads.free (m := 0) hend (by simpa using ih next buf (h.tail le_rfl hread.le h.le))
      rwa [Nat.zero_add] at this
    rw [if_neg hread]
    have hlen : f.dataEnd = f.dataOffset + f.dataLength := rfl
    simp only [h.cur_eq hle]
    -- the bytes of the frame that are left, and where they lie in the text
    obtain ⟨left, hleft⟩ : ∃ left, f.dataEnd = next + left := ⟨f.dataEnd - next, by omega⟩
    have hl : f.dataLength - (next - f.dataOffset) = left := by omega
    rw [hl]
    by_cases hfit : buf.length + left ≤ size
    · rw [if_pos hfit, h.copy_eq hle (by omega)]
      have hbuf : (buf ++ (S.drop next).take left).length = buf.length + left := by
        rw [← h.copy_eq hle (by omega), length_append, length_take, length_drop]
        have : f.dataLength = f.data.length := rfl
        omega
      have := Reads.free hend (ih (next + left) (buf ++ (S.drop next).take left) (h.tail (by omega) (by omega) (by omega)))
      rw [hbuf] at this
      have hk : left + min (size - (buf.length + left)) (merged - (next + left)) = min (size - buf.length) (merged - next) := by
        omega
      rwa [hk] at this
    · rw [if_neg hfit, h.copy_eq hle (by omega), show min (size - buf.length) (merged - next) = size - buf.length by omega]
      exact ⟨rfl, rfl, h.partly (by omega) (by omega) (by omega), fun _ _ => covers_cursor⟩

/-! ## One insert -/

variable {S : List UInt8} {new : RecvFrame}

lemma insertPlace_error {e : Err} : ∀ {left right : List RecvFrame},
    insertPlace new left right = .error e → ∃ f ∈ left, f.dataOffset ≤ new.dataOffset ∧ new.dataEnd ≤ f.dataEnd := by
  intro left
  induction left with
  | nil => intro right h; cases h
  | cons f left ih =>
    intro right h; rw [insertPlace] at h
    split at h
    · rename_i hd; exact ⟨f, mem_cons_self, hd.1, hd.2.2⟩
    · split at h
      · cases h
      · obtain ⟨g, hg, hin⟩ := ih h
        exact ⟨g, mem_cons_of_mem _ hg, hin⟩

lemma left_le {f : RecvFrame} {left right : List RecvFrame} (hs : Ascending (left.reverse ++ f :: right))
    (hle : f.dataOffset ≤ new.dataOffset) : ∀ g ∈ f :: left, g.dataOffset ≤ new.dataOffset :=
  forall_mem_cons.mpr ⟨hle, fun g hg =>
    ((pairwise_append.mp hs).2.2 g (mem_reverse.mpr hg) f mem_cons_self).trans hle⟩

lemma insertPlace_ok {l r : List RecvFrame} : ∀ {left right : List RecvFrame},
    Ascending (left.reverse ++ right) → (∀ f ∈ right, new.dataOffset ≤ f.dataOffset) →
    insertPlace new left right = .ok (l, r) →
    l.reverse ++ r = left.reverse ++ right ∧ (∀ f ∈ l, f.dataOffset ≤ new.dataOffset) ∧
      ∀ f ∈ r, new.dataOffset ≤ f.dataOffset := by
  intro left
  induction left with
  | nil =>
    intro right _ hr h
    obtain ⟨rfl, rfl⟩ := Prod.mk.inj (Except.ok.inj h)
    exact ⟨rfl, by simp, hr⟩
  | cons f left ih =>
    intro right hs hr h; rw [reverse_cons, append_assoc, singleton_append] at hs ⊢
    rw [insertPlace] at h; split at h
    · cases h
    · split at h
      · rename_i hle
        obtain ⟨rfl, rfl⟩ := Prod.mk.inj (Except.ok.inj h)
        exact ⟨by simp, left_le hs hle, hr⟩
      · rename_i hlt; exact ih hs (forall_mem_cons.mpr ⟨by omega, hr⟩) h

lemma le_mergedWith (new : RecvFrame) (r : List RecvFrame) (merged : Nat) : merged ≤ mergedWith new r merged := by
  unfold mergedWith; split
  · rename_i h; have := le_advance new.dataEnd r; omega
  · exact le_rfl

lemma Pending.insert {merged next : Nat} {l r : List RecvFrame}
    (h : Pending S merged next (l ++ r)) (hl : ∀ f ∈ l, f.dataOffset ≤ new.dataOffset)
    (hr : ∀ f ∈ r, new.dataOffset ≤ f.dataOffset) (ha : Agrees S new.dataOffset new.data) (hc : new.nextReadOffset = 0) :
    Pending S (mergedWith new r merged) next (l ++ new :: r) := by
  obtain ⟨hsl, hsr, hlr⟩ := pairwise_append.mp h.ascending
  have hmem : ∀ {P : RecvFrame → Prop}, (∀ f ∈ l ++ r, P f) → P new → ∀ f ∈ l ++ new :: r, P f := by
    intro P hold hnew f hf
    rcases mem_append.mp hf with hf | hf
    · exact hold f (mem_append_left _ hf)
    · rcases mem_cons.mp hf with rfl | hf
      · exact hnew
      · exact hold f (mem_append_right _ hf)
  have hle := le_mergedWith new r merged
  refine ⟨?_, hmem h.agrees ha, ?_, ?_, hmem h.cursor (by omega), h.le.trans hle⟩
  · exact pairwise_append.mpr ⟨hsl, pairwise_cons.mpr ⟨hr, hsr⟩, fun f hf => forall_mem_cons.mpr ⟨hl f hf, hlr f hf⟩⟩
  · -- a frame before the new one starts before the old end, a frame behind it was scanned
    unfold mergedWith; split
    · rename_i hm
      have hadv := le_advance new.dataEnd r
      intro f hf hlo
      rcases mem_append.mp hf with hf | hf
      · have hend : f.dataEnd ≤ merged := h.closed f (mem_append_left _ hf) ((hl f hf).trans hm.1)
        rw [hi_frame]; omega
      · rcases mem_cons.mp hf with rfl | hf
        · exact hadv
        · exact advance_closed hsr f hf hlo
    · refine hmem h.closed ?_
      intro hlo; rw [lo_frame] at hlo
      rw [hi_frame]; omega
  · intro i hi hlt; rw [covers_append, covers_cons]
    by_cases hold : i < merged
    · rcases covers_append.mp (h.covered i hi hold) with hc | hc
      · exact .inl hc
      · exact .inr (.inr hc)
    · unfold mergedWith at hlt; split at hlt
      · rename_i hm
        by_cases hin : i < new.dataEnd
        · exact .inr (.inl ⟨hm.1.trans (not_lt.mp hold), hin⟩)
        · exact .inr (.inr (advance_covers (not_lt.mp hin) hlt))
      · exact absurd hlt hold

/-! ## A stream in use -/

/-- A stream that was not reset and on which nothing was counted for flow control: a read does not fail. -/
structure Open (s : Stream) : Prop where
  state : s.stateRecv.isReset = false
  recved : s.connFlowCtl.fcDataRecved = 0
  maxRecv : s.maxRecvOffset = 0

variable {s : Stream}

lemma Open.congr {s' : Stream} (h : Open s) (hs : s'.stateRecv = s.stateRecv)
    (hr : s'.connFlowCtl.fcDataRecved = s.connFlowCtl.fcDataRecved) (hm : s'.maxRecvOffset = s.maxRecvOffset) :
    Open s' :=
  ⟨hs ▸ h.state, hr ▸ h.recved, hm ▸ h.maxRecv⟩

lemma raiseStreamWindow_spec (h : Open s) (now srtt : UInt64) :
    Open (s.raiseStreamWindow now srtt) ∧ (s.raiseStreamWindow now srtt).dataIn = s.dataIn := by
  unfold Stream.raiseStreamWindow
  dsimp only; split
  · exact ⟨h.congr rfl rfl rfl, rfl⟩
  · exact ⟨h, rfl⟩

lemma raiseConnWindow_spec (h : Open s) (now srtt : UInt64) :
    Open (s.raiseConnWindow now srtt) ∧ (s.raiseConnWindow now srtt).dataIn = s.dataIn := by
  unfold Stream.raiseConnWindow
  dsimp only; split
  · exact ⟨h.congr rfl rfl rfl, rfl⟩
  · exact ⟨h, rfl⟩

lemma doRecvFlowCtl_spec (h : Open s) (now srtt : UInt64) :
    ∃ s', xqcStreamDoRecvFlowCtl now srtt s = (.ok (), s') ∧ Open s' ∧ s'.dataIn = s.dataIn := by
  obtain ⟨h1, hd1⟩ := raiseStreamWindow_spec h now srtt
  obtain ⟨h2, hd2⟩ := raiseConnWindow_spec h1 now srtt
  refine ⟨(s.raiseStreamWindow now srtt).raiseConnWindow now srtt, ?_, h2, hd2.trans hd1⟩
  unfold xqcStreamDoRecvFlowCtl
  rw [if_neg (by rw [h.recved]; exact UInt64.not_lt_zero), if_neg (by rw [h.maxRecv]; exact UInt64.not_lt_zero)]

lemma finRead_spec (h : Open s) : Open s.finRead ∧ s.finRead.dataIn = s.dataIn := by
  unfold Stream.finRead; split
  · exact ⟨⟨rfl, h.recved, h.maxRecv⟩, rfl⟩
  · exact ⟨h, rfl⟩

/-- What a stream holds against the text `S` and all frames ever inserted. -/
structure Inv (S : List UInt8) (inserted : List RecvFrame) (s : Stream) : Prop where
  isOpen : Open s
  pending : Pending S s.dataIn.mergedOffsetEnd s.dataIn.nextReadOffset s.dataIn.framesTailq
  /-- What was inserted is before the end or still in the list. -/
  covers : ∀ i, Covers inserted i ↔ i < s.dataIn.mergedOffsetEnd ∨ Covers s.dataIn.framesTailq i

lemma Inv.frontier {inserted : List RecvFrame} (h : Inv S inserted s) :
    Frontier inserted s.dataIn.mergedOffsetEnd := by
  constructor
  · intro i hi; exact (h.covers i).mpr (.inl hi)
  · intro hc
    rcases (h.covers _).mp hc with hlt | hc
    · exact lt_irrefl _ hlt
    · exact h.pending.closed.not_covers hc

theorem recv_spec {inserted : List RecvFrame} (h : Inv S inserted s)
    (size : Nat) (now srtt : UInt64) :
    let r := xqcStreamRecv size now srtt s
    let k := min size (s.dataIn.mergedOffsetEnd - s.dataIn.nextReadOffset)
    handed r.1 = (S.drop s.dataIn.nextReadOffset).take k ∧ r.2.dataIn.nextReadOffset = s.dataIn.nextReadOffset + k ∧
      r.2.dataIn.mergedOffsetEnd = s.dataIn.mergedOffsetEnd ∧ Inv S inserted r.2 := by
  intro r k
  have hr := readFrames_spec size s.dataIn.framesTailq _ [] h.pending
  generalize ht : readFrames s.dataIn.mergedOffsetEnd size s.dataIn.framesTailq s.dataIn.nextReadOffset [] = t at hr
  have hbuf : t.recvBuf = (S.drop s.dataIn.nextReadOffset).take k := hr.recvBuf
  -- the stream the flow control sees, whether or not the end was read
  have hopen : Open (s.taken t) := h.isOpen.congr rfl rfl rfl
  generalize hfin : decide (s.dataIn.streamLength > 0 ∧ t.nextReadOffset = s.dataIn.streamLength) = fin
  obtain ⟨s₁, hs₁, hopen₁, hdata₁⟩ : ∃ s₁, (if fin then (s.taken t).finRead else s.taken t) = s₁ ∧ Open s₁ ∧
      s₁.dataIn = (s.taken t).dataIn := by
    cases fin with
    | false => exact ⟨_, rfl, hopen, rfl⟩
    | true => exact ⟨_, rfl, (finRead_spec hopen).1, (finRead_spec hopen).2⟩
  obtain ⟨s₂, hs₂, hopen₂, hdata₂⟩ := doRecvFlowCtl_spec hopen₁ now srtt
  have hr₂ : r.2 = s₂ ∧ handed r.1 = t.recvBuf := by
    show (xqcStreamRecv size now srtt s).2 = s₂ ∧ handed (xqcStreamRecv size now srtt s).1 = t.recvBuf
    unfold xqcStreamRecv; rw [h.isOpen.state]
    simp only [Bool.false_eq_true, if_false, ht, hfin, hs₁, hs₂]; split
    · rename_i hnone; exact ⟨rfl, hnone.1.symm⟩
    · exact ⟨rfl, rfl⟩
  have hdata : r.2.dataIn = (s.taken t).dataIn := by rw [hr₂.1, hdata₂, hdata₁]
  refine ⟨hr₂.2.trans hbuf, by rw [hdata]; exact hr.nextReadOffset, by rw [hdata]; rfl, ?_⟩
  refine ⟨hr₂.1 ▸ hopen₂, ?_, ?_⟩
  · rw [hdata]
    show Pending S s.dataIn.mergedOffsetEnd t.nextReadOffset t.frames
    rw [hr.nextReadOffset]; exact hr.pending
  · intro i; rw [hdata, h.covers i]
    show _ ↔ i < s.dataIn.mergedOffsetEnd ∨ Covers t.frames i
    by_cases hi : i < s.dataIn.mergedOffsetEnd
    · simp only [hi, true_or]
    · rw [hr.covers i (not_lt.mp hi)]

lemma insert_spec {inserted : List RecvFrame} (h : Inv S inserted s) (new : RecvFrame)
    (ha : Agrees S new.dataOffset new.data) (hc : new.nextReadOffset = 0) :
    let d := (xqcInsertStreamFrame new s.dataIn).2
    d.nextReadOffset = s.dataIn.nextReadOffset ∧ Inv S (inserted ++ [new]) { s with dataIn := d } := by
  unfold xqcInsertStreamFrame; split
  · -- refused: what the frame covers is covered
    rename_i e he
    obtain ⟨f, hf, hl, hh⟩ := insertPlace_error he
    refine ⟨rfl, h.isOpen, h.pending, ?_⟩
    intro i; rw [covers_append, h.covers i]
    constructor
    · rintro (hold | hnew)
      · exact hold
      · rcases covers_cons.mp hnew with ⟨h1, h2⟩ | hnil
        · exact .inr (.of_mem (mem_reverse.mp hf) (hl.trans h1) (h2.trans_le hh))
        · exact absurd hnil (not_covers_nil i)
    · exact .inl
  · rename_i left right hp
    have hasc : Ascending (s.dataIn.framesTailq.reverse.reverse ++ []) := by
      simpa using h.pending.ascending
    obtain ⟨hparts, hl, hr⟩ := insertPlace_ok hasc (by simp) hp
    rw [reverse_reverse, append_nil] at hparts
    have hpend := h.pending
    rw [← hparts] at hpend
    have hpend' := hpend.insert (fun f hf => hl f (mem_reverse.mp hf)) hr ha hc
    have hle := le_mergedWith new right s.dataIn.mergedOffsetEnd
    refine ⟨rfl, h.isOpen.congr rfl rfl rfl, hpend', ?_⟩
    intro i
    have hcov : Covers (inserted ++ [new]) i ↔
        i < s.dataIn.mergedOffsetEnd ∨ Covers (left.reverse ++ new :: right) i := by
      rw [covers_append, h.covers i, ← hparts]
      simp only [covers_append, covers_cons, not_covers_nil, or_false]
      tauto
    rw [hcov]
    constructor
    · rintro (hlt | hc)
      · exact .inl (hlt.trans_le hle)
      · exact .inr hc
    · rintro (hlt | hc)
      · by_cases hi : i < s.dataIn.mergedOffsetEnd
        · exact .inl hi
        · exact .inr (hpend'.covered i (hpend.le.trans (not_lt.mp hi)) hlt)
      · exact .inr hc

/-! ## Runs -/

/-- The arguments of a read, the time and the round trip its flow control sees. -/
structure Read where
  size : Nat
  now : UInt64
  srtt : UInt64
  deriving DecidableEq, Repr

inductive Ev where
  | insert (dataOffset : Nat) (data : List UInt8)
  | recv (r : Read)
  deriving DecidableEq, Repr

/-- The frames a run inserts; a new frame is zeroed, its cursor included. -/
def inserted : List Ev → List RecvFrame
  | [] => []
  | .insert o d :: es => ⟨o, d, 0⟩ :: inserted es
  | .recv _ :: es => inserted es

def Ev.Agrees (S : List UInt8) : Ev → Prop
  | .insert o d => Lib.Agrees S o d
  | .recv _ => True

instance (S : List UInt8) (e : Ev) : Decidable (e.Agrees S) := by
  cases e <;> unfold Ev.Agrees <;> unfold Lib.Agrees <;> infer_instance

def step (s : Stream) : Ev → List UInt8 × Stream
  | .insert o d => ([], { s with dataIn := (xqcInsertStreamFrame ⟨o, d, 0⟩ s.dataIn).2 })
  | .recv r => let a := xqcStreamRecv r.size r.now r.srtt s; (handed a.1, a.2)

/-- The bytes handed out by all reads, in order, and the stream at the end. -/
def run (s : Stream) : List Ev → List UInt8 × Stream
  | [] => ([], s)
  | e :: es => ((step s e).1 ++ (run (step s e).2 es).1, (run (step s e).2 es).2)

/-- A new stream, with the windows of the connection's settings, on a connection that has counted no received data. -/
def Stream.fresh (fc : StreamFlowCtl) (conn : ConnFlowCtl) : Stream where
  dataIn := ⟨[], 0, 0, 0⟩
  stateRecv := .recv
  maxRecvOffset := 0
  flowCtl := fc
  connFlowCtl := { conn with fcDataRecved := 0 }
  connErr := 0
  written := []

lemma fresh_inv (S : List UInt8) (fc : StreamFlowCtl) (conn : ConnFlowCtl) : Inv S [] (Stream.fresh fc conn) := by
  refine ⟨⟨rfl, rfl, rfl⟩, ⟨.nil, ?_, ?_, ?_, ?_, le_rfl⟩, ?_⟩
  · intro f hf; cases hf
  · intro f hf; cases hf
  · intro i _ hlt; exact absurd hlt (Nat.not_lt_zero i)
  · intro f hf; cases hf
  · intro i; show Covers ([] : List RecvFrame) i ↔ i < 0 ∨ Covers ([] : List RecvFrame) i; simp

lemma inserted_append (es es' : List Ev) : inserted (es ++ es') = inserted es ++ inserted es' := by
  induction es with
  | nil => rfl
  | cons e es ih => cases e <;> simp [inserted, ih]

lemma inserted_agrees {es : List Ev} (h : ∀ e ∈ es, e.Agrees S) :
    ∀ f ∈ inserted es, Lib.Agrees S f.dataOffset f.data := by
  induction es with
  | nil => intro f hf; cases hf
  | cons e es ih =>
    have hes := fun e' he' => h e' (mem_cons_of_mem _ he')
    intro f hf
    cases e with
    | insert o d =>
      rcases mem_cons.mp hf with rfl | hf
      · exact h _ mem_cons_self
      · exact ih hes f hf
    | recv r => exact ih hes f hf

lemma run_append (s : Stream) (es es' : List Ev) :
    run s (es ++ es') = ((run s es).1 ++ (run (run s es).2 es').1, (run (run s es).2 es').2) := by
  induction es generalizing s with
  | nil => rfl
  | cons e es ih => simp only [cons_append, run, ih, append_assoc]

lemma step_spec {ins : List RecvFrame} (h : Inv S ins s) (e : Ev) (he : e.Agrees S) :
    ∃ k, (step s e).1 = (S.drop s.dataIn.nextReadOffset).take k ∧
      (step s e).2.dataIn.nextReadOffset = s.dataIn.nextReadOffset + k ∧ Inv S (ins ++ inserted [e]) (step s e).2 := by
  cases e with
  | insert o d =>
    obtain ⟨hn, hi⟩ := insert_spec h ⟨o, d, 0⟩ he rfl
    exact ⟨0, rfl, hn, hi⟩
  | recv r =>
    obtain ⟨hb, hn, _, hi⟩ := recv_spec h r.size r.now r.srtt
    rw [inserted, inserted, append_nil]; exact ⟨_, hb, hn, hi⟩

theorem run_spec (es : List Ev) :
    ∀ {ins : List RecvFrame} {s : Stream}, Inv S ins s → (∀ e ∈ es, e.Agrees S) →
      ∃ k, (run s es).1 = (S.drop s.dataIn.nextReadOffset).take k ∧
        (run s es).2.dataIn.nextReadOffset = s.dataIn.nextReadOffset + k ∧ Inv S (ins ++ inserted es) (run s es).2 := by
  induction es with
  | nil => intro ins s h _; rw [inserted, append_nil]; exact ⟨0, rfl, rfl, h⟩
  | cons e es ih =>
    intro ins s h hes
    obtain ⟨k, hb, hn, hi⟩ := step_spec h e (hes e mem_cons_self)
    obtain ⟨k', hb', hn', hi'⟩ := ih hi fun e' he' => hes e' (mem_cons_of_mem _ he')
    refine ⟨k + k', ?_, ?_, ?_⟩
    · rw [run, hb, hb', hn, ← drop_drop, take_add]
    · rw [run, hn', hn, Nat.add_assoc]
    · rw [append_assoc, ← inserted_append] at hi'; exact hi'

/-- Reads alone, of `n` bytes in all, hand out the next `n` bytes or all there are. -/
lemma reads_spec (rs : List Read) :
    ∀ {ins : List RecvFrame} {s : Stream}, Inv S ins s →
      (run s (rs.map .recv)).1 = (S.drop s.dataIn.nextReadOffset).take
        (min (rs.map Read.size).sum (s.dataIn.mergedOffsetEnd - s.dataIn.nextReadOffset)) := by
  induction rs with
  | nil => intro ins s _; simp [run]
  | cons r rs ih =>
    intro ins s h
    obtain ⟨hb, hn, hm, hi⟩ := recv_spec h r.size r.now r.srtt
    rw [map_cons, run, map_cons, sum_cons]
    show handed (xqcStreamRecv r.size r.now r.srtt s).1 ++
      (run (xqcStreamRecv r.size r.now r.srtt s).2 (rs.map .recv)).1 = _
    rw [ih hi, hb, hn, hm, ← drop_drop, ← take_add]
    congr 1
    omega

/-- Whatever the frames' order and overlaps and wherever the reads come, the bytes
    read are a prefix of the text; and reads of enough bytes bring them up to the
    longest prefix that the frames inserted cover. -/
theorem stream_recv_in_order (S : List UInt8) (fc : StreamFlowCtl) (conn : ConnFlowCtl) (es : List Ev)
    (hes : ∀ e ∈ es, e.Agrees S) :
    (run (.fresh fc conn) es).1 <+: S ∧
      ∃ n, Frontier (inserted es) n ∧ n ≤ S.length ∧
        ∀ reads : List Read, n ≤ (reads.map Read.size).sum →
          (run (.fresh fc conn) (es ++ reads.map .recv)).1 = S.take n := by
  obtain ⟨k, hb, hn, hi⟩ := run_spec es (fresh_inv S fc conn) hes
  have hb' : (run (.fresh fc conn) es).1 = S.take k := hb
  have hn' : (run (.fresh fc conn) es).2.dataIn.nextReadOffset = k := hn.trans (Nat.zero_add k)
  refine ⟨hb' ▸ take_prefix k S, _, hi.frontier, ?_, ?_⟩
  · by_contra hlt
    obtain ⟨f, hf, h1, h2⟩ := hi.frontier.1 S.length (not_le.mp hlt)
    exact lt_irrefl _ ((inserted_agrees hes f hf).lt_length h1 h2)
  · intro reads hreads
    have hle := hi.pending.le
    rw [hn'] at hle
    rw [run_append, hb', reads_spec reads hi, hn', ← take_add, Nat.min_eq_right (by omega),
      Nat.add_sub_cancel' hle]

/-- Three frames that overlap, the last one first, with reads between them. -/
def overlapping : List Ev :=
  [.insert 2 [3, 4, 5], .recv ⟨8, 0, 0⟩, .insert 0 [1, 2, 3], .recv ⟨2, 0, 0⟩, .insert 1 [2, 3], .recv ⟨1, 0, 0⟩]

theorem overlapping_frames_are_read_in_order :
    (∀ e ∈ overlapping, e.Agrees [1, 2, 3, 4, 5, 6]) ∧
      (run (.fresh ⟨64, 64, 0⟩ ⟨64, 0, 0, 64, 0⟩) overlapping).1 = [1, 2, 3] ∧
      ∃ n, Frontier (inserted overlapping) n ∧ n ≤ 6 ∧
        ∀ reads : List Read, n ≤ (reads.map Read.size).sum →
          (run (.fresh ⟨64, 64, 0⟩ ⟨64, 0, 0, 64, 0⟩) (overlapping ++ reads.map .recv)).1 = [1, 2, 3, 4, 5, 6].take n :=
  ⟨by decide, by decide, (stream_recv_in_order [1, 2, 3, 4, 5, 6] _ _ overlapping (by decide)).2⟩

end RlccQuic.Transport.StreamRecv
