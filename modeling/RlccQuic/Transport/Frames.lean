/-
  RlccQuic.Transport.Frames — `xqc_process_frames`, the loop over the frames of a packet.

  The frame type is read as an integer, one of the `xqc_process_..._frame` functions is called, which calls the parser and
  then does what the frame asks for. What these functions do to the connection is a parameter here: something before the
  parser (an allocation, a check of the role), which may fail, and something after it. The calls of the parsers are recorded.

  Proved: the loop ends, and each parser it calls on a frame with a type of one byte reads only the packet, moves `pos` on
  inside the packet and refuses what is too long exactly if the frame does not declare too much in a way that the tests
  miss (`process_frames_safe_iff`). A CRYPTO frame cut short does that (`a_crypto_frame_cut_short_is_accepted`), and a
  type of two bytes hides a length from the parser (`a_long_type_hides_the_length`).
-/

import RlccQuic.Transport.FrameBounds

namespace RlccQuic.Transport.Frames

open Lib.Cursor Transport FrameParser List

/-! ## The loop -/

/-- The connection, with what the `xqc_process_..._frame` functions do to it. -/
structure Host (σ : Type) where
  connState : σ → ConnState
  room : σ → Room
  /-- `xqc_conn_immediate_close`. -/
  immediateClose : σ → σ
  /-- Before the parser is called. -/
  enter : FrameKind → σ → Option Err × σ
  /-- After it has succeeded. -/
  apply : Frame → σ → Option Err × σ

def kindOf : Nat → Option FrameKind
  | 0x00 => some .padding
  | 0x01 => some .ping
  | 0x02 | 0x03 => some .ack
  | 0x04 => some .resetStream
  | 0x05 => some .stopSending
  | 0x06 => some .crypto
  | 0x07 => some .newToken
  | 0x08 | 0x09 | 0x0a | 0x0b | 0x0c | 0x0d | 0x0e | 0x0f => some .stream
  | 0x10 => some .maxData
  | 0x11 => some .maxStreamData
  | 0x12 | 0x13 => some .maxStreams
  | 0x14 => some .dataBlocked
  | 0x15 => some .streamDataBlocked
  | 0x16 | 0x17 => some .streamsBlocked
  | 0x18 => some .newConnectionId
  | 0x19 => some .retireConnectionId
  | 0x1a => some .pathChallenge
  | 0x1b => some .pathResponse
  | 0x1c | 0x1d => some .connectionClose
  | 0x1e => some .handshakeDone
  | _ => none

structure Call where
  kind : FrameKind
  pos : Nat
  room : Room
  res : Res Err Frame

/-- `pi_frame_types` is the kinds of the frames that were parsed. -/
structure Outcome (σ : Type) where
  ret : Option Err
  pos : Nat
  conn : σ
  frameTypes : List FrameKind
  calls : List Call

variable {σ : Type} (host : Host σ) (pkt : PacketIn)

def Outcome.after (o : Outcome σ) (c : Call) : Outcome σ :=
  { o with frameTypes := c.kind :: o.frameTypes, calls := c :: o.calls }

inductive Turn (σ : Type) where
  | done (o : Outcome σ)
  | next (c : Call) (pos : Nat) (conn : σ)

/-- The `xqc_process_..._frame` function of a kind. A CRYPTO frame counts as received also if the parser fails. -/
def processFrame (k : FrameKind) (pos : Nat) (s : σ) : Turn σ :=
  match host.enter k s with
  | (some e, s) => .done ⟨some e, pos, s, if k = .crypto then [k] else [], []⟩
  | (none, s) =>
    let c : Call := ⟨k, pos, host.room s, parse pkt (host.room s) k pos⟩
    match c.res.out with
    | .error e => .done ⟨some e, pos, s, if k = .crypto then [k] else [], [c]⟩
    | .ok (frame, pos') =>
      match host.apply frame s with
      | (some e, s) => .done ⟨some e, pos', s, [k], [c]⟩
      | (none, s) => if pos = pos' then .done ⟨some .esys, pos', s, [k], [c]⟩ else .next c pos' s

def turn (pos : Nat) (s : σ) : Turn σ :=
  match (xqcVintRead pkt.mem pkt.last pos).2 with
  | none => .done ⟨some .evintread, pos, s, [], []⟩
  | some (frameType, _) =>
    if host.connState s = .closing ∧ frameType ≠ 0x1c ∧ frameType ≠ 0x1d then
      .done ⟨none, pkt.last, host.immediateClose s, [], []⟩
    else if host.connState s ≠ .closing ∧ (host.connState s).isDraining then
      .done ⟨none, pkt.last, s, [], []⟩
    else
      match kindOf frameType with
      | none => .done ⟨some .eignorePkt, pos, s, [], []⟩
      | some k => processFrame host pkt k pos s

/-- The loop; `none` if it takes more turns than the first argument says. -/
def xqcProcessFrames : Nat → Nat → σ → Option (Outcome σ)
  | 0, pos, s => if pos < pkt.last then none else some ⟨none, pos, s, [], []⟩
  | fuel + 1, pos, s =>
    if pos < pkt.last then
      match turn host pkt pos s with
      | .done o => some o
      | .next c pos' s => (xqcProcessFrames fuel pos' s).map fun o => o.after c
    else some ⟨none, pos, s, [], []⟩

lemma processFrames_end {fuel pos : Nat} {s : σ} (h : ¬ pos < pkt.last) :
    xqcProcessFrames host pkt fuel pos s = some ⟨none, pos, s, [], []⟩ := by
  cases fuel <;> rw [xqcProcessFrames, if_neg h]

lemma processFrames_turn {fuel pos : Nat} {s : σ} (h : pos < pkt.last) :
    xqcProcessFrames host pkt (fuel + 1) pos s =
      match turn host pkt pos s with
      | .done o => some o
      | .next c pos' s => (xqcProcessFrames host pkt fuel pos' s).map fun o => o.after c := by
  rw [xqcProcessFrames, if_pos h]

/-! ## What a turn does -/

def Call.At (pos : Nat) (c : Call) : Prop := c.pos = pos ∧ c.res = parse pkt c.room c.kind c.pos

/-- A turn calls the parser at `pos`, if any, and goes on further on. -/
def Turn.Sound (pos : Nat) : Turn σ → Prop
  | .done o => ∀ c ∈ o.calls, c.At pkt pos
  | .next c pos' _ => c.At pkt pos ∧ pos < pos'

lemma sound_of_no_calls (pos : Nat) {o : Outcome σ} (h : o.calls = []) : (Turn.done o).Sound pkt pos := by
  intro c hc; rw [h] at hc
  exact absurd hc not_mem_nil

lemma processFrame_sound (k : FrameKind) (pos : Nat) (s : σ) : (processFrame host pkt k pos s).Sound pkt pos := by
  unfold processFrame
  rcases host.enter k s with ⟨e | e, s⟩
  · simp only
    have hat : Call.At pkt pos ⟨k, pos, host.room s, parse pkt (host.room s) k pos⟩ := ⟨rfl, rfl⟩
    have hcall : ∀ c ∈ [(⟨k, pos, host.room s, parse pkt (host.room s) k pos⟩ : Call)], c.At pkt pos := by
      intro c hc
      obtain rfl := mem_singleton.mp hc
      exact hat
    cases hout : (parse pkt (host.room s) k pos).out with
    | error e => exact hcall
    | ok x =>
      obtain ⟨frame, pos'⟩ := x
      have hlt := parse_advances pkt (host.room s) k pos frame pos' hout
      simp only
      rcases host.apply frame s with ⟨e | e, s'⟩
      · simp only
        rw [if_neg (Nat.ne_of_lt hlt)]; exact ⟨hat, hlt⟩
      · exact hcall
  · exact sound_of_no_calls pkt pos rfl

lemma turn_sound (pos : Nat) (s : σ) : (turn host pkt pos s).Sound pkt pos := by
  unfold turn; split
  · exact sound_of_no_calls pkt pos rfl
  · split
    · exact sound_of_no_calls pkt pos rfl
    · split
      · exact sound_of_no_calls pkt pos rfl
      · split
        · exact sound_of_no_calls pkt pos rfl
        · exact processFrame_sound host pkt _ pos s

/-! ## Whole runs of the loop -/

/-- Enough turns for the bytes that are left are enough, however many more there are. -/
lemma processFrames_terminates : ∀ (n pos : Nat) (s : σ), pkt.last - pos ≤ n →
    ∃ o, ∀ fuel, n ≤ fuel → xqcProcessFrames host pkt fuel pos s = some o := by
  intro n
  induction n with
  | zero => intro pos s hn; exact ⟨_, fun fuel _ => processFrames_end host pkt (by omega)⟩
  | succ n ih =>
    intro pos s hn
    by_cases hpos : pos < pkt.last
    · have hsound := turn_sound host pkt pos s
      cases ht : turn host pkt pos s with
      | done o =>
        refine ⟨o, fun fuel hfuel => ?_⟩
        obtain ⟨fuel, rfl⟩ : ∃ m, fuel = m + 1 := ⟨fuel - 1, by omega⟩
        rw [processFrames_turn host pkt hpos, ht]
      | next c pos' s' =>
        rw [ht] at hsound
        obtain ⟨o, ho⟩ := ih pos' s' (by have := hsound.2; omega)
        refine ⟨o.after c, fun fuel hfuel => ?_⟩
        obtain ⟨fuel, rfl⟩ : ∃ m, fuel = m + 1 := ⟨fuel - 1, by omega⟩
        rw [processFrames_turn host pkt hpos, ht]
        simp only
        rw [ho fuel (by omega)]; rfl
    · exact ⟨_, fun fuel _ => processFrames_end host pkt hpos⟩

lemma processFrames_calls : ∀ {fuel pos : Nat} {s : σ} {o : Outcome σ},
    xqcProcessFrames host pkt fuel pos s = some o →
      ∀ c ∈ o.calls, c.pos < pkt.last ∧ c.res = parse pkt c.room c.kind c.pos := by
  intro fuel
  induction fuel with
  | zero =>
    intro pos s o h
    by_cases hpos : pos < pkt.last
    · rw [xqcProcessFrames, if_pos hpos] at h; cases h
    · rw [processFrames_end host pkt hpos] at h; cases h; exact fun c hc => absurd hc not_mem_nil
  | succ fuel ih =>
    intro pos s o h c hc
    by_cases hpos : pos < pkt.last
    · have hsound := turn_sound host pkt pos s
      rw [processFrames_turn host pkt hpos] at h
      cases ht : turn host pkt pos s with
      | done o' =>
        rw [ht] at h hsound; cases h
        obtain ⟨h1, h2⟩ := hsound c hc
        exact ⟨h1 ▸ hpos, h2⟩
      | next c' pos' s' =>
        rw [ht] at h hsound
        simp only [Option.map_eq_some_iff] at h
        obtain ⟨o', ho', rfl⟩ := h
        rcases mem_cons.mp hc with rfl | hc
        · obtain ⟨h1, h2⟩ := hsound.1
          exact ⟨h1 ▸ hpos, h2⟩
        · exact ih ho' c hc
    · rw [processFrames_end host pkt hpos] at h; cases h; cases hc

theorem process_frames_safe_iff (pos : Nat) (s : σ) :
    ∃ o, (∀ fuel, pkt.last - pos ≤ fuel → xqcProcessFrames host pkt fuel pos s = some o) ∧
      (∀ c ∈ o.calls, OneByte pkt c.pos → (CallSafe pkt c.kind c.pos c.res ↔ Fits pkt c.room c.kind c.pos)) ∧
      ((∀ c ∈ o.calls, OneByte pkt c.pos ∧ Fits pkt c.room c.kind c.pos) →
        ∀ c ∈ o.calls, CallSafe pkt c.kind c.pos c.res) := by
  obtain ⟨o, ho⟩ := processFrames_terminates host pkt (pkt.last - pos) pos s (Nat.le_refl _)
  have hcalls := processFrames_calls host pkt (ho _ (Nat.le_refl _))
  have heach : ∀ c ∈ o.calls, OneByte pkt c.pos → (CallSafe pkt c.kind c.pos c.res ↔ Fits pkt c.room c.kind c.pos) := by
    intro c hc h1
    obtain ⟨hpos, hres⟩ := hcalls c hc
    rw [hres]; exact parse_safe_iff pkt c.room c.kind hpos h1
  exact ⟨o, ho, heach, fun h c hc => (heach c hc (h c hc).1).mpr (h c hc).2⟩

/-! ## A packet that ends too early -/

/-- An established connection with memory, which takes every frame. -/
def willing : Host Unit where
  connState _ := .estabed
  room _ := ⟨fun _ => true, 3⟩
  immediateClose s := s
  enter _ s := (none, s)
  apply _ s := (none, s)

/-- CRYPTO, offset 0, length 4, and the packet ends there. -/
def cutShort : PacketIn := ⟨fun i => [0x06, 0x00, 0x04].getD i 0, 3, .init⟩

/-- The four bytes after the packet are read as crypto data, `pos` ends up four
    past `last`, and the packet counts as processed. -/
theorem a_crypto_frame_cut_short_is_accepted :
    ∃ o c, xqcProcessFrames willing cutShort 3 0 () = some o ∧ o.ret = none ∧ o.pos = 7 ∧ o.calls = [c] ∧
      ⟨3, 4⟩ ∈ c.res.reads ∧ ¬ CallSafe cutShort c.kind c.pos c.res := by
  refine ⟨_, _, rfl, rfl, rfl, rfl, by decide, fun h => ?_⟩
  have := (h.out _ _ rfl).2; exact absurd this (by decide)

/-- STREAM of type 0x0a in two bytes, stream 0, length 63, and the packet ends there. -/
def longType : PacketIn := ⟨fun i => [0x40, 0x0a, 0x00, 0x3f].getD i 0, 4, .init⟩

/-- The parser takes the first byte for the type, which has no length then: the frame is accepted, with two bytes of data. -/
theorem a_long_type_hides_the_length :
    ∃ o c, xqcProcessFrames willing longType 4 0 () = some o ∧ o.ret = none ∧ o.calls = [c] ∧
      Declares longType c.kind c.pos ⟨63, 1⟩ 4 ∧ ¬ CallSafe longType c.kind c.pos c.res := by
  refine ⟨_, _, rfl, rfl, rfl, rfl, fun h => ?_⟩
  obtain ⟨e, he⟩ := h.refuses ⟨63, 1⟩ 4 rfl (by decide)
  cases he

end RlccQuic.Transport.Frames
