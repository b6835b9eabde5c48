/-
  RlccQuic.Transport.FrameBounds — where the frame parsers read.

  The loop over the frames reads the type as an integer of up to eight bytes, the parsers take it to be one byte.

  Proved: `xqc_vint_read` reads inside the buffer whatever is there (`bounded_vint`); every parser moves past the type
  byte (`parse_advances`); where the type has one byte, a call of a parser reads inside, ends inside and refuses what is
  too long exactly if the length the frame declares, should it exceed what is left, is refused by one of the tests there
  are (`parse_safe_iff`).
-/

import RlccQuic.Transport.FrameParser

namespace RlccQuic.Transport.FrameParser

open Lib.Cursor Transport List
open Nat (le_succ not_le_of_lt)

variable (pkt : PacketIn)

/-! ## Integers stay inside -/

lemma vintRead_inside (mem : Mem) (last p : Nat) :
    (∀ s ∈ (xqcVintRead mem last p).1, s.Within p last) ∧
      ∀ v n, (xqcVintRead mem last p).2 = some (v, n) → 1 ≤ n ∧ p + n ≤ last := by
  have wide : ∀ n, 1 ≤ n → p < last → (∀ s ∈ (vintWide mem last p n).1, s.Within p last) ∧
      ∀ v k, (vintWide mem last p n).2 = some (v, k) → 1 ≤ k ∧ p + k ≤ last := by
    intro n hn hp; unfold vintWide
    by_cases h : p + (n - 1) ≥ last
    · rw [if_pos h]
      refine ⟨fun s hs => ?_, nofun⟩
      obtain rfl := mem_singleton.mp hs
      exact .inr ⟨Nat.le_refl _, hp⟩
    · rw [if_neg h]
      refine ⟨fun s hs => ?_, fun v k e => by cases e; omega⟩
      simp only [mem_cons, not_mem_nil, or_false] at hs
      rcases hs with rfl | rfl
      · exact .inr ⟨Nat.le_refl _, hp⟩
      · exact .inr ⟨Nat.le_refl _, by show p + n ≤ last; omega⟩
  unfold xqcVintRead
  by_cases hp : p ≥ last
  · rw [if_pos hp]; exact ⟨nofun, nofun⟩
  · rw [if_neg hp]
    have hlt : p < last := Nat.lt_of_not_le hp
    split
    · refine ⟨fun s hs => ?_, fun v k e => by cases e; exact ⟨Nat.le_refl _, hlt⟩⟩
      obtain rfl := mem_singleton.mp hs
      exact .inr ⟨Nat.le_refl _, hlt⟩
    · exact wide 2 (by decide) hlt
    · exact wide 4 (by decide) hlt
    · exact wide 8 (by decide) hlt

variable {p q : Nat}

lemma vint_ok {v : Nat} (h : (vint pkt p).out = .ok (v, q)) : p < q ∧ q ≤ pkt.last := by
  have hin := (vintRead_inside pkt.mem pkt.last p).2
  unfold vint at h; split at h
  · rename_i reads w n hr; cases h
    have := hin v n (by rw [hr]); omega
  · cases h

lemma vint_reads (p : Nat) : ∀ s ∈ (vint pkt p).reads, s.Within p pkt.last := by
  have hin := (vintRead_inside pkt.mem pkt.last p).1
  unfold vint
  split <;> rename_i hr <;> rw [hr] at hin <;> exact hin

variable (lo : Nat)

theorem bounded_vint : Bounded lo pkt.last (vint pkt) := by
  intro p hlo _
  refine ⟨fun s hs => ?_, fun v q h => ⟨Nat.le_of_lt (vint_ok pkt h).1, (vint_ok pkt h).2⟩⟩
  rcases vint_reads pkt p s hs with h | ⟨h1, h2⟩
  · exact .inl h
  · exact .inr ⟨Nat.le_trans hlo h1, h2⟩

lemma forward_vint : Forward (vint pkt) := fun _ _ _ h => Nat.le_of_lt (vint_ok pkt h).1

/-! ## The parsers that test before they read -/

lemma bounded_ackRanges : ∀ n stored, Bounded lo pkt.last (ackRanges pkt n stored) := by
  intro n
  induction n with
  | zero => exact fun stored => bounded_pure stored
  | succ n ih => exact fun stored => (bounded_vint pkt lo).bind fun gap => (bounded_vint pkt lo).bind fun range => ih _

lemma bounded_skipZeros : ∀ n p, lo ≤ p → p + n ≤ pkt.last →
    BoundedAt lo pkt.last p (skipZeros pkt.mem n) := by
  intro n
  induction n with
  | zero => exact fun p hlo hhi => bounded_pure 0 p hlo hhi
  | succ n ih =>
    intro p hlo hhi
    have hread : ∀ s ∈ ((peek pkt.mem : Cur Err UInt8) p).reads, s.Within lo pkt.last := by
      intro s hs
      obtain rfl := mem_singleton.mp hs
      exact .inr ⟨hlo, by show p + 1 ≤ pkt.last; omega⟩
    have hrest := ih (p + 1) (by omega) (by omega)
    refine ⟨(safe_bind_iff.mpr ⟨hread, fun b q e => ?_⟩).reads, fun k q e => ?_⟩
    · cases e
      by_cases hb : pkt.mem p = 0
      · rw [if_pos hb, safe_skip_bind_iff, hrest.safe_bind_iff]
        intro k q hk; exact safe_pure_iff.mpr (hrest.out k q hk).2
      · rw [if_neg hb]; exact safe_pure_iff.mpr (by omega)
    · obtain ⟨b, r, hb, hk⟩ := out_bind_ok.mp e
      cases hb
      by_cases hb : pkt.mem p = 0
      · rw [if_pos hb] at hk
        simp only [out_bind_ok, out_skip_ok, out_pure_ok, Prod.mk.injEq] at hk
        obtain ⟨_, _, ⟨_, rfl⟩, j, r, hj, _, rfl⟩ := hk
        have := hrest.out j q hj; omega
      · rw [if_neg hb] at hk; cases hk; omega

variable (n : Nat) (e : Err)

lemma bounded_copyChecked : Bounded lo pkt.last (copyChecked pkt n e) := by
  intro p hlo hhi
  have hok : ∀ data q, (copyChecked pkt n e p).out = .ok (data, q) → q = p + n ∧ p + n ≤ pkt.last := by
    intro data q h
    simp only [copyChecked, out_bind_ok, out_here_ok, out_check_ok, out_look_ok, out_skip_ok, out_pure_ok,
      Prod.mk.injEq] at h
    obtain ⟨_, _, ⟨rfl, rfl⟩, _, _, ⟨hfit, _, rfl⟩, _, _, ⟨_, rfl⟩, _, _, ⟨_, rfl⟩, _, rfl⟩ := h
    exact ⟨rfl, of_decide_eq_true hfit⟩
  refine ⟨?_, fun data q h => by have := hok data q h; omega⟩
  refine ((bounded_here p hlo hhi).safe_bind_iff.mpr fun r q h => ?_).reads
  cases h
  rw [safe_check_bind_iff, safe_look_bind_iff, safe_skip_bind_iff, safe_pure_iff]
  intro hfit
  have hfit := of_decide_eq_true hfit
  exact ⟨.inr ⟨hlo, hfit⟩, hfit⟩

lemma bounded_byteChecked : Bounded lo pkt.last (byteChecked pkt e) := by
  intro p hlo hhi
  refine ⟨((bounded_here p hlo hhi).safe_bind_iff.mpr fun r q h => ?_).reads, fun b q h => ?_⟩
  · cases h
    rw [safe_check_bind_iff]
    exact fun hlt => (boundedAt_byte hlo (of_decide_eq_true hlt)).safe
  · simp only [byteChecked, out_bind_ok, out_here_ok, out_check_ok, out_byte_ok, Prod.mk.injEq] at h
    obtain ⟨_, _, ⟨rfl, rfl⟩, _, _, ⟨hlt, _, rfl⟩, _, rfl⟩ := h
    exact ⟨le_succ _, of_decide_eq_true hlt⟩

variable {pos : Nat}

lemma safe_oneInt (h : pos < pkt.last) (frame : UInt8 → Nat → Frame) : Safe pos pkt.last (oneInt pkt frame pos) :=
  ((boundedAt_byte (Nat.le_refl _) h).bind (Nat.le_refl _) fun _ => (bounded_vint pkt pos).bind fun _ =>
    bounded_pure _).safe

lemma safe_twoInts (h : pos < pkt.last) (frame : Nat → Nat → Frame) : Safe pos pkt.last (twoInts pkt frame pos) :=
  ((boundedAt_byte (Nat.le_refl _) h).bind (Nat.le_refl _) fun _ => (bounded_vint pkt pos).bind fun _ =>
    (bounded_vint pkt pos).bind fun _ => bounded_pure _).safe

lemma safe_padding (h : pos < pkt.last) : Safe pos pkt.last (xqcParsePaddingFrame pkt pos) := by
  refine safe_skip_bind_iff.mpr ((bounded_here _ (le_succ pos) h).safe_bind_iff.mpr fun p q e => ?_)
  cases e
  have hz := bounded_skipZeros pkt pos (pkt.last - (pos + 1)) (pos + 1) (le_succ pos) (by omega)
  exact hz.safe_bind_iff.mpr fun k q hk => safe_pure_iff.mpr (hz.out k q hk).2

lemma safe_ack (h : pos < pkt.last) (exponent : UInt64) : Safe pos pkt.last (xqcParseAckFrame pkt exponent pos) :=
  ((boundedAt_byte (Nat.le_refl _) h).bind (Nat.le_refl _) fun _ => (bounded_vint pkt pos).bind fun _ =>
    (bounded_vint pkt pos).bind fun _ => (bounded_vint pkt pos).bind fun _ => (bounded_vint pkt pos).bind fun _ =>
    (bounded_ackRanges pkt pos _ _).bind fun _ => bounded_pure _).safe

lemma safe_resetStream (h : pos < pkt.last) : Safe pos pkt.last (xqcParseResetStreamFrame pkt pos) :=
  ((boundedAt_byte (Nat.le_refl _) h).bind (Nat.le_refl _) fun _ => (bounded_vint pkt pos).bind fun _ =>
    (bounded_vint pkt pos).bind fun _ => (bounded_vint pkt pos).bind fun _ => bounded_pure _).safe

lemma safe_newToken (h : pos < pkt.last) (tokenLen : Nat) :
    Safe pos pkt.last (xqcParseNewTokenFrame pkt tokenLen pos) :=
  ((boundedAt_byte (Nat.le_refl _) h).bind (Nat.le_refl _) fun _ => (bounded_vint pkt pos).bind fun _ =>
    (bounded_check _ _).bind fun _ => (bounded_check _ _).bind fun _ =>
    (bounded_copyChecked pkt pos _ _).bind fun _ => bounded_pure _).safe

lemma boundedAt_newConnIdHead (h : pos < pkt.last) : BoundedAt pos pkt.last pos (newConnIdHead pkt) :=
  (boundedAt_byte (Nat.le_refl _) h).bind (Nat.le_refl _) fun _ => (bounded_vint pkt pos).bind fun _ =>
    (bounded_vint pkt pos).bind fun _ => bounded_pure _

lemma safe_newConnId (h : pos < pkt.last) : Safe pos pkt.last (xqcParseNewConnIdFrame pkt pos) :=
  ((boundedAt_newConnIdHead pkt h).bind (Nat.le_refl _) fun _ => (bounded_byteChecked pkt pos _).bind fun _ =>
    (bounded_check _ _).bind fun _ => (bounded_copyChecked pkt pos _ _).bind fun _ =>
    (bounded_copyChecked pkt pos _ _).bind fun _ => bounded_pure _).safe

/-! ## Declared lengths -/

/-- A length a frame declares, and the size of the field it is in. -/
structure Declared where
  length : Nat
  field : Nat
  deriving DecidableEq, Repr

def lengthField : Cur Err Declared := do
  let p ← here
  let length ← vint pkt
  let q ← here
  return ⟨length, q - p⟩

/-- The length a frame declares for what follows if its type is the first byte, as the parsers take it to be, with the
    pointer where that starts; `none` for a frame without one. -/
def rawDeclared : FrameKind → Cur Err (Option Declared)
  | .stream => do
    let (firstByte, _, _) ← streamHead pkt
    if firstByte &&& 0x02 ≠ 0 then
      let d ← lengthField pkt
      return some d
    else
      return none
  | .crypto => do
    let _offset ← cryptoHead pkt
    let d ← lengthField pkt
    return some d
  | .connectionClose => do
    let _errCode ← connCloseHead pkt
    let d ← lengthField pkt
    return some d
  | .newConnectionId => do
    let _head ← newConnIdHead pkt
    let cidLen ← byteChecked pkt .eproto
    return some ⟨cidLen.toNat, 1⟩
  | .newToken => do
    let _firstByte ← byte pkt.mem
    let d ← lengthField pkt
    return some d
  | .pathChallenge | .pathResponse => do
    let _firstByte ← byte pkt.mem
    return some ⟨xqcPathChallengeDataLen, 0⟩
  | _ => pure none

/-- `d` is declared at `pos`, for what starts at `start`. -/
def RawDeclares (k : FrameKind) (pos : Nat) (d : Declared) (start : Nat) : Prop :=
  (rawDeclared pkt k pos).out = .ok (some d, start)

/-- There is no memory for the data, whose length is kept in 32 bits. -/
def NoMemory (room : Room) (length : Nat) : Prop := 0 < length % 2 ^ 32 ∧ room.malloc (length % 2 ^ 32) = false

/-- Why a frame that declares more than is left is refused nevertheless. A STREAM
    frame is refused if it declares more than is left from its length field on. -/
def Refused (room : Room) (d : Declared) (start : Nat) : FrameKind → Prop
  | .stream => pkt.last < start - d.field + d.length ∨ NoMemory room d.length
  | .crypto => NoMemory room d.length
  | .connectionClose | .pathChallenge | .pathResponse => False
  | _ => True

/-- What keeps a parser inside: a length that exceeds what is left is refused. -/
def RawFits (room : Room) (k : FrameKind) (pos : Nat) : Prop :=
  ∀ d start, RawDeclares pkt k pos d start → pkt.last < start + d.length → Refused pkt room d start k

/-- A parser's call as it should be for a frame with a type of one byte: it reads only what is between `pos` and `last`,
    on success it leaves `pos` further on but not past `last`, and it refuses a frame that declares more than is left. -/
structure RawCallSafe (k : FrameKind) (pos : Nat) (r : Res Err Frame) : Prop where
  reads : ∀ s ∈ r.reads, s.Within pos pkt.last
  out : ∀ frame q, r.out = .ok (frame, q) → pos < q ∧ q ≤ pkt.last
  refuses : ∀ d start, RawDeclares pkt k pos d start → pkt.last < start + d.length → ∃ e, r.out = .error e

/-! ## The parsers that do not test, or test too early -/

variable (malloc : Nat → Bool)

lemma frameData_eq (len : UInt32) (q : Nat) :
    (len.toNat = 0 ∧ frameData pkt malloc len q = ⟨[], .ok ([], q)⟩) ∨
    ((0 < len.toNat ∧ malloc len.toNat = false) ∧ frameData pkt malloc len q = ⟨[], .error .emalloc⟩) ∨
    (0 < len.toNat ∧ malloc len.toNat = true ∧
      frameData pkt malloc len q = ⟨[⟨q, len.toNat⟩], .ok (slice pkt.mem q len.toNat, q)⟩) := by
  unfold frameData
  by_cases h : 0 < len
  · have hpos : 0 < len.toNat := UInt32.lt_iff_toNat_lt.mp h
    rw [if_pos h]
    cases hm : malloc len.toNat with
    | true => exact .inr (.inr ⟨hpos, rfl, rfl⟩)
    | false => exact .inr (.inl ⟨⟨hpos, rfl⟩, rfl⟩)
  · have hzero : len.toNat = 0 := Nat.eq_zero_of_not_pos fun h' => h (UInt32.lt_iff_toNat_lt.mpr h')
    rw [if_neg h]; exact .inl ⟨hzero, rfl⟩

/-- Reading the data and going on by `n`: an error exactly if there is no memory,
    and safe exactly if there is none or what is read and skipped is there. -/
lemma frameData_then {lo n : Nat} (len : UInt32) (g : List UInt8 → Frame) (hlo : lo ≤ q)
    (hle : len.toNat ≤ n) {r : Res Err Frame}
    (hr : r = (do let data ← frameData pkt malloc len; skip n; return g data : Cur Err Frame) q) :
    ((∃ e, r.out = .error e) ↔ 0 < len.toNat ∧ malloc len.toNat = false) ∧
      (Safe lo pkt.last r ↔ ((0 < len.toNat ∧ malloc len.toNat = false) ∨ q + n ≤ pkt.last)) := by
  rcases frameData_eq pkt malloc len q with ⟨hz, h⟩ | ⟨hno, h⟩ | ⟨hpos, hm, h⟩
  · have hr' : r = ⟨[], .ok (g [], q + n)⟩ := by
      rw [hr, bind_ok (by rw [h]), h]
      rfl
    subst hr'
    refine ⟨⟨nofun, fun hno => by omega⟩, fun hs => .inr (hs.out _ _ rfl), fun hor => ⟨nofun, fun a r e => ?_⟩⟩
    cases e
    rcases hor with hno | hn
    · omega
    · exact hn
  · have hr' : r = ⟨[], .error .emalloc⟩ := by
      rw [hr, bind_error (by rw [h]), h]
    subst hr'
    exact ⟨⟨fun _ => hno, fun _ => ⟨_, rfl⟩⟩, ⟨fun _ => .inl hno, fun _ => ⟨nofun, nofun⟩⟩⟩
  · have hr' : r = ⟨[⟨q, len.toNat⟩], .ok (g (slice pkt.mem q len.toNat), q + n)⟩ := by
      rw [hr, bind_ok (by rw [h]), h]
      rfl
    subst hr'
    refine ⟨⟨nofun, fun hno => by rw [hm] at hno; cases hno.2⟩, fun hs => .inr (hs.out _ _ rfl), fun hor => ?_⟩
    have hn : q + n ≤ pkt.last := by
      rcases hor with hno | hn
      · rw [hm] at hno; cases hno.2
      · exact hn
    refine ⟨fun s hs => ?_, fun a r e => by cases e; exact hn⟩
    obtain rfl := mem_singleton.mp hs
    exact .inr ⟨hlo, by show q + len.toNat ≤ pkt.last; omega⟩

variable {d : Declared}

lemma lengthField_ok {start : Nat} :
    (lengthField pkt p).out = .ok (d, start) ↔
      (vint pkt p).out = .ok (d.length, start) ∧ d.field = start - p := by
  simp only [lengthField, out_bind_ok, out_here_ok, out_pure_ok, Prod.mk.injEq]
  constructor
  · rintro ⟨_, _, ⟨rfl, rfl⟩, n, q, hv, _, _, ⟨rfl, rfl⟩, rfl, rfl⟩
    exact ⟨hv, rfl⟩
  · rintro ⟨hv, hf⟩
    refine ⟨_, _, ⟨rfl, rfl⟩, _, _, hv, _, _, ⟨rfl, rfl⟩, ?_, rfl⟩
    rw [← hf]

lemma boundedAt_cryptoHead (h : pos < pkt.last) : BoundedAt pos pkt.last pos (cryptoHead pkt) :=
  (boundedAt_byte (Nat.le_refl _) h).bind (Nat.le_refl _) fun _ => bounded_vint pkt pos

lemma boundedAt_connCloseHead (h : pos < pkt.last) : BoundedAt pos pkt.last pos (connCloseHead pkt) := by
  refine (boundedAt_byte (Nat.le_refl _) h).bind (Nat.le_refl _) fun b => (bounded_vint pkt pos).bind fun errCode => ?_
  by_cases hb : b = 0x1c
  · rw [if_pos hb]; exact (bounded_vint pkt pos).bind fun _ => bounded_pure _
  · rw [if_neg hb]; exact bounded_pure _

variable (b : UInt8)

lemma bounded_streamOffset : Bounded lo pkt.last (streamOffset pkt b) := by
  unfold streamOffset
  by_cases hb : b &&& 0x04 ≠ 0
  · rw [if_pos hb]; exact bounded_vint pkt lo
  · rw [if_neg hb]; exact bounded_pure 0

lemma boundedAt_streamHead (h : pos < pkt.last) : BoundedAt pos pkt.last pos (streamHead pkt) :=
  (boundedAt_byte (Nat.le_refl _) h).bind (Nat.le_refl _) fun b => (bounded_vint pkt pos).bind fun _ =>
    (bounded_streamOffset pkt pos b).bind fun _ => bounded_pure _

variable {α : Type} {k : FrameKind} {room : Room}

def Guards (k : FrameKind) (pos : Nat) (r : Res Err Frame) : Prop :=
  Safe pos pkt.last r ∧ ∀ d start, RawDeclares pkt k pos d start → pkt.last < start + d.length → ∃ e, r.out = .error e

lemma guards_of_error {m : Cur Err α} {f : α → Cur Err Frame} {e : Err} (hm : BoundedAt pos pkt.last p m)
    (h : (m p).out = .error e) : Guards pkt k pos ((m >>= f) p) :=
  ⟨hm.safe_bind_of_error h, fun _ _ _ _ => ⟨e, out_bind_of_error h⟩⟩

lemma guards_iff_fits {r : Res Err Frame} (d₀ : Declared) (start : Nat)
    (honly : ∀ d s, RawDeclares pkt k pos d s ↔ d = d₀ ∧ s = start)
    (hr : (Safe pos pkt.last r ∧ (pkt.last < start + d₀.length → ∃ e, r.out = .error e)) ↔
      (pkt.last < start + d₀.length → Refused pkt room d₀ start k)) : Guards pkt k pos r ↔ RawFits pkt room k pos := by
  have hone : ∀ P : Declared → Nat → Prop, (∀ d s, RawDeclares pkt k pos d s → P d s) ↔ P d₀ start := by
    refine fun P => ⟨fun h => h _ _ ((honly _ _).mpr ⟨rfl, rfl⟩), fun h d s hds => ?_⟩
    obtain ⟨rfl, rfl⟩ := (honly d s).mp hds
    exact h
  exact (and_congr Iff.rfl (hone fun d s => pkt.last < s + d.length → ∃ e, r.out = .error e)).trans
    (hr.trans (hone fun d s => pkt.last < s + d.length → Refused pkt room d s k).symm)

lemma declares_after_head {m : Cur Err α}
    (hd : rawDeclared pkt k = do let _ ← m; let d ← lengthField pkt; return some d) {start : Nat} :
    RawDeclares pkt k pos d start ↔
      ∃ a q, (m pos).out = .ok (a, q) ∧ (vint pkt q).out = .ok (d.length, start) ∧ d.field = start - q := by
  unfold RawDeclares; rw [hd]
  simp only [out_bind_ok, out_pure_ok, lengthField_ok, Prod.mk.injEq, Option.some.injEq]
  constructor
  · rintro ⟨a, q, ha, d', q', ⟨hv, hf⟩, rfl, rfl⟩
    exact ⟨a, q, ha, hv, hf⟩
  · rintro ⟨a, q, ha, hv, hf⟩
    exact ⟨a, q, ha, d, start, ⟨hv, hf⟩, rfl, rfl⟩

/-- A head that reads inside, and after it a length and what it counts: what happens from there decides. -/
lemma safe_iff_fits_after_head {m : Cur Err α}
    {f : α → Nat → Cur Err Frame} (hm : BoundedAt pos pkt.last pos m)
    (hd : rawDeclared pkt k = do let _ ← m; let d ← lengthField pkt; return some d)
    (hf : ∀ a q n start, pos ≤ q → (vint pkt q).out = .ok (n, start) →
      ((Safe pos pkt.last (f a n start) ∧ (pkt.last < start + n → ∃ e, (f a n start).out = .error e)) ↔
        (pkt.last < start + n → Refused pkt room ⟨n, start - q⟩ start k))) :
    Guards pkt k pos ((do let a ← m; let n ← vint pkt; f a n : Cur Err Frame) pos) ↔ RawFits pkt room k pos := by
  have hdec : ∀ d start, RawDeclares pkt k pos d start ↔ ∃ a q, (m pos).out = .ok (a, q) ∧
      (vint pkt q).out = .ok (d.length, start) ∧ d.field = start - q := fun d start => declares_after_head pkt hd
  cases ha : (m pos).out with
  | error e =>
    refine ⟨fun _ d start h => ?_, fun _ => guards_of_error pkt hm ha⟩
    obtain ⟨a, q, h', _⟩ := (hdec d start).mp h
    rw [ha] at h'; cases h'
  | ok x =>
    obtain ⟨a, q⟩ := x
    have hq : pos ≤ q := (hm.out a q ha).1
    have hv := bounded_vint pkt pos q hq (hm.out a q ha).2
    rw [Guards, hm.safe_bind_of_ok ha, out_bind_of_ok ha]
    cases hn : (vint pkt q).out with
    | error e =>
      refine ⟨fun _ d start h => ?_, fun _ => guards_of_error pkt hv hn⟩
      obtain ⟨a', q', h', hv', _⟩ := (hdec d start).mp h
      rw [ha] at h'; cases h'
      rw [hn] at hv'; cases hv'
    | ok y =>
      obtain ⟨n, start⟩ := y
      rw [hv.safe_bind_of_ok hn, out_bind_of_ok hn]
      -- the frame declares `n`, and nothing else
      refine guards_iff_fits pkt ⟨n, start - q⟩ start (fun d s => ?_) (hf a q n start hq hn)
      rw [hdec]
      constructor
      · rintro ⟨a', q', h', hv', hfield⟩
        rw [ha] at h'; cases h'
        rw [hn] at hv'; cases hv'
        refine ⟨?_, rfl⟩
        cases d
        simp_all
      · rintro ⟨rfl, rfl⟩
        exact ⟨a, q, ha, hn, rfl⟩

lemma toNat_ofNat_le : (UInt32.ofNat n).toNat = n % 2 ^ 32 ∧ (UInt32.ofNat n).toNat ≤ n := by
  exact ⟨rfl, Nat.mod_le _ _⟩

lemma crypto_safe_iff (h : pos < pkt.last) :
    Guards pkt .crypto pos (xqcParseCryptoFrame pkt room.malloc pos) ↔ RawFits pkt room .crypto pos := by
  refine safe_iff_fits_after_head pkt (boundedAt_cryptoHead pkt h) rfl fun offset q n start hq hn => ?_
  obtain ⟨hmod, hle⟩ := toNat_ofNat_le n
  have hs : pos ≤ start := Nat.le_trans hq (Nat.le_of_lt (vint_ok pkt hn).1)
  obtain ⟨herr, hsafe⟩ := frameData_then pkt room.malloc (UInt32.ofNat n) (fun data => Frame.crypto
    ⟨offset, UInt32.ofNat n, data, false⟩) hs hle rfl
  rw [hsafe, herr]
  constructor
  · exact fun h => h.2
  · intro h
    refine ⟨?_, h⟩
    by_cases hfit : start + n ≤ pkt.last
    · exact .inr hfit
    · exact .inl (h (Nat.lt_of_not_le hfit))

lemma connClose_safe_iff (h : pos < pkt.last) :
    Guards pkt .connectionClose pos (xqcParseConnCloseFrame pkt pos) ↔ RawFits pkt room .connectionClose pos := by
  refine safe_iff_fits_after_head pkt (boundedAt_connCloseHead pkt h) rfl fun errCode q n start hq hn => ?_
  rw [safe_skip_bind_iff, safe_pure_iff]
  constructor
  · rintro ⟨hfit, _⟩ hlt
    exact absurd hfit (not_le_of_lt hlt)
  · intro h; exact ⟨Nat.le_of_not_lt h, fun hlt => (h hlt).elim⟩

lemma path_safe_iff (h : pos < pkt.last) (frame : List UInt8 → Frame)
    (hk : k = .pathChallenge ∨ k = .pathResponse) :
    Guards pkt k pos (pathFrame pkt frame pos) ↔ RawFits pkt room k pos := by
  have hdec : ∀ d start, RawDeclares pkt k pos d start ↔ d = ⟨xqcPathChallengeDataLen, 0⟩ ∧ start = pos + 1 := by
    intro d start
    rcases hk with rfl | rfl <;>
      simp only [RawDeclares, rawDeclared, out_bind_ok, out_byte_ok, out_pure_ok, Prod.mk.injEq, Option.some.injEq] <;>
      exact ⟨by rintro ⟨_, _, ⟨_, rfl⟩, hd⟩; exact hd, fun hd => ⟨_, _, ⟨rfl, rfl⟩, hd⟩⟩
  have hsafe : Safe pos pkt.last (pathFrame pkt frame pos) ↔ pos + 1 + xqcPathChallengeDataLen ≤ pkt.last := by
    unfold pathFrame
    rw [(boundedAt_byte (Nat.le_refl pos) h).safe_bind_of_ok rfl, safe_look_bind_iff, safe_skip_bind_iff, safe_pure_iff]
    exact ⟨fun hs => hs.2, fun hle => ⟨.inr ⟨le_succ pos, hle⟩, hle⟩⟩
  have hno : ∀ d start, ¬ Refused pkt room d start k := by
    rcases hk with rfl | rfl <;> exact fun _ _ => id
  refine guards_iff_fits pkt _ _ hdec ?_
  rw [hsafe]
  refine ⟨fun hs hlt => absurd hs.1 (not_le_of_lt hlt), fun h => ?_⟩
  have hle := Nat.le_of_not_lt fun hlt => hno _ _ (h hlt)
  exact ⟨hle, fun hlt => absurd hle (not_le_of_lt hlt)⟩

lemma streamRest_safe {lo : Nat} (g : List UInt8 → Frame) (hlo : lo ≤ q) (hq : q ≤ pkt.last) :
    Safe lo pkt.last ((do
      let data ← frameData pkt malloc (UInt32.ofNat (pkt.last - q))
      skip (UInt32.ofNat (pkt.last - q)).toNat
      return g data : Cur Err Frame) q) := by
  obtain ⟨_, hsafe⟩ := frameData_then pkt malloc (UInt32.ofNat (pkt.last - q)) g hlo (Nat.le_refl _) rfl
  have := (toNat_ofNat_le (pkt.last - q)).2; exact hsafe.mpr (.inr (by omega))

/-- With a length field `n` at `q` and the data from `start` on. -/
lemma streamData_safe_iff {lo n start : Nat} (g : List UInt8 → Frame) (hlo : lo ≤ start)
    (hq : q ≤ pkt.last) (hstart : q ≤ start) {r : Res Err Frame}
    (hr : r = (do
      check (n ≤ pkt.last - q) .eillegalFrame
      let data ← frameData pkt room.malloc (UInt32.ofNat n)
      skip (UInt32.ofNat n).toNat
      return g data : Cur Err Frame) start) :
    (Safe lo pkt.last r ∧ (pkt.last < start + n → ∃ e, r.out = .error e)) ↔
      (pkt.last < start + n → Refused pkt room ⟨n, start - q⟩ start .stream) := by
  have hback : start - (start - q) = q := by omega
  show _ ↔ (_ → pkt.last < start - (start - q) + n ∨ NoMemory room n)
  subst hr
  by_cases hn : n ≤ pkt.last - q
  · have hok : (check (decide (n ≤ pkt.last - q)) Err.eillegalFrame start).out = .ok ((), start) :=
      out_check_ok.mpr ⟨decide_eq_true hn, rfl⟩
    obtain ⟨hmod, hle⟩ := toNat_ofNat_le n
    obtain ⟨herr, hsafe⟩ := frameData_then pkt room.malloc (UInt32.ofNat n) g hlo (Nat.le_refl _) rfl
    rw [safe_check_bind_iff, out_bind_of_ok hok, hsafe, herr, hmod]
    constructor
    · exact fun h hlt => .inr (h.2 hlt)
    · intro h
      have hno : pkt.last < start + n → 0 < n % 2 ^ 32 ∧ room.malloc (n % 2 ^ 32) = false := by
        intro hlt
        rcases h hlt with h' | h'
        · omega
        · exact h'
      refine ⟨fun _ => ?_, hno⟩
      by_cases hfit : start + n ≤ pkt.last
      · exact .inr (by omega)
      · exact .inl (hno (Nat.lt_of_not_le hfit))
  · have herr : (check (decide (n ≤ pkt.last - q)) Err.eillegalFrame start).out = .error .eillegalFrame := by
      rw [decide_eq_false hn]; rfl
    rw [safe_check_bind_iff, out_bind_of_error herr]
    refine ⟨fun _ _ => .inl (by omega), fun _ => ⟨fun h => absurd (of_decide_eq_true h) hn, fun _ => ⟨_, rfl⟩⟩⟩

lemma stream_safe_iff (h : pos < pkt.last) :
    Guards pkt .stream pos (xqcParseStreamFrame pkt room.malloc pos) ↔ RawFits pkt room .stream pos := by
  have hm := boundedAt_streamHead pkt h
  unfold xqcParseStreamFrame
  cases ha : (streamHead pkt pos).out with
  | error e =>
    refine ⟨fun _ d start hd => ?_, fun _ => guards_of_error pkt hm ha⟩
    have hne : (rawDeclared pkt .stream pos).out = .error e := out_bind_of_error ha
    rw [RawDeclares, hne] at hd; cases hd
  | ok x =>
    obtain ⟨⟨b, id, offset⟩, q⟩ := x
    obtain ⟨hq, hql⟩ := hm.out _ q ha
    rw [Guards, hm.safe_bind_of_ok ha, out_bind_of_ok ha]
    by_cases hb : b &&& 0x02 ≠ 0
    · have hdec : ∀ d start, RawDeclares pkt .stream pos d start ↔ (lengthField pkt q).out = .ok (d, start) := by
        intro d start; rw [RawDeclares, rawDeclared, out_bind_of_ok ha]
        simp only [if_pos hb, out_bind_ok, out_pure_ok, Prod.mk.injEq, Option.some.injEq]
        exact ⟨by rintro ⟨_, _, h, rfl, rfl⟩; exact h, fun h => ⟨_, _, h, rfl, rfl⟩⟩
      simp only [streamLength, if_pos hb, bind_assoc, pure_bind]
      rw [(bounded_here q hq hql).safe_bind_of_ok rfl, out_bind_of_ok (show (here q).out = .ok (q, q) from rfl)]
      have hv := bounded_vint pkt pos q hq hql
      cases hn : (vint pkt q).out with
      | error e =>
        refine ⟨fun _ d start hd => ?_, fun _ => guards_of_error pkt hv hn⟩
        have := ((lengthField_ok pkt).mp ((hdec d start).mp hd)).1
        rw [hn] at this; cases this
      | ok y =>
        obtain ⟨n, start⟩ := y
        have hstart := Nat.le_of_lt (vint_ok pkt hn).1
        rw [hv.safe_bind_of_ok hn, out_bind_of_ok hn]
        refine guards_iff_fits pkt ⟨n, start - q⟩ start (fun d s => ?_)
          (streamData_safe_iff pkt _ (Nat.le_trans hq hstart) hql hstart rfl)
        rw [hdec, lengthField_ok, hn]
        constructor
        · rintro ⟨hv', hfield⟩
          cases hv'; cases d
          simp_all
        · rintro ⟨rfl, rfl⟩
          exact ⟨rfl, rfl⟩
    · have hdec : ∀ d start, ¬ RawDeclares pkt .stream pos d start := by
        intro d start hd; rw [RawDeclares, rawDeclared, out_bind_of_ok ha] at hd
        simp only [if_neg hb, out_pure_ok, Prod.mk.injEq] at hd; cases hd.1
      refine ⟨fun _ d start hd => absurd hd (hdec d start), fun _ => ⟨?_, fun d start hd => absurd hd (hdec d start)⟩⟩
      simp only [streamLength, if_neg hb, bind_assoc, pure_bind]
      exact streamRest_safe pkt room.malloc _ hq hql

/-! ## All of them -/

lemma copyChecked_fits {n : Nat} {e : Err} {data : List UInt8} (h : (copyChecked pkt n e p).out = .ok (data, q)) :
    p + n ≤ pkt.last := by
  simp only [copyChecked, out_bind_ok, out_here_ok, out_check_ok, Prod.mk.injEq] at h
  obtain ⟨_, _, ⟨rfl, rfl⟩, _, _, ⟨hfit, _, rfl⟩, _⟩ := h
  exact of_decide_eq_true hfit

lemma newToken_refuses {tokenLen : Nat} {start : Nat} (hd : RawDeclares pkt .newToken pos d start)
    (hlt : pkt.last < start + d.length) : ∃ e, (xqcParseNewTokenFrame pkt tokenLen pos).out = .error e := by
  cases hout : (xqcParseNewTokenFrame pkt tokenLen pos).out with
  | error e => exact ⟨e, rfl⟩
  | ok x =>
    simp only [xqcParseNewTokenFrame, out_bind_ok, out_byte_ok, out_check_ok, Prod.mk.injEq] at hout
    obtain ⟨_, _, ⟨_, rfl⟩, n, q, hn, _, _, ⟨_, _, rfl⟩, _, _, ⟨_, _, rfl⟩, token, q', hcopy, _⟩ := hout
    simp only [RawDeclares, rawDeclared, out_bind_ok, out_byte_ok, out_pure_ok, lengthField_ok, Prod.mk.injEq,
      Option.some.injEq] at hd
    obtain ⟨_, _, ⟨_, rfl⟩, d', q'', ⟨hv, _⟩, rfl, rfl⟩ := hd
    rw [hn] at hv; cases hv
    exact absurd (copyChecked_fits pkt hcopy) (not_le_of_lt hlt)

lemma newConnId_refuses {start : Nat} (hd : RawDeclares pkt .newConnectionId pos d start)
    (hlt : pkt.last < start + d.length) : ∃ e, (xqcParseNewConnIdFrame pkt pos).out = .error e := by
  cases hout : (xqcParseNewConnIdFrame pkt pos).out with
  | error e => exact ⟨e, rfl⟩
  | ok x =>
    obtain ⟨head, q, hhead, hout⟩ := out_bind_ok.mp hout
    simp only [out_bind_ok, out_check_ok, Prod.mk.injEq] at hout
    obtain ⟨cidLen, q', hlen, _, _, ⟨_, _, rfl⟩, cid, q'', hcopy, _⟩ := hout
    simp only [RawDeclares, rawDeclared, out_bind_ok, out_pure_ok, Prod.mk.injEq, Option.some.injEq] at hd
    obtain ⟨head', r, hhead', b, r', hb, rfl, rfl⟩ := hd
    rw [hhead] at hhead'; cases hhead'
    rw [hlen] at hb; cases hb
    exact absurd (copyChecked_fits pkt hcopy) (not_le_of_lt hlt)

lemma forward_streamOffset : Forward (streamOffset pkt b) := by
  unfold streamOffset
  by_cases hb : b &&& 0x04 ≠ 0
  · rw [if_pos hb]; exact forward_vint pkt
  · rw [if_neg hb]; exact forward_pure 0

lemma forward_streamLength : Forward (streamLength pkt b) := by
  refine forward_here.bind fun p => ?_
  by_cases hb : b &&& 0x02 ≠ 0
  · rw [if_pos hb]
    exact (forward_vint pkt).bind fun _ => (forward_check _ _).bind fun _ => forward_pure _
  · rw [if_neg hb]; exact forward_pure _

lemma forward_frameData (len : UInt32) : Forward (frameData pkt malloc len) := by
  intro p a q h
  rcases frameData_eq pkt malloc len p with ⟨_, h'⟩ | ⟨_, h'⟩ | ⟨_, _, h'⟩ <;> rw [h'] at h <;> cases h <;> exact Nat.le_refl _

lemma forward_copyChecked : Forward (copyChecked pkt n e) :=
  forward_here.bind fun _ => (forward_check _ _).bind fun _ => (forward_look _ _).bind fun _ =>
    (forward_skip _).bind fun _ => forward_pure _

lemma forward_ackRanges : ∀ n stored, Forward (ackRanges pkt n stored) := by
  intro n
  induction n with
  | zero => exact fun stored => forward_pure stored
  | succ n ih => exact fun stored => (forward_vint pkt).bind fun _ => (forward_vint pkt).bind fun _ => ih _

lemma forward_skipZeros : ∀ n, Forward (skipZeros pkt.mem n) := by
  intro n
  induction n with
  | zero => exact forward_pure 0
  | succ n ih =>
    intro p k q h
    obtain ⟨b, r, hb, h⟩ := out_bind_ok.mp h
    cases hb
    by_cases hz : pkt.mem p = 0
    · rw [if_pos hz] at h
      obtain ⟨_, r, hr, h⟩ := out_bind_ok.mp h
      cases hr
      obtain ⟨k', r', hk, h⟩ := out_bind_ok.mp h
      cases h
      have := ih _ _ _ hk; omega
    · rw [if_neg hz] at h; cases h; exact Nat.le_refl _

theorem parse_advances (room : Room) (k : FrameKind) : Advances (parse pkt room k) := by
  have fv : ∀ {α : Type} {f : Nat → Cur Err α}, (∀ n, Forward (f n)) → Forward (vint pkt >>= f) :=
    fun hf => (forward_vint pkt).bind hf
  have one : ∀ frame, Advances (oneInt pkt frame) := fun frame =>
    (advances_byte _).bind fun _ => fv fun _ => forward_pure _
  have two : ∀ frame, Advances (twoInts pkt frame) := fun frame =>
    (advances_byte _).bind fun _ => fv fun _ => fv fun _ => forward_pure _
  have path : ∀ frame, Advances (pathFrame pkt frame) := fun frame =>
    (advances_byte _).bind fun _ => (forward_look _ _).bind fun _ => (forward_skip _).bind fun _ => forward_pure _
  have data : ∀ {malloc len n} {g : List UInt8 → Frame},
      Forward (do let data ← frameData pkt malloc len; skip n; return g data : Cur Err Frame) := fun {malloc len n g} =>
    (forward_frameData pkt malloc len).bind fun _ => (forward_skip n).bind fun _ => forward_pure _
  cases k with
  | padding =>
    exact advances_skip_one.bind fun _ => forward_here.bind fun _ => (forward_skipZeros pkt _).bind fun _ =>
      forward_pure _
  | ping => exact advances_skip_one.bind fun _ => forward_pure _
  | ack =>
    exact (advances_byte _).bind fun _ => fv fun _ => fv fun _ => fv fun _ => fv fun _ =>
      (forward_ackRanges pkt _ _).bind fun _ => forward_pure _
  | resetStream => exact (advances_byte _).bind fun _ => fv fun _ => fv fun _ => fv fun _ => forward_pure _
  | stopSending => exact two _
  | crypto =>
    have head : Advances (cryptoHead pkt) := (advances_byte _).bind fun _ => forward_vint pkt
    exact head.bind fun _ => fv fun _ => data
  | newToken =>
    exact (advances_byte _).bind fun _ => fv fun _ => (forward_check _ _).bind fun _ => (forward_check _ _).bind fun _ =>
      (forward_copyChecked pkt _ _).bind fun _ => forward_pure _
  | stream =>
    have head : Advances (streamHead pkt) := (advances_byte _).bind fun b => fv fun _ =>
      (forward_streamOffset pkt b).bind fun _ => forward_pure _
    exact head.bind fun x => (forward_streamLength pkt x.1).bind fun _ => data
  | maxData => exact one _
  | maxStreamData => exact two _
  | maxStreams | dataBlocked => exact one _
  | streamDataBlocked => exact two _
  | streamsBlocked => exact one _
  | newConnectionId =>
    have head : Advances (newConnIdHead pkt) := (advances_byte _).bind fun _ => fv fun _ => fv fun _ => forward_pure _
    have len : Forward (byteChecked pkt .eproto) := forward_here.bind fun _ => (forward_check _ _).bind fun _ =>
      fun p a q h => Nat.le_of_lt (advances_byte pkt.mem p a q h)
    exact head.bind fun _ => len.bind fun _ => (forward_check _ _).bind fun _ =>
      (forward_copyChecked pkt _ _).bind fun _ => (forward_copyChecked pkt _ _).bind fun _ => forward_pure _
  | retireConnectionId => exact one _
  | pathChallenge | pathResponse => exact path _
  | connectionClose =>
    have head : Advances (connCloseHead pkt) := by
      refine (advances_byte _).bind fun b => fv fun _ => ?_
      by_cases hb : b = 0x1c
      · rw [if_pos hb]; exact fv fun _ => forward_pure _
      · rw [if_neg hb]; exact forward_pure _
    exact head.bind fun _ => fv fun _ => (forward_skip _).bind fun _ => forward_pure _
  | handshakeDone => exact advances_skip_one.bind fun _ => forward_pure _

lemma callSafe_iff :
    RawCallSafe pkt k pos (parse pkt room k pos) ↔
      Guards pkt k pos (parse pkt room k pos) :=
  ⟨fun h => ⟨⟨h.reads, fun a q e => (h.out a q e).2⟩, h.refuses⟩,
    fun h => ⟨h.1.reads, fun a q e => ⟨parse_advances pkt room k pos a q e, h.1.out a q e⟩, h.2⟩⟩

lemma callSafe_iff_fits_of_guards (h : Guards pkt k pos (parse pkt room k pos))
    (hk : ∀ d start, Refused pkt room d start k) :
    RawCallSafe pkt k pos (parse pkt room k pos) ↔ RawFits pkt room k pos :=
  (callSafe_iff pkt).trans ⟨fun _ d start _ _ => hk d start, fun _ => h⟩

/-- A call of a parser is as it should be exactly if a length that exceeds what is left is refused. -/
theorem parse_rawSafe_iff (room : Room) (k : FrameKind) (h : pos < pkt.last) :
    RawCallSafe pkt k pos (parse pkt room k pos) ↔ RawFits pkt room k pos := by
  have skip1 : ∀ frame : Frame, Safe pos pkt.last ((do skip 1; return frame : Cur Err Frame) pos) := fun frame =>
    ((boundedAt_skip_one h).bind (Nat.le_refl _) fun _ => bounded_pure _).safe
  -- frames without a declared length
  have plain : ∀ k, rawDeclared pkt k = pure none → Safe pos pkt.last (parse pkt room k pos) →
      (∀ d start, Refused pkt room d start k) → (RawCallSafe pkt k pos (parse pkt room k pos) ↔ RawFits pkt room k pos) := by
    intro k hd hs hk
    refine callSafe_iff_fits_of_guards pkt ⟨hs, fun d start hdec => ?_⟩ hk
    rw [RawDeclares, hd] at hdec; cases hdec
  cases k with
  | padding => exact plain _ rfl (safe_padding pkt h) fun _ _ => trivial
  | ping => exact plain _ rfl (skip1 _) fun _ _ => trivial
  | ack => exact plain _ rfl (safe_ack pkt h _) fun _ _ => trivial
  | resetStream => exact plain _ rfl (safe_resetStream pkt h) fun _ _ => trivial
  | stopSending => exact plain _ rfl (safe_twoInts pkt h _) fun _ _ => trivial
  | crypto => exact (callSafe_iff pkt).trans (crypto_safe_iff pkt h)
  | newToken =>
    exact callSafe_iff_fits_of_guards pkt ⟨safe_newToken pkt h _, fun _ _ => newToken_refuses pkt⟩ fun _ _ => trivial
  | stream => exact (callSafe_iff pkt).trans (stream_safe_iff pkt h)
  | maxData => exact plain _ rfl (safe_oneInt pkt h _) fun _ _ => trivial
  | maxStreamData => exact plain _ rfl (safe_twoInts pkt h _) fun _ _ => trivial
  | maxStreams | dataBlocked => exact plain _ rfl (safe_oneInt pkt h _) fun _ _ => trivial
  | streamDataBlocked => exact plain _ rfl (safe_twoInts pkt h _) fun _ _ => trivial
  | streamsBlocked => exact plain _ rfl (safe_oneInt pkt h _) fun _ _ => trivial
  | newConnectionId =>
    exact callSafe_iff_fits_of_guards pkt ⟨safe_newConnId pkt h, fun _ _ => newConnId_refuses pkt⟩ fun _ _ => trivial
  | retireConnectionId => exact plain _ rfl (safe_oneInt pkt h _) fun _ _ => trivial
  | pathChallenge => exact (callSafe_iff pkt).trans (path_safe_iff pkt h _ (.inl rfl))
  | pathResponse => exact (callSafe_iff pkt).trans (path_safe_iff pkt h _ (.inr rfl))
  | connectionClose => exact (callSafe_iff pkt).trans (connClose_safe_iff pkt h)
  | handshakeDone => exact plain _ rfl (skip1 _) fun _ _ => trivial

/-! ## The type as the loop reads it -/

/-- What a frame of a type declares, from behind the type on. -/
def declaredBehind (type : Nat) : FrameKind → Cur Err (Option Declared)
  | .stream => do
    let _streamId ← vint pkt
    let _offset ← if type &&& 0x04 ≠ 0 then vint pkt else pure 0
    if type &&& 0x02 ≠ 0 then
      let d ← lengthField pkt
      return some d
    else
      return none
  | .crypto => do
    let _offset ← vint pkt
    let d ← lengthField pkt
    return some d
  | .connectionClose => do
    let _errCode ← vint pkt
    let _frameType ← if type = 0x1c then vint pkt else pure 0
    let d ← lengthField pkt
    return some d
  | .newConnectionId => do
    let _seqNum ← vint pkt
    let _retirePriorTo ← vint pkt
    let cidLen ← byteChecked pkt .eproto
    return some ⟨cidLen.toNat, 1⟩
  | .newToken => do
    let d ← lengthField pkt
    return some d
  | .pathChallenge | .pathResponse => return some ⟨xqcPathChallengeDataLen, 0⟩
  | _ => return none

/-- The length a frame declares; its type is an integer of any length. -/
def declared (k : FrameKind) : Cur Err (Option Declared) := do
  let type ← vint pkt
  declaredBehind pkt type k

/-- `d` is declared at `pos`, for what starts at `start`. -/
def Declares (k : FrameKind) (pos : Nat) (d : Declared) (start : Nat) : Prop :=
  (declared pkt k pos).out = .ok (some d, start)

def OneByte (pos : Nat) : Prop := (pkt.mem pos).toNat < 64

/-- What keeps a parser inside: a length that exceeds what is left is refused. -/
def Fits (room : Room) (k : FrameKind) (pos : Nat) : Prop :=
  ∀ d start, Declares pkt k pos d start → pkt.last < start + d.length → Refused pkt room d start k

/-- A parser's call as it should be: it reads only what is between `pos` and `last`, on success it leaves `pos` further
    on but not past `last`, and it refuses a frame that declares more than is left. -/
structure CallSafe (k : FrameKind) (pos : Nat) (r : Res Err Frame) : Prop where
  reads : ∀ s ∈ r.reads, s.Within pos pkt.last
  out : ∀ frame q, r.out = .ok (frame, q) → pos < q ∧ q ≤ pkt.last
  refuses : ∀ d start, Declares pkt k pos d start → pkt.last < start + d.length → ∃ e, r.out = .error e

lemma vint_oneByte (h : pos < pkt.last) (h1 : OneByte pkt pos) :
    (vint pkt pos).out = .ok ((pkt.mem pos).toNat, pos + 1) := by
  have hshift : (pkt.mem pos >>> 6).toNat = 0 := by
    rw [UInt8.toNat_shiftRight]; unfold OneByte at h1; simp; omega
  unfold vint xqcVintRead
  rw [if_neg (Nat.not_le_of_lt h), hshift]; rfl

lemma declares_iff (k : FrameKind) {d : Declared} {start : Nat} (h : pos < pkt.last) (h1 : OneByte pkt pos) :
    Declares pkt k pos d start ↔ RawDeclares pkt k pos d start := by
  have hbit : ∀ n : UInt8, (pkt.mem pos).toNat &&& n.toNat ≠ 0 ↔ pkt.mem pos &&& n ≠ 0 := fun n => by
    rw [← UInt8.toNat_and, ne_eq, ne_eq, ← UInt8.toNat_inj]; rfl
  have hclose : (pkt.mem pos).toNat = 0x1c ↔ pkt.mem pos = 0x1c := by rw [← UInt8.toNat_inj]; rfl
  have hbyte : ((byte pkt.mem : Cur Err UInt8) pos).out = .ok (pkt.mem pos, pos + 1) := rfl
  rw [Declares, RawDeclares, declared, out_bind_of_ok (vint_oneByte pkt h h1)]
  cases k with
  | stream =>
    have h4 := hbit 4
    have h2 := hbit 2
    simp only [declaredBehind, rawDeclared, streamHead, streamOffset, bind_assoc, pure_bind, out_bind_of_ok hbyte]
    simp only [show (0x04 : Nat) = (4 : UInt8).toNat from rfl, show (0x02 : Nat) = (2 : UInt8).toNat from rfl, h4, h2]
    by_cases hoff : pkt.mem pos &&& 4 ≠ 0
    · simp only [if_pos hoff]
    · simp only [if_neg hoff, pure_bind]
  | crypto => simp only [declaredBehind, rawDeclared, cryptoHead, bind_assoc, out_bind_of_ok hbyte]
  | connectionClose =>
    simp only [declaredBehind, rawDeclared, connCloseHead, bind_assoc, out_bind_of_ok hbyte, hclose]
    split <;> simp only [bind_assoc, pure_bind]
  | newConnectionId => simp only [declaredBehind, rawDeclared, newConnIdHead, bind_assoc, pure_bind, out_bind_of_ok hbyte]
  | newToken | pathChallenge | pathResponse => simp only [declaredBehind, rawDeclared, out_bind_of_ok hbyte]
  | _ => simp only [declaredBehind, rawDeclared, out_pure_ok, Prod.mk.injEq, reduceCtorEq, false_and]

/-- A call of a parser on a frame with a type of one byte is as it should be exactly if a length that exceeds what is
    left is refused. -/
theorem parse_safe_iff (room : Room) (k : FrameKind) (h : pos < pkt.last) (h1 : OneByte pkt pos) :
    CallSafe pkt k pos (parse pkt room k pos) ↔ Fits pkt room k pos := by
  have hiff := parse_rawSafe_iff pkt room k h
  have hdecl : ∀ d start, Declares pkt k pos d start ↔ RawDeclares pkt k pos d start :=
    fun _ _ => declares_iff pkt k h h1
  unfold Fits; simp only [hdecl]
  refine Iff.trans ⟨fun hs => ?_, fun hs => ?_⟩ hiff
  · exact ⟨hs.reads, hs.out, fun d start hd => hs.refuses d start ((hdecl d start).mpr hd)⟩
  · exact ⟨hs.reads, hs.out, fun d start hd => hs.refuses d start ((hdecl d start).mp hd)⟩

end RlccQuic.Transport.FrameParser
