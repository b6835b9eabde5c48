/-
  RlccQuic.Http3.Prefixed — integers and strings with a prefix (`qpack/xqc_prefixed_int.c`, `qpack/xqc_prefixed_str.c`).

  The readers of the source take a buffer and stop where it ends, with what they have in their context; here a byte is a
  step, so a buffer is its bytes one after the other. For integers the reader of buffers is modelled too. The tables of
  the Huffman code are a parameter: of the code only that decoding gives back what was encoded is used.

  Proved: an integer up to the largest of 62 bits and a string no longer than that are read back as they were written
  (`int_round`, `str_round`), integers also from buffers cut anywhere (`prefixed_integers_are_read_back`).
-/

import RlccQuic.Lib.Feed
import Mathlib.Tactic.IntervalCases
import Mathlib.Tactic.Ring

namespace RlccQuic.Http3.Prefixed

open Lib

/-! ## Integers -/

def intMax : Nat := 2 ^ 62 - 1

structure PInt where
  value : Nat
  bits : Nat
  shift : Nat
  deriving DecidableEq, Repr

def xqcPrefixedIntInit (bits : Nat) : PInt := ⟨0, if bits = 0 then 8 else bits, 0⟩

def intByte (p : PInt) (b : UInt8) : Option (PInt ⊕ Nat) :=
  if p.value = 0 then
    if b.toNat % 2 ^ p.bits ≠ 2 ^ p.bits - 1 then some (.inr (b.toNat % 2 ^ p.bits))
    else some (.inl { p with value := 2 ^ p.bits - 1 })
  else if p.shift > 62 then none
  else if intMax / 2 ^ p.shift < b.toNat % 128 then none
  else if intMax - b.toNat % 128 * 2 ^ p.shift < p.value then none
  else if b.toNat < 128 then some (.inr (p.value + b.toNat % 128 * 2 ^ p.shift))
  else some (.inl { p with value := p.value + b.toNat % 128 * 2 ^ p.shift, shift := p.shift + 7 })

/-- `for (; n >= 128; n >>= 7)`; nine rounds are enough for 64 bits. -/
def putLoop : Nat → Nat → List UInt8
  | 0, n => [UInt8.ofNat n]
  | fuel + 1, n => if n ≥ 128 then UInt8.ofNat (128 + n % 128) :: putLoop fuel (n / 128) else [UInt8.ofNat n]

/-- The first byte keeps the flags of `flags` above the prefix. -/
def xqcPrefixedIntPut (flags n bits : Nat) : List UInt8 :=
  if n < 2 ^ bits - 1 then [UInt8.ofNat (flags / 2 ^ bits * 2 ^ bits + n)]
  else UInt8.ofNat (flags / 2 ^ bits * 2 ^ bits + (2 ^ bits - 1)) :: putLoop 9 (n - (2 ^ bits - 1))

lemma read_digit {acc shift : Nat} {b : UInt8} (bits : Nat) (hacc : acc ≠ 0) (hshift : shift ≤ 62)
    (hmax : acc + b.toNat % 128 * 2 ^ shift ≤ intMax) :
    intByte ⟨acc, bits, shift⟩ b =
      some (if b.toNat < 128 then .inr (acc + b.toNat % 128 * 2 ^ shift)
        else .inl ⟨acc + b.toNat % 128 * 2 ^ shift, bits, shift + 7⟩) := by
  have hdiv : b.toNat % 128 ≤ intMax / 2 ^ shift :=
    (Nat.le_div_iff_mul_le (Nat.two_pow_pos shift)).mpr (by omega)
  unfold intByte
  dsimp only
  rw [if_neg hacc, if_neg (Nat.not_lt.mpr hshift), if_neg (Nat.not_lt.mpr hdiv), if_neg (by omega)]
  split <;> rfl

lemma shift_le {n shift : Nat} (hmax : n * 2 ^ shift ≤ intMax) (hpos : shift = 0 ∨ n ≠ 0) : shift ≤ 62 := by
  rcases hpos with rfl | hn
  · exact zero_le
  · have hle : 2 ^ shift ≤ n * 2 ^ shift := Nat.le_mul_of_pos_left _ (Nat.pos_of_ne_zero hn)
    have hlt : 2 ^ shift < 2 ^ 62 := by
      unfold intMax at hmax
      omega
    exact ((Nat.pow_lt_pow_iff_right (by decide)).mp hlt).le

lemma putLoop_round : ∀ (fuel : Nat) {n shift acc bits : Nat}, n < 128 ^ (fuel + 1) → acc ≠ 0 →
    acc + n * 2 ^ shift ≤ intMax → (shift = 0 ∨ n ≠ 0) →
    feed intByte ⟨acc, bits, shift⟩ (putLoop fuel n) = some (.inr (acc + n * 2 ^ shift), []) := by
  have hlast : ∀ {n shift acc bits : Nat}, n < 128 → acc ≠ 0 → acc + n * 2 ^ shift ≤ intMax → (shift = 0 ∨ n ≠ 0) →
      feed intByte ⟨acc, bits, shift⟩ [UInt8.ofNat n] = some (.inr (acc + n * 2 ^ shift), []) := by
    intro n shift acc bits hn hacc hmax hpos
    have hb : (UInt8.ofNat n).toNat = n := UInt8.toNat_ofNat_of_lt' (by show n < 256; omega)
    have hd : (UInt8.ofNat n).toNat % 128 = n := by rw [hb, Nat.mod_eq_of_lt hn]
    have hread := read_digit (b := UInt8.ofNat n) bits hacc (shift_le (by omega) hpos) (by rw [hd]; exact hmax)
    rw [hd, if_pos (by omega)] at hread
    rw [feed, hread]
  intro fuel
  induction fuel with
  | zero => intro n shift acc bits hn; exact hlast hn
  | succ fuel ih =>
    intro n shift acc bits hn hacc hmax hpos; unfold putLoop
    split
    · rename_i hlarge
      have hb : (UInt8.ofNat (128 + n % 128)).toNat = 128 + n % 128 := UInt8.toNat_ofNat_of_lt' (by show _ < 256; omega)
      have hd : (UInt8.ofNat (128 + n % 128)).toNat % 128 = n % 128 := by omega
      -- the digit and the quotient at the next shift
      have hsum : n % 128 * 2 ^ shift + n / 128 * 2 ^ (shift + 7) = n * 2 ^ shift := by
        have hpow : 2 ^ (shift + 7) = 128 * 2 ^ shift := by rw [Nat.pow_add]; ring
        rw [hpow, ← Nat.mul_assoc, ← Nat.add_mul, Nat.mod_add_div' n 128]
      have hread := read_digit (b := UInt8.ofNat (128 + n % 128)) bits hacc (shift_le (by omega) hpos)
        (by rw [hd]; omega)
      rw [hd, if_neg (by omega)] at hread
      rw [feed, hread]
      dsimp only
      rw [ih (by rw [Nat.div_lt_iff_lt_mul (by decide)]; rw [Nat.pow_succ] at hn; exact hn) (by omega) (by omega)
        (.inr (by omega))]
      rw [Nat.add_assoc, hsum]
    · exact hlast (by omega) hacc hmax hpos

lemma flags_byte {flags bits n : Nat} (hflags : flags < 256) (hbits : bits ≤ 8) (hn : n < 2 ^ bits) :
    (UInt8.ofNat (flags / 2 ^ bits * 2 ^ bits + n)).toNat / 2 ^ bits = flags / 2 ^ bits ∧
      (UInt8.ofNat (flags / 2 ^ bits * 2 ^ bits + n)).toNat % 2 ^ bits = n := by
  have hpos := Nat.two_pow_pos bits
  have hlt : flags / 2 ^ bits * 2 ^ bits + n < 256 := by
    have h256 : 2 ^ bits * 2 ^ (8 - bits) = 256 := by
      rw [← Nat.pow_add, Nat.add_sub_of_le hbits]
    have hq : flags / 2 ^ bits < 2 ^ (8 - bits) := by
      rw [Nat.div_lt_iff_lt_mul hpos, Nat.mul_comm, h256]; exact hflags
    have hle : (flags / 2 ^ bits + 1) * 2 ^ bits ≤ 2 ^ (8 - bits) * 2 ^ bits := Nat.mul_le_mul_right _ hq
    rw [Nat.mul_comm (2 ^ (8 - bits)), h256, Nat.add_mul] at hle; omega
  rw [UInt8.toNat_ofNat_of_lt' hlt]
  constructor
  · rw [Nat.add_comm, Nat.add_mul_div_right _ _ hpos, Nat.div_eq_of_lt hn, Nat.zero_add]
  · rw [Nat.add_comm, Nat.add_mul_mod_self_right, Nat.mod_eq_of_lt hn]

variable {flags n bits : Nat}

lemma put_flags (hflags : flags < 256) (hbits : bits ≤ 8) (n : Nat) :
    ∃ b bs, xqcPrefixedIntPut flags n bits = b :: bs ∧ b.toNat / 2 ^ bits = flags / 2 ^ bits := by
  have hpos := Nat.two_pow_pos bits
  unfold xqcPrefixedIntPut; split
  · exact ⟨_, _, rfl, (flags_byte hflags hbits (by omega)).1⟩
  · exact ⟨_, _, rfl, (flags_byte hflags hbits (by omega)).1⟩

theorem int_round (hflags : flags < 256) (hbits : 1 ≤ bits ∧ bits ≤ 8) (hn : n ≤ intMax) :
    feed intByte (xqcPrefixedIntInit bits) (xqcPrefixedIntPut flags n bits) = some (.inr n, []) := by
  have htwo : 2 ≤ 2 ^ bits := Nat.le_self_pow (by omega) 2
  rw [xqcPrefixedIntInit, if_neg (by omega)]
  unfold xqcPrefixedIntPut; split
  · rename_i hsmall
    have hbyte := (flags_byte (n := n) hflags hbits.2 (by omega)).2
    rw [feed, intByte]
    dsimp only; rw [if_pos rfl, hbyte, if_pos (by omega)]
  · rename_i hlarge
    have hbyte := (flags_byte (n := 2 ^ bits - 1) hflags hbits.2 (by omega)).2
    rw [feed, intByte]
    dsimp only; rw [if_pos rfl, hbyte, if_neg (by omega)]
    dsimp only
    have hfuel : n - (2 ^ bits - 1) < 128 ^ (9 + 1) := by
      unfold intMax at hn
      omega
    rw [putLoop_round 9 hfuel (by omega) (by rw [Nat.pow_zero]; omega) (.inl rfl), Nat.pow_zero]
    congr 3
    omega

lemma int_inside {σ υ : Type} (step : σ → UInt8 → Option (σ ⊕ υ)) (f : PInt → σ) (g : Nat → σ ⊕ υ)
    (hstep : ∀ p b, step (f p) b = (intByte p b).map (Sum.elim (fun p => .inl (f p)) g))
    (hflags : flags < 256) (hbits : 1 ≤ bits ∧ bits ≤ 8) (hn : n ≤ intMax) :
    feed step (f (xqcPrefixedIntInit bits)) (xqcPrefixedIntPut flags n bits) = some (g n, []) :=
  feed_lift hstep (int_round hflags hbits hn)

lemma int_first {σ υ : Type} {step : σ → UInt8 → Option (σ ⊕ υ)} {s₀ : σ} {choose : UInt8 → σ}
    (hfirst : ∀ b, step s₀ b = step (choose b) b) (f : PInt → σ) (g : Nat → σ ⊕ υ)
    (hstep : ∀ p b, step (f p) b = (intByte p b).map (Sum.elim (fun p => .inl (f p)) g))
    (hflags : flags < 256) (hbits : 1 ≤ bits ∧ bits ≤ 8) (hn : n ≤ intMax)
    (htype : ∀ b : UInt8, b.toNat / 2 ^ bits = flags / 2 ^ bits → choose b = f (xqcPrefixedIntInit bits)) :
    feed step s₀ (xqcPrefixedIntPut flags n bits) = some (g n, []) := by
  obtain ⟨b, bs, hw, hb⟩ := put_flags hflags hbits.2 n
  rw [feed_first hfirst hw (htype b hb)]; exact int_inside step f g hstep hflags hbits hn

/-! ## Integers in pieces -/

def putLenLoop : Nat → Nat → Nat
  | 0, _ => 1
  | fuel + 1, n => if n ≥ 128 then putLenLoop fuel (n / 128) + 1 else 1

def xqcPrefixedIntPutLen (n bits : Nat) : Nat :=
  if n < 2 ^ bits - 1 then 1 else putLenLoop 9 (n - (2 ^ bits - 1)) + 1

def readLoop (bits n shift : Nat) : List UInt8 → Option ((PInt ⊕ Nat) × List UInt8)
  | [] => some (.inl ⟨n, bits, shift⟩, [])
  | b :: bs =>
    if shift > 62 then none
    else if intMax / 2 ^ shift < b.toNat % 128 then none
    else if intMax - b.toNat % 128 * 2 ^ shift < n then none
    else if b.toNat < 128 then some (.inr (n + b.toNat % 128 * 2 ^ shift), bs)
    else readLoop bits (n + b.toNat % 128 * 2 ^ shift) (shift + 7) bs

/-- A call with a buffer. The shift is cleared before the first byte and stored behind the loop. -/
def xqcPrefixedIntRead (p : PInt) : List UInt8 → Option ((PInt ⊕ Nat) × List UInt8)
  | [] => some (.inl p, [])
  | b :: bs =>
    if p.value = 0 then
      if b.toNat % 2 ^ p.bits ≠ 2 ^ p.bits - 1 then some (.inr (b.toNat % 2 ^ p.bits), bs)
      else if bs = [] then some (.inl ⟨2 ^ p.bits - 1, p.bits, 0⟩, [])
      else readLoop p.bits (2 ^ p.bits - 1) p.shift bs
    else readLoop p.bits p.value p.shift (b :: bs)

/-- Buffer after buffer until the integer is complete, and the bytes behind it. -/
def readBuffers : PInt → List (List UInt8) → Option ((PInt ⊕ Nat) × List UInt8)
  | p, [] => some (.inl p, [])
  | p, buf :: bufs =>
    match xqcPrefixedIntRead p buf with
    | none => none
    | some (.inl p, _) => readBuffers p bufs
    | some (.inr n, rest) => some (.inr n, rest ++ bufs.flatten)

structure Between (p : PInt) : Prop where
  bits : 1 ≤ p.bits ∧ p.bits ≤ 8
  first : p.value = 0 → p.shift = 0
  value : p.value ≤ intMax

lemma mask_bounds (h : 1 ≤ bits ∧ bits ≤ 8) : 1 ≤ 2 ^ bits - 1 ∧ 2 ^ bits ≤ 2 ^ 8 := by
  have htwo : 2 ≤ 2 ^ bits := Nat.le_self_pow (by omega) 2
  exact ⟨by omega, Nat.pow_le_pow_right (by omega) h.2⟩

lemma read_between (p : PInt) (b : UInt8) (r : PInt ⊕ Nat) (h : Between p) (hr : intByte p b = some r) :
    Sum.elim Between (· ≤ intMax) r := by
  have hmask := mask_bounds h.bits
  have hmod := Nat.mod_lt b.toNat (Nat.two_pow_pos p.bits)
  have hmax : 2 ^ 8 ≤ intMax := by decide
  unfold intByte at hr
  split_ifs at hr with hzero hlast hshift hdigit hsum hend <;> cases hr
  · exact (Nat.le_of_lt hmod).trans (hmask.2.trans hmax)
  · exact ⟨h.bits, fun _ => h.first hzero, by dsimp only; omega⟩
  · have hadd : b.toNat % 128 * 2 ^ p.shift ≤ intMax := Nat.mul_le_of_le_div _ _ _ (Nat.le_of_not_lt hdigit)
    show _ + _ ≤ _
    omega
  · have hadd : b.toNat % 128 * 2 ^ p.shift ≤ intMax := Nat.mul_le_of_le_div _ _ _ (Nat.le_of_not_lt hdigit)
    exact ⟨h.bits, fun hz => by dsimp only at hz; omega, by dsimp only; omega⟩

lemma readLoop_eq {shift : Nat} (hn : n ≠ 0) (bs : List UInt8) :
    readLoop bits n shift bs = feed intByte ⟨n, bits, shift⟩ bs := by
  induction bs generalizing n shift with
  | nil => rfl
  | cons b bs ih =>
    unfold readLoop feed intByte
    rw [if_neg hn]
    split_ifs
    · rfl
    · rfl
    · rfl
    · rfl
    · exact ih (by omega)

lemma intRead_eq {p : PInt} (h : Between p) {buf : List UInt8} (hbuf : buf ≠ []) :
    xqcPrefixedIntRead p buf = feed intByte p buf := by
  obtain ⟨b, bs, rfl⟩ := List.exists_cons_of_ne_nil hbuf
  have hmask := mask_bounds h.bits
  rw [xqcPrefixedIntRead]
  by_cases hzero : p.value = 0
  · rw [feed, intByte, if_pos hzero, if_pos hzero]
    split_ifs with hlast hbs
    · rfl
    · rw [hbs, h.first hzero]; rfl
    · exact readLoop_eq (by omega) bs
  · rw [if_neg hzero]; exact readLoop_eq hzero (b :: bs)

lemma readBuffers_eq {bufs : List (List UInt8)} {p : PInt} (h : Between p) (hne : ∀ buf ∈ bufs, buf ≠ []) :
    readBuffers p bufs = feed intByte p bufs.flatten := by
  induction bufs generalizing p with
  | nil => rfl
  | cons buf bufs ih =>
    have hbuf := intRead_eq h (hne buf List.mem_cons_self)
    rw [readBuffers, List.flatten_cons, feed_append, ← hbuf]
    cases hr : xqcPrefixedIntRead p buf with
    | none => rfl
    | some r =>
      obtain ⟨r, rest⟩ := r
      have hr' := feed_inv (P := Sum.elim Between (· ≤ intMax)) read_between h (hbuf.symm.trans hr)
      cases r with
      | inl p' => exact ih hr' fun buf hb => hne buf (List.mem_cons_of_mem _ hb)
      | inr n => rfl

lemma putLoop_length (fuel n : Nat) : (putLoop fuel n).length = putLenLoop fuel n := by
  induction fuel generalizing n with
  | zero => rfl
  | succ fuel ih =>
    unfold putLoop putLenLoop; split
    · rw [List.length_cons, ih]
    · rfl

lemma put_length (flags n bits : Nat) : (xqcPrefixedIntPut flags n bits).length = xqcPrefixedIntPutLen n bits := by
  unfold xqcPrefixedIntPut xqcPrefixedIntPutLen; split
  · rfl
  · rw [List.length_cons, putLoop_length]

/-- An integer comes back from its bytes however they are cut, and no bytes at all make the
    reader store one that is too large. -/
theorem prefixed_integers_are_read_back (bits : Nat) (hbits : 1 ≤ bits ∧ bits ≤ 8) (bufs : List (List UInt8))
    (hne : ∀ buf ∈ bufs, buf ≠ []) :
    (∀ flags n, flags < 256 → n ≤ intMax →
      (xqcPrefixedIntPut flags n bits).length = xqcPrefixedIntPutLen n bits ∧
      (∃ b bs, xqcPrefixedIntPut flags n bits = b :: bs ∧ b.toNat / 2 ^ bits = flags / 2 ^ bits) ∧
      ∀ more, bufs.flatten = xqcPrefixedIntPut flags n bits ++ more →
        readBuffers (xqcPrefixedIntInit bits) bufs = some (.inr n, more)) ∧
    ∀ r rest, readBuffers (xqcPrefixedIntInit bits) bufs = some (r, rest) → Sum.elim PInt.value id r ≤ intMax := by
  have hinit : Between (xqcPrefixedIntInit bits) := by
    rw [xqcPrefixedIntInit, if_neg (by omega)]; exact ⟨hbits, fun _ => rfl, zero_le⟩
  rw [readBuffers_eq hinit hne]
  constructor
  · intro flags n hflags hn
    refine ⟨put_length flags n bits, put_flags hflags hbits.2 n, fun more hmore => ?_⟩
    rw [hmore, feed_append, int_round hflags hbits hn]; rfl
  · intro r rest hr
    have hr' := feed_inv (P := Sum.elim Between (· ≤ intMax)) read_between hinit hr
    cases r with
    | inl p => exact hr'.value
    | inr n => exact hr'

/-- The number 1337 behind a prefix of five bits, whose first byte was 224. -/
theorem split_integer_is_read_back : xqcPrefixedIntPut 224 1337 5 = [255, 154, 10] ∧
    readBuffers (xqcPrefixedIntInit 5) [[255], [154, 10, 7]] = some (.inr 1337, [7]) := by
  have hput : xqcPrefixedIntPut 224 1337 5 = [255, 154, 10] := by decide
  have hread := (prefixed_integers_are_read_back 5 (by decide) [[255], [154, 10, 7]] (by decide)).1
  exact ⟨hput, (hread 224 1337 (by decide) (by decide)).2.2 [7] (by rw [hput]; rfl)⟩

/-! ## Strings -/

/-- A Huffman code: `dec` takes a byte and gives what is complete with it, `done` says that
    only padding is left (`ctx->end`). -/
structure Huffman where
  State : Type
  init : State
  dec : State → UInt8 → Option (State × List UInt8)
  done : State → Bool
  enc : List UInt8 → List UInt8

def Huffman.decAll (H : Huffman) : H.State → List UInt8 → Option (H.State × List UInt8)
  | st, [] => some (st, [])
  | st, b :: bs => (H.dec st b).bind fun r => (H.decAll r.1 bs).map fun q => (q.1, r.2 ++ q.2)

def Huffman.Inverts (H : Huffman) : Prop := ∀ str, ∃ st, H.decAll H.init (H.enc str) = some (st, str) ∧ H.done st = true

/-- `xqc_prefixed_str_t`: before the first byte, in the length, and in the bytes. -/
inductive PStr (H : Huffman) where
  | head (bits : Nat)
  | len (huff : Bool) (p : PInt)
  | raw (len : Nat) (value : List UInt8)
  | huff (len used : Nat) (value : List UInt8) (st : H.State)

def xqcPrefixedStrInit (H : Huffman) (bits : Nat) : PStr H := .head bits

variable {H : Huffman}

def strBody (huff : Bool) : PInt ⊕ Nat → PStr H ⊕ List UInt8
  | .inl p => .inl (.len huff p)
  | .inr n => if n = 0 then .inr [] else .inl (if huff then .huff n 0 [] H.init else .raw n [])

def strByte : PStr H → UInt8 → Option (PStr H ⊕ List UInt8)
  | .head bits, b => (intByte (xqcPrefixedIntInit bits) b).map (strBody (b.toNat / 2 ^ bits % 2 = 1))
  | .len huff p, b => (intByte p b).map (strBody huff)
  | .raw len value, b => some (if (value ++ [b]).length = len then .inr (value ++ [b]) else .inl (.raw len (value ++ [b])))
  | .huff len used value st, b =>
    match H.dec st b with
    | none => none
    | some (st, out) =>
      if used + 1 = len then if H.done st then some (.inr (value ++ out)) else none
      else some (.inl (.huff len (used + 1) (value ++ out) st))

/-- The shorter of the code and the bytes; the bit above the prefix says which. -/
def xqcWritePrefixedStr (H : Huffman) (flags : Nat) (str : List UInt8) (bits : Nat) : List UInt8 :=
  if (H.enc str).length < str.length then
    xqcPrefixedIntPut (flags / 2 ^ (bits + 1) * 2 ^ (bits + 1) + 2 ^ bits) (H.enc str).length bits ++ H.enc str
  else xqcPrefixedIntPut (flags / 2 ^ (bits + 1) * 2 ^ (bits + 1)) str.length bits ++ str

lemma raw_round : ∀ {bs value : List UInt8} {len : Nat}, bs ≠ [] → value.length + bs.length = len →
    feed strByte (PStr.raw (H := H) len value) bs = some (.inr (value ++ bs), []) := by
  intro bs
  induction bs with
  | nil => exact fun h => absurd rfl h
  | cons b bs ih =>
    intro value len _ hlen; rw [feed, strByte]
    cases bs with
    | nil => rw [if_pos (by simpa using hlen)]
    | cons c cs =>
      rw [if_neg (by simp at hlen ⊢; omega)]
      dsimp only
      rw [ih (by simp) (by simp at hlen ⊢; omega), List.append_assoc]
      rfl

lemma huff_round : ∀ {bs value out : List UInt8} {len used : Nat} {st st' : H.State}, bs ≠ [] → used + bs.length = len →
    H.decAll st bs = some (st', out) → H.done st' = true →
    feed strByte (.huff len used value st) bs = some (.inr (value ++ out), []) := by
  intro bs
  induction bs with
  | nil => exact fun h => absurd rfl h
  | cons b bs ih =>
    intro value out len used st st' _ hlen hdec hdone; rw [feed, strByte]
    obtain ⟨⟨s1, o1⟩, hone, hrest⟩ := Option.bind_eq_some_iff.mp hdec
    obtain ⟨⟨s2, o2⟩, hall, hout⟩ := Option.map_eq_some_iff.mp hrest
    cases hout
    rw [hone]
    dsimp only
    cases bs with
    | nil => cases hall; rw [if_pos (by simpa using hlen), if_pos hdone]; simp
    | cons c cs =>
      rw [if_neg (by simp at hlen; omega)]
      dsimp only
      rw [ih (by simp) (by simp at hlen ⊢; omega) hall hdone, List.append_assoc]

lemma len_round {huff : Bool} (hflags : flags < 256) (hbits : 1 ≤ bits ∧ bits ≤ 7) (hbit : flags / 2 ^ bits % 2 = huff.toNat)
    (hn : n ≤ intMax) :
    feed strByte (xqcPrefixedStrInit H bits) (xqcPrefixedIntPut flags n bits) = some (strBody huff (.inr n), []) := by
  have hlen : feed strByte (PStr.len (H := H) huff (xqcPrefixedIntInit bits)) (xqcPrefixedIntPut flags n bits) =
      some (strBody huff (.inr n), []) := by
    refine int_inside strByte (.len huff) (fun n => strBody huff (.inr n)) (fun p b => ?_) hflags ⟨hbits.1, by omega⟩ hn
    rw [strByte]
    congr 1
    funext r
    cases r <;> rfl
  obtain ⟨b, bs, hput, hb⟩ := put_flags hflags (by omega : bits ≤ 8) n
  have hhuff : decide (b.toNat / 2 ^ bits % 2 = 1) = huff := by
    rw [hb, hbit]
    cases huff <;> rfl
  rw [hput] at hlen ⊢
  rw [← hlen, feed, feed, xqcPrefixedStrInit, strByte, strByte, hhuff]

lemma flags_bit (hflags : flags < 256) (hbits : bits ≤ 7) (huff : Bool) :
    flags / 2 ^ (bits + 1) * 2 ^ (bits + 1) + huff.toNat * 2 ^ bits < 256 ∧
      (flags / 2 ^ (bits + 1) * 2 ^ (bits + 1) + huff.toNat * 2 ^ bits) / 2 ^ bits % 2 = huff.toNat ∧
      (flags / 2 ^ (bits + 1) * 2 ^ (bits + 1) + huff.toNat * 2 ^ bits) / 2 ^ (bits + 1) = flags / 2 ^ (bits + 1) := by
  interval_cases bits <;> cases huff <;> simp <;> omega

lemma write_eq (H : Huffman) (flags : Nat) (str : List UInt8) (bits : Nat) :
    ∃ huff : Bool, ∃ code, xqcWritePrefixedStr H flags str bits =
        xqcPrefixedIntPut (flags / 2 ^ (bits + 1) * 2 ^ (bits + 1) + huff.toNat * 2 ^ bits) code.length bits ++ code ∧
      code.length ≤ str.length ∧ code = if huff then H.enc str else str := by
  unfold xqcWritePrefixedStr; split
  · rename_i hless; exact ⟨true, H.enc str, by simp, hless.le, rfl⟩
  · exact ⟨false, str, by simp, le_rfl, rfl⟩

lemma write_flags (H : Huffman) (hflags : flags < 256) (hbits : bits ≤ 7) (str : List UInt8) :
    ∃ b bs, xqcWritePrefixedStr H flags str bits = b :: bs ∧ b.toNat / 2 ^ (bits + 1) = flags / 2 ^ (bits + 1) := by
  obtain ⟨huff, code, hw, -, -⟩ := write_eq H flags str bits
  obtain ⟨hlt, -, hhigh⟩ := flags_bit hflags hbits huff
  obtain ⟨b, bs, hput, hb⟩ := put_flags hlt (by omega : bits ≤ 8) code.length
  have hsplit : ∀ x, x / 2 ^ (bits + 1) = x / 2 ^ bits / 2 := fun x => by rw [Nat.pow_succ, Nat.div_div_eq_div_mul]
  exact ⟨b, bs ++ code, by rw [hw, hput]; rfl, by rw [hsplit b.toNat, hb, ← hsplit, hhigh]⟩

theorem str_round (hinv : H.Inverts) (hflags : flags < 256) (hbits : 1 ≤ bits ∧ bits ≤ 7) {str : List UInt8}
    (hlen : str.length ≤ intMax) :
    feed strByte (xqcPrefixedStrInit H bits) (xqcWritePrefixedStr H flags str bits) = some (.inr str, []) := by
  obtain ⟨huff, code, hw, hle, hcode⟩ := write_eq H flags str bits
  obtain ⟨hlt, hbit, -⟩ := flags_bit hflags hbits.2 huff
  obtain ⟨st, hdec, hdone⟩ := hinv str
  rw [hw, feed_append, len_round hlt hbits hbit (hle.trans hlen), strBody]
  by_cases hnil : code = []
  · have hstr : str = [] := by
      cases huff with
      | false => exact hcode.symm.trans hnil
      | true => rw [show H.enc str = [] from hcode.symm.trans hnil] at hdec; cases hdec; rfl
    rw [hnil, hstr]; rfl
  · rw [if_neg (by simpa using hnil)]
    cases huff with
    | false => dsimp only; rw [if_neg (by simp), raw_round hnil (by simp), hcode]; rfl
    | true =>
      dsimp only
      rw [if_pos rfl, huff_round hnil (Nat.zero_add _) (by rw [hcode]; exact hdec) hdone]
      rfl

lemma str_inside {σ υ : Type} (step : σ → UInt8 → Option (σ ⊕ υ)) (f : PStr H → σ) (g : List UInt8 → σ ⊕ υ)
    (hstep : ∀ v b, step (f v) b = (strByte v b).map (Sum.elim (fun v => .inl (f v)) g))
    (hinv : H.Inverts) (hflags : flags < 256) (hbits : 1 ≤ bits ∧ bits ≤ 7) {str : List UInt8} (hlen : str.length ≤ intMax) :
    feed step (f (xqcPrefixedStrInit H bits)) (xqcWritePrefixedStr H flags str bits) = some (g str, []) :=
  feed_lift hstep (str_round hinv hflags hbits hlen)

lemma str_first {σ υ : Type} {step : σ → UInt8 → Option (σ ⊕ υ)} {s₀ : σ} {choose : UInt8 → σ}
    (hfirst : ∀ b, step s₀ b = step (choose b) b) (f : PStr H → σ) (g : List UInt8 → σ ⊕ υ)
    (hstep : ∀ v b, step (f v) b = (strByte v b).map (Sum.elim (fun v => .inl (f v)) g))
    (hinv : H.Inverts) (hflags : flags < 256) (hbits : 1 ≤ bits ∧ bits ≤ 7) {str : List UInt8} (hlen : str.length ≤ intMax)
    (htype : ∀ b : UInt8, b.toNat / 2 ^ (bits + 1) = flags / 2 ^ (bits + 1) → choose b = f (xqcPrefixedStrInit H bits)) :
    feed step s₀ (xqcWritePrefixedStr H flags str bits) = some (g str, []) := by
  obtain ⟨b, bs, hw, hb⟩ := write_flags H hflags hbits.2 str
  rw [feed_first hfirst hw (htype b hb)]
  exact str_inside step f g hstep hinv hflags hbits hlen

end RlccQuic.Http3.Prefixed
