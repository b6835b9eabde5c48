/-
  RlccQuic.Common.Vint — variable-length integers written, and read in pieces
  (`xqc_variable_len_int.c`, `xqc_discrete_int_parser.c`).

  `xqc_vint_read` is that of the frame parser; a buffer is the memory up to its end. The writer of
  eight bytes swaps them on every host, the reader on little-endian ones only.

  Proved: the reader that takes pieces gives what the reader of the whole gives, and what is written
  is read back exactly if the host is little-endian, the integer has less than eight bytes or its
  bytes are the same backwards (`integers_are_read_alike`).
-/

import RlccQuic.Lib.ByteOrder
import RlccQuic.Transport.TransportParams
import Mathlib.Tactic.Ring

namespace RlccQuic.Common.Vint

open Transport.TransportParams Transport.FrameParser Lib Lib.Cursor List

/-! ## Writing -/

/-- `len` bytes, the highest first: `xqc_put_uint16be` and `xqc_put_uint32be`, on every host. -/
def putBe : Nat → Nat → List UInt8
  | 0, _ => []
  | len + 1, n => UInt8.ofNat (n / 256 ^ len) :: putBe len n

/-- `bswap_64` whatever the host is, and then a copy of the word in memory. -/
def xqcPutUint64be : ByteOrder → Nat → List UInt8
  | .little, n => putBe 8 n
  | .big, n => (putBe 8 n).reverse

def tagged (tag : UInt8) : List UInt8 → List UInt8
  | [] => []
  | b :: bs => (b ||| tag) :: bs

def xqcPutVarintLen (n : Nat) : Nat :=
  if n < 64 then 1 else if n < 16384 then 2 else if n < 1073741824 then 4 else 8

def xqcPutVarint (order : ByteOrder) (n : Nat) : Option (List UInt8) :=
  if n < 64 then some [UInt8.ofNat n]
  else if n < 16384 then some (tagged 0x40 (putBe 2 n))
  else if n < 1073741824 then some (tagged 0x80 (putBe 4 n))
  else if n ≥ 4611686018427387904 then none
  else some (tagged 0xc0 (xqcPutUint64be order n))

/-! ## Reading -/

def readIn (buf : List UInt8) : Option (Nat × Nat) := (xqcVintRead (buf.getD · 0) buf.length 0).2

/-- `xqc_discrete_int_pctx_t`; `vi` never has more than 62 bits. -/
structure Pctx where
  vi : Nat
  left : Nat

def xqcDiscreteIntPctxClear : Pctx := ⟨0, 0⟩

def shiftIn (vi : Nat) (bs : List UInt8) : Nat := bs.foldl (fun v b => v * 256 + b.toNat) vi

def parseRest (c : Pctx) (used : Nat) (buf : List UInt8) : Pctx × Nat × Bool :=
  let cnt := min c.left buf.length
  (⟨shiftIn c.vi (buf.take cnt), c.left - cnt⟩, used + cnt, c.left - cnt = 0)

def xqcDiscreteVintParse (c : Pctx) : List UInt8 → Pctx × Nat × Bool
  | [] => (c, 0, false)
  | b :: bs =>
    if c.left = 0 then parseRest ⟨(b &&& 0x3f).toNat, 2 ^ (b >>> 6).toNat - 1⟩ 1 bs else parseRest c 0 (b :: bs)

/-- Chunk after chunk, until one finishes the integer: its value and all bytes used. -/
def parseIn : Pctx → List (List UInt8) → Option (Nat × Nat)
  | _, [] => none
  | c, buf :: bufs =>
    match xqcDiscreteVintParse c buf with
    | (c, used, true) => some (c.vi, used)
    | (c, used, false) => (parseIn c bufs).map fun r => (r.1, used + r.2)

/-! ## In pieces and as a whole -/

variable {bufs : List (List UInt8)}

lemma parseRest_all (c : Pctx) (used : Nat) (buf : List UInt8) (hne : ∀ b ∈ bufs, b ≠ []) :
    (match parseRest c used buf with
      | (c, used, true) => some (c.vi, used)
      | (c, used, false) => (parseIn c bufs).map fun r => (r.1, used + r.2)) =
    if c.left ≤ (buf ++ bufs.flatten).length then some (shiftIn c.vi ((buf ++ bufs.flatten).take c.left), used + c.left)
    else none := by
  induction bufs generalizing c used buf with
  | nil =>
    by_cases hle : c.left ≤ buf.length
    · simp [parseRest, hle]
    · have hmin : min c.left buf.length = buf.length := by omega
      simp [parseRest, hmin, show c.left - buf.length ≠ 0 by omega, hle, parseIn]
  | cons next bufs ih =>
    obtain ⟨b, bs, rfl⟩ := exists_cons_of_ne_nil (hne next mem_cons_self)
    by_cases hle : c.left ≤ buf.length
    · simp [parseRest, hle, take_append_of_le_length, Nat.le_add_right_of_le]
    · have hmin : min c.left buf.length = buf.length := by omega
      have hleft : c.left - buf.length ≠ 0 := by omega
      have hrest := ih ⟨shiftIn c.vi buf, c.left - buf.length⟩ 0 (b :: bs) fun d hd => hne d (mem_cons_of_mem _ hd)
      rw [flatten_cons]
      generalize b :: bs ++ bufs.flatten = rest at hrest
      simp only [parseRest, hmin, take_length, decide_eq_false hleft, parseIn, xqcDiscreteVintParse, if_neg hleft] at hrest ⊢
      rw [hrest, take_append, take_of_length_le (show buf.length ≤ c.left by omega), length_append]
      split_ifs
      · simp [shiftIn]
        omega
      · omega
      · omega
      · rfl

lemma exists_len (k : Nat) : ∃ len, 2 ^ k = len + 1 := Nat.exists_eq_add_of_le' Nat.one_le_two_pow

lemma shiftIn_mod (v m : Nat) (bs : List UInt8) : shiftIn v bs % (m * 256 ^ bs.length) = shiftIn (v % m) bs := by
  induction bs generalizing v m with
  | nil => simp [shiftIn]
  | cons b bs ih =>
    have hb := b.toNat_lt
    have hstep : (v * 256 + b.toNat) % (256 * m) = v % m * 256 + b.toNat := by
      rw [Nat.mod_mul, show (v * 256 + b.toNat) / 256 = v by omega]; omega
    have := ih (v * 256 + b.toNat) (256 * m)
    rw [hstep, Nat.mul_comm 256, Nat.mul_assoc, ← Nat.pow_succ'] at this; exact this

lemma readIn_cons {b : UInt8} {len : Nat} (hlen : 2 ^ (b >>> 6).toNat = len + 1) (bs : List UInt8) :
    readIn (b :: bs) = if len ≤ bs.length then some (shiftIn (b.toNat % 64) (bs.take len), len + 1) else none := by
  have hvint : vintLen ((b :: bs).getD · 0) 0 = len + 1 := hlen
  rw [readIn, vintRead_eq, vintVal, hvint, length_cons, Nat.zero_add]
  split_ifs with h1 h2
  · have hslice : slice ((b :: bs).getD · 0) 0 (len + 1) = b :: bs.take len := by
      refine ext_getElem (by simp [slice]; omega) fun i hi _ => ?_
      cases i with
      | zero => simp [slice]
      | succ i =>
        have hi : i < bs.length := by simp [slice] at hi; omega
        simp [slice, hi]
    have hbits : 2 ^ (8 * (len + 1) - 2) = 64 * 256 ^ (bs.take len).length := by
      rw [length_take, Nat.min_eq_left h2, show 8 * (len + 1) - 2 = 6 + 8 * len by omega, Nat.pow_add, Nat.pow_mul]
    have hmod := shiftIn_mod b.toNat 64 (bs.take len)
    rw [bigEndian, hslice, hbits, foldl_cons, Nat.zero_mul, Nat.zero_add, ← shiftIn, hmod]
  · omega
  · omega
  · rfl

lemma parseIn_eq (hne : ∀ buf ∈ bufs, buf ≠ []) : parseIn xqcDiscreteIntPctxClear bufs = readIn bufs.flatten := by
  cases bufs with
  | nil => rfl
  | cons buf bufs =>
    obtain ⟨b, bs, rfl⟩ := exists_cons_of_ne_nil (hne buf mem_cons_self)
    obtain ⟨len, hlen⟩ := exists_len (b >>> 6).toNat
    have hmask : (b &&& 0x3f).toNat = b.toNat % 64 := Nat.and_two_pow_sub_one_eq_mod _ 6
    have hall := parseRest_all ⟨(b &&& 0x3f).toNat, len⟩ 1 bs fun d hd => hne d (mem_cons_of_mem _ hd)
    rw [parseIn, xqcDiscreteVintParse, xqcDiscreteIntPctxClear, if_pos rfl, hlen, Nat.add_sub_cancel, hall, flatten_cons,
      cons_append, readIn_cons hlen, hmask, Nat.add_comm]

/-! ## What is written is read -/

lemma putBe_length (len n : Nat) : (putBe len n).length = len := by
  induction len with
  | zero => rfl
  | succ len ih => rw [putBe, length_cons, ih]

lemma shiftIn_putBe (v len n : Nat) : shiftIn v (putBe len n) = v * 256 ^ len + n % 256 ^ len := by
  induction len generalizing v with
  | zero => simp [shiftIn, putBe, Nat.mod_one]
  | succ len ih =>
    have hb : (UInt8.ofNat (n / 256 ^ len)).toNat = n / 256 ^ len % 256 := UInt8.toNat_ofNat'
    have hsplit : n % 256 ^ (len + 1) = n % 256 ^ len + 256 ^ len * (n / 256 ^ len % 256) := by
      rw [Nat.pow_succ, Nat.mod_mul]
    have := ih (v * 256 + (UInt8.ofNat (n / 256 ^ len)).toNat)
    rw [putBe, shiftIn, foldl_cons, ← shiftIn, this, hb, hsplit]
    ring

lemma tag_byte : ∀ q < 64, ∀ k < 4, ((UInt8.ofNat q ||| UInt8.ofNat (64 * k)) >>> 6).toNat = k ∧
    (UInt8.ofNat q ||| UInt8.ofNat (64 * k)).toNat % 64 = q := by decide +kernel

lemma written_is_read {n k : Nat} (hk : k < 4) (hn : n < 64 * 256 ^ (2 ^ k - 1)) :
    (tagged (UInt8.ofNat (64 * k)) (putBe (2 ^ k) n)).length = 2 ^ k ∧
      ∀ more, readIn (tagged (UInt8.ofNat (64 * k)) (putBe (2 ^ k) n) ++ more) = some (n, 2 ^ k) := by
  obtain ⟨len, hlen⟩ := exists_len k
  rw [hlen, Nat.add_sub_cancel] at hn
  have hq : n / 256 ^ len < 64 := Nat.div_lt_of_lt_mul (Nat.mul_comm 64 _ ▸ hn)
  obtain ⟨hhigh, hlow⟩ := tag_byte _ hq k hk
  rw [hlen, putBe, tagged]
  refine ⟨by rw [length_cons, putBe_length], fun more => ?_⟩
  rw [cons_append, readIn_cons (hhigh.symm ▸ hlen), hlow, length_append, putBe_length,
    if_pos (Nat.le_add_right _ _), take_left' (putBe_length len n), shiftIn_putBe, Nat.div_add_mod']

/-- What `xqc_put_varint` writes on a little-endian host, perhaps in more bytes than needed. -/
def Encodes (n : Nat) (bs : List UInt8) : Prop :=
  ∃ k < 4, n < 64 * 256 ^ (2 ^ k - 1) ∧ bs = tagged (UInt8.ofNat (64 * k)) (putBe (2 ^ k) n)

variable {n : Nat} {bs : List UInt8}

lemma Encodes.read (h : Encodes n bs) (more : List UInt8) : readIn (bs ++ more) = some (n, bs.length) := by
  obtain ⟨k, hk, hlt, rfl⟩ := h
  obtain ⟨hlength, hread⟩ := written_is_read hk hlt
  rw [hread, hlength]

lemma shiftIn_div (w : Nat) (bs : List UInt8) : shiftIn w bs / 256 ^ bs.length = w := by
  induction bs generalizing w with
  | nil => simp [shiftIn]
  | cons b bs ih =>
    have hb := b.toNat_lt
    rw [length_cons, Nat.pow_succ, ← Nat.div_div_eq_div_mul, shiftIn, foldl_cons, ← shiftIn, ih]; omega

lemma putBe_shiftIn (w : Nat) (bs : List UInt8) : putBe bs.length (shiftIn w bs) = bs := by
  induction bs generalizing w with
  | nil => rfl
  | cons b bs ih =>
    have hb : UInt8.ofNat (w * 256 + b.toNat) = b :=
      UInt8.toNat_inj.mp (by rw [UInt8.toNat_ofNat']; have := b.toNat_lt; omega)
    rw [length_cons, putBe, shiftIn, foldl_cons, ← shiftIn, shiftIn_div, ih, hb]

lemma split_byte : ∀ q < 256, UInt8.ofNat (q % 64) ||| UInt8.ofNat (64 * (UInt8.ofNat q >>> 6).toNat) = UInt8.ofNat q ∧
    (UInt8.ofNat q >>> 6).toNat < 4 := by decide +kernel

lemma encodes_of_read {buf : List UInt8} {len : Nat} (h : readIn buf = some (n, len)) :
    len ≤ buf.length ∧ 0 < len ∧ Encodes n (buf.take len) := by
  cases buf with
  | nil => cases h
  | cons b bs =>
    obtain ⟨len', hlen⟩ := exists_len (b >>> 6).toNat
    rw [readIn_cons hlen] at h
    split_ifs at h with hle
    obtain ⟨hn, rfl⟩ := Prod.mk.inj (Option.some.inj h)
    obtain ⟨hbyte, hk⟩ := split_byte b.toNat b.toNat_lt
    rw [UInt8.ofNat_toNat] at hbyte hk
    have htake : (bs.take len').length = len' := length_take_of_le hle
    have hdiv := shiftIn_div (b.toNat % 64) (bs.take len')
    have hput := putBe_shiftIn (b.toNat % 64) (bs.take len')
    rw [htake, hn] at hdiv hput
    refine ⟨Nat.succ_le_succ hle, Nat.succ_pos _, _, hk, ?_, ?_⟩
    · rw [hlen, Nat.add_sub_cancel]
      exact (Nat.div_lt_iff_lt_mul (Nat.pow_pos (by decide))).mp (hdiv ▸ Nat.mod_lt _ (by decide))
    · rw [hlen, putBe, hdiv, hput, tagged, hbyte, take_succ_cons]

lemma parse_eq_iff {buf : List UInt8} {len : Nat} (hne : buf ≠ []) : readIn buf = some (n, len) ↔
    ∃ left, xqcDiscreteVintParse xqcDiscreteIntPctxClear buf = (⟨n, left⟩, len, true) := by
  rw [← flatten_singleton (l := buf), ← parseIn_eq (by simpa using hne), parseIn, flatten_singleton]
  obtain ⟨⟨vi, left⟩, used, fin⟩ := xqcDiscreteVintParse xqcDiscreteIntPctxClear buf
  cases fin <;> simp [parseIn]

lemma put_encodes (h62 : n < 2 ^ 62) : ∃ k < 4, n < 64 * 256 ^ (2 ^ k - 1) ∧ xqcPutVarintLen n = 2 ^ k ∧
    (k = 3 ↔ 2 ^ 30 ≤ n) ∧ ∀ order, xqcPutVarint order n =
      some (tagged (UInt8.ofNat (64 * k)) (if k = 3 then xqcPutUint64be order n else putBe (2 ^ k) n)) := by
  unfold xqcPutVarint xqcPutVarintLen
  split_ifs with h1 h2 h3 h4
  · exact ⟨0, by decide, by omega, rfl, by omega, fun _ => by simp [tagged, putBe]⟩
  · exact ⟨1, by decide, by omega, rfl, by omega, fun _ => rfl⟩
  · exact ⟨2, by decide, by omega, rfl, by omega, fun _ => rfl⟩
  · omega
  · exact ⟨3, by decide, by omega, rfl, by omega, fun _ => rfl⟩

/-! ## Eight bytes the other way round -/

lemma shiftIn_inj : ∀ {xs ys : List UInt8} {u w : Nat}, xs.length = ys.length → shiftIn u xs = shiftIn w ys →
    u = w ∧ xs = ys := by
  intro xs
  induction xs with
  | nil => intro ys u w hlen h; obtain rfl := eq_nil_of_length_eq_zero hlen.symm; exact ⟨h, rfl⟩
  | cons x xs ih =>
    intro ys u w hlen h
    cases ys with
    | nil => cases hlen
    | cons y ys =>
      obtain ⟨hhead, htail⟩ := ih (Nat.succ.inj hlen) h
      dsimp only at hhead
      have hx := x.toNat_lt
      have hy := y.toNat_lt
      refine ⟨by omega, ?_⟩
      rw [UInt8.toNat_inj.mp (show x.toNat = y.toNat by omega), htail]

lemma low_tag : ∀ q < 256, ((UInt8.ofNat q ||| 0xc0) >>> 6).toNat = 3 ∧ (UInt8.ofNat q ||| 0xc0).toNat % 64 = q % 64 := by
  decide +kernel

lemma read_tagged {b : UInt8} (hlen : bs.length = 7) (more : List UInt8) :
    readIn (tagged 0xc0 (b :: bs) ++ more) = some (shiftIn (b.toNat % 64) bs, 8) := by
  obtain ⟨hhigh, hlow⟩ := low_tag b.toNat b.toNat_lt
  rw [UInt8.ofNat_toNat] at hhigh hlow
  have hbytes : 2 ^ ((b ||| 0xc0) >>> 6).toNat = 7 + 1 := by rw [hhigh]; rfl
  rw [tagged, cons_append, readIn_cons hbytes, hlow, length_append, hlen, if_pos (Nat.le_add_right _ _), take_left' hlen]

lemma reversed_is_read_iff (h62 : n < 2 ^ 62) (more : List UInt8) :
    readIn (tagged 0xc0 (putBe 8 n).reverse ++ more) = some (n, 8) ↔ (putBe 8 n).reverse = putBe 8 n := by
  have hlen := putBe_length 8 n
  have hval : shiftIn 0 (putBe 8 n) = n := by rw [shiftIn_putBe]; omega
  obtain ⟨c, cs, hrev⟩ := exists_cons_of_length_eq_add_one (show (putBe 8 n).reverse.length = 7 + 1 by simp [hlen])
  obtain ⟨b, bs, hput⟩ := exists_cons_of_length_eq_add_one hlen
  have hcs : cs.length = 7 := by have := congrArg length hrev; simp [hlen] at this; omega
  have hbs : bs.length = 7 := by have := congrArg length hput; simp [hlen] at this; omega
  rw [hput] at hval
  have hb : b.toNat < 64 := by
    have hb' : b = UInt8.ofNat (n / 256 ^ 7) := (cons.inj hput).1.symm
    rw [hb', UInt8.toNat_ofNat']; omega
  rw [hrev, read_tagged hcs, hput]
  have hvalue : shiftIn b.toNat bs = n := by rw [← hval]; simp [shiftIn]
  constructor
  · intro h
    obtain ⟨-, htail⟩ := shiftIn_inj (hcs.trans hbs.symm) ((congrArg Prod.fst (Option.some.inj h)).trans hvalue.symm)
    -- both lists have the same bytes, so the first ones agree as well
    have hsum := ((reverse_perm (b :: bs)).map UInt8.toNat).sum_nat
    rw [← hput, hrev, hput, htail, map_cons, map_cons, sum_cons, sum_cons] at hsum
    rw [htail, UInt8.toNat_inj.mp (Nat.add_right_cancel hsum)]
  · intro h
    obtain ⟨rfl, rfl⟩ := cons.inj h
    rw [Nat.mod_eq_of_lt hb, hvalue]

lemma put_is_read_iff (order : ByteOrder) (h62 : n < 2 ^ 62) :
    (∃ bytes, xqcPutVarint order n = some bytes ∧ bytes.length = xqcPutVarintLen n ∧
      ∀ more, readIn (bytes ++ more) = some (n, bytes.length)) ↔
    order = .little ∨ n < 2 ^ 30 ∨ (putBe 8 n).reverse = putBe 8 n := by
  obtain ⟨k, hk, hlt, hlen, h8, hput⟩ := put_encodes h62
  obtain ⟨hlength, hread⟩ := written_is_read hk hlt
  have hgood : xqcPutVarint order n = some (tagged (UInt8.ofNat (64 * k)) (putBe (2 ^ k) n)) →
      ∃ bytes, xqcPutVarint order n = some bytes ∧ bytes.length = xqcPutVarintLen n ∧
        ∀ more, readIn (bytes ++ more) = some (n, bytes.length) :=
    fun h => ⟨_, h, hlength.trans hlen.symm, fun more => by rw [hread, hlength]⟩
  by_cases hk3 : k = 3
  · subst hk3
    have hbig := h8.mp rfl
    cases order with
    | little => exact ⟨fun _ => .inl rfl, fun _ => hgood (hput .little)⟩
    | big =>
      have hb := hput .big
      rw [if_pos rfl, xqcPutUint64be] at hb
      constructor
      · rintro ⟨bytes, hbytes, -, hback⟩
        rw [hb] at hbytes
        cases hbytes
        exact .inr (.inr ((reversed_is_read_iff h62 []).mp (hback [])))
      · intro h
        rcases h with h | h | h
        · cases h
        · omega
        · rw [h] at hb; exact hgood hb
  · exact ⟨fun _ => .inr (.inl (by omega)), fun _ => hgood (by rw [hput, if_neg hk3])⟩

/-- A buffer gives the same in chunks as in one piece, and an integer of 62 bits comes back from its bytes exactly if
    the host's order does not matter for them. -/
theorem integers_are_read_alike (order : ByteOrder) (bufs : List (List UInt8)) (hne : ∀ buf ∈ bufs, buf ≠ []) :
    (∀ n < 2 ^ 62,
      (∃ bytes, xqcPutVarint order n = some bytes ∧ bytes.length = xqcPutVarintLen n ∧
        ∀ more, readIn (bytes ++ more) = some (n, bytes.length)) ↔
      order = .little ∨ n < 2 ^ 30 ∨ (putBe 8 n).reverse = putBe 8 n) ∧
    parseIn xqcDiscreteIntPctxClear bufs = readIn bufs.flatten :=
  ⟨fun _ => put_is_read_iff order, parseIn_eq hne⟩

/-- The number 15293 in two chunks, the second with a byte more. -/
theorem split_varint_is_read :
    xqcPutVarint .big 15293 = some [0x7b, 0xbd] ∧
      parseIn xqcDiscreteIntPctxClear [[0x7b], [0xbd, 7]] = some (15293, 2) :=
  ⟨by decide, (integers_are_read_alike .big [[0x7b], [0xbd, 7]] (by decide)).2.trans (by decide)⟩

/-- A big-endian host writes 2^30 so that it is read as 2^38. -/
theorem swapped_integer_is_read_as_another : ∃ bytes, xqcPutVarint .big (2 ^ 30) = some bytes ∧
    readIn bytes = some (2 ^ 38, 8) :=
  ⟨[0xc0, 0, 0, 0x40, 0, 0, 0, 0], by decide, by decide⟩

end RlccQuic.Common.Vint
