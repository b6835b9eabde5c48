/-
  RlccQuic.Lib.Text — decimal text of integers and separated records.

  A text is a list of characters. `showInt` is what `printf("%d")` writes for a signed value, `scanInt` what
  `sscanf("%d")` reads from the front of a text and `readInt` a reader of a whole field. A record is its fields with a
  separator between them.

  Proved: both readers give back what `showInt` wrote (`scanInt_showInt`, `readInt_showInt`), and splitting a record of
  integers at a separator that no integer contains gives its fields back (`readFields_record`).
-/

namespace RlccQuic.Lib

abbrev Text := List Char

namespace Text

open List

/-! ## Integers -/

def showInt : Int → Text
  | .ofNat n => Nat.toDigits 10 n
  | .negSucc n => '-' :: Nat.toDigits 10 (n + 1)

def readNat (t : Text) : Option Nat :=
  if t ≠ [] ∧ t.all Char.isDigit then some (Nat.ofDigitChars 10 t 0) else none

def readInt : Text → Option Int
  | '-' :: t => (readNat t).map fun (n : Nat) => -(n : Int)
  | t => (readNat t).map Int.ofNat

/-- The digits at the front of a text; what follows them is left unread. -/
def scanNat (t : Text) : Option Nat := readNat (t.takeWhile Char.isDigit)

def scanSigned : Text → Option Int
  | '-' :: t => (scanNat t).map fun (n : Nat) => -(n : Int)
  | '+' :: t => (scanNat t).map Int.ofNat
  | t => (scanNat t).map Int.ofNat

def scanInt (t : Text) : Option Int := scanSigned (t.dropWhile Char.isWhitespace)

theorem isDigit_of_mem {n : Nat} {c : Char} (h : c ∈ Nat.toDigits 10 n) : c.isDigit :=
  Nat.isDigit_of_mem_toDigits (by decide) (by decide) h

theorem readNat_toDigits (n : Nat) : readNat (Nat.toDigits 10 n) = some n := by
  have hall : (Nat.toDigits 10 n).all Char.isDigit := all_eq_true.mpr fun _ => isDigit_of_mem
  rw [readNat, if_pos ⟨Nat.toDigits_ne_nil, hall⟩, Nat.ofDigitChars_toDigits (by decide) (by decide)]

theorem scanNat_toDigits (n : Nat) : scanNat (Nat.toDigits 10 n) = some n := by
  have h : (Nat.toDigits 10 n ++ []).takeWhile Char.isDigit = Nat.toDigits 10 n ++ [].takeWhile Char.isDigit :=
    takeWhile_append_of_pos fun _ => isDigit_of_mem
  simp only [append_nil, takeWhile_nil] at h; rw [scanNat, h, readNat_toDigits]

theorem toDigits_eq_cons (n : Nat) : ∃ c t, Nat.toDigits 10 n = c :: t ∧ c.isDigit := by
  rcases h : Nat.toDigits 10 n with _ | ⟨c, t⟩
  · exact absurd h Nat.toDigits_ne_nil
  · exact ⟨c, t, rfl, isDigit_of_mem (n := n) (by rw [h]; exact mem_cons_self)⟩

theorem ne_of_isDigit {c d : Char} (hc : c.isDigit) (hd : d.isDigit = false) : c ≠ d := by
  rintro rfl
  rw [hc] at hd; exact absurd hd (by decide)

theorem not_isWhitespace_of_isDigit {c : Char} (hc : c.isDigit) : c.isWhitespace = false := by
  simp only [Char.isWhitespace, Bool.or_eq_false_iff, decide_eq_false_iff_not]
  exact ⟨⟨⟨ne_of_isDigit hc (by decide), ne_of_isDigit hc (by decide)⟩, ne_of_isDigit hc (by decide)⟩,
    ne_of_isDigit hc (by decide)⟩

theorem readInt_showInt (v : Int) : readInt (showInt v) = some v := by
  cases v with
  | ofNat n =>
    obtain ⟨c, t, he, hc⟩ := toDigits_eq_cons n
    have hr := readNat_toDigits n
    have hm : c ≠ '-' := ne_of_isDigit hc rfl
    rw [he] at hr
    simp only [showInt, he]
    unfold readInt; split
    · rename_i h; exact absurd (List.cons.inj h).1 hm
    · rw [hr]; rfl
  | negSucc n => simp only [showInt, readInt, readNat_toDigits, Option.map_some]; rfl

theorem scanInt_showInt (v : Int) : scanInt (showInt v) = some v := by
  cases v with
  | ofNat n =>
    obtain ⟨c, t, he, hc⟩ := toDigits_eq_cons n
    have hr := scanNat_toDigits n
    rw [he] at hr
    simp only [showInt, he, scanInt, dropWhile_cons, not_isWhitespace_of_isDigit hc, Bool.false_eq_true,
      if_false]
    unfold scanSigned; split
    · rename_i h; exact absurd (List.cons.inj h).1 (ne_of_isDigit hc rfl)
    · rename_i h; exact absurd (List.cons.inj h).1 (ne_of_isDigit hc rfl)
    · rw [hr]; rfl
  | negSucc n =>
    have hw : Char.isWhitespace '-' = false := by decide
    simp only [showInt, scanInt, dropWhile_cons, hw, Bool.false_eq_true, if_false, scanSigned,
      scanNat_toDigits]
    rfl

/-! ## Records -/

/-- The fields of a record, in order, with the separator between them. -/
def record (sep : Char) (vs : List Int) : Text := [sep].intercalate (vs.map showInt)

def readFields (sep : Char) (t : Text) : Option (List Int) := (t.splitOn sep).mapM readInt

theorem sep_not_mem_showInt {sep : Char} (hd : sep.isDigit = false) (hm : sep ≠ '-') (v : Int) : sep ∉ showInt v := by
  have hdig : ∀ n, sep ∉ Nat.toDigits 10 n := fun n h => by
    rw [isDigit_of_mem h] at hd; exact absurd hd (by decide)
  cases v with
  | ofNat n => exact hdig n
  | negSucc n => simp only [showInt, mem_cons, not_or]; exact ⟨hm, hdig _⟩

theorem splitOn_record {sep : Char} (hd : sep.isDigit = false) (hm : sep ≠ '-') {vs : List Int} (hne : vs ≠ []) :
    (record sep vs).splitOn sep = vs.map showInt := by
  refine splitOn_intercalate sep (fun l hl => ?_) (by simpa using hne)
  obtain ⟨v, _, rfl⟩ := mem_map.mp hl
  exact sep_not_mem_showInt hd hm v

theorem readFields_record {sep : Char} (hd : sep.isDigit = false) (hm : sep ≠ '-') {vs : List Int} (hne : vs ≠ []) :
    readFields sep (record sep vs) = some vs := by
  rw [readFields, splitOn_record hd hm hne]
  clear hne
  induction vs with
  | nil => rfl
  | cons v vs ih => simp [readInt_showInt, ih]

end Text

end RlccQuic.Lib
