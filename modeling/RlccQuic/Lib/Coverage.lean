/-
  RlccQuic.Lib.Coverage — pieces of a text, and how far they reach.

  A piece takes up the positions from `lo` to just before `hi`. A list of pieces covers a position if one of them does,
  and its frontier is the length of the longest prefix it covers. Pieces in order of `lo` are merged in one scan:
  `advance` moves an end over every piece that starts at or before it.

  Proved: no piece reaches over the end a scan in order stops at (`advance_closed`), and the scan passes covered
  positions only (`advance_covers`); what is read out of a piece that agrees with a text is the text (`read_of_agrees`).
-/

import Mathlib.Order.Nat

namespace RlccQuic.Lib

/-- Things that take up the positions from `lo` to just before `hi`. -/
class Extent (ι : Type _) where
  lo : ι → Nat
  hi : ι → Nat

open Extent List

section Extents

variable {ι : Type _} [Extent ι] {f : ι} {fs : List ι} {i n : Nat}

def Covers (fs : List ι) (i : Nat) : Prop := ∃ f ∈ fs, lo f ≤ i ∧ i < hi f

/-- The length of the longest prefix the pieces cover. -/
def Frontier (fs : List ι) (n : Nat) : Prop := (∀ i < n, Covers fs i) ∧ ¬ Covers fs n

def Closed (fs : List ι) (n : Nat) : Prop := ∀ f ∈ fs, lo f ≤ n → hi f ≤ n

def Ascending (fs : List ι) : Prop := fs.Pairwise (fun a b => lo a ≤ lo b)

/-- One scan that moves an end over the pieces it meets. -/
def advance : Nat → List ι → Nat
  | n, [] => n
  | n, f :: fs => if lo f ≤ n ∧ n < hi f then advance (hi f) fs else advance n fs

/-! ## Coverage -/

@[simp] lemma not_covers_nil (i : Nat) : ¬ Covers ([] : List ι) i := by
  rintro ⟨f, hf, _⟩
  cases hf

@[simp] lemma covers_cons :
    Covers (f :: fs) i ↔ (lo f ≤ i ∧ i < hi f) ∨ Covers fs i := by
  simp [Covers]

@[simp] lemma covers_append {gs : List ι} : Covers (fs ++ gs) i ↔ Covers fs i ∨ Covers gs i := by
  simp only [Covers, mem_append, or_and_right, exists_or]

lemma Covers.of_mem (hf : f ∈ fs) (hl : lo f ≤ i) (hh : i < hi f) : Covers fs i :=
  ⟨f, hf, hl, hh⟩

lemma Closed.not_covers (h : Closed fs n) : ¬ Covers fs n := by
  rintro ⟨f, hf, hl, hh⟩
  have := h f hf hl; omega

/-! ## Scanning in order -/

lemma Ascending.head_le (h : Ascending (f :: fs)) (hc : Covers (f :: fs) i) :
    lo f ≤ i := by
  obtain ⟨g, hg, hl, _⟩ := hc
  rcases mem_cons.mp hg with rfl | hg
  · exact hl
  · exact ((pairwise_cons.mp h).1 g hg).trans hl

lemma le_advance (n : Nat) (fs : List ι) : n ≤ advance n fs := by
  induction fs generalizing n with
  | nil => exact le_rfl
  | cons f fs ih =>
    unfold advance; split
    · rename_i h; exact h.2.le.trans (ih _)
    · exact ih n

lemma advance_of_beyond (h : ∀ f ∈ fs, n < lo f) : advance n fs = n := by
  induction fs with
  | nil => rfl
  | cons f fs ih =>
    have hf := h f mem_cons_self
    rw [advance, if_neg (by omega)]; exact ih fun g hg => h g (mem_cons_of_mem _ hg)

theorem advance_closed (hs : Ascending fs) : Closed fs (advance n fs) := by
  induction fs generalizing n with
  | nil => intro f hf; cases hf
  | cons f fs ih =>
    obtain ⟨hf, hs'⟩ := pairwise_cons.mp hs
    intro g hg hl; rw [advance] at hl ⊢
    split at hl
    · rename_i h; rw [if_pos h]
      rcases mem_cons.mp hg with rfl | hg
      · exact le_advance _ _
      · exact ih hs' g hg hl
    · rename_i h; rw [if_neg h]
      rcases mem_cons.mp hg with rfl | hg
      · by_cases hn : lo g ≤ n
        · have := le_advance n fs; omega
        · -- every later piece starts beyond the end, too: the scan has stopped
          rw [advance_of_beyond fun k hk => lt_of_lt_of_le (not_le.mp hn) (hf k hk)] at hl
          exact absurd hl hn
      · exact ih hs' g hg hl

theorem advance_covers (h1 : n ≤ i) (h2 : i < advance n fs) : Covers fs i := by
  induction fs generalizing n with
  | nil => exact absurd h2 (not_lt.mpr h1)
  | cons f fs ih =>
    rw [covers_cons]
    rw [advance] at h2; split at h2
    · rename_i h
      by_cases hi' : i < hi f
      · exact .inl ⟨h.1.trans h1, hi'⟩
      · exact .inr (ih (not_lt.mp hi') h2)
    · exact .inr (ih h1 h2)

end Extents

/-! ## Pieces of a text -/

section Text

variable {α : Type _}

/-- `data` is what `S` has from position `start` on. -/
def Agrees (S : List α) (start : Nat) (data : List α) : Prop := data <+: S.drop start

theorem read_of_agrees {S data : List α} {start k m : Nat} (h : Agrees S start data) (hk : k + m ≤ data.length) :
    (data.drop k).take m = (S.drop (start + k)).take m := by
  obtain ⟨rest, hr⟩ := h
  rw [← drop_drop, ← hr, drop_append_of_le_length (by omega), take_append_of_le_length]
  rw [length_drop]; omega

lemma Agrees.lt_length {S data : List α} {start : Nat} (h : Agrees S start data) (h1 : start ≤ i)
    (h2 : i < start + data.length) : i < S.length := by
  have := h.length_le
  rw [length_drop] at this; omega

end Text

end RlccQuic.Lib
