/-
  RlccQuic.Lib.Least — a least value kept in a word, where 0 says that there is none.

  A value that is 0 itself makes the word say that there is none yet, so what counts
  are the values after the last 0 (`counted`).

  Proved: the word is the least of the values that count, or 0 if none does (`foldl_keepLeast`).
-/

import Mathlib.Data.List.Induction
import Mathlib.Data.List.TakeWhile
import RlccQuic.Lib.Word

namespace RlccQuic.Lib

open List Word

def keepLeast (acc x : UInt64) : UInt64 := if acc = 0 then x else minU64 acc x

variable {ι : Type _}

/-- The elements after the last one whose value is 0, the last one first. -/
def counted (f : ι → UInt64) (l : List ι) : List ι := l.reverse.takeWhile fun p => f p != 0

lemma counted_append (f : ι → UInt64) (l : List ι) (p : ι) :
    counted f (l ++ [p]) = if f p = 0 then [] else p :: counted f l := by
  unfold counted
  by_cases h : f p = 0
  · simp [h]
  · simp [h]

lemma mem_of_counted {f : ι → UInt64} {l : List ι} {p : ι} (h : p ∈ counted f l) : p ∈ l ∧ f p ≠ 0 := by
  refine ⟨mem_reverse.mp ((List.takeWhile_prefix _).subset h), ?_⟩
  simpa using mem_takeWhile_imp h

theorem foldl_keepLeast (f : ι → UInt64) (l : List ι) :
    (counted f l = [] ∧ l.foldl (fun acc p => keepLeast acc (f p)) 0 = 0) ∨
      (∃ p ∈ counted f l, l.foldl (fun acc p => keepLeast acc (f p)) 0 = f p) ∧
        ∀ p ∈ counted f l, (l.foldl (fun acc p => keepLeast acc (f p)) 0).toNat ≤ (f p).toNat := by
  induction l using List.reverseRecOn with
  | nil => exact .inl ⟨rfl, rfl⟩
  | append_singleton l x ih =>
    rw [counted_append, foldl_append, foldl_cons, foldl_nil]
    generalize l.foldl (fun acc p => keepLeast acc (f p)) 0 = r at ih
    by_cases hx : f x = 0
    · rw [if_pos hx, hx]
      refine .inl ⟨rfl, ?_⟩
      unfold keepLeast; split
      · rfl
      · simp [← UInt64.toNat_inj]
    · rw [if_neg hx]
      rcases ih with ⟨hnone, hr⟩ | ⟨⟨q, hq, hr⟩, hleast⟩
      · rw [hnone, hr, keepLeast, if_pos rfl]; exact .inr ⟨⟨x, by simp, rfl⟩, by simp⟩
      · have hne : r ≠ 0 := by
          rw [hr]; exact (mem_of_counted hq).2
        rw [keepLeast, if_neg hne]
        refine .inr ⟨?_, ?_⟩
        · unfold minU64; split
          · exact ⟨q, mem_cons_of_mem _ hq, hr⟩
          · exact ⟨x, mem_cons_self, rfl⟩
        · intro p hp; rw [toNat_minU64]
          rcases mem_cons.mp hp with rfl | hp
          · exact Nat.min_le_right _ _
          · exact Nat.le_trans (Nat.min_le_left _ _) (hleast p hp)

end RlccQuic.Lib
