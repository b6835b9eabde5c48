/-
  RlccQuic.Lib.Ring — absolute positions in a ring of cells.

  A ring of `cap` cells keeps position `i` in cell `i % cap`, so it can hold any window of at most `cap` positions.
  Writing or reading a window takes one block copy if the window does not reach the last cell, and two otherwise; the
  two cases are told apart by comparing the offsets of its ends.

  Proved: which cells the pieces cover (`one_piece_or_two`, `forall_one_piece`, `forall_two_pieces`); a write behind a
  window leaves it as it is and extends it (`Holds.write`); what is read is what the window holds (`Holds.read`); how a
  window moves to a larger ring (`Holds.move`).
-/

import Mathlib.Algebra.Order.Group.Nat

namespace RlccQuic.Lib.Ring

variable {α : Type _}

/-! ## Positions and cells -/

variable {cap pos i n : Nat}

/-- The cell of a position less than a round behind `pos`. -/
lemma mod_eq_from (h1 : pos ≤ i) (h2 : i < pos + cap) :
    i % cap = if pos % cap + (i - pos) < cap then pos % cap + (i - pos) else pos % cap + (i - pos) - cap := by
  have hlt : pos % cap < cap := Nat.mod_lt _ (by omega)
  have hi : i % cap = (pos % cap + (i - pos)) % cap := by
    rw [Nat.mod_add_mod, Nat.add_sub_cancel' h1]
  rw [hi]; split
  · rename_i hin; exact Nat.mod_eq_of_lt hin
  · rename_i hout; rw [Nat.mod_eq_sub_mod (by omega), Nat.mod_eq_of_lt (by omega)]

/-- A window from `pos` on stays before the last cell, or is cut behind it. -/
theorem one_piece_or_two (pos : Nat) (h1 : 1 ≤ n) (h2 : n ≤ cap) :
    ((pos + n) % cap > pos % cap ∧ pos % cap + n < cap) ∨
      (¬ (pos + n) % cap > pos % cap ∧ cap - pos % cap + (pos + n) % cap = n) := by
  have hlt : pos % cap < cap := Nat.mod_lt _ (by omega)
  rcases Nat.lt_or_eq_of_le h2 with h | h
  · have hend := mod_eq_from (show pos ≤ pos + n by omega) (show pos + n < pos + cap by omega)
    split at hend <;> omega
  · have hend : (pos + n) % cap = pos % cap := by rw [h, Nat.add_mod_right]
    omega

theorem forall_one_piece {P : Nat → Nat → Prop} (h1 : 1 ≤ n) (h2 : n ≤ cap) (hone : (pos + n) % cap > pos % cap) :
    (∀ i, i < n → P (pos % cap + i) i) ↔ ∀ i, i < n → P ((pos + i) % cap) i := by
  rcases one_piece_or_two pos h1 h2 with ⟨-, hin⟩ | ⟨htwo, -⟩
  · refine forall₂_congr fun i hi => ?_
    have hcell := mod_eq_from (show pos ≤ pos + i by omega) (show pos + i < pos + cap by omega)
    rw [if_pos (by omega), Nat.add_sub_cancel_left] at hcell
    rw [hcell]
  · exact absurd hone htwo

theorem forall_two_pieces {P : Nat → Nat → Prop} (h1 : 1 ≤ n) (h2 : n ≤ cap) (htwo : ¬ (pos + n) % cap > pos % cap) :
    ((∀ i, i < cap - pos % cap → P (pos % cap + i) i) ∧
      ∀ i, i < (pos + n) % cap → P i (cap - pos % cap + i)) ↔ ∀ i, i < n → P ((pos + i) % cap) i := by
  have hlt : pos % cap < cap := Nat.mod_lt _ (by omega)
  rcases one_piece_or_two pos h1 h2 with ⟨hone, -⟩ | ⟨-, hsum⟩
  · exact absurd hone htwo
  · have hcell : ∀ i, i < n →
        (pos + i) % cap = if pos % cap + i < cap then pos % cap + i else pos % cap + i - cap := by
      intro i hi
      have := mod_eq_from (show pos ≤ pos + i by omega) (show pos + i < pos + cap by omega)
      rwa [Nat.add_sub_cancel_left] at this
    constructor
    · rintro ⟨hfirst, hrest⟩ i hi
      rw [hcell i hi]; split
      · exact hfirst i (by omega)
      · have := hrest (pos % cap + i - cap) (by omega)
        rwa [show cap - pos % cap + (pos % cap + i - cap) = i by omega] at this
    · intro hall
      constructor
      · intro i hi; have := hall i (by omega); rwa [hcell i (by omega), if_pos (by omega)] at this
      · intro i hi
        have := hall (cap - pos % cap + i) (by omega)
        rwa [hcell _ (by omega), if_neg (by omega),
          show pos % cap + (cap - pos % cap + i) - cap = i by omega] at this

/-! ## Block copies -/

/-- `n` cells of `src` from `s` on go to `dst` from `d` on. -/
def copy (dst : Nat → α) (d : Nat) (src : Nat → α) (s n : Nat) : Nat → α := fun j =>
  if d ≤ j ∧ j < d + n then src (s + (j - d)) else dst j

/-- `n` cells of `src` go to the ring, from position `pos` on. -/
def write (buf : Nat → α) (cap pos n : Nat) (src : Nat → α) : Nat → α :=
  if (pos + n) % cap > pos % cap then copy buf (pos % cap) src 0 n
  else copy (copy buf (pos % cap) src 0 (cap - pos % cap)) 0 src (cap - pos % cap) ((pos + n) % cap)

/-- `n` cells of the ring, from position `pos` on, go to `dst` from `d` on. -/
def read (dst : Nat → α) (d : Nat) (buf : Nat → α) (cap pos n : Nat) : Nat → α :=
  if (pos + n) % cap > pos % cap then copy dst d buf (pos % cap) n
  else copy (copy dst d buf (pos % cap) (cap - pos % cap)) (d + (cap - pos % cap)) buf 0 ((pos + n) % cap)

lemma write_at (buf src : Nat → α) (h1 : 1 ≤ n) (h2 : n ≤ cap) (hi : pos ≤ i) (hi' : i < pos + cap) :
    write buf cap pos n src (i % cap) = if i < pos + n then src (i - pos) else buf (i % cap) := by
  have hlt : pos % cap < cap := Nat.mod_lt _ (by omega)
  have hcell := mod_eq_from hi hi'
  unfold write copy
  rcases one_piece_or_two pos h1 h2 with ⟨hone, hin⟩ | ⟨htwo, hsum⟩
  · rw [if_pos hone]
    by_cases h : i < pos + n
    · rw [if_pos h, if_pos (by split at hcell <;> omega)]
      congr 1
      split at hcell <;> omega
    · rw [if_neg h, if_neg (by split at hcell <;> omega)]
  · rw [if_neg htwo]
    by_cases h : i < pos + n
    · rw [if_pos h]; split at hcell
      · rw [if_neg (by omega), if_pos (by omega)]
        congr 1
        omega
      · rw [if_pos (by omega)]
        congr 1
        omega
    · rw [if_neg h]; split at hcell
      · omega
      · rw [if_neg (by omega), if_neg (by omega)]

lemma read_at (dst buf : Nat → α) (d : Nat) {k : Nat} (h2 : n ≤ cap) (hk : k < n) :
    read dst d buf cap pos n (d + k) = buf ((pos + k) % cap) := by
  have hlt : pos % cap < cap := Nat.mod_lt _ (by omega)
  have hcell := mod_eq_from (show pos ≤ pos + k by omega) (show pos + k < pos + cap by omega)
  unfold read copy
  rcases one_piece_or_two pos (show 1 ≤ n by omega) h2 with ⟨hone, hin⟩ | ⟨htwo, hsum⟩
  · rw [if_pos hone, if_pos (by omega)]
    congr 1
    split at hcell <;> omega
  · rw [if_neg htwo]; split at hcell
    · rw [if_neg (by omega), if_pos (by omega)]
      congr 1
      omega
    · rw [if_pos (by omega)]
      congr 1
      omega

/-! ## Windows -/

/-- The ring holds `log` at the positions from `lo` to `hi`. -/
def Holds (buf : Nat → α) (cap lo hi : Nat) (log : Nat → α) : Prop := ∀ i, lo ≤ i → i < hi → buf (i % cap) = log i

variable {buf log : Nat → α} {lo hi : Nat}

lemma Holds.mono {lo' hi' : Nat} (h : Holds buf cap lo hi log) (h1 : lo ≤ lo') (h2 : hi' ≤ hi) :
    Holds buf cap lo' hi' log := fun i hi1 hi2 => h i (h1.trans hi1) (hi2.trans_le h2)

lemma Holds.congr {log' : Nat → α} (h : Holds buf cap lo hi log) (he : ∀ i, lo ≤ i → i < hi → log' i = log i) :
    Holds buf cap lo hi log' := fun i h1 h2 => (h i h1 h2).trans (he i h1 h2).symm

theorem Holds.write {src : Nat → α} (h : Holds buf cap lo hi log) (hle : lo ≤ hi) (h1 : 1 ≤ n) (h2 : hi + n ≤ lo + cap)
    (hsrc : ∀ k, k < n → log (hi + k) = src k) : Holds (Ring.write buf cap hi n src) cap lo (hi + n) log := by
  intro i hi1 hi2
  by_cases hnew : hi ≤ i
  · rw [write_at buf src h1 (by omega) hnew (by omega), if_pos hi2, ← hsrc (i - hi) (by omega), Nat.add_sub_cancel' hnew]
  · -- the cell is the one of a position a round later, which is not written
    have hround : i % cap = (i + cap) % cap := (Nat.add_mod_right i cap).symm
    rw [hround, write_at buf src h1 (by omega) (by omega) (by omega), if_neg (by omega), ← hround]
    exact h i hi1 (by omega)

theorem Holds.read {k : Nat} (h : Holds buf cap lo hi log) (dst : Nat → α) (d : Nat) (h1 : lo ≤ pos) (h2 : pos + n ≤ hi)
    (hn : n ≤ cap) (hk : k < n) : Ring.read dst d buf cap pos n (d + k) = log (pos + k) :=
  (read_at dst buf d hn hk).trans (h (pos + k) (by omega) (by omega))

lemma uncut_room {cap' : Nat} (hle : lo ≤ hi) (hlt : hi < lo + cap') (huncut : lo % cap' < hi % cap') :
    lo % cap' + (hi - lo) < cap' := by
  have hcell := mod_eq_from hle hlt
  split at hcell <;> omega

theorem Holds.move {cap' : Nat} (dst : Nat → α) (h : Holds buf cap lo hi log) (hle : lo ≤ hi) (hcap : hi ≤ lo + cap)
    (hlt : hi < lo + cap') (huncut : lo % cap' < hi % cap') :
    Holds (Ring.read dst (lo % cap') buf cap lo (hi - lo)) cap' lo hi log := by
  have hroom := uncut_room hle hlt huncut
  intro i h1 h2
  have hcell := mod_eq_from h1 (show i < lo + cap' by omega)
  rw [if_pos (by omega)] at hcell
  rw [hcell, h.read dst _ le_rfl (by omega) (by omega) (by omega), Nat.add_sub_cancel' h1]

end RlccQuic.Lib.Ring
