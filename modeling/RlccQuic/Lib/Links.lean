/-
  RlccQuic.Lib.Links — intrusive lists, and loops over them.

  An element has one link, so it is in at most one of a family of lists, once (`Single`). Deleting unlinks it wherever
  it is; moving unlinks it and puts it at the tail or the front of a list. A loop over a list (`walk`) has read the next
  element before its body runs, so the body may unlink the element it is at; an element that an earlier round has
  unlinked is not met.

  Proved: where an element is after a move (`mem_move`, `mem_moveFront`); what every round keeps, the loop keeps
  (`walk_inv`); a loop whose rounds deal with every element of a kind leaves none (`walk_none`); what holds after a loop
  that may be left (`walk_until`); what a loop comes to (`visits_forall`, `visits_mem`).
-/

import Mathlib.Logic.Function.Basic
import Mathlib.Tactic.Tauto

namespace RlccQuic.Lib

open List
open Function (update update_self update_of_ne)

/-! ## Lists -/

abbrev Links (κ ι : Type _) := κ → List ι

namespace Links

variable {κ ι : Type _} [DecidableEq κ] [DecidableEq ι]

omit [DecidableEq κ] in
def del (l : Links κ ι) (p : ι) : Links κ ι := fun k => (l k).erase p

def move (l : Links κ ι) (k : κ) (p : ι) : Links κ ι := update (l.del p) k ((l.del p) k ++ [p])

def moveFront (l : Links κ ι) (k : κ) (p : ι) : Links κ ι := update (l.del p) k (p :: (l.del p) k)

structure Single (l : Links κ ι) : Prop where
  nodup : ∀ k, (l k).Nodup
  one : ∀ {k j p}, p ∈ l k → p ∈ l j → k = j

omit [DecidableEq κ] [DecidableEq ι] in
lemma single_empty : Single (fun _ => [] : Links κ ι) :=
  ⟨fun _ => nodup_nil, fun h => absurd h not_mem_nil⟩

variable {l : Links κ ι} {k j : κ} {p q : ι}

omit [DecidableEq κ] in
lemma mem_del (h : Single l) : q ∈ l.del p j ↔ q ≠ p ∧ q ∈ l j :=
  (h.nodup j).mem_erase_iff

omit [DecidableEq κ] in
lemma Single.del (h : Single l) (p : ι) : Single (l.del p) where
  nodup k := (h.nodup k).erase p
  one hk hj := h.one ((mem_del h).mp hk).2 ((mem_del h).mp hj).2

theorem mem_move (h : Single l) : q ∈ l.move k p j ↔ (q = p ∧ j = k) ∨ (q ≠ p ∧ q ∈ l j) := by
  unfold move
  by_cases hj : j = k
  · subst hj
    simp only [update_self, mem_append, mem_singleton, mem_del h]
    tauto
  · simp only [update_of_ne hj, mem_del h]
    tauto

theorem mem_moveFront (h : Single l) : q ∈ l.moveFront k p j ↔ (q = p ∧ j = k) ∨ (q ≠ p ∧ q ∈ l j) := by
  unfold moveFront
  by_cases hj : j = k
  · subst hj
    simp only [update_self, mem_cons, mem_del h]
    tauto
  · simp only [update_of_ne hj, mem_del h]
    tauto

omit [DecidableEq κ] [DecidableEq ι] in
lemma Single.of_mem {l' : Links κ ι} (h : Single l) (hnd : ∀ j, (l' j).Nodup)
    (hmem : ∀ {q j}, q ∈ l' j ↔ (q = p ∧ j = k) ∨ (q ≠ p ∧ q ∈ l j)) : Single l' where
  nodup := hnd
  one {j j' q} hj hj' := by
    rcases hmem.mp hj with ⟨rfl, rfl⟩ | ⟨hq, hj⟩
    · rcases hmem.mp hj' with ⟨_, rfl⟩ | ⟨hq, _⟩
      · rfl
      · exact absurd rfl hq
    · rcases hmem.mp hj' with ⟨rfl, _⟩ | ⟨_, hj'⟩
      · exact absurd rfl hq
      · exact h.one hj hj'

lemma Single.move (h : Single l) (k : κ) (p : ι) : Single (l.move k p) := by
  refine h.of_mem ?_ (mem_move h)
  intro j
  have hnd := (h.del p).nodup j
  unfold Links.move
  by_cases hj : j = k
  · subst hj; rw [update_self]
    refine nodup_append.mpr ⟨hnd, by simp, ?_⟩
    intro a ha b hb; rw [mem_singleton] at hb
    exact hb ▸ ((mem_del h).mp ha).1
  · rw [update_of_ne hj]; exact hnd

lemma Single.moveFront (h : Single l) (k : κ) (p : ι) : Single (l.moveFront k p) := by
  refine h.of_mem ?_ (mem_moveFront h)
  intro j
  have hnd := (h.del p).nodup j
  unfold Links.moveFront
  by_cases hj : j = k
  · subst hj; rw [update_self]; exact nodup_cons.mpr ⟨fun hp => ((mem_del h).mp hp).1 rfl, hnd⟩
  · rw [update_of_ne hj]; exact hnd

end Links

/-! ## Loops -/

section Walk

variable {σ ι : Type _} [DecidableEq ι]

/-- The rounds of a loop over the elements `ps`, as far as they are still in the
    list `on` when their turn comes. A round says whether the loop goes on. -/
def rounds (on : σ → List ι) (body : ι → σ → σ × Bool) : List ι → σ → σ
  | [], s => s
  | p :: ps, s =>
    if p ∈ on s then
      if (body p s).2 then rounds on body ps (body p s).1 else (body p s).1
    else rounds on body ps s

/-- A loop over a list, safe against unlinking the current element. -/
def walk (on : σ → List ι) (body : ι → σ → σ × Bool) (s : σ) : σ := rounds on body (on s) s

variable {on : σ → List ι} {body : ι → σ → σ × Bool}

lemma rounds_inv {P : σ → Prop} (hbody : ∀ p s, P s → p ∈ on s → P (body p s).1) :
    ∀ (ps : List ι) (s : σ), P s → P (rounds on body ps s) := by
  intro ps
  induction ps with
  | nil => intro s h; exact h
  | cons p ps ih =>
    intro s h; unfold rounds
    split
    · rename_i hp
      split
      · exact ih _ (hbody p s h hp)
      · exact hbody p s h hp
    · exact ih s h

theorem walk_inv {P : σ → Prop} (hbody : ∀ p s, P s → p ∈ on s → P (body p s).1) {s : σ} (h : P s) :
    P (walk on body s) :=
  rounds_inv hbody _ s h

/-- Every round takes its element off the list or out of kind `D`, and adds none of that kind; where the loop is left,
    none is there: then none is left. `P` is what the rounds may rely on. -/
theorem walk_none {P : σ → Prop} {D : σ → ι → Prop} (hbody : ∀ p s, P s → p ∈ on s → P (body p s).1)
    (hstop : ∀ p s, P s → p ∈ on s → (body p s).2 = false → ∀ q, ¬ D (body p s).1 q)
    (hless : ∀ p s, P s → p ∈ on s → ∀ q ∈ on (body p s).1, D (body p s).1 q → q ≠ p ∧ q ∈ on s ∧ D s q)
    {s : σ} (h : P s) : ∀ q ∈ on (walk on body s), ¬ D (walk on body s) q := by
  have key : ∀ (ps : List ι) (s : σ), P s → (∀ q ∈ on s, D s q → q ∈ ps) →
      ∀ q ∈ on (rounds on body ps s), ¬ D (rounds on body ps s) q := by
    intro ps
    induction ps with
    | nil => intro s _ hps q hq hD; exact absurd (hps q hq hD) not_mem_nil
    | cons p ps ih =>
      intro s hs hps; unfold rounds
      split
      · rename_i hp
        split
        · refine ih _ (hbody p s hs hp) ?_
          intro q hq hD
          obtain ⟨hne, hq', hD'⟩ := hless p s hs hp q hq hD
          exact (mem_cons.mp (hps q hq' hD')).resolve_left hne
        · rename_i hgo; intro q _; exact hstop p s hs hp (by simpa using hgo) q
      · rename_i hp
        refine ih s hs ?_
        intro q hq hD
        refine (mem_cons.mp (hps q hq hD)).resolve_left ?_
        rintro rfl
        exact hp hq
  exact key (on s) s h fun q hq _ => hq

/-- A loop that is not left early and finds every element of the list it began with:
    `R` relates the elements behind it and those still to come to the state. -/
lemma walk_through {R : List ι → List ι → σ → Prop} (hon : ∀ {ps p qs s}, R ps (p :: qs) s → p ∈ on s ∧ (body p s).2 = true)
    (hstep : ∀ {ps p qs s}, R ps (p :: qs) s → R (ps ++ [p]) qs (body p s).1) {s : σ} (h : R [] (on s) s) :
    R (on s) [] (walk on body s) := by
  have key : ∀ (qs ps : List ι) (s : σ), R ps qs s → R (ps ++ qs) [] (rounds on body qs s) := by
    intro qs
    induction qs with
    | nil => intro ps s h; rw [append_nil]; exact h
    | cons p qs ih =>
      intro ps s h; unfold rounds
      rw [if_pos (hon h).1, if_pos (hon h).2]
      have := ih (ps ++ [p]) _ (hstep h)
      rwa [append_assoc] at this
  exact key (on s) [] s h

/-- A loop that finds every element until it is left: what holds where it is left, and at its end, holds after it. -/
theorem walk_until {R : List ι → List ι → σ → Prop} {Q : σ → Prop} (hon : ∀ {ps p qs s}, R ps (p :: qs) s → p ∈ on s)
    (hstep : ∀ {ps p qs s}, R ps (p :: qs) s → (body p s).2 = true → R (ps ++ [p]) qs (body p s).1)
    (hstop : ∀ {ps p qs s}, R ps (p :: qs) s → (body p s).2 = false → Q (body p s).1)
    (hend : ∀ {ps s}, R ps [] s → Q s) {s : σ} (h : R [] (on s) s) : Q (walk on body s) := by
  have key : ∀ (qs ps : List ι) (s : σ), R ps qs s → Q (rounds on body qs s) := by
    intro qs
    induction qs with
    | nil => intro ps s h; exact hend h
    | cons p qs ih =>
      intro ps s h; unfold rounds
      rw [if_pos (hon h)]; split
      · rename_i hgo; exact ih _ _ (hstep h hgo)
      · rename_i hgo; exact hstop h (by simpa using hgo)
  exact key (on s) [] s h

/-- What a loop comes to: the elements, whether they are still in the list or not, with the state it finds them in. -/
def visits (on : σ → List ι) (body : ι → σ → σ × Bool) : List ι → σ → List (ι × σ)
  | [], _ => []
  | p :: ps, s =>
    (p, s) ::
      if p ∈ on s then
        if (body p s).2 then visits on body ps (body p s).1 else []
      else visits on body ps s

lemma visits_sublist (on : σ → List ι) (body : ι → σ → σ × Bool) : ∀ (ps : List ι) (s : σ),
    ((visits on body ps s).map Prod.fst).Sublist ps := by
  intro ps
  induction ps with
  | nil => intro s; exact .refl _
  | cons p ps ih =>
    intro s; unfold visits
    refine List.Sublist.cons_cons p ?_
    split
    · split
      · exact ih _
      · exact nil_sublist _
    · exact ih s

theorem visits_forall {R : List ι → σ → Prop} {Q : ι → σ → Prop} (hon : ∀ {p ps s}, R (p :: ps) s → p ∈ on s ∧ Q p s)
    (hstep : ∀ {p ps s}, R (p :: ps) s → (body p s).2 = true → R ps (body p s).1) :
    ∀ {ps : List ι} {s : σ}, R ps s → ∀ v ∈ visits on body ps s, Q v.1 v.2 := by
  intro ps
  induction ps with
  | nil => intro s _ v hv; cases hv
  | cons p ps ih =>
    intro s h v hv; unfold visits at hv
    rw [if_pos (hon h).1] at hv
    rcases mem_cons.mp hv with rfl | hv
    · exact (hon h).2
    · split at hv
      · rename_i hgo; exact ih (hstep h hgo) v hv
      · cases hv

theorem visits_mem {R : List ι → σ → Prop} {D : ι → Prop} (hon : ∀ {p ps s}, R (p :: ps) s → p ∈ on s)
    (hstep : ∀ {p ps s}, R (p :: ps) s → (body p s).2 = true → R ps (body p s).1)
    (hstop : ∀ {p ps s}, R (p :: ps) s → (body p s).2 = false → ∀ q ∈ ps, ¬ D q) :
    ∀ {ps : List ι} {s : σ}, R ps s → ∀ p ∈ ps, D p → ∃ t, (p, t) ∈ visits on body ps s := by
  intro ps
  induction ps with
  | nil => intro s _ p hp; cases hp
  | cons q ps ih =>
    intro s h p hp hD; unfold visits
    rw [if_pos (hon h)]
    rcases mem_cons.mp hp with rfl | hp
    · exact ⟨s, mem_cons_self⟩
    · cases hgo : (body q s).2 with
      | true =>
        obtain ⟨t, ht⟩ := ih (hstep h hgo) p hp hD
        exact ⟨t, mem_cons_of_mem _ ht⟩
      | false => exact absurd hD (hstop h hgo p hp)

end Walk

end RlccQuic.Lib
