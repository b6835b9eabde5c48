/-
  RlccQuic.Lib.Run — runs of a machine over events.

  A machine is a step relation on states, labelled by events. `Run` is its finite runs, `Guard` keeps only the steps
  whose event meets a condition in the state it is taken in. A machine whose step is a function also has its list of
  `visited` states.

  Proved: what every step keeps, every run keeps (`Run.inv`); a run without the events an observer does not own is a run
  of a machine that simulates the owned ones (`Run.filter`); if a condition says exactly when a step out of a good state
  is good, the visited states are all good exactly when every step meets it (`visited_forall_iff`).
-/

namespace RlccQuic.Lib

open List

variable {σ ε : Type _}

/-! ## Runs of a step relation -/

inductive Run (step : σ → ε → σ → Prop) (s : σ) : List ε → σ → Prop
  | nil : Run step s [] s
  | snoc {es t e u} : Run step s es t → step t e u → Run step s (es ++ [e]) u

/-- The steps whose event meets `C` in the state it is taken in. -/
def Guard (C : σ → ε → Prop) (step : σ → ε → σ → Prop) : σ → ε → σ → Prop := fun s e t => C s e ∧ step s e t

variable {step : σ → ε → σ → Prop} {s t : σ} {es : List ε}

theorem Run.inv {P : σ → Prop}
    (hstep : ∀ s e t, P s → step s e t → P t) (h0 : P s) (h : Run step s es t) : P t := by
  induction h with
  | nil => exact h0
  | snoc _ hs ih => exact hstep _ _ _ ih hs

variable {u : σ}

theorem Run.cons {e : ε} (hs : step s e t) (h : Run step t es u) :
    Run step s (e :: es) u := by
  induction h with
  | nil => exact .snoc .nil hs
  | snoc _ hl ih => exact .snoc ih hl

theorem Run.append {es' : List ε} (h : Run step s es t)
    (h' : Run step t es' u) : Run step s (es ++ es') u := by
  induction h' with
  | nil => rw [append_nil]; exact h
  | snoc _ hl ih => rw [← append_assoc]; exact ih.snoc hl

theorem Run.map {ε' : Type _} {step' : σ → ε' → σ → Prop} (f : ε → ε')
    (hstep : ∀ s e t, step s e t → step' s (f e) t) (h : Run step s es t) :
    Run step' s (es.map f) t := by
  induction h with
  | nil => exact .nil
  | snoc _ hl ih => rw [map_append]; exact ih.snoc (hstep _ _ _ hl)

theorem Run.nil_inv (h : Run step s [] t) : t = s := by
  generalize hl : ([] : List ε) = l at h
  cases h with
  | nil => rfl
  | snoc _ _ => simp at hl

theorem Run.snoc_inv {e : ε} (h : Run step s (es ++ [e]) u) :
    ∃ t, Run step s es t ∧ step t e u := by
  generalize hl : es ++ [e] = l at h
  cases h with
  | nil => simp at hl
  | snoc hr hs =>
    obtain ⟨rfl, he⟩ := append_inj' hl rfl
    obtain rfl : e = _ := singleton_inj.mp he
    exact ⟨_, hr, hs⟩

theorem Run.det (hdet : ∀ s e t u, step s e t → step s e u → t = u) (h : Run step s es t) :
    ∀ {u : σ}, Run step s es u → t = u := by
  induction h with
  | nil => intro u hu; exact hu.nil_inv.symm
  | snoc _ hs ih =>
    intro u hu
    obtain ⟨t', hr', hs'⟩ := hu.snoc_inv
    obtain rfl := ih hr'
    exact hdet _ _ _ _ hs hs'

/-- Leaving out the events that do not belong to an observer. If these keep the relation to the reduced machine's state,
    and the others can be taken there too, what is left of a run is a run. -/
theorem Run.filter {σ' : Type _} {step' : σ' → ε → σ' → Prop} {R : σ → σ' → Prop}
    (own : ε → Bool)
    (hhidden : ∀ s e t s', R s s' → step s e t → own e = false → R t s')
    (hown : ∀ s e t s', R s s' → step s e t → own e = true → ∃ t', step' s' e t' ∧ R t t') {s' : σ'} (h0 : R s s')
    (h : Run step s es t) :
    ∃ t', Run step' s' (es.filter own) t' ∧ R t t' := by
  induction h with
  | nil => exact ⟨s', .nil, h0⟩
  | @snoc es t e u _ hs ih =>
    obtain ⟨t', hr, ht⟩ := ih
    cases ho : own e with
    | false =>
      refine ⟨t', ?_, hhidden _ _ _ _ ht hs ho⟩
      simpa [ho] using hr
    | true =>
      obtain ⟨u', hs', hu⟩ := hown _ _ _ _ ht hs ho
      refine ⟨u', ?_, hu⟩
      simpa [ho] using hr.snoc hs'

/-! ## Machines whose step is a function -/

/-- The states a run goes through, the first one included. -/
def visited (f : σ → ε → σ) (s : σ) : List ε → List σ
  | [] => [s]
  | e :: es => s :: visited f (f s e) es

/-- Every event meets `C` in the state it is taken in. -/
def Meets (C : σ → ε → Prop) (f : σ → ε → σ) (s : σ) : List ε → Prop
  | [] => True
  | e :: es => C s e ∧ Meets C f (f s e) es

theorem mem_visited_self (f : σ → ε → σ) (s : σ) (es : List ε) : s ∈ visited f s es := by
  cases es <;> exact mem_cons_self

/-- `I` is what every step keeps whatever its event; `C` says exactly when a step out of a good state is good. -/
theorem visited_forall_iff {f : σ → ε → σ} {I P : σ → Prop} {C : σ → ε → Prop} {E : ε → Prop}
    (hI : ∀ s e, I s → I (f s e)) (hstep : ∀ s e, I s → P s → E e → (P (f s e) ↔ C s e)) :
    ∀ (es : List ε) (s : σ), I s → P s → (∀ e ∈ es, E e) → ((∀ t ∈ visited f s es, P t) ↔ Meets C f s es) := by
  intro es
  induction es with
  | nil =>
    intro s _ h0 _
    simp only [visited, mem_singleton, forall_eq, Meets, h0]
  | cons e es ih =>
    intro s hi h0 hE
    have he : E e := hE e mem_cons_self
    have hes : ∀ x ∈ es, E x := fun x hx => hE x (mem_cons_of_mem _ hx)
    simp only [visited, mem_cons, forall_eq_or_imp]
    constructor
    · intro h
      have h1 : P (f s e) := h.2 _ (mem_visited_self f _ es)
      exact ⟨(hstep s e hi h0 he).mp h1, (ih _ (hI s e hi) h1 hes).mp h.2⟩
    · intro h
      have h1 : P (f s e) := (hstep s e hi h0 he).mpr h.1
      exact ⟨h0, (ih _ (hI s e hi) h1 hes).mpr h.2⟩

end RlccQuic.Lib
