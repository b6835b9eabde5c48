/-
  RlccQuic.Lib.Feed — readers that take their input one symbol at a time.

  A reader's step takes a symbol and gives a new state, or the item that is complete with it, or fails. Such a reader
  does not care how its input is cut: what it has read is in its state.

  Proved: reading on after a part is reading the whole (`feed_append`, `items_append`); what every step keeps holds of what
  is read (`feed_inv`); a reader inside another reads as it does alone (`feed_inside`); items that are written one behind the
  other are read back (`items_flatMap`); acting on each item as it is complete is acting on all the items (`process_eq`); and
  a reader of buffers that does on each buffer what the steps do may be given any buffers (`bufferLoop_eq`, `bufferItems_eq`).
-/

namespace RlccQuic.Lib

open List Option

variable {σ σ' τ υ β δ : Type}

/-! ## One item -/

/-- Symbols until the item is complete or there are no more; what is left is given back. -/
def feed (step : σ → β → Option (σ ⊕ τ)) : σ → List β → Option ((σ ⊕ τ) × List β)
  | s, [] => some (.inl s, [])
  | s, b :: bs =>
    match step s b with
    | none => none
    | some (.inl s) => feed step s bs
    | some (.inr t) => some (.inr t, bs)

variable {step : σ → β → Option (σ ⊕ τ)}

theorem feed_append (s : σ) (a b : List β) :
    feed step s (a ++ b) =
      match feed step s a with
      | none => none
      | some (.inl s', _) => feed step s' b
      | some (.inr t, r) => some (.inr t, r ++ b) := by
  induction a generalizing s with
  | nil => rfl
  | cons x xs ih =>
    rw [cons_append, feed, feed]; split
    · rfl
    · exact ih _
    · rfl

variable {s : σ} {a : List β}

/-- A reader whose item is not complete has read everything, and one whose item is complete has read something. -/
theorem feed_rest {r : σ ⊕ τ} {rest : List β} (ha : a ≠ []) (h : feed step s a = some (r, rest)) :
    rest.length < a.length ∧ (r.isLeft → rest = []) := by
  induction a generalizing s with
  | nil => exact absurd rfl ha
  | cons b bs ih =>
    rw [feed] at h; split at h
    · cases h
    · rename_i s' hs
      cases bs with
      | nil => cases h; exact ⟨Nat.one_pos, fun _ => rfl⟩
      | cons c cs =>
        obtain ⟨hlt, hnil⟩ := ih (cons_ne_nil c cs) h
        exact ⟨Nat.lt_trans hlt (Nat.lt_succ_self _), hnil⟩
    · cases h; exact ⟨Nat.lt_succ_self _, fun hl => nomatch hl⟩

theorem feed_inv {P : σ ⊕ τ → Prop} (hstep : ∀ s b r, P (.inl s) → step s b = some r → P r) {r : σ ⊕ τ} {rest : List β}
    (h : P (.inl s)) (hr : feed step s a = some (r, rest)) : P r := by
  induction a generalizing s with
  | nil => cases hr; exact h
  | cons b bs ih =>
    rw [feed] at hr; split at hr
    · cases hr
    · rename_i hs; exact ih (hstep _ _ _ h hs) hr
    · rename_i hs; cases hr; exact hstep _ _ _ h hs

/-- A reader inside another: its states are states of the other, and what the other does with its item is `g`. -/
theorem feed_inside {step' : σ' → β → Option (σ' ⊕ υ)} {f : σ → σ'} {g : τ → σ' ⊕ υ}
    (hstep : ∀ s b, step' (f s) b = (step s b).map (Sum.elim (fun s => .inl (f s)) g)) (s : σ) (a : List β) :
    feed step' (f s) a =
      match feed step s a with
      | none => none
      | some (.inl s', rest) => some (.inl (f s'), rest)
      | some (.inr t, rest) => Sum.elim (fun s' => feed step' s' rest) (fun u => some (.inr u, rest)) (g t) := by
  induction a generalizing s with
  | nil => rfl
  | cons b bs ih =>
    rw [feed, feed, hstep]
    cases step s b with
    | none => rfl
    | some r =>
      cases r with
      | inl s' => exact ih s'
      | inr t => simp only [Option.map_some, Sum.elim_inr]; cases g t <;> rfl

theorem feed_lift {step' : σ' → β → Option (σ' ⊕ υ)} {f : σ → σ'} {g : τ → σ' ⊕ υ}
    (hstep : ∀ s b, step' (f s) b = (step s b).map (Sum.elim (fun s => .inl (f s)) g)) {t : τ}
    (h : feed step s a = some (.inr t, [])) : feed step' (f s) a = some (g t, []) := by
  rw [feed_inside hstep, h]
  dsimp only
  cases g t <;> rfl

theorem feed_first {s₀ : σ} {choose : β → σ} (hfirst : ∀ b, step s₀ b = step (choose b) b) {b : β} {bs : List β}
    (ha : a = b :: bs) (hs : choose b = s) : feed step s₀ a = feed step s a := by
  rw [ha, feed, feed, hfirst, hs]

/-! ## Item after item -/

/-- The items that are complete and the state of the one that is not. -/
def items (step : σ → β → Option (σ ⊕ τ)) (s₀ : σ) : σ → List β → Option (σ × List τ)
  | s, [] => some (s, [])
  | s, b :: bs =>
    match step s b with
    | none => none
    | some (.inl s) => items step s₀ s bs
    | some (.inr t) => (items step s₀ s₀ bs).map fun r => (r.1, t :: r.2)

theorem items_append (s₀ s : σ) (a b : List β) :
    items step s₀ s (a ++ b) =
      (items step s₀ s a).bind fun r => (items step s₀ r.1 b).map fun q => (q.1, r.2 ++ q.2) := by
  induction a generalizing s with
  | nil => simp [items]
  | cons x xs ih =>
    rw [cons_append, items, items]; split
    · rfl
    · exact ih _
    · rw [ih]
      cases items step s₀ s₀ xs with
      | none => rfl
      | some r => cases h : items step s₀ r.1 b <;> simp [h]

variable {s₀ : σ} {ts : List τ}

theorem items_split {s' : σ} {b : List β} (h : items step s₀ s (a ++ b) = some (s', ts)) :
    ∃ m ts₁ ts₂, items step s₀ s a = some (m, ts₁) ∧ items step s₀ m b = some (s', ts₂) ∧ ts = ts₁ ++ ts₂ := by
  rw [items_append] at h
  obtain ⟨⟨m, ts₁⟩, hone, htwo⟩ := bind_eq_some_iff.mp h
  obtain ⟨⟨s'', ts₂⟩, hmore, hsum⟩ := map_eq_some_iff.mp htwo
  cases hsum; exact ⟨m, ts₁, ts₂, hone, hmore, rfl⟩

theorem items_of_feed {t : τ} (h : feed step s a = some (.inr t, [])) : items step s₀ s a = some (s₀, [t]) := by
  induction a generalizing s with
  | nil => cases h
  | cons b bs ih =>
    unfold feed at h
    unfold items; split at h
    · cases h
    · exact ih h
    · cases h; rfl

theorem items_flatMap {write : τ → List β}
    (h : ∀ t ∈ ts, feed step s₀ (write t) = some (.inr t, [])) : items step s₀ s₀ (ts.flatMap write) = some (s₀, ts) := by
  induction ts with
  | nil => rfl
  | cons t ts ih =>
    rw [flatMap_cons, items_append, items_of_feed (h t mem_cons_self)]
    simp [ih fun u hu => h u (mem_cons_of_mem _ hu)]

theorem items_written {write : τ → List β} {us : List τ} (ha : items step s₀ s a = some (s₀, ts))
    (h : ∀ u ∈ us, feed step s₀ (write u) = some (.inr u, [])) :
    items step s₀ s (a ++ us.flatMap write) = some (s₀, ts ++ us) := by
  rw [items_append, ha]
  simp [items_flatMap h]

/-! ## Acting on the items -/

theorem foldlM_inv {act : δ → τ → Option δ} {P : δ → Prop} {d d' : δ}
    (hact : ∀ t ∈ ts, ∀ d d', P d → act d t = some d' → P d') (hd : P d) (h : ts.foldlM act d = some d') : P d' := by
  induction ts generalizing d with
  | nil => cases h; exact hd
  | cons t ts ih =>
    obtain ⟨e, hone, hrest⟩ := bind_eq_some_iff.mp h
    exact ih (fun u hu => hact u (mem_cons_of_mem _ hu)) (hact t mem_cons_self d e hd hone) hrest

/-- As `foldlM_inv`, with what was done before each item. -/
theorem foldlM_inv_at {act : δ → τ → Option δ} {P : δ → Prop} {d₀ : δ} (ts : List τ) :
    ∀ pre d d', pre.foldlM act d₀ = some d → P d → (∀ is t more, pre ++ ts = is ++ t :: more →
      ∀ d d', is.foldlM act d₀ = some d → P d → act d t = some d' → P d') → ts.foldlM act d = some d' → P d' := by
  induction ts with
  | nil => intro pre d d' _ hd _ h; cases h; exact hd
  | cons t ts ih =>
    intro pre d d' hpre hd hact h
    obtain ⟨e, hone, hrest⟩ := bind_eq_some_iff.mp h
    refine ih (pre ++ [t]) e d' ?_ (hact pre t ts rfl d e hpre hd hone) (fun is u more hs => hact is u more ?_) hrest
    · simp [foldlM_append, hpre, hone]
    · rw [← hs, append_assoc]; rfl

def process (step : σ → β → Option (σ ⊕ τ)) (s₀ : σ) (act : δ → τ → Option δ) : σ → δ → List β → Option (σ × δ)
  | s, d, [] => some (s, d)
  | s, d, b :: bs =>
    match step s b with
    | none => none
    | some (.inl s) => process step s₀ act s d bs
    | some (.inr t) =>
      match act d t with
      | none => none
      | some d => process step s₀ act s₀ d bs

theorem process_eq (act : δ → τ → Option δ) (d : δ) :
    process step s₀ act s d a = (items step s₀ s a).bind fun r => (r.2.foldlM act d).map fun d => (r.1, d) := by
  induction a generalizing s d with
  | nil => rfl
  | cons b bs ih =>
    unfold items process
    cases step s b with
    | none => rfl
    | some r =>
      cases r with
      | inl s' => exact ih d
      | inr t =>
        dsimp only
        cases hact : act d t with
        | none => cases items step s₀ s₀ bs <;> simp [hact]
        | some d' =>
          refine (ih d').trans ?_
          cases items step s₀ s₀ bs <;> simp [hact]

/-! ## Reading buffers -/

theorem process_feed (act : δ → τ → Option δ) (d : δ) :
    process step s₀ act s d a =
      match feed step s a with
      | none => none
      | some (.inl s', _) => some (s', d)
      | some (.inr t, rest) => (act d t).bind fun d => process step s₀ act s₀ d rest := by
  induction a generalizing s with
  | nil => rfl
  | cons b bs ih =>
    rw [feed, process]
    cases step s b with
    | none => rfl
    | some r =>
      cases r with
      | inl s' => exact ih
      | inr t => dsimp only; cases act d t <;> rfl

/-- A loop over a buffer: each call reads to the end of an item or of the buffer. Every call reads something, so the length
    of the buffer is fuel enough. -/
def bufferLoop (read : σ → List β → Option ((σ ⊕ τ) × List β)) (s₀ : σ) (act : δ → τ → Option δ) :
    Nat → σ → δ → List β → Option (σ × δ)
  | 0, s, d, _ => some (s, d)
  | _ + 1, s, d, [] => some (s, d)
  | fuel + 1, s, d, b :: bs =>
    match read s (b :: bs) with
    | none => none
    | some (.inl s, rest) => bufferLoop read s₀ act fuel s d rest
    | some (.inr t, rest) => (act d t).bind fun d => bufferLoop read s₀ act fuel s₀ d rest

/-- Bytes behind an item that is not complete are an error. -/
def complete (read : σ → List β → Option ((σ ⊕ τ) × List β)) (s : σ) (buf : List β) : Option ((σ ⊕ τ) × List β) :=
  match read s buf with
  | none => none
  | some (.inl s, rest) => if rest.isEmpty then some (.inl s, rest) else none
  | some (.inr t, rest) => some (.inr t, rest)

/-- A reader of buffers reads as its step does, in the states that the step keeps. -/
structure ReadsAs (read : σ → List β → Option ((σ ⊕ τ) × List β)) (step : σ → β → Option (σ ⊕ τ)) (Good : σ → Prop) :
    Prop where
  read : ∀ s buf, Good s → buf ≠ [] → read s buf = feed step s buf
  kept : ∀ s b s', Good s → step s b = some (.inl s') → Good s'

variable {read : σ → List β → Option ((σ ⊕ τ) × List β)} {Good : σ → Prop}

theorem ReadsAs.complete (h : ReadsAs read step Good) : ReadsAs (complete read) step Good := by
  refine ⟨fun s buf hs hbuf => ?_, h.kept⟩
  rw [Lib.complete, h.read s buf hs hbuf]
  cases hf : feed step s buf with
  | none => rfl
  | some r =>
    obtain ⟨r, rest⟩ := r
    cases r with
    | inl s' => dsimp only; rw [if_pos (List.isEmpty_iff.mpr ((feed_rest hbuf hf).2 rfl))]
    | inr t => rfl

theorem bufferLoop_eq (h : ReadsAs read step Good) (h₀ : Good s₀) (act : δ → τ → Option δ) (fuel : Nat) (d : δ)
    (hs : Good s) (hfuel : a.length ≤ fuel) : bufferLoop read s₀ act fuel s d a = process step s₀ act s d a := by
  induction fuel generalizing s d a with
  | zero => rw [List.eq_nil_of_length_eq_zero (Nat.le_zero.mp hfuel)]; rfl
  | succ fuel ih =>
    cases a with
    | nil => rfl
    | cons b bs =>
      rw [bufferLoop, process_feed, h.read s _ hs (cons_ne_nil b bs)]
      cases hf : feed step s (b :: bs) with
      | none => rfl
      | some r =>
        obtain ⟨r, rest⟩ := r
        obtain ⟨hlt, hnil⟩ := feed_rest (cons_ne_nil b bs) hf
        cases r with
        | inl s' => rw [hnil rfl]; cases fuel <;> rfl
        | inr t =>
          dsimp only
          congr 1
          funext d'
          exact ih d' h₀ (by omega)

theorem process_good (h : ReadsAs read step Good) (h₀ : Good s₀) {act : δ → τ → Option δ} {d d' : δ} {s' : σ}
    (hs : Good s) (hp : process step s₀ act s d a = some (s', d')) : Good s' := by
  induction a generalizing s d with
  | nil => cases hp; exact hs
  | cons b bs ih =>
    unfold process at hp; split at hp
    · cases hp
    · rename_i hstep; exact ih (h.kept _ _ _ hs hstep) hp
    · split at hp
      · cases hp
      · exact ih h₀ hp

/-- Buffer after buffer, with the items that are complete. -/
def bufferItems (read : σ → List β → Option ((σ ⊕ τ) × List β)) (s₀ : σ) : σ → List τ → List (List β) → Option (σ × List τ)
  | s, ts, [] => some (s, ts)
  | s, ts, a :: as =>
    (bufferLoop read s₀ (fun ts t => some (ts ++ [t])) a.length s ts a).bind fun r => bufferItems read s₀ r.1 r.2 as

theorem bufferItems_eq (h : ReadsAs read step Good) (h₀ : Good s₀) {as : List (List β)} (hs : Good s) :
    bufferItems read s₀ s ts as = (items step s₀ s as.flatten).map fun r => (r.1, ts ++ r.2) := by
  have hfold : ∀ us ts : List τ, us.foldlM (fun ts t => some (ts ++ [t])) ts = some (ts ++ us) := by
    intro us
    induction us with
    | nil => simp
    | cons u us ih => simp [ih]
  induction as generalizing s ts with
  | nil => simp [bufferItems, items]
  | cons a as ih =>
    rw [bufferItems, flatten_cons, items_append, bufferLoop_eq h h₀ _ _ _ hs (Nat.le_refl _)]
    cases hp : process step s₀ (fun ts t => some (ts ++ [t])) s ts a with
    | none =>
      rw [process_eq] at hp
      cases hi : items step s₀ s a with
      | none => rfl
      | some r => simp [hi, hfold] at hp
    | some r =>
      have hgood := process_good h h₀ hs hp
      rw [process_eq] at hp
      cases hi : items step s₀ s a with
      | none => simp [hi] at hp
      | some q =>
        simp only [hi, bind_some, hfold, map_some, some.injEq] at hp
        subst hp
        simp only [bind_some]
        rw [ih hgood]
        cases items step s₀ q.1 as.flatten <;> simp

end RlccQuic.Lib
