/-
  RlccQuic.Lib.Cursor — parsers that walk a pointer through memory.

  A C parser of a buffer reads through a pointer it moves itself; nothing but its own tests keeps it inside the buffer.
  Here memory is a byte for every address, a parser takes the pointer, and what it does is a result together with every
  stretch of memory it read, also when it fails.

  Proved: a parser in two parts is safe exactly when the first part reads inside the buffer and the second is safe wherever
  the first leaves the pointer (`safe_bind_iff`); what is built of parsers that test before each read tests before each read
  (`Bounded.bind`); what is built of parsers that do not move the pointer back does not either (`Forward.bind`).
-/

namespace RlccQuic.Lib.Cursor

open List

abbrev Mem := Nat → UInt8

structure Seg where
  start : Nat
  len : Nat
  deriving DecidableEq, Repr

structure Res (ε α : Type) where
  reads : List Seg
  /-- The value and the pointer after it. -/
  out : Except ε (α × Nat)

def Cur (ε α : Type) : Type := Nat → Res ε α

variable {ε α β : Type}

def Cur.pure (a : α) : Cur ε α := fun p => ⟨[], .ok (a, p)⟩

def Cur.bind (m : Cur ε α) (f : α → Cur ε β) : Cur ε β := fun p =>
  match (m p).out with
  | .error e => ⟨(m p).reads, .error e⟩
  | .ok (a, q) => ⟨(m p).reads ++ (f a q).reads, (f a q).out⟩

instance : Monad (Cur ε) where
  pure := Cur.pure
  bind := Cur.bind

def fail (e : ε) : Cur ε α := fun _ => ⟨[], .error e⟩

def here : Cur ε Nat := fun p => ⟨[], .ok (p, p)⟩

def byte (mem : Mem) : Cur ε UInt8 := fun p => ⟨[⟨p, 1⟩], .ok (mem p, p + 1)⟩

def peek (mem : Mem) : Cur ε UInt8 := fun p => ⟨[⟨p, 1⟩], .ok (mem p, p)⟩

def slice (mem : Mem) (p n : Nat) : List UInt8 := (List.range n).map fun i => mem (p + i)

/-- `memcpy` of `n` bytes from the pointer, untested. -/
def look (mem : Mem) (n : Nat) : Cur ε (List UInt8) := fun p => ⟨[⟨p, n⟩], .ok (slice mem p n, p)⟩

def skip (n : Nat) : Cur ε Unit := fun p => ⟨[], .ok ((), p + n)⟩

def check (b : Bool) (e : ε) : Cur ε Unit := if b then Cur.pure () else fail e

/-! ## Results -/

variable {m : Cur ε α} {f : α → Cur ε β} {p : Nat} {e : ε}

theorem bind_error (h : (m p).out = .error e) : (m >>= f) p = ⟨(m p).reads, .error e⟩ := by
  show Cur.bind m f p = _
  simp only [Cur.bind, h]

variable {q : Nat} {a : α}

theorem bind_ok (h : (m p).out = .ok (a, q)) : (m >>= f) p = ⟨(m p).reads ++ (f a q).reads, (f a q).out⟩ := by
  show Cur.bind m f p = _
  simp only [Cur.bind, h]

instance : LawfulMonad (Cur ε) := LawfulMonad.mk' (Cur ε)
  (by
    intro α x
    funext p
    show Cur.bind x _ p = x p
    unfold Cur.bind
    cases h : x p with
    | mk reads out => cases out <;> simp [Function.comp, Cur.pure])
  (by
    intro α β x f
    rfl)
  (by
    intro α β γ x f g
    funext p
    cases hx : (x p).out with
    | error e => rw [bind_error hx, bind_error (show ((x >>= f) p).out = .error e by rw [bind_error hx]), bind_error hx]
    | ok y =>
      rw [bind_ok hx]
      cases hf : (f y.1 y.2).out with
      | error e =>
        rw [bind_error (show ((x >>= f) p).out = .error e by rw [bind_ok hx]; exact hf), bind_ok hx, bind_error hf]
      | ok z =>
        rw [bind_ok (show ((x >>= f) p).out = .ok z by rw [bind_ok hx]; exact hf), bind_ok hx, bind_ok hf]
        simp only [append_assoc])

theorem out_bind_of_ok (h : (m p).out = .ok (a, q)) : ((m >>= f) p).out = (f a q).out := by
  rw [bind_ok h]

theorem out_bind_of_error (h : (m p).out = .error e) : ((m >>= f) p).out = .error e := by
  rw [bind_error h]

@[simp] theorem out_bind_ok {x : β × Nat} :
    ((m >>= f) p).out = .ok x ↔ ∃ a q, (m p).out = .ok (a, q) ∧ (f a q).out = .ok x := by
  cases h : (m p).out with
  | error e => rw [bind_error h]; exact ⟨nofun, fun ⟨_, _, h', _⟩ => (by cases h')⟩
  | ok y => rw [bind_ok h]; exact ⟨fun hx => ⟨_, _, rfl, hx⟩, fun ⟨_, _, h', hx⟩ => by cases h'; exact hx⟩

@[simp] theorem out_pure_ok {x : α × Nat} : ((Pure.pure a : Cur ε α) p).out = .ok x ↔ x = (a, p) :=
  ⟨fun h => by cases h; rfl, fun h => by rw [h]; rfl⟩

@[simp] theorem out_here_ok {x : Nat × Nat} : ((here : Cur ε Nat) p).out = .ok x ↔ x = (p, p) :=
  ⟨fun h => by cases h; rfl, fun h => by rw [h]; rfl⟩

@[simp] theorem out_byte_ok {mem : Mem} {x : UInt8 × Nat} :
    ((byte mem : Cur ε UInt8) p).out = .ok x ↔ x = (mem p, p + 1) :=
  ⟨fun h => by cases h; rfl, fun h => by rw [h]; rfl⟩

variable {n : Nat}

@[simp] theorem out_look_ok {mem : Mem} {x : List UInt8 × Nat} :
    ((look mem n : Cur ε (List UInt8)) p).out = .ok x ↔ x = (slice mem p n, p) :=
  ⟨fun h => by cases h; rfl, fun h => by rw [h]; rfl⟩

@[simp] theorem out_skip_ok {x : Unit × Nat} : ((skip n : Cur ε Unit) p).out = .ok x ↔ x = ((), p + n) :=
  ⟨fun h => by cases h; rfl, fun h => by rw [h]; rfl⟩

@[simp] theorem out_check_ok {b : Bool} {x : Unit × Nat} : (check b e p).out = .ok x ↔ b = true ∧ x = ((), p) := by
  cases b with
  | true => exact ⟨fun h => by cases h; exact ⟨rfl, rfl⟩, fun h => by rw [h.2]; rfl⟩
  | false => exact ⟨nofun, fun h => (by cases h.1)⟩

/-! ## Safety -/

def Seg.Within (lo hi : Nat) (s : Seg) : Prop := s.len = 0 ∨ lo ≤ s.start ∧ s.start + s.len ≤ hi

instance (lo hi : Nat) (s : Seg) : Decidable (s.Within lo hi) := inferInstanceAs (Decidable (_ ∨ _))

/-- Every read is inside, and so is the pointer if there is a result. -/
structure Safe (lo hi : Nat) (r : Res ε α) : Prop where
  reads : ∀ s ∈ r.reads, s.Within lo hi
  out : ∀ a q, r.out = .ok (a, q) → q ≤ hi

variable {lo hi : Nat}

theorem safe_bind_iff :
    Safe lo hi ((m >>= f) p) ↔
      (∀ s ∈ (m p).reads, s.Within lo hi) ∧ ∀ a q, (m p).out = .ok (a, q) → Safe lo hi (f a q) := by
  cases h : (m p).out with
  | error e => rw [bind_error h]; exact ⟨fun hs => ⟨hs.reads, nofun⟩, fun hs => ⟨hs.1, nofun⟩⟩
  | ok r =>
    obtain ⟨a, q⟩ := r
    rw [bind_ok h]
    refine ⟨fun hs => ⟨fun s hm => hs.reads s (mem_append_left _ hm), fun a' q' e => ?_⟩, fun ⟨h1, h2⟩ => ?_⟩
    · cases e; exact ⟨fun s hm => hs.reads s (mem_append_right _ hm), hs.out⟩
    · have hs := h2 a q rfl
      exact ⟨forall_mem_append.mpr ⟨h1, hs.reads⟩, hs.out⟩

theorem safe_pure_iff : Safe lo hi ((Pure.pure a : Cur ε α) p) ↔ p ≤ hi :=
  ⟨fun h => h.out a p rfl, fun h => ⟨nofun, fun _ _ e => by cases e; exact h⟩⟩

theorem safe_look_bind_iff {mem : Mem} {f : List UInt8 → Cur ε β} :
    Safe lo hi ((look mem n >>= f) p) ↔ (Seg.mk p n).Within lo hi ∧ Safe lo hi (f (slice mem p n) p) := by
  rw [safe_bind_iff]
  refine and_congr (by simp [look]) ⟨fun h => h _ _ rfl, fun h a q e => ?_⟩
  cases e; exact h

theorem safe_skip_bind_iff {f : Unit → Cur ε β} :
    Safe lo hi ((skip n >>= f) p) ↔ Safe lo hi (f () (p + n)) := by
  rw [safe_bind_iff]
  refine ⟨fun h => h.2 _ _ rfl, fun h => ⟨nofun, fun a q e => ?_⟩⟩
  cases e; exact h

theorem safe_check_bind_iff {b : Bool} {f : Unit → Cur ε β} :
    Safe lo hi ((check b e >>= f) p) ↔ (b = true → Safe lo hi (f () p)) := by
  rw [safe_bind_iff]
  cases b with
  | true => exact ⟨fun h _ => h.2 _ _ rfl, fun h => ⟨nofun, fun a q e => by cases e; exact h rfl⟩⟩
  | false => exact ⟨fun _ => nofun, fun _ => ⟨nofun, nofun⟩⟩

/-! ## Parsers that test before they read -/

/-- From `p` it stays inside and does not move back. -/
structure BoundedAt (lo hi p : Nat) (m : Cur ε α) : Prop where
  reads : ∀ s ∈ (m p).reads, s.Within lo hi
  out : ∀ a q, (m p).out = .ok (a, q) → p ≤ q ∧ q ≤ hi

def Bounded (lo hi : Nat) (m : Cur ε α) : Prop := ∀ p, lo ≤ p → p ≤ hi → BoundedAt lo hi p m

theorem BoundedAt.safe (h : BoundedAt lo hi p m) : Safe lo hi (m p) :=
  ⟨h.reads, fun a q e => (h.out a q e).2⟩

theorem BoundedAt.safe_bind_iff (hm : BoundedAt lo hi p m) :
    Safe lo hi ((m >>= f) p) ↔ ∀ a q, (m p).out = .ok (a, q) → Safe lo hi (f a q) :=
  Cursor.safe_bind_iff.trans ⟨fun h => h.2, fun h => ⟨hm.reads, h⟩⟩

theorem BoundedAt.safe_bind_of_ok {hi : Nat}
    (hm : BoundedAt lo hi p m) (h : (m p).out = .ok (a, q)) : Safe lo hi ((m >>= f) p) ↔ Safe lo hi (f a q) :=
  hm.safe_bind_iff.trans ⟨fun hs => hs a q h, fun hs a' q' e => by rw [h] at e; cases e; exact hs⟩

theorem BoundedAt.safe_bind_of_error {hi : Nat}
    (hm : BoundedAt lo hi p m) (h : (m p).out = .error e) : Safe lo hi ((m >>= f) p) :=
  hm.safe_bind_iff.mpr fun a q h' => by rw [h] at h'; cases h'

theorem BoundedAt.bind (hlo : lo ≤ p) (hm : BoundedAt lo hi p m)
    (hf : ∀ a, Bounded lo hi (f a)) : BoundedAt lo hi p (m >>= f) := by
  have hnext : ∀ a q, (m p).out = .ok (a, q) → BoundedAt lo hi q (f a) := fun a q h =>
    hf a q (Nat.le_trans hlo (hm.out a q h).1) (hm.out a q h).2
  refine ⟨(hm.safe_bind_iff.mpr fun a q h => (hnext a q h).safe).reads, fun b r e => ?_⟩
  obtain ⟨a, q, ha, hb⟩ := out_bind_ok.mp e
  have h1 := hm.out a q ha
  have h2 := (hnext a q ha).out b r hb
  exact ⟨Nat.le_trans h1.1 h2.1, h2.2⟩

theorem Bounded.bind (hm : Bounded lo hi m) (hf : ∀ a, Bounded lo hi (f a)) : Bounded lo hi (m >>= f) :=
  fun p hlo hhi => (hm p hlo hhi).bind hlo hf

theorem bounded_pure (a : α) : Bounded lo hi (Pure.pure a : Cur ε α) :=
  fun _ _ hhi => ⟨nofun, fun _ _ e => by cases e; exact ⟨Nat.le_refl _, hhi⟩⟩

theorem bounded_here : Bounded lo hi (here : Cur ε Nat) :=
  fun _ _ hhi => ⟨nofun, fun _ _ e => by cases e; exact ⟨Nat.le_refl _, hhi⟩⟩

theorem bounded_check (b : Bool) (e : ε) : Bounded lo hi (check b e) := by
  cases b with
  | true => exact bounded_pure ()
  | false => exact fun _ _ _ => ⟨nofun, nofun⟩

theorem boundedAt_byte {mem : Mem} (hlo : lo ≤ p) (hhi : p < hi) :
    BoundedAt lo hi p (byte mem : Cur ε UInt8) := by
  refine ⟨fun s hs => ?_, fun a q e => by cases e; exact ⟨Nat.le_succ p, hhi⟩⟩
  obtain rfl := mem_singleton.mp hs
  exact .inr ⟨hlo, hhi⟩

theorem boundedAt_skip_one (hhi : p < hi) : BoundedAt lo hi p (skip 1 : Cur ε Unit) :=
  ⟨nofun, fun a q e => by cases e; exact ⟨Nat.le_succ p, hhi⟩⟩

/-! ## The pointer does not move back -/

def Forward (m : Cur ε α) : Prop := ∀ p a q, (m p).out = .ok (a, q) → p ≤ q

theorem Forward.bind (hm : Forward m) (hf : ∀ a, Forward (f a)) : Forward (m >>= f) := by
  intro p b r e
  obtain ⟨a, q, ha, hb⟩ := out_bind_ok.mp e
  exact Nat.le_trans (hm p a q ha) (hf a q b r hb)

theorem forward_pure (a : α) : Forward (Pure.pure a : Cur ε α) := by
  intro p b q h; cases h
  exact Nat.le_refl _

theorem forward_skip (n : Nat) : Forward (skip n : Cur ε Unit) := by
  intro p b q h; cases h
  exact Nat.le_add_right p n

theorem forward_look (mem : Mem) (n : Nat) : Forward (look mem n : Cur ε (List UInt8)) := by
  intro p b q h; cases h
  exact Nat.le_refl _

theorem forward_here : Forward (here : Cur ε Nat) := by
  intro p b q h; cases h
  exact Nat.le_refl _

theorem forward_check (b : Bool) (e : ε) : Forward (check b e) := by
  intro p a q h
  cases (out_check_ok.mp h).2
  exact Nat.le_refl _

def Advances (m : Cur ε α) : Prop := ∀ p a q, (m p).out = .ok (a, q) → p < q

theorem Advances.bind (hm : Advances m) (hf : ∀ a, Forward (f a)) : Advances (m >>= f) := by
  intro p b r e
  obtain ⟨a, q, ha, hb⟩ := out_bind_ok.mp e
  exact Nat.lt_of_lt_of_le (hm p a q ha) (hf a q b r hb)

theorem advances_byte (mem : Mem) : Advances (byte mem : Cur ε UInt8) := by
  intro p a q h; cases h
  exact Nat.lt_succ_self p

theorem advances_skip_one : Advances (skip 1 : Cur ε Unit) := by
  intro p a q h; cases h
  exact Nat.lt_succ_self p

end RlccQuic.Lib.Cursor
