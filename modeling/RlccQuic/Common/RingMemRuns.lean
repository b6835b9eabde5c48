/-
  RlccQuic.Common.RingMemRuns — any sequence of calls on a ring memory.

  Enqueue, dequeue, resize and, after an enqueue or a dequeue that succeeded, its undo.
  Beside the ring stand the entries that were enqueued and not undone.

  Proved: in every run in which indices do not go round and a ring that has a buffer grows only while its bytes are not
  cut in the new one, entries read back and compare as they were enqueued and every copy stays inside the buffers
  (`ring_is_a_byte_store`). Without the second condition it does not (`growing_an_empty_ring_reads_outside`).
-/

import Mathlib.Tactic.Tauto
import RlccQuic.Common.RingMem
import RlccQuic.Lib.Run

namespace RlccQuic.Common.RingMemRuns

open Lib Lib.Cursor RingMem List UInt64

/-! ## Runs -/

inductive Op where
  | enqueue (data : Mem) (len : UInt64)
  | dequeue (idx len : UInt64)
  /-- Of the operation before. -/
  | undo
  | resize (cap : UInt64) (alloc : Bool) (garbage : Mem)

/-- What an undo takes back: a call that succeeded just before. -/
inductive Last where
  | none
  | enqueued (idx len : UInt64)
  | dequeued (idx len : UInt64)
  deriving DecidableEq

structure Entry where
  idx : UInt64
  data : List UInt8
  deriving DecidableEq

/-- The ring, what an undo would take back, and beside them the entries that were enqueued and not undone. -/
structure St where
  ring : Rmem
  last : Last
  entries : List Entry

def start (r : Rmem) : St := ⟨r, .none, []⟩

def St.Live (s : St) (e : Entry) : Prop := e ∈ s.entries ∧ s.ring.sidx ≤ e.idx

def St.after (s : St) : Op → St
  | .enqueue data len =>
    match (xqcRingMemEnqueue s.ring data len).2 with
    | .error _ => { s with last := .none }
    | .ok (r, idx) => ⟨r, .enqueued idx len, s.entries ++ [⟨idx, slice data 0 len.toNat⟩]⟩
  | .dequeue idx len =>
    match xqcRingMemDequeue s.ring idx len with
    | .error _ => { s with last := .none }
    | .ok r => ⟨r, .dequeued idx len, s.entries⟩
  | .undo =>
    match s.last with
    | .none => s
    | .enqueued idx len =>
      match xqcRingMemUndo s.ring idx len with
      | .error _ => { s with last := .none }
      | .ok r => ⟨r, .none, s.entries.dropLast⟩
    | .dequeued idx len =>
      match xqcRingMemUndo s.ring idx len with
      | .error _ => { s with last := .none }
      | .ok r => ⟨r, .none, s.entries⟩
  | .resize cap alloc garbage =>
    match (xqcRingMemResize s.ring cap alloc garbage).2 with
    | .error _ => { s with last := .none }
    | .ok r => ⟨r, .none, s.entries⟩

def St.touched (s : St) : Op → List Touch
  | .enqueue data len => (xqcRingMemEnqueue s.ring data len).1
  | .resize cap alloc garbage => (xqcRingMemResize s.ring cap alloc garbage).1
  | _ => []

def St.sizes (s : St) (op : Op) : Block → Nat
  | .ring => s.ring.capacity.toNat
  | .fresh => (s.after op).ring.capacity.toNat
  | .user => match op with
    | .enqueue _ len => len.toNat
    | _ => 0

/-- Nothing is enqueued that is empty, and an undo follows what it takes back. -/
def St.Allowed (s : St) : Op → Prop
  | .enqueue _ len => 1 ≤ len.toNat
  | .undo => s.last ≠ .none
  | _ => True

instance (s : St) : DecidablePred s.Allowed
  | .enqueue _ _ => inferInstanceAs (Decidable (_ ≤ _))
  | .undo => inferInstanceAs (Decidable (_ ≠ _))
  | .dequeue _ _ => .isTrue trivial
  | .resize _ _ _ => .isTrue trivial

def step (s : St) (op : Op) (t : St) : Prop := s.Allowed op ∧ t = s.after op

/-- What the code needs: an index that does not go round, and a ring that grows only while
    its bytes are not cut in the new buffer. -/
def Fits (s : St) : Op → Prop
  | .enqueue _ len => s.ring.eidx.toNat + len.toNat < 2 ^ 64
  | .resize cap _ _ => s.ring.Grows cap
  | _ => True

instance (s : St) : DecidablePred (Fits s)
  | .enqueue _ _ => inferInstanceAs (Decidable (_ < _))
  | .resize cap _ _ => inferInstanceAs (Decidable (s.ring.Grows cap))
  | .dequeue _ _ => .isTrue trivial
  | .undo => .isTrue trivial

def Placed : Nat → List Entry → Prop
  | _, [] => True
  | n, e :: es => e.idx.toNat = n ∧ 1 ≤ e.data.length ∧ Placed (n + e.data.length) es

def bytes (es : List Entry) : List UInt8 := es.flatMap Entry.data

def St.keptFrom (s : St) : Nat :=
  match s.last with
  | .dequeued idx _ => idx.toNat
  | _ => s.ring.sidx.toNat

structure Inv (s : St) : Prop where
  good : s.ring.Good s.keptFrom (bytes s.entries)
  placed : Placed 0 s.entries
  enqueued : ∀ idx len, s.last = .enqueued idx len → s.ring.sidx ≤ idx ∧
    ∃ es data, s.entries = es ++ [⟨idx, data⟩] ∧ data.length = len.toNat
  dequeued : ∀ idx len, s.last = .dequeued idx len → idx.toNat + len.toNat = s.ring.sidx.toNat

lemma placed_append {es : List Entry} {e : Entry} : ∀ {n : Nat},
    Placed n (es ++ [e]) ↔ Placed n es ∧ e.idx.toNat = n + (bytes es).length ∧ 1 ≤ e.data.length := by
  induction es with
  | nil => simp [Placed, bytes]
  | cons d es ih =>
    intro n
    show (_ ∧ _ ∧ Placed _ (es ++ [e])) ↔ (_ ∧ _ ∧ Placed _ es) ∧ _
    rw [ih, show (bytes (d :: es)).length = d.data.length + (bytes es).length by simp [bytes], Nat.add_assoc]
    tauto

lemma Placed.bytes_at {es : List Entry} : ∀ {n : Nat}, Placed n es → ∀ e ∈ es,
    n ≤ e.idx.toNat ∧ e.idx.toNat + e.data.length ≤ n + (bytes es).length ∧ 1 ≤ e.data.length ∧
      ∀ k, k < e.data.length → (bytes es).getD (e.idx.toNat - n + k) 0 = e.data.getD k 0 := by
  induction es with
  | nil => exact fun _ e he => (not_mem_nil he).elim
  | cons d es ih =>
    intro n hplaced e he
    obtain ⟨hidx, hlen, hrest⟩ := hplaced
    have hcons : bytes (d :: es) = d.data ++ bytes es := by simp [bytes]
    rcases mem_cons.mp he with rfl | he
    · rw [hcons, hidx]
      refine ⟨le_rfl, by simp, hlen, fun k hk => ?_⟩
      rw [Nat.sub_self, Nat.zero_add]; exact getD_append _ _ _ _ hk
    · obtain ⟨h1, h2, h3, h4⟩ := ih hrest e he
      refine ⟨by omega, by rw [hcons, length_append]; omega, h3, fun k hk => ?_⟩
      rw [hcons, getD_append_right _ _ _ _ (by omega), ← h4 k hk]
      congr 1
      omega

section Steps

variable {s : St}

lemma Inv.forget (h : Inv s) : Inv { s with last := .none } :=
  ⟨h.good.settle, h.placed, fun _ _ he => Last.noConfusion he, fun _ _ he => Last.noConfusion he⟩

lemma Inv.enqueue (h : Inv s) {data : Mem} {len : UInt64} (hlen : 1 ≤ len.toNat)
    (hidx : s.ring.eidx.toNat + len.toNat < 2 ^ 64) :
    Inv (s.after (.enqueue data len)) ∧ Inside (s.sizes (.enqueue data len)) (s.touched (.enqueue data len)) := by
  by_cases hfit : len ≤ s.ring.capacity - s.ring.used
  · obtain ⟨ts, r, hok, hgood, hsidx, hcap, hinside⟩ := enqueue_spec (s.sizes (.enqueue data len)) h.good data hlen hfit hidx
    have hafter : s.after (.enqueue data len) =
        ⟨r, .enqueued s.ring.eidx len, s.entries ++ [⟨s.ring.eidx, slice data 0 len.toNat⟩]⟩ := by
      show (match (xqcRingMemEnqueue s.ring data len).2 with
        | .error _ => _
        | .ok (r, idx) => _) = _
      rw [hok]
    refine ⟨?_, ?_⟩
    · rw [hafter]
      refine ⟨?_, ?_, ?_, fun _ _ he => Last.noConfusion he⟩
      · show r.Good r.sidx.toNat (bytes (s.entries ++ [_]))
        rw [show bytes (s.entries ++ [⟨s.ring.eidx, slice data 0 len.toNat⟩]) =
          bytes s.entries ++ slice data 0 len.toNat by simp [bytes], hsidx]
        exact hgood
      · exact placed_append.mpr ⟨h.placed, by rw [h.good.length, Nat.zero_add], by rw [length_slice]; exact hlen⟩
      · intro idx len' he; cases he
        refine ⟨?_, _, _, rfl, length_slice _ _ _⟩
        have := h.good.used
        rw [hsidx, le_iff_toNat_le]; omega
    · show Inside _ (xqcRingMemEnqueue s.ring data len).1; rw [hok]; exact hinside rfl rfl
  · have hfull := enqueue_full data (UInt64.not_le.mp hfit)
    have hafter : s.after (.enqueue data len) = { s with last := .none } := by
      show (match (xqcRingMemEnqueue s.ring data len).2 with
        | .error _ => _
        | .ok (r, idx) => _) = _
      rw [hfull]
    refine ⟨by rw [hafter]; exact h.forget, ?_⟩
    show Inside _ (xqcRingMemEnqueue s.ring data len).1
    rw [hfull]; exact inside_nil

lemma Inv.dequeue (h : Inv s) (idx len : UInt64) : Inv (s.after (.dequeue idx len)) := by
  show Inv (match xqcRingMemDequeue s.ring idx len with
    | .error _ => _
    | .ok r => _)
  cases hcall : xqcRingMemDequeue s.ring idx len with
  | error e => exact h.forget
  | ok r =>
    obtain ⟨rfl, hsidx, -, -, hgood⟩ := dequeue_spec h.good hcall
    refine ⟨hgood, h.placed, fun _ _ he => Last.noConfusion he, fun idx' len' he => ?_⟩
    cases he; exact hsidx.symm

lemma Inv.undo (h : Inv s) : Inv (s.after .undo) := by
  show Inv (match s.last with
    | .none => s
    | .enqueued idx len => _
    | .dequeued idx len => _)
  cases hlast : s.last with
  | none => exact h
  | enqueued idx len =>
    obtain ⟨hidx, es, data, hes, hdata⟩ := h.enqueued idx len hlast
    have hplaced := h.placed
    rw [hes, placed_append] at hplaced
    obtain ⟨hbefore, hat, hlen⟩ := hplaced
    have hgood := h.good
    have hbytes : bytes s.entries = bytes es ++ data := by rw [hes]; simp [bytes]
    have hend : idx.toNat + len.toNat = s.ring.eidx.toNat := by
      have := hgood.length
      rw [hbytes, length_append] at this
      dsimp only at hat; omega
    obtain ⟨r, hok, hsidx, -, -, hgood'⟩ := undo_enqueue hgood hidx hend
    dsimp only; rw [hok]
    have hkept : s.keptFrom = s.ring.sidx.toNat := by rw [St.keptFrom, hlast]
    refine ⟨?_, ?_, fun _ _ he => Last.noConfusion he, fun _ _ he => Last.noConfusion he⟩
    · show r.Good r.sidx.toNat (bytes s.entries.dropLast)
      rw [hsidx, ← hkept, hes, dropLast_concat]
      rw [hbytes, show idx.toNat = (bytes es).length by rw [Nat.zero_add] at hat; exact hat, take_left] at hgood'
      exact hgood'
    · show Placed 0 s.entries.dropLast; rw [hes, dropLast_concat]; exact hbefore
  | dequeued idx len =>
    have hend := h.dequeued idx len hlast
    have hgood : s.ring.Good idx.toNat (bytes s.entries) := by
      have := h.good
      rwa [show s.keptFrom = idx.toNat by rw [St.keptFrom, hlast]] at this
    dsimp only
    by_cases hlen : 1 ≤ len.toNat
    · obtain ⟨r, hok, hsidx, -, -, hgood'⟩ := undo_dequeue hgood hlen hend
      rw [hok]
      refine ⟨?_, h.placed, fun _ _ he => Last.noConfusion he, fun _ _ he => Last.noConfusion he⟩
      show r.Good r.sidx.toNat _
      rw [hsidx]; exact hgood'
    · have hzero : len = 0 := UInt64.toNat_inj.mp (by show len.toNat = 0; omega)
      have hsame : idx = s.ring.sidx := UInt64.toNat_inj.mp (by omega)
      rw [hzero, hsame]
      rcases undo_nothing s.ring with hcall | hcall <;> rw [hcall] <;> exact h.forget

lemma Inv.resize (h : Inv s) {cap : UInt64} (alloc : Bool) (garbage : Mem) (hgrows : s.ring.Grows cap) :
    Inv (s.after (.resize cap alloc garbage)) ∧
      Inside (s.sizes (.resize cap alloc garbage)) (s.touched (.resize cap alloc garbage)) := by
  have hspec := resize_spec (s.sizes (.resize cap alloc garbage)) h.good alloc garbage hgrows
  have hafter : s.after (.resize cap alloc garbage) = match (xqcRingMemResize s.ring cap alloc garbage).2 with
    | .error _ => { s with last := .none }
    | .ok r => ⟨r, .none, s.entries⟩ := rfl
  have htouched : s.touched (.resize cap alloc garbage) = (xqcRingMemResize s.ring cap alloc garbage).1 := rfl
  rcases hspec with ⟨e, herr⟩ | ⟨ts, r, hok, hsidx, -, hgood, -, hinside⟩
  · rw [herr] at hafter htouched; rw [hafter, htouched]; exact ⟨h.forget, inside_nil⟩
  · rw [hok] at hafter htouched
    rw [hafter, htouched]
    refine ⟨⟨?_, h.placed, fun _ _ he => Last.noConfusion he, fun _ _ he => Last.noConfusion he⟩, hinside rfl ?_⟩
    · show r.Good r.sidx.toNat _; rw [hsidx]; exact hgood
    · show (s.after _).ring.capacity.toNat = _
      rw [hafter]

end Steps

lemma create_inv {sz : UInt64} {alloc : Bool} {garbage : Mem} {r : Rmem}
    (h : xqcRingMemCreate sz alloc garbage = some r) : Inv (start r) := by
  have hgood : r.Good 0 [] ∧ r.sidx = 0 := by
    unfold xqcRingMemCreate at h; split at h
    · split at h
      · cases h
      · rename_i hpow
        obtain ⟨k, hk, hcap, -⟩ := xqcPow2Upper_spec hpow
        split at h
        · cases h
          exact ⟨⟨.inr ⟨k, hk, hcap⟩, rfl, rfl, le_rfl, zero_le, rfl, fun i _ hi => absurd hi (Nat.not_lt_zero i)⟩,
            rfl⟩
        · cases h
    · cases h
      exact ⟨⟨.inl rfl, rfl, rfl, le_rfl, zero_le, rfl, fun i _ hi => absurd hi (Nat.not_lt_zero i)⟩, rfl⟩
  refine ⟨?_, trivial, fun _ _ he => Last.noConfusion he, fun _ _ he => Last.noConfusion he⟩
  show r.Good r.sidx.toNat []
  rw [hgood.2]; exact hgood.1

lemma step_inv {s t : St} {op : Op} (h : Inv s) (hstep : Guard Fits step s op t) : Inv t := by
  obtain ⟨hfits, hallowed, rfl⟩ := hstep
  cases op with
  | enqueue data len => exact (h.enqueue hallowed hfits).1
  | dequeue idx len => exact h.dequeue idx len
  | undo => exact h.undo
  | resize cap alloc garbage => exact (h.resize alloc garbage hfits).1

/-! ## A byte store -/

def Entry.len (e : Entry) : UInt64 := UInt64.ofNat e.data.length

def readSizes (r : Rmem) (user : Nat) : Block → Nat
  | .ring => r.capacity.toNat
  | .fresh => 0
  | .user => user

/-- Copied into a buffer that has the room, the entry is what was enqueued. -/
def ReadsBack (r : Rmem) (e : Entry) : Prop := ∀ (dst : Mem) (sz : UInt64), e.len ≤ sz →
  ∃ ts out, xqcRingMemCopy r e.idx e.len .user dst 0 sz = (ts, .ok out) ∧ slice out 0 e.data.length = e.data ∧
    Inside (readSizes r sz.toNat) ts

/-- The comparison with a buffer of the entry's length says whether it has the entry's bytes. -/
def Compares (r : Rmem) (e : Entry) : Prop := ∀ data : Mem,
  ∃ ts c, xqcRingMemCmp r e.idx data e.len = (ts, .ok c) ∧ (c = 0 ↔ slice data 0 e.data.length = e.data) ∧
    Inside (readSizes r e.data.length) ts

lemma Inv.live {s : St} (h : Inv s) {e : Entry} (he : s.Live e) : ReadsBack s.ring e ∧ Compares s.ring e := by
  obtain ⟨hmem, hidx⟩ := he
  obtain ⟨-, hend, hlen, hbytes⟩ := h.placed.bytes_at e hmem
  rw [h.good.length] at hend
  simp only [Nat.sub_zero] at hbytes
  have hlenNat : e.len.toNat = e.data.length := by
    have := s.ring.eidx.toNat_lt
    exact toNat_ofNat_of_lt' (by show _ < 2 ^ 64; omega)
  constructor
  · intro dst sz hsz
    obtain ⟨ts, hcopy, hinside⟩ := copy_spec (readSizes s.ring sz.toNat) h.good .user dst 0 hidx (by omega) (by omega) hsz
    refine ⟨ts, _, hcopy, ?_, hinside rfl ?_⟩
    · rw [slice_eq_iff]
      intro k hk
      have hread := h.good.settle.holds.read dst 0 (le_iff_toNat_le.mp hidx)
        (show e.idx.toNat + e.len.toNat ≤ s.ring.eidx.toNat by omega) ?_ (show k < e.len.toNat by omega)
      · rw [Nat.zero_add] at hread
        rw [hread, hbytes k hk]
      · have := h.good.settle.fits; have := le_iff_toNat_le.mp hidx; omega
    · rw [Nat.zero_add]; exact le_iff_toNat_le.mp hsz
  · intro data
    obtain ⟨ts, c, hcmp, hzero, hinside⟩ := cmp_spec (readSizes s.ring e.data.length) h.good data hidx
      (show 1 ≤ e.len.toNat by omega) (by omega)
    refine ⟨ts, c, hcmp, ?_, hinside rfl (by rw [hlenNat]; exact le_rfl)⟩
    rw [hzero, slice_eq_iff, hlenNat]
    exact forall₂_congr fun k hk => by rw [hbytes k hk]

/-- In every run in which indices do not go round and a ring grows only while its bytes are
    not cut in the new buffer, the ring is a byte store; and for a growing ring that
    condition is also needed to stay inside the buffers. -/
theorem ring_is_a_byte_store (sz : UInt64) (alloc : Bool) (garbage : Mem) (r : Rmem)
    (hr : xqcRingMemCreate sz alloc garbage = some r) (ops : List Op) (s : St)
    (h : Run (Guard Fits step) (start r) ops s) :
    s.ring.used = s.ring.eidx - s.ring.sidx ∧ s.ring.used ≤ s.ring.capacity ∧
      (∀ e, s.Live e → ReadsBack s.ring e ∧ Compares s.ring e) ∧
      (∀ op, s.Allowed op → Fits s op → Inside (s.sizes op) (s.touched op)) ∧
      ∀ cap garbage, s.ring.used ≤ cap →
        (Inside (s.sizes (.resize cap true garbage)) (s.touched (.resize cap true garbage)) ↔ s.ring.Grows cap) := by
  have hinv : Inv s := h.inv (P := Inv) (fun _ _ _ hi hs => step_inv hi hs) (create_inv hr)
  have hused := hinv.good.used
  refine ⟨?_, hinv.good.used_le, fun e he => hinv.live he, fun op hallowed hfits => ?_, fun cap garbage hcap => ?_⟩
  · apply UInt64.toNat_inj.mp
    rw [UInt64.toNat_sub_of_le _ _ (UInt64.le_iff_toNat_le.mpr (by omega))]; omega
  · cases op with
    | enqueue data len => exact (hinv.enqueue hallowed hfits).2
    | dequeue idx len | undo => exact inside_nil
    | resize cap alloc garbage => exact (hinv.resize alloc garbage hfits).2
  · refine ⟨fun hin => ?_, fun hgrows => (hinv.resize true garbage hgrows).2⟩
    by_contra hcut
    exact resize_outside hinv.good garbage hcap hcut rfl hin

/-! ### Two rings of four bytes -/

def abc : Mem := fun i => [97, 98, 99].getD i 0

def nothing : Mem := fun _ => 0

/-- A ring of four bytes that was filled round its end, and doubled in size. -/
def aroundTheEnd : St :=
  ((((start ⟨nothing, 4, 3, 0, 0, 0⟩).after (.enqueue abc 3)).after (.dequeue 0 3)).after (.enqueue abc 3)).after
    (.resize 8 true nothing)

theorem grown_ring_reads_back : ∃ e, aroundTheEnd.Live e ∧ e.data = [97, 98, 99] ∧ aroundTheEnd.ring.capacity = 8 ∧
    ReadsBack aroundTheEnd.ring e := by
  have hrun : Run (Guard Fits step) (start ⟨nothing, 4, 3, 0, 0, 0⟩)
      [.enqueue abc 3, .dequeue 0 3, .enqueue abc 3, .resize 8 true nothing] aroundTheEnd :=
    (((Run.nil.snoc ⟨by decide, by decide, rfl⟩).snoc ⟨trivial, trivial, rfl⟩).snoc
      ⟨by decide, by decide, rfl⟩).snoc
      ⟨by decide, trivial, rfl⟩
  have hlive : aroundTheEnd.Live ⟨3, [97, 98, 99]⟩ := ⟨by decide, by decide⟩
  refine ⟨_, hlive, rfl, by decide, ?_⟩
  exact ((ring_is_a_byte_store 4 true nothing _ rfl _ _ hrun).2.2.1 _ hlive).1

/-- A ring of four bytes that is empty and grows to eight: eight bytes are read from the
    old buffer, and then as many as there is no memory for. -/
theorem growing_an_empty_ring_reads_outside :
    xqcRingMemCreate 4 true nothing = some ⟨nothing, 4, 3, 0, 0, 0⟩ ∧
      (xqcRingMemResize ⟨nothing, 4, 3, 0, 0, 0⟩ 8 true nothing).1.filter (fun t => t.1 = .ring) =
        [(.ring, ⟨0, 8⟩), (.ring, ⟨0, 0⟩), (.ring, ⟨0, 2 ^ 64 - 8⟩)] ∧
      ¬ Inside ((start ⟨nothing, 4, 3, 0, 0, 0⟩).sizes (.resize 8 true nothing))
        ((start ⟨nothing, 4, 3, 0, 0, 0⟩).touched (.resize 8 true nothing)) := by
  refine ⟨by rfl, by decide, fun hin => ?_⟩
  have hout := hin (.ring, ⟨0, 8⟩) (by decide)
  revert hout
  decide

end RlccQuic.Common.RingMemRuns
