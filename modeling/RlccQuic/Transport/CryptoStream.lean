/-
  RlccQuic.Transport.CryptoStream — CRYPTO frames of one encryption level (`xqc_frame.c`:
  `xqc_insert_crypto_frame`; `xqc_stream.c`: `xqc_read_crypto_stream`).

  Frames are kept in order of their offset, duplicates and all. After each one the list is walked from its head: what lies
  before the cursor is freed, what reaches over it is handed to TLS from the cursor on, and the walk stops at the first frame
  beyond it. It also stops when TLS refuses a chunk, and then leaves the rest of the list for the next frame.

  Proved: the bytes handed over are always the text up to the cursor, each once, and when the last walk was not stopped
  by TLS they are the longest prefix the frames cover (`crypto_in_order`). A chunk that is refused leaves covered bytes
  behind (`refused_chunk_stops_the_walk`).
-/

import Mathlib.Data.List.Induction
import RlccQuic.Transport.StreamRecv

namespace RlccQuic.Transport.CryptoStream

open Lib StreamRecv List

/-! ## The two functions -/

/-- The walk from the tail to the place of a new frame: `left` is what is before it,
    the nearest first, `right` what the walk has passed. -/
def cryptoPlace (new : RecvFrame) : (left right : List RecvFrame) → List RecvFrame × List RecvFrame
  | [], right => ([], right)
  | frame :: left, right =>
    if new.dataOffset ≥ frame.dataOffset then (frame :: left, right) else cryptoPlace new left (frame :: right)

def xqcInsertCryptoFrame (new : RecvFrame) (d : DataIn) : DataIn :=
  let place := cryptoPlace new d.framesTailq.reverse []
  { d with framesTailq := place.1.reverse ++ new :: place.2 }

/-- What a walk leaves in the list, where the cursor is, what TLS was handed, and whether it took all of it. -/
structure Fed where
  frames : List RecvFrame
  nextReadOffset : Nat
  chunks : List (List UInt8)
  ok : Bool
  deriving DecidableEq, Repr

/-- The loop of `xqc_read_crypto_stream`; `accepts` is what `xqc_tls_process_crypto_data`
    answers to a chunk that starts there. -/
def feed (accepts : Nat → Bool) : List RecvFrame → Nat → Fed
  | [], next => ⟨[], next, [], true⟩
  | f :: fs, next =>
    if next < f.dataOffset then ⟨f :: fs, next, [], true⟩
    else if next ≥ f.dataEnd then feed accepts fs next
    else
      let dataLen := f.dataEnd - next
      let chunk := (f.data.drop (next - f.dataOffset)).take dataLen
      if accepts next then
        let rest := feed accepts fs (next + dataLen)
        { rest with chunks := chunk :: rest.chunks }
      else ⟨fs, next + dataLen, [chunk], false⟩

/-- The crypto stream of a level, and all chunks TLS was handed so far. -/
structure Crypto where
  dataIn : DataIn
  passed : List (List UInt8)
  /-- The last `xqc_read_crypto_stream` returned `XQC_OK`. -/
  ok : Bool
  deriving DecidableEq, Repr

def xqcReadCryptoStream (accepts : Nat → Bool) (s : Crypto) : Crypto :=
  let t := feed accepts s.dataIn.framesTailq s.dataIn.nextReadOffset
  { dataIn := { s.dataIn with framesTailq := t.frames, nextReadOffset := t.nextReadOffset }
    passed := s.passed ++ t.chunks
    ok := t.ok }

/-! ## Runs -/

/-- A CRYPTO frame, and how TLS answers while it is processed. -/
structure Ev where
  dataOffset : Nat
  data : List UInt8
  accepts : Nat → Bool

def Ev.frame (e : Ev) : RecvFrame := ⟨e.dataOffset, e.data, 0⟩

/-- `xqc_process_crypto_frame`: a frame is inserted, and then the list is read. -/
def step (s : Crypto) (e : Ev) : Crypto :=
  xqcReadCryptoStream e.accepts { s with dataIn := xqcInsertCryptoFrame e.frame s.dataIn }

def fresh : Crypto := ⟨⟨[], 0, 0, 0⟩, [], true⟩

def run (es : List Ev) : Crypto := es.foldl step fresh

/-! ## One insert -/

lemma cryptoPlace_spec (new : RecvFrame) (left : List RecvFrame) : ∀ right : List RecvFrame,
    Ascending (left.reverse ++ right) → (∀ f ∈ right, new.dataOffset ≤ f.dataOffset) →
      (cryptoPlace new left right).1.reverse ++ (cryptoPlace new left right).2 = left.reverse ++ right ∧
        (∀ f ∈ (cryptoPlace new left right).1, f.dataOffset ≤ new.dataOffset) ∧
        ∀ f ∈ (cryptoPlace new left right).2, new.dataOffset ≤ f.dataOffset := by
  induction left with
  | nil => intro right _ hr; exact ⟨rfl, nofun, hr⟩
  | cons f left ih =>
    intro right hs hr; rw [reverse_cons, append_assoc, singleton_append] at hs ⊢
    unfold cryptoPlace; split
    · rename_i hle
      exact ⟨by simp, left_le hs hle, hr⟩
    · rename_i hlt; exact ih (f :: right) hs (forall_mem_cons.mpr ⟨by omega, hr⟩)

lemma insert_spec (new : RecvFrame) {d : DataIn} (h : Ascending d.framesTailq) :
    Ascending (xqcInsertCryptoFrame new d).framesTailq ∧
      ∀ g, g ∈ (xqcInsertCryptoFrame new d).framesTailq ↔ g = new ∨ g ∈ d.framesTailq := by
  have hplace := cryptoPlace_spec new d.framesTailq.reverse [] (by simpa using h) nofun
  unfold xqcInsertCryptoFrame
  generalize cryptoPlace new d.framesTailq.reverse [] = place at hplace ⊢
  obtain ⟨hparts, hl, hr⟩ := hplace
  rw [reverse_reverse, append_nil] at hparts
  rw [← hparts] at h ⊢
  obtain ⟨hleft, hright, hcross⟩ := pairwise_append.mp h
  constructor
  · exact pairwise_append.mpr ⟨hleft, pairwise_cons.mpr ⟨hr, hright⟩,
      fun a ha => forall_mem_cons.mpr ⟨hl a (mem_reverse.mp ha), hcross a ha⟩⟩
  · intro g
    simp only [mem_append, mem_cons, mem_reverse]
    tauto

/-! ## One walk -/

structure Feeds (S : List UInt8) (fs : List RecvFrame) (next : Nat) (t : Fed) : Prop where
  le : next ≤ t.nextReadOffset
  chunks : t.chunks.flatten = (S.drop next).take (t.nextReadOffset - next)
  sublist : t.frames.Sublist fs
  /-- What is freed lies before the cursor. -/
  covers : ∀ i, t.nextReadOffset ≤ i → (Covers t.frames i ↔ Covers fs i)
  reached : ∀ i, next ≤ i → i < t.nextReadOffset → Covers fs i
  done : t.ok = true → ¬ Covers t.frames t.nextReadOffset

variable {S : List UInt8}

lemma chunk_eq {f : RecvFrame} {next : Nat} (h : Agrees S f.dataOffset f.data)
    (hlo : f.dataOffset ≤ next) :
    (f.data.drop (next - f.dataOffset)).take (f.dataEnd - next) = (S.drop next).take (f.dataEnd - next) := by
  have hlen : f.dataEnd = f.dataOffset + f.data.length := rfl
  by_cases hend : next ≤ f.dataEnd
  · rw [read_of_agrees h (by omega), Nat.add_sub_cancel' hlo]
  · rw [show f.dataEnd - next = 0 by omega]; rfl

lemma feed_spec (accepts : Nat → Bool) (fs : List RecvFrame) : ∀ next : Nat,
    Ascending fs → (∀ f ∈ fs, Agrees S f.dataOffset f.data) → Feeds S fs next (feed accepts fs next) := by
  induction fs with
  | nil =>
    intro next _ _
    exact ⟨le_rfl, by simp [feed], .slnil, fun _ _ => Iff.rfl, fun i h1 h2 => absurd h2 (not_lt.mpr h1),
      fun _ => not_covers_nil _⟩
  | cons f fs ih =>
    intro next hs ha
    have hs' : Ascending fs := (pairwise_cons.mp hs).2
    have ha' : ∀ g ∈ fs, Agrees S g.dataOffset g.data := fun g hg => ha g (mem_cons_of_mem _ hg)
    unfold feed
    by_cases hbeyond : next < f.dataOffset
    · rw [if_pos hbeyond]
      refine ⟨le_rfl, by simp, .refl _, fun _ _ => Iff.rfl, fun i h1 h2 => absurd h2 (not_lt.mpr h1), fun _ hc => ?_⟩
      exact absurd (hs.head_le hc) (not_le.mpr hbeyond)
    rw [if_neg hbeyond]
    by_cases hread : next ≥ f.dataEnd
    · -- the frame was read before
      rw [if_pos hread]
      have h := ih next hs' ha'
      refine ⟨h.le, h.chunks, h.sublist.cons f, fun i hi => ?_, fun i h1 h2 => ?_, h.done⟩
      · have hle := h.le
        rw [h.covers i hi, covers_cons, hi_frame]
        exact ⟨.inr, fun hc => hc.resolve_left fun hf => by omega⟩
      · exact covers_cons.mpr (.inr (h.reached i h1 h2))
    rw [if_neg hread]
    have hsum : next + (f.dataEnd - next) = f.dataEnd := by omega
    have hchunk := chunk_eq (ha f mem_cons_self) (not_lt.mp hbeyond)
    have hin : ∀ i, next ≤ i → i < f.dataEnd → Covers (f :: fs) i :=
      fun i h1 h2 => covers_cons.mpr (.inl ⟨(not_lt.mp hbeyond).trans h1, h2⟩)
    have hfreed : ∀ i, f.dataEnd ≤ i → (Covers fs i ↔ Covers (f :: fs) i) := by
      intro i hi; rw [covers_cons, hi_frame]
      exact ⟨.inr, fun hc => hc.resolve_left fun hf => by omega⟩
    dsimp only; rw [hsum]
    split
    · have h := ih f.dataEnd hs' ha'
      have hle := h.le
      refine ⟨by dsimp only; omega, ?_, h.sublist.cons f, fun i hi => ?_, fun i h1 h2 => ?_, h.done⟩
      · show (_ :: (feed accepts fs f.dataEnd).chunks).flatten = _
        rw [flatten_cons, hchunk, h.chunks]
        have hdrop : S.drop f.dataEnd = (S.drop next).drop (f.dataEnd - next) := by rw [drop_drop, hsum]
        have hsplit : (feed accepts fs f.dataEnd).nextReadOffset - next =
            (f.dataEnd - next) + ((feed accepts fs f.dataEnd).nextReadOffset - f.dataEnd) := by omega
        rw [hdrop, hsplit, take_add]
      · rw [h.covers i hi]; exact hfreed i (hle.trans hi)
      · by_cases hi : i < f.dataEnd
        · exact hin i h1 hi
        · exact covers_cons.mpr (.inr (h.reached i (not_lt.mp hi) h2))
    · refine ⟨by dsimp only; omega, by simpa using hchunk, .cons f (.refl fs), hfreed, hin, nofun⟩

/-! ## A run -/

/-- The stream after the frames `inserted` of the text `S`. -/
structure Inv (S : List UInt8) (inserted : List RecvFrame) (s : Crypto) : Prop where
  ascending : Ascending s.dataIn.framesTailq
  agrees : ∀ f ∈ s.dataIn.framesTailq, Agrees S f.dataOffset f.data
  passed : s.passed.flatten = S.take s.dataIn.nextReadOffset
  /-- What was inserted is before the cursor or still in the list. -/
  covers : ∀ i, Covers inserted i ↔ i < s.dataIn.nextReadOffset ∨ Covers s.dataIn.framesTailq i
  done : s.ok = true → ¬ Covers s.dataIn.framesTailq s.dataIn.nextReadOffset

lemma step_inv {inserted : List RecvFrame} {s : Crypto} (h : Inv S inserted s) {e : Ev}
    (he : Agrees S e.dataOffset e.data) : Inv S (inserted ++ [e.frame]) (step s e) := by
  obtain ⟨hsorted, hmem⟩ := insert_spec e.frame h.ascending
  have hagrees : ∀ f ∈ (xqcInsertCryptoFrame e.frame s.dataIn).framesTailq, Agrees S f.dataOffset f.data := by
    intro f hf
    rcases (hmem f).mp hf with rfl | hf
    · exact he
    · exact h.agrees f hf
  have hcovers : ∀ i, Covers (xqcInsertCryptoFrame e.frame s.dataIn).framesTailq i ↔
      Covers [e.frame] i ∨ Covers s.dataIn.framesTailq i := by
    intro i
    simp only [Covers, hmem, mem_singleton, or_and_right, exists_or]
  have hfeed := feed_spec (S := S) e.accepts _ s.dataIn.nextReadOffset hsorted hagrees
  unfold step xqcReadCryptoStream
  have hnext : (xqcInsertCryptoFrame e.frame s.dataIn).nextReadOffset = s.dataIn.nextReadOffset := rfl
  rw [hnext]
  generalize feed e.accepts (xqcInsertCryptoFrame e.frame s.dataIn).framesTailq s.dataIn.nextReadOffset = t at hfeed ⊢
  have hle := hfeed.le
  refine ⟨hsorted.sublist hfeed.sublist, fun f hf => hagrees f (hfeed.sublist.subset hf), ?_, fun i => ?_, hfeed.done⟩
  · rw [flatten_append, h.passed, hfeed.chunks, ← take_add, Nat.add_sub_cancel' hle]
  · rw [covers_append, h.covers i]
    by_cases hi : i < t.nextReadOffset
    · -- it was handed over in an earlier walk or in this one
      simp only [hi, true_or, iff_true]
      by_cases hold : i < s.dataIn.nextReadOffset
      · exact .inl (.inl hold)
      · rcases (hcovers i).mp (hfeed.reached i (not_lt.mp hold) hi) with hc | hc
        · exact .inr hc
        · exact .inl (.inr hc)
    · rw [hfeed.covers i (not_lt.mp hi), hcovers i]
      have hold : ¬ i < s.dataIn.nextReadOffset := by omega
      simp only [hi, hold, false_or]; exact or_comm

lemma run_inv (es : List Ev) (hes : ∀ e ∈ es, Agrees S e.dataOffset e.data) :
    Inv S (es.map Ev.frame) (run es) := by
  unfold run
  induction es using List.reverseRecOn with
  | nil => exact ⟨.nil, nofun, rfl, fun i => by simp [fresh], fun _ => not_covers_nil _⟩
  | append_singleton es e ih =>
    rw [foldl_append, map_append]
    refine step_inv (ih fun x hx => hes x (mem_append_left _ hx)) ?_
    exact hes e (mem_append_right _ mem_cons_self)

lemma Inv.next_le {es : List Ev} {s : Crypto} (h : Inv S (es.map Ev.frame) s)
    (hes : ∀ e ∈ es, Agrees S e.dataOffset e.data) : s.dataIn.nextReadOffset ≤ S.length := by
  by_contra hlt
  obtain ⟨f, hf, h1, h2⟩ := (h.covers S.length).mpr (.inl (not_le.mp hlt))
  obtain ⟨e, he, rfl⟩ := mem_map.mp hf
  exact lt_irrefl _ ((hes e he).lt_length h1 h2)

/-- Whatever the frames' order and overlaps, TLS is handed the bytes of the text in order,
    each once; and all that the frames cover from the start on, unless it has just refused
    some of it. -/
theorem crypto_in_order (S : List UInt8) (es : List Ev) (hes : ∀ e ∈ es, Agrees S e.dataOffset e.data) :
    (run es).passed.flatten <+: S ∧ (run es).passed.flatten.length = (run es).dataIn.nextReadOffset ∧
      ((run es).ok = true →
        ∃ n, Frontier (es.map Ev.frame) n ∧ n ≤ S.length ∧ (run es).passed.flatten = S.take n) := by
  have h := run_inv es hes
  have hle := h.next_le hes
  refine ⟨?_, ?_, fun hok => ⟨_, ⟨fun i hi => ?_, fun hc => ?_⟩, hle, h.passed⟩⟩
  · rw [h.passed]; exact take_prefix _ _
  · rw [h.passed, length_take, Nat.min_eq_left hle]
  · exact (h.covers i).mpr (.inl hi)
  · rcases (h.covers _).mp hc with hlt | hcov
    · exact lt_irrefl _ hlt
    · exact h.done hok hcov

def overlapping : List Ev := [⟨2, [3, 4, 5], fun _ => true⟩, ⟨0, [1, 2, 3], fun _ => true⟩, ⟨1, [2, 3], fun _ => true⟩]

theorem overlapping_frames_are_fed_in_order :
    (run overlapping).passed = [[1, 2, 3], [4, 5]] ∧ (run overlapping).passed.flatten <+: [1, 2, 3, 4, 5, 6] ∧
      ∃ n, Frontier (overlapping.map Ev.frame) n ∧ n ≤ 6 ∧ (run overlapping).passed.flatten = [1, 2, 3, 4, 5, 6].take n := by
  have hes : ∀ e ∈ overlapping, Agrees [1, 2, 3, 4, 5, 6] e.dataOffset e.data := by
    intro e he
    simp only [overlapping, mem_cons, not_mem_nil, or_false] at he
    rcases he with rfl | rfl | rfl <;> exact isPrefixOf_iff_prefix.mp rfl
  have h := crypto_in_order [1, 2, 3, 4, 5, 6] overlapping hes
  exact ⟨by decide, h.1, h.2.2 (by decide)⟩

/-- Two bytes in two frames, the second first; TLS refuses the first byte, and the second
    one, which is there, is not handed over. -/
def refused : List Ev := [⟨1, [2], fun _ => true⟩, ⟨0, [1], fun _ => false⟩]

theorem refused_chunk_stops_the_walk :
    (∀ e ∈ refused, Agrees [1, 2] e.dataOffset e.data) ∧ Frontier (refused.map Ev.frame) 2 ∧
      (run refused).passed.flatten = [1] ∧ (run refused).passed.flatten ≠ [1, 2].take 2 := by
  refine ⟨fun e he => ?_, ⟨fun i hi => ?_, ?_⟩, by decide, by decide⟩
  · simp only [refused, mem_cons, not_mem_nil, or_false] at he
    rcases he with rfl | rfl <;> exact isPrefixOf_iff_prefix.mp rfl
  · rcases Nat.lt_succ_iff_lt_or_eq.mp hi with h | rfl
    · obtain rfl : i = 0 := by omega
      exact ⟨⟨0, [1], 0⟩, by decide, by decide, by decide⟩
    · exact ⟨⟨1, [2], 0⟩, by decide, by decide, by decide⟩
  · rintro ⟨f, hf, h1, h2⟩
    simp only [refused, Ev.frame, map_cons, map_nil, mem_cons, not_mem_nil, or_false] at hf
    rcases hf with rfl | rfl
    · exact absurd h2 (by decide)
    · exact absurd h2 (by decide)

end RlccQuic.Transport.CryptoStream
