/-
  RlccQuic.Transport.RecvRecord — the numbers of received packets
  (`xqc_recv_record.c`), as a list of ranges from the highest to the lowest.

  Proved: over any additions and deletions the record is a set of numbers, in ranges that do not meet (`record_is_a_set`).
-/

import Mathlib.Algebra.GroupWithZero.Nat
import Mathlib.Data.List.Pairwise

namespace RlccQuic.Transport.RecvRecord

open List UInt64

structure PktnoRange where
  low : UInt64
  high : UInt64
  deriving DecidableEq, Repr

structure Record where
  ranges : List PktnoRange
  delFrom : UInt64
  largestPktRecvTime : UInt64
  deriving DecidableEq, Repr

inductive PktRangeStatus where
  | ok
  | dup
  | err
  deriving DecidableEq, Repr

/-- `xqc_pktno_range_can_merge`: the range with the number, if it is next to it. -/
def xqcPktnoRangeCanMerge (r : PktnoRange) (n : UInt64) : Option PktnoRange :=
  if r.low - 1 = n then some { r with low := r.low - 1 }
  else if r.high + 1 = n then some { r with high := r.high + 1 }
  else none

/-- The search of `xqc_recv_record_add`: the ranges above the number and those below, if none has it. -/
def place (n : UInt64) : List PktnoRange → Option (List PktnoRange × List PktnoRange)
  | [] => some ([], [])
  | r :: rs =>
    if n ≤ r.high then
      if n ≥ r.low then none else (place n rs).map fun found => (r :: found.1, found.2)
    else some ([], r :: rs)

def join (above below : List PktnoRange) : List PktnoRange :=
  match above.getLast?, below with
  | some a, b :: bs => if a.low - 1 = b.high then above.dropLast ++ ⟨b.low, a.high⟩ :: bs else above ++ b :: bs
  | _, _ => above ++ below

/-- The number goes to the range above it, to the one below, or to a new one; `alloc` says
    that there is memory for it. -/
def insert (alloc : Bool) (n : UInt64) (above below : List PktnoRange) : Option (List PktnoRange) :=
  match above.getLast?.bind fun r => xqcPktnoRangeCanMerge r n with
  | some r => some (join (above.dropLast ++ [r]) below)
  | none =>
    match below.head?.bind fun r => xqcPktnoRangeCanMerge r n with
    | some r => some (join above (r :: below.tail))
    | none => if alloc then some (above ++ ⟨n, n⟩ :: below) else none

def xqcRecvRecordAdd (alloc : Bool) (n recvTime : UInt64) (rr : Record) : PktRangeStatus × Record :=
  let newest := rr.ranges.head?.all fun r => decide (n > r.high)
  let rr := if newest then { rr with largestPktRecvTime := recvTime } else rr
  match place n rr.ranges with
  | none => (.dup, rr)
  | some (above, below) =>
    match insert alloc n above below with
    | none => (.err, rr)
    | some ranges => (.ok, { rr with ranges := ranges })

/-- `xqc_recv_record_del`: the numbers below `delFrom` are forgotten. -/
def xqcRecvRecordDel (delFrom : UInt64) (rr : Record) : Record :=
  if delFrom < rr.delFrom then rr
  else
    { rr with
      delFrom := delFrom
      ranges := rr.ranges.filterMap fun r =>
        if r.low < delFrom then if r.high < delFrom then none else some { r with low := delFrom }
        else some r }

def Descending (rs : List PktnoRange) : Prop :=
  (∀ r ∈ rs, r.low ≤ r.high) ∧ rs.Pairwise fun r s => s.high < r.low

def Has (rs : List PktnoRange) (n : UInt64) : Prop := ∃ r ∈ rs, r.low ≤ n ∧ n ≤ r.high

/-- The ranges descend, with a number missing between neighbours. -/
structure Apart (rs : List PktnoRange) : Prop where
  each : ∀ r ∈ rs, r.low.toNat ≤ r.high.toNat ∧ r.high.toNat < 2 ^ 62
  gaps : rs.Pairwise fun r s => s.high.toNat + 1 < r.low.toNat

/-! ## What an addition does -/

variable {rs above below : List PktnoRange} {r : PktnoRange} {n m : UInt64}

@[simp] lemma has_nil : Has [] m ↔ False := by simp [Has]

@[simp] lemma has_cons : Has (r :: rs) m ↔ (r.low.toNat ≤ m.toNat ∧ m.toNat ≤ r.high.toNat) ∨ Has rs m := by
  simp [Has, le_iff_toNat_le]

@[simp] lemma apart_nil : Apart [] := ⟨nofun, .nil⟩

@[simp] lemma apart_cons : Apart (r :: rs) ↔ (r.low.toNat ≤ r.high.toNat ∧ r.high.toNat < 2 ^ 62) ∧ Apart rs ∧
    ∀ m, Has rs m → m.toNat + 1 < r.low.toNat := by
  constructor
  · intro ⟨heach, hgaps⟩
    obtain ⟨hr, heach⟩ := forall_mem_cons.mp heach
    obtain ⟨hgap, hgaps⟩ := pairwise_cons.mp hgaps
    refine ⟨hr, ⟨heach, hgaps⟩, fun m ⟨s, hs, _, hm⟩ => ?_⟩
    have := hgap s hs
    have := le_iff_toNat_le.mp hm; omega
  · intro ⟨hr, hrs, hgap⟩
    refine ⟨forall_mem_cons.mpr ⟨hr, hrs.each⟩, pairwise_cons.mpr ⟨fun s hs => ?_, hrs.gaps⟩⟩
    exact hgap s.high ⟨s, hs, (hrs.each s hs).1, UInt64.le_refl _⟩

lemma Apart.descending (h : Apart rs) : Descending rs :=
  ⟨fun r hr => (h.each r hr).1, h.gaps.imp fun hgap => Nat.lt_of_succ_lt hgap⟩

lemma Descending.lt (h : Descending (r :: rs)) (hm : Has rs m) : m.toNat < r.low.toNat := by
  obtain ⟨s, hs, -, hle⟩ := hm
  exact Nat.lt_of_le_of_lt hle ((pairwise_cons.mp h.2).1 s hs)

lemma place_spec (h : Descending rs) : match place n rs with
    | none => Has rs n ∧ ¬ ∀ r ∈ rs.head?, r.high < n
    | some (above, below) => ¬ Has rs n ∧ rs = above ++ below ∧ (∀ r ∈ above, n.toNat < r.low.toNat) ∧
      (∀ m, Has below m → m.toNat < n.toNat) ∧ (above = [] ↔ ∀ r ∈ rs.head?, r.high < n) := by
  induction rs with
  | nil => simp [place]
  | cons r rs ih =>
    have ih := ih ⟨fun s hs => h.1 s (mem_cons_of_mem r hs), (pairwise_cons.mp h.2).2⟩
    unfold place
    by_cases hhigh : n ≤ r.high
    · rw [if_pos hhigh]
      by_cases hlow : n ≥ r.low
      · rw [if_pos hlow]; exact ⟨⟨r, by simp, hlow, hhigh⟩, by simpa using hhigh⟩
      · rw [if_neg hlow]
        cases hp : place n rs with
        | none => rw [hp] at ih; exact ⟨has_cons.mpr (.inr ih.1), by simpa using hhigh⟩
        | some found =>
          rw [hp] at ih
          obtain ⟨hnot, rfl, ha, hb, -⟩ := ih
          refine ⟨?_, rfl, forall_mem_cons.mpr ⟨Nat.not_le.mp hlow, ha⟩, hb, by simpa using hhigh⟩
          exact fun hm => (has_cons.mp hm).elim (fun hr => hlow hr.1) hnot
    · rw [if_neg hhigh]
      rw [UInt64.not_le] at hhigh
      have hgt := lt_iff_toNat_lt.mp hhigh
      have hr := le_iff_toNat_le.mp (h.1 r mem_cons_self)
      have hbelow (m : UInt64) (hm : Has (r :: rs) m) : m.toNat < n.toNat := by
        rcases has_cons.mp hm with hm | hm
        · omega
        · have := h.lt hm; omega
      exact ⟨fun hm => Nat.lt_irrefl _ (hbelow n hm), rfl, nofun, hbelow, by simpa using hhigh⟩

lemma pred_eq_iff {a : UInt64} (h : n.toNat < a.toNat) : a - 1 = n ↔ n.toNat + 1 = a.toNat := by
  have ha := a.toNat_lt
  rw [← UInt64.toNat_inj, UInt64.toNat_sub, UInt64.toNat_one]; omega

lemma succ_eq_iff {b : UInt64} (h : b.toNat < 2 ^ 62) : b + 1 = n ↔ b.toNat + 1 = n.toNat := by
  rw [← UInt64.toNat_inj, UInt64.toNat_add, UInt64.toNat_one]; omega

lemma merge_above (hr : r.low.toNat ≤ r.high.toNat ∧ r.high.toNat < 2 ^ 62) (hn : n.toNat < r.low.toNat) :
    xqcPktnoRangeCanMerge r n = if n.toNat + 1 = r.low.toNat then some ⟨n, r.high⟩ else none := by
  have hhigh : ¬ r.high.toNat + 1 = n.toNat := by omega
  simp only [xqcPktnoRangeCanMerge, pred_eq_iff hn, succ_eq_iff hr.2]; split
  · rw [(pred_eq_iff hn).mpr ‹_›]
  · rfl

lemma merge_below (hr : r.low.toNat ≤ r.high.toNat ∧ r.high.toNat < 2 ^ 62) (hn : r.high.toNat < n.toNat)
    (h62 : n.toNat < 2 ^ 62) :
    xqcPktnoRangeCanMerge r n = if r.high.toNat + 1 = n.toNat then some ⟨r.low, n⟩ else none := by
  have hlow : ¬ r.low - 1 = n := by
    rw [← UInt64.toNat_inj, UInt64.toNat_sub, UInt64.toNat_one]; omega
  simp only [xqcPktnoRangeCanMerge, if_neg hlow, succ_eq_iff hr.2]; split
  · rw [(succ_eq_iff hr.2).mpr ‹_›]
  · rfl

lemma join_cons (a : PktnoRange) (h : above ≠ []) : join (a :: above) below = a :: join above below := by
  obtain ⟨b, as, rfl⟩ := exists_cons_of_ne_nil h
  cases below with
  | nil => simp [join]
  | cons c cs =>
    simp only [join, getLast?_cons_cons]
    cases (b :: as).getLast? with
    | none => rfl
    | some l =>
      dsimp only
      split <;> rfl

lemma insert_cons (a b : PktnoRange) (as : List PktnoRange) :
    insert true n (a :: b :: as) below = (insert true n (b :: as) below).map (a :: ·) := by
  simp only [insert, getLast?_cons_cons, cons_append]
  cases (b :: as).getLast?.bind fun r => xqcPktnoRangeCanMerge r n with
  | some r => simp [join_cons]
  | none =>
    cases below.head?.bind fun r => xqcPktnoRangeCanMerge r n with
    | some r => simp [join_cons]
    | none => rfl

/-- The number is taken in, and the largest number is the new one if no range is above it. -/
def Takes (n : UInt64) (above below rs : List PktnoRange) : Prop :=
  Apart rs ∧ (∀ m, Has rs m ↔ m.toNat = n.toNat ∨ Has (above ++ below) m) ∧
    rs.head?.map (·.high) = if above = [] then some n else above.head?.map (·.high)

lemma Takes.cons {a : PktnoRange} (ht : Takes n above below rs) (h : Apart (a :: above ++ below))
    (hn : n.toNat + 1 < a.low.toNat) : Takes n (a :: above) below (a :: rs) := by
  obtain ⟨hapart, hhas, -⟩ := ht
  obtain ⟨hr, -, hgap⟩ := apart_cons.mp h
  refine ⟨apart_cons.mpr ⟨hr, hapart, fun m hm => ?_⟩, fun m => ?_, by simp⟩
  · rcases (hhas m).mp hm with hm | hm
    · omega
    · exact hgap m hm
  · simp only [cons_append, has_cons, hhas, or_left_comm]

lemma far_below {b : PktnoRange} (h : Apart (b :: rs)) (hn : b.high.toNat + 1 < n.toNat) :
    Has (b :: rs) m → m.toNat + 1 < n.toNat := by
  obtain ⟨hr, -, hgap⟩ := apart_cons.mp h
  intro hm
  rcases has_cons.mp hm with hm | hm
  · omega
  · have := hgap m hm; omega

lemma insert_first (h : Apart below) (hb : ∀ m, Has below m → m.toNat < n.toNat) (hn : n.toNat < 2 ^ 62) :
    ∃ rs, insert true n [] below = some rs ∧ Takes n [] below rs := by
  cases below with
  | nil => exact ⟨[⟨n, n⟩], rfl, by simpa using hn, by simp; omega, rfl⟩
  | cons b bs =>
    obtain ⟨hr, hbs, hgap⟩ := apart_cons.mp h
    have hlt := hb b.high (by simp [hr])
    by_cases hnext : b.high.toNat + 1 = n.toNat
    · refine ⟨⟨b.low, n⟩ :: bs, by simp [insert, join, merge_below hr hlt hn, hnext], ?_, fun m => ?_, rfl⟩
      · exact apart_cons.mpr ⟨by dsimp only; omega, hbs, hgap⟩
      · simp only [has_cons, nil_append, ← or_assoc]; exact or_congr_left (by omega)
    · refine ⟨⟨n, n⟩ :: b :: bs, by simp [insert, merge_below hr hlt hn, hnext], ?_, fun m => ?_, rfl⟩
      · exact apart_cons.mpr ⟨by simpa using hn, h, fun m => far_below h (by dsimp only; omega)⟩
      · simp only [has_cons (r := ⟨n, n⟩)]; exact or_congr_left (by omega)

lemma insert_last {a : PktnoRange} (h : Apart (a :: below)) (ha : n.toNat < a.low.toNat)
    (hb : ∀ m, Has below m → m.toNat < n.toNat) (hn : n.toNat < 2 ^ 62) :
    ∃ rs, insert true n [a] below = some rs ∧ Takes n [a] below rs := by
  obtain ⟨hr, hbelow, hgap⟩ := apart_cons.mp h
  by_cases hnext : n.toNat + 1 = a.low.toNat
  · have halone : (∀ m, Has below m → m.toNat + 1 < n.toNat) → Takes n [a] below (⟨n, a.high⟩ :: below) := by
      intro hfar
      refine ⟨apart_cons.mpr ⟨by dsimp only; omega, hbelow, hfar⟩, fun m => ?_, rfl⟩
      simp only [has_cons, cons_append, ← or_assoc]; exact or_congr_left (by omega)
    cases below with
    | nil => exact ⟨_, by simp [insert, join, merge_above hr ha, hnext], halone (by simp)⟩
    | cons b bs =>
      obtain ⟨hbr, hbs, hbgap⟩ := apart_cons.mp hbelow
      have hlt := hb b.high (by simp [hbr])
      have hpred := pred_eq_iff hlt
      by_cases hjoin : b.high.toNat + 1 = n.toNat
      · refine ⟨⟨b.low, a.high⟩ :: bs, by simp [insert, join, merge_above hr ha, hnext, hpred, hjoin], ?_, fun m => ?_, rfl⟩
        · exact apart_cons.mpr ⟨by dsimp only; omega, hbs, hbgap⟩
        · simp only [has_cons, cons_append, nil_append, ← or_assoc]; exact or_congr_left (by omega)
      · exact ⟨_, by simp [insert, join, merge_above hr ha, hnext, hpred, hjoin], halone fun m => far_below hbelow (by omega)⟩
  · obtain ⟨rs, hi, ht⟩ := insert_first hbelow hb hn
    refine ⟨a :: rs, ?_, ht.cons h (by omega)⟩
    have hpred : ¬ a.low - 1 = n := by rwa [pred_eq_iff ha]
    have hinsert : insert true n [a] below = (insert true n [] below).map (a :: ·) := by
      cases below with
      | nil => simp [insert, merge_above hr ha, hnext]
      | cons b bs =>
        have hlt := hb b.high (by simp [(apart_cons.mp hbelow).1])
        by_cases hjoin : b.high.toNat + 1 = n.toNat
        · simp [insert, join, merge_above hr ha, merge_below (apart_cons.mp hbelow).1 hlt hn, hnext, hpred, hjoin]
        · simp [insert, merge_above hr ha, merge_below (apart_cons.mp hbelow).1 hlt hn, hnext, hjoin]
    rw [hinsert, hi]; rfl

lemma insert_spec (h : Apart (above ++ below)) (ha : ∀ r ∈ above, n.toNat < r.low.toNat)
    (hb : ∀ m, Has below m → m.toNat < n.toNat) (hn : n.toNat < 2 ^ 62) :
    ∃ rs, insert true n above below = some rs ∧ Takes n above below rs := by
  induction above with
  | nil => exact insert_first h hb hn
  | cons a as ih =>
    cases as with
    | nil => exact insert_last h (ha a (by simp)) hb hn
    | cons a' as =>
      obtain ⟨-, hrs, hgap⟩ := apart_cons.mp h
      obtain ⟨rs, hi, ht⟩ := ih hrs fun r hr => ha r (by simp [hr])
      have hlow := ha a' (by simp)
      have hnext := hgap a'.low (by simp [(apart_cons.mp hrs).1])
      exact ⟨a :: rs, by rw [insert_cons, hi]; rfl, ht.cons h (by omega)⟩

/-! ## What a deletion does -/

lemma del_ranges {d : UInt64} {rr : Record} (hd : ¬ d < rr.delFrom) (h : Apart rr.ranges) :
    Apart (xqcRecvRecordDel d rr).ranges ∧
      (∀ m, Has (xqcRecvRecordDel d rr).ranges m ↔ Has rr.ranges m ∧ d ≤ m) ∧
      ∀ r ∈ (xqcRecvRecordDel d rr).ranges.head?, ∃ s ∈ rr.ranges.head?, r.high = s.high := by
  unfold xqcRecvRecordDel; rw [if_neg hd]
  generalize rr.ranges = rs at h ⊢
  induction rs with
  | nil => simp
  | cons r rs ih =>
    obtain ⟨hr, hrs, hgap⟩ := apart_cons.mp h
    obtain ⟨hapart, hhas, hhead⟩ := ih hrs
    rw [filterMap_cons]
    generalize rs.filterMap _ = rs' at hapart hhas hhead ⊢
    simp only [lt_iff_toNat_lt, le_iff_toNat_le] at hhas ⊢
    by_cases hlow : r.low.toNat < d.toNat
    · -- what is left of the ranges below is nothing
      have hnone (m : UInt64) (hm : Has rs m) : m.toNat < d.toNat := by
        have := hgap m hm; omega
      have hnil : rs' = [] := eq_nil_iff_forall_not_mem.mpr fun s hs => by
        obtain ⟨hm, hle⟩ := (hhas s.high).mp ⟨s, hs, (hapart.each s hs).1, UInt64.le_refl _⟩
        exact absurd (hnone _ hm) (Nat.not_lt.mpr hle)
      subst hnil; rw [if_pos hlow]
      by_cases hhigh : r.high.toNat < d.toNat
      · rw [if_pos hhigh]
        refine ⟨hapart, fun m => ?_, by simp⟩
        rw [hhas, has_cons]
        exact ⟨fun h => ⟨.inr h.1, h.2⟩, fun h => ⟨h.1.resolve_left (by omega), h.2⟩⟩
      · rw [if_neg hhigh]
        refine ⟨apart_cons.mpr ⟨⟨Nat.not_lt.mp hhigh, hr.2⟩, hapart, by simp⟩, fun m => ?_, by simp⟩
        simp only [has_cons, has_nil, or_false]
        exact ⟨fun h => ⟨.inl ⟨by omega, h.2⟩, h.1⟩, fun h => ⟨h.2, (h.1.resolve_right fun hm => by
          have := hnone m hm
          omega).2⟩⟩
    · rw [if_neg hlow]
      refine ⟨apart_cons.mpr ⟨hr, hapart, fun m hm => hgap m ((hhas m).mp hm).1⟩, fun m => ?_, by simp⟩
      rw [has_cons, has_cons, hhas, or_and_right]
      exact or_congr_left ⟨fun h => ⟨h, by omega⟩, fun h => h.1⟩

/-! ## Any sequence of calls -/

inductive Op where
  | add (n recvTime : UInt64)
  | del (delFrom : UInt64)
  deriving DecidableEq, Repr

def Record.call (rr : Record) : Op → Record
  | .add n recvTime => (xqcRecvRecordAdd true n recvTime rr).2
  | .del delFrom => xqcRecvRecordDel delFrom rr

/-- The numbers that are remembered, with the time each was added. -/
structure Seen where
  time : UInt64 → Option UInt64
  delFrom : UInt64

def Seen.call (s : Seen) : Op → Seen
  | .add n recvTime => if (s.time n).isSome then s else { s with time := Function.update s.time n (some recvTime) }
  | .del delFrom =>
    if delFrom < s.delFrom then s else ⟨fun n => if n < delFrom then none else s.time n, delFrom⟩

structure Shows (rr : Record) (s : Seen) : Prop where
  apart : Apart rr.ranges
  has : ∀ m, Has rr.ranges m ↔ (s.time m).isSome
  newest : ∀ r ∈ rr.ranges.head?, s.time r.high = some rr.largestPktRecvTime
  delFrom : rr.delFrom = s.delFrom

lemma add_shows {rr : Record} {s : Seen} (h : Shows rr s) (hn : n.toNat < 2 ^ 62) (t : UInt64) :
    Shows (xqcRecvRecordAdd true n t rr).2 (s.call (.add n t)) ∧
      (xqcRecvRecordAdd true n t rr).1 = if (s.time n).isSome then .dup else .ok := by
  have hplace := place_spec (n := n) h.apart.descending
  have hflag : (rr.ranges.head?.all fun r => decide (n > r.high)) = decide (∀ r ∈ rr.ranges.head?, r.high < n) := by
    cases rr.ranges.head? <;> simp
  have hranges (b : Bool) : (if b then { rr with largestPktRecvTime := t } else rr).ranges = rr.ranges := by
    cases b <;> rfl
  unfold xqcRecvRecordAdd Seen.call
  simp only [hflag, hranges]
  cases hp : place n rr.ranges with
  | none =>
    rw [hp] at hplace
    have hold : (s.time n).isSome := (h.has n).mp hplace.1
    rw [decide_eq_false hplace.2, if_pos hold, if_pos hold]; exact ⟨h, rfl⟩
  | some found =>
    rw [hp] at hplace
    obtain ⟨hnot, heq, ha, hb, hfirst⟩ := hplace
    obtain ⟨rs, hi, hapart, hhas, hhead⟩ := insert_spec (heq ▸ h.apart) ha hb hn
    have hnew : ¬ (s.time n).isSome := fun hold => hnot ((h.has n).mpr hold)
    simp only [hi, if_neg hnew, ← hfirst]
    refine ⟨⟨hapart, fun m => ?_, fun r hr => ?_, ?_⟩, trivial⟩
    · rw [hhas, ← heq, h.has, UInt64.toNat_inj]
      by_cases hm : m = n
      · simp [hm]
      · simp [hm]
    · rw [Option.mem_def.mp hr] at hhead
      obtain ⟨above, below⟩ := found
      cases above with
      | nil => simp [Option.some.inj hhead]
      | cons a as =>
        have htime := h.newest a (by rw [heq]; rfl)
        have hne : a.high ≠ n := by
          rintro rfl
          have := (h.apart.each a (by rw [heq]; simp)).1
          have := ha a (by simp); omega
        have hsame : r.high = a.high := Option.some.inj (hhead.trans (if_neg (cons_ne_nil a as)))
        simp [hsame, hne, htime]
    · dsimp only
      split <;> exact h.delFrom

lemma del_shows {rr : Record} {s : Seen} (h : Shows rr s) (d : UInt64) :
    Shows (xqcRecvRecordDel d rr) (s.call (.del d)) := by
  unfold Seen.call
  dsimp only
  by_cases hd : d < rr.delFrom
  · rw [← h.delFrom, if_pos hd, show xqcRecvRecordDel d rr = rr from if_pos hd]; exact h
  · obtain ⟨hapart, hhas, hhead⟩ := del_ranges hd h.apart
    rw [← h.delFrom, if_neg hd]
    have hsame : (xqcRecvRecordDel d rr).largestPktRecvTime = rr.largestPktRecvTime ∧ (xqcRecvRecordDel d rr).delFrom = d := by
      simp [xqcRecvRecordDel, hd]
    refine ⟨hapart, fun m => ?_, fun r hr => ?_, hsame.2⟩
    · rw [hhas, h.has, ← UInt64.not_lt]
      dsimp only
      split <;> simp [*]
    · obtain ⟨s, hs, hhigh⟩ := hhead r hr
      have hin := (hhas r.high).mp ⟨r, mem_of_mem_head? hr, (hapart.each r (mem_of_mem_head? hr)).1, UInt64.le_refl _⟩
      dsimp only; rw [if_neg (UInt64.not_lt.mpr hin.2), hhigh, hsame.1]
      exact h.newest s hs

/-- Over every sequence of calls from the empty record, with numbers below `2 ^ 62`: the
    ranges descend and do not meet, and have exactly the numbers of the set; the largest has
    the time that is kept; and a number is refused as a duplicate exactly if the set has it. -/
theorem record_is_a_set (ops : List Op) (hops : ∀ n t, Op.add n t ∈ ops → n.toNat < 2 ^ 62) :
    Shows (ops.foldl Record.call ⟨[], 0, 0⟩) (ops.foldl Seen.call ⟨fun _ => none, 0⟩) ∧
      ∀ n t, n.toNat < 2 ^ 62 → (xqcRecvRecordAdd true n t (ops.foldl Record.call ⟨[], 0, 0⟩)).1 =
        if ((ops.foldl Seen.call ⟨fun _ => none, 0⟩).time n).isSome then .dup else .ok := by
  have hshows : Shows (ops.foldl Record.call ⟨[], 0, 0⟩) (ops.foldl Seen.call ⟨fun _ => none, 0⟩) := by
    have hempty : Shows ⟨[], 0, 0⟩ ⟨fun _ => none, 0⟩ := ⟨apart_nil, by simp, nofun, rfl⟩
    revert hempty
    generalize (⟨[], 0, 0⟩ : Record) = rr
    generalize (⟨fun _ => none, 0⟩ : Seen) = s
    induction ops generalizing rr s with
    | nil => exact id
    | cons o ops ih =>
      intro h
      refine ih (fun n t hmem => hops n t (mem_cons_of_mem _ hmem)) _ _ ?_
      cases o with
      | add n t => exact (add_shows h (hops n t mem_cons_self) t).1
      | del d => exact del_shows h d
  exact ⟨hshows, fun n t hn => (add_shows hshows hn t).2⟩

theorem two_neighbours_are_joined : Shows ([.add 1 10, .add 3 20, .add 2 30, .del 2].foldl Record.call ⟨[], 0, 0⟩)
    ([.add 1 10, .add 3 20, .add 2 30, .del 2].foldl Seen.call ⟨fun _ => none, 0⟩) ∧
    [Op.add 1 10, .add 3 20, .add 2 30, .del 2].foldl Record.call ⟨[], 0, 0⟩ = ⟨[⟨2, 3⟩], 2, 20⟩ :=
  ⟨(record_is_a_set _ (by simp; rintro n t (⟨rfl, -⟩ | ⟨rfl, -⟩ | ⟨rfl, -⟩) <;> decide)).1, by decide⟩

end RlccQuic.Transport.RecvRecord
