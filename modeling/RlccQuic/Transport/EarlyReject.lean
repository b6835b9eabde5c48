/-
  RlccQuic.Transport.EarlyReject — what `xqc_conn_early_data_reject` writes again.

  The buffers of a stream are written one after the other until a packet cannot be had;
  the loop over the streams goes on all the same, but not past a stream that was reset.

  Proved: over every run up to the rejection, everything that was accepted is queued from offset 0 exactly when each
  stream with something to send comes before any that was reset and finds packets, and the count is the sum of the
  offsets exactly when no stream that is set back has sent a byte (`rejected_data_is_sent_again_iff`).
-/

import RlccQuic.Transport.EarlyData

namespace RlccQuic.Transport.EarlyData

open Lib SendFlow Finset Function Option
open List (length_append append_nil append_assoc length_drop mem_cons_self mem_cons_of_mem)

/-! ## What a rejection writes -/

/-- The bytes that a frame can take, if there is a packet for it. -/
def frameRoom (header : Option Nat) (pktOutSize id offset : Nat) (fin : Bool) (size : Nat) : Option Nat :=
  (header.bind fun h => xqcGenStreamFrame (pktOutSize - h) id offset fin size).map Prod.snd

/-- There are packets for the rest of a buffer, `size` bytes from `offset` on. -/
def suppliedData (header : Nat → Option Nat) (pktOutSize id : Nat) (fin : Bool) : (fuel n offset size : Nat) → Bool
  | 0, _, _, _ => true
  | fuel + 1, n, offset, size =>
    if size = 0 then true
    else
      match frameRoom (header n) pktOutSize id offset fin size with
      | none => false
      | some written => suppliedData header pktOutSize id fin fuel (n + 1) (offset + written) (size - written)

def suppliedBuff (header : Nat → Option Nat) (pktOutSize id offset : Nat) (b : Buff) : Bool :=
  if b.fin = true ∧ b.data = [] then (frameRoom (header 0) pktOutSize id offset true 0).isSome
  else suppliedData header pktOutSize id b.fin b.data.length 0 offset b.data.length

/-- There are packets for the buffers of a stream, from the `k`-th on. -/
def supplied (header : Nat → Nat → Option Nat) (pktOutSize id : Nat) : (k offset : Nat) → List Buff → Bool
  | _, _, [] => true
  | k, offset, b :: bs =>
    suppliedBuff (header k) pktOutSize id offset b &&
      supplied header pktOutSize id (k + 1) (offset + b.data.length) bs

/-- Frames of stream `i`, one after the other from offset `o` on. -/
def Laid (i : Nat) : Nat → List Frame → Prop
  | _, [] => True
  | o, f :: fs => f.stream = i ∧ f.offset = o ∧ Laid i (o + f.data.length) fs

def bytes (fs : List Frame) : List UInt8 := fs.flatMap (·.data)

def buffBytes (bs : List Buff) : List UInt8 := bs.flatMap (·.data)

def lastFin (fs : List Frame) : Option Bool := fs.getLast?.map (·.fin)

lemma bytes_append (fs fs' : List Frame) : bytes (fs ++ fs') = bytes fs ++ bytes fs' := List.flatMap_append

lemma bytes_singleton (f : Frame) : bytes [f] = f.data := List.flatMap_singleton _ _

lemma buffBytes_cons (b : Buff) (bs : List Buff) : buffBytes (b :: bs) = b.data ++ buffBytes bs := List.flatMap_cons

variable {i o : Nat} {fs : List Frame}

lemma laid_append {fs' : List Frame} (h : Laid i o fs) (h' : Laid i (o + (bytes fs).length) fs') :
    Laid i o (fs ++ fs') := by
  induction fs generalizing o with
  | nil => exact h'
  | cons f fs ih =>
    obtain ⟨h1, h2, h3⟩ := h
    refine ⟨h1, h2, ih h3 ?_⟩
    rw [← List.singleton_append, bytes_append, bytes_singleton, length_append, ← Nat.add_assoc] at h'
    exact h'

lemma Laid.stream (h : Laid i o fs) : ∀ f ∈ fs, f.stream = i := by
  induction fs generalizing o with
  | nil => exact fun f hf => by cases hf
  | cons f fs ih =>
    obtain ⟨h1, -, h3⟩ := h
    intro g hg
    rcases List.mem_cons.mp hg with rfl | hg
    · exact h1
    · exact ih h3 g hg

structure Wrote (i : Nat) (fs : List Frame) (s s' : St) : Prop where
  queued : s'.queued = s.queued ++ fs
  laid : Laid i (s.conn.streams i).sendOffset fs
  moved : Moved i (bytes fs).length (s'.conn.streams i).writeBuffList s.conn s'.conn
  buffs : ∀ j ≠ i, s'.buffs j = s.buffs j

lemma Wrote.refl (i : Nat) (s : St) : Wrote i [] s s :=
  ⟨(append_nil _).symm, trivial, Moved.refl i s.conn, fun _ _ => rfl⟩

lemma Wrote.trans {fs' : List Frame} {s s' s'' : St} (h : Wrote i fs s s') (h' : Wrote i fs' s' s'') :
    Wrote i (fs ++ fs') s s'' where
  queued := by rw [h'.queued, h.queued, append_assoc]
  laid := by
    refine laid_append h.laid ?_
    rw [← h.moved.offset]; exact h'.laid
  moved := by
    rw [bytes_append, length_append]; exact h.moved.trans h'.moved
  buffs j hj := (h'.buffs j hj).trans (h.buffs j hj)

lemma wrote_setBuffs (i : Nat) (bs : List Buff) (s : St) : Wrote i [] s (s.setBuffs i bs) := by
  refine ⟨(append_nil _).symm, trivial, ?_, fun j hj => update_of_ne hj _ _⟩
  refine ⟨rfl, rfl, rfl, rfl, fun hj => update_of_ne hj _ _, ?_, ?_, ?_, ?_, ?_, rfl⟩
  all_goals simp [St.setBuffs, Conn.modify, bytes]
  exact .inl

section Frames

variable {header : Option Nat} {i : Nat} {fin : Bool} {s : St}

lemma writeFrame_none (data : List UInt8) (h : frameRoom header s.conn.pktOutSize (s.conn.streams i).id
    (s.conn.streams i).sendOffset fin
    data.length = none) : writeFrame header i fin data s = (none, s) := by
  unfold writeFrame xqcWriteStreamFrameToPacket
  cases header with
  | none => rfl
  | some m =>
    simp only [frameRoom, bind_some, map_eq_none_iff] at h
    simp only [h]

/-- A frame with the next bytes, the last of which come with `fin`. -/
lemma writeFrame_some (data : List UInt8) {w : Nat} (h : frameRoom header s.conn.pktOutSize (s.conn.streams i).id
    (s.conn.streams i).sendOffset fin data.length = some w) :
    w ≤ data.length ∧ (data ≠ [] → 0 < w) ∧ ∃ s', writeFrame header i fin data s = (some w, s') ∧
      Wrote i [⟨i, (s.conn.streams i).sendOffset, data.take w, fin && decide (w = data.length)⟩] s s' := by
  cases header with
  | none => cases h
  | some m =>
    simp only [frameRoom, bind_some, map_eq_some_iff] at h
    obtain ⟨⟨len, n⟩, hgen, rfl⟩ := h
    obtain ⟨hle, -, hpos⟩ := written_le hgen
    have hlen : (data.take n).length = n := by rw [List.length_take, Nat.min_eq_left hle]
    refine ⟨hle, fun hne => hpos (List.length_pos_iff.mpr hne), ?_⟩
    refine ⟨{ s with
      conn := noteWritten false i fin data.length n s.conn
      queued := s.queued ++ [⟨i, (s.conn.streams i).sendOffset, data.take n, fin && decide (n = data.length)⟩] },
      ?_, rfl, ⟨rfl, rfl, trivial⟩, ?_, fun _ _ => rfl⟩
    · unfold writeFrame xqcWriteStreamFrameToPacket
      simp only [hgen]
    · have hm := Moved.noteWritten false i fin data.length n s.conn
      rw [bytes_singleton]
      rw [hlen, hm.buffs]; exact hm

end Frames

lemma writeLoop_wrote (header : Nat → Option Nat) (i : Nat) (fin : Bool) (fuel : Nat) : ∀ (n : Nat) {data : List UInt8}
    (s : St), data.length ≤ fuel → ∃ fs, Wrote i fs s (writeLoop header i fin fuel n data s).2 ∧
      (writeLoop header i fin fuel n data s).1 = suppliedData header s.conn.pktOutSize (s.conn.streams i).id fin fuel n
        (s.conn.streams i).sendOffset data.length ∧
      ((writeLoop header i fin fuel n data s).1 = true →
        bytes fs = data ∧ (data = [] → fs = []) ∧ (data ≠ [] → lastFin fs = some fin)) ∧
      ((writeLoop header i fin fuel n data s).1 = false → ∃ rest ≠ [], data = bytes fs ++ rest) := by
  induction fuel with
  | zero =>
    intro n data s hlen
    obtain rfl : data = [] := List.length_eq_zero_iff.mp (Nat.le_zero.mp hlen)
    exact ⟨[], Wrote.refl i s, rfl, fun _ => ⟨rfl, fun _ => rfl, fun h => absurd rfl h⟩, fun h => (by cases h)⟩
  | succ fuel ih =>
    intro n data s hlen; unfold writeLoop suppliedData
    by_cases hdata : data = []
    · subst hdata
      exact ⟨[], Wrote.refl i s, rfl, fun _ => ⟨rfl, fun _ => rfl, fun h => absurd rfl h⟩, fun h => (by cases h)⟩
    · have hsize : data.length ≠ 0 := fun h => hdata (List.length_eq_zero_iff.mp h)
      rw [if_neg hdata, if_neg hsize]
      cases hroom : frameRoom (header n) s.conn.pktOutSize (s.conn.streams i).id (s.conn.streams i).sendOffset fin
          data.length with
      | none =>
        rw [writeFrame_none data hroom]
        exact ⟨[], Wrote.refl i s, rfl, fun h => (by cases h), fun _ => ⟨data, hdata, rfl⟩⟩
      | some w =>
        obtain ⟨hle, hpos, s1, hw, hone⟩ := writeFrame_some data hroom
        have hshort : (data.drop w).length ≤ fuel := by
          have := hpos hdata
          rw [length_drop]; omega
        have htake : (data.take w).length = w := by rw [List.length_take, Nat.min_eq_left hle]
        obtain ⟨fs, hrest, hsup, hok, hfail⟩ := ih (n + 1) s1 hshort
        rw [hone.moved.pktOutSize, hone.moved.id, hone.moved.offset, bytes_singleton, htake, length_drop] at hsup
        rw [hw]
        refine ⟨_, hone.trans hrest, hsup, fun h => ⟨?_, fun hno => absurd hno hdata, fun _ => ?_⟩, fun h => ?_⟩
        · rw [bytes_append, bytes_singleton, (hok h).1, List.take_append_drop]
        · -- the last frame is this one, or a later one
          unfold lastFin; rw [List.getLast?_append]
          by_cases hlast : data.drop w = []
          · have hall : w = data.length := Nat.le_antisymm hle (List.drop_eq_nil_iff.mp hlast)
            simp [(hok h).2.1 hlast, hall]
          · have hf := (hok h).2.2 hlast
            obtain ⟨f, hg, hff⟩ := map_eq_some_iff.mp hf
            rw [hg, some_or, map_some, hff]
        · obtain ⟨rest, hne, heq⟩ := hfail h
          refine ⟨rest, hne, ?_⟩
          rw [bytes_append, bytes_singleton, append_assoc, ← heq, List.take_append_drop]

/-- The same for a buffer; a `fin` alone is one frame, or none. -/
lemma writeBuff_wrote (header : Nat → Option Nat) (i : Nat) {b : Buff} (s : St) (hsolid : b.data = [] → b.fin = true) :
    ∃ fs, Wrote i fs s (writeBuff header i b s).2 ∧
      (writeBuff header i b s).1 = suppliedBuff header s.conn.pktOutSize (s.conn.streams i).id
        (s.conn.streams i).sendOffset b ∧
      ((writeBuff header i b s).1 = true → bytes fs = b.data ∧ lastFin fs = some b.fin) ∧
      ((writeBuff header i b s).1 = false → (fs = [] ∧ b.data = []) ∨ ∃ rest ≠ [], b.data = bytes fs ++ rest) := by
  unfold writeBuff suppliedBuff
  by_cases honly : b.fin = true ∧ b.data = []
  · rw [if_pos honly, if_pos honly, honly.1, honly.2]
    cases hroom : frameRoom (header 0) s.conn.pktOutSize (s.conn.streams i).id (s.conn.streams i).sendOffset true 0 with
    | none =>
      rw [writeFrame_none [] hroom]
      exact ⟨[], Wrote.refl i s, rfl, fun h => (by cases h), fun _ => .inl ⟨rfl, rfl⟩⟩
    | some w =>
      obtain ⟨hle, -, s1, hw, hone⟩ := writeFrame_some [] hroom
      obtain rfl : w = 0 := Nat.le_zero.mp hle
      rw [hw]; exact ⟨_, hone, rfl, fun _ => ⟨rfl, rfl⟩, fun h => (by cases h)⟩
  · rw [if_neg honly, if_neg honly]
    obtain ⟨fs, hw, hsup, hok, hfail⟩ := writeLoop_wrote header i b.fin b.data.length 0 s le_rfl
    refine ⟨fs, hw, hsup, fun h => ⟨(hok h).1, (hok h).2.2 fun hempty => honly ⟨hsolid hempty, hempty⟩⟩, fun h => ?_⟩
    exact .inr (hfail h)

/-- What the frames `fs` of stream `i` hold of its buffers `bs`: those that there are
    packets for, and perhaps the start of the next one. -/
def Outcome (header : Nat → Nat → Option Nat) (pktOutSize id k offset : Nat) (bs : List Buff) (fs : List Frame) : Prop :=
  ∃ m ≤ bs.length, (∀ l ≤ bs.length, supplied header pktOutSize id k offset (bs.take l) = true ↔ l ≤ m) ∧
    ((bytes fs = buffBytes (bs.take m) ∧ lastFin fs = (bs.take m).getLast?.map (·.fin)) ∨
      ((buffBytes (bs.take m)).length ≤ (bytes fs).length ∧ ∃ rest ≠ [], buffBytes bs = bytes fs ++ rest))

lemma writeBuffed_outcome (header : Nat → Nat → Option Nat) (i : Nat) (bs : List Buff) : ∀ (k : Nat) (s : St),
    (∀ b ∈ bs, b.data = [] → b.fin = true) → ∃ fs, Wrote i fs s (xqcStreamWriteBuffedDataToPackets header i k bs s) ∧
      Outcome header s.conn.pktOutSize (s.conn.streams i).id k (s.conn.streams i).sendOffset bs fs := by
  induction bs with
  | nil =>
    intro k s _
    refine ⟨[], Wrote.refl i s, 0, Nat.le_refl 0, fun l hl => ?_, .inl ⟨rfl, rfl⟩⟩
    rw [Nat.le_zero.mp hl]
    simp [supplied]
  | cons b bs ih =>
    intro k s hsolid
    obtain ⟨fs, hw, hsup, hok, hfail⟩ := writeBuff_wrote (header k) i s (hsolid b mem_cons_self)
    unfold xqcStreamWriteBuffedDataToPackets
    rcases hres : writeBuff (header k) i b s with ⟨ok, s1⟩
    rw [hres] at hw hsup hok hfail
    cases ok with
    | false =>
      refine ⟨fs, hw, 0, zero_le, fun l hl => ?_, ?_⟩
      · cases l with
        | zero => simp [supplied]
        | succ l => simp [supplied, ← hsup]
      · rcases hfail rfl with ⟨rfl, -⟩ | ⟨rest, hne, heq⟩
        · exact .inl ⟨rfl, rfl⟩
        · refine .inr ⟨Nat.zero_le _, rest ++ buffBytes bs, ?_, ?_⟩
          · exact fun h => hne (List.append_eq_nil_iff.mp h).1
          · rw [buffBytes_cons, heq, append_assoc]
    | true =>
      obtain ⟨hbytes, hlast⟩ := hok rfl
      have hfree := hw.trans (wrote_setBuffs i bs s1)
      rw [append_nil] at hfree
      obtain ⟨fs', hw', m, hm, hlen, hwhat⟩ := ih (k + 1) (s1.setBuffs i bs) fun c hc => hsolid c (mem_cons_of_mem b hc)
      refine ⟨fs ++ fs', hfree.trans hw', m + 1, Nat.succ_le_succ hm, fun l hl => ?_, ?_⟩
      · cases l with
        | zero => simp [supplied]
        | succ l =>
          have hnext := hlen l (Nat.le_of_succ_le_succ hl)
          rw [hfree.moved.pktOutSize, hfree.moved.id, hfree.moved.offset, hbytes] at hnext
          rw [List.take_succ_cons, supplied, ← hsup, Bool.true_and, hnext]
          exact Nat.succ_le_succ_iff.symm
      · rw [List.take_succ_cons, buffBytes_cons, buffBytes_cons, bytes_append, hbytes]
        rcases hwhat with ⟨hall, hfin⟩ | ⟨hpart, rest, hne, heq⟩
        · refine .inl ⟨by rw [hall], ?_⟩
          unfold lastFin at hlast hfin ⊢; rw [List.getLast?_append, List.getLast?_cons]
          cases hg : fs'.getLast? with
          | none =>
            rw [hg, map_none] at hfin
            have hnil := List.getLast?_eq_none_iff.mp (map_eq_none_iff.mp hfin.symm)
            rw [none_or, hlast, hnil]; rfl
          | some f =>
            rw [hg, map_some] at hfin
            obtain ⟨c, hc, hcf⟩ := map_eq_some_iff.mp hfin.symm
            rw [some_or, map_some, hc]
            simp [hcf]
        · refine .inr ⟨?_, rest, hne, by rw [heq, append_assoc]⟩
          rw [length_append, length_append]; omega

lemma buffBytes_take_append (bs : List Buff) (l : Nat) : buffBytes (bs.take l) ++ buffBytes (bs.drop l) = buffBytes bs := by
  unfold buffBytes; rw [← List.flatMap_append, List.take_append_drop]

lemma buffBytes_take_le (bs : List Buff) {l m : Nat} (h : l ≤ m) :
    (buffBytes (bs.take l)).length ≤ (buffBytes (bs.take m)).length := by
  have hsplit := congrArg List.length (buffBytes_take_append (bs.take m) l)
  rw [List.take_take, Nat.min_eq_left h, length_append] at hsplit; omega

/-- Everything is in the frames exactly when there are packets for buffers that hold everything. -/
lemma outcome_iff {header : Nat → Nat → Option Nat} {pktOutSize id k offset : Nat} {bs : List Buff}
    (hsolid : ∀ b ∈ bs, b.data = [] → b.fin = true) (want : Bool) (h : Outcome header pktOutSize id k offset bs fs) :
    (bytes fs = buffBytes bs ∧ (want = true → lastFin fs = some true)) ↔
      ∃ l ≤ bs.length, supplied header pktOutSize id k offset (bs.take l) = true ∧
        buffBytes (bs.take l) = buffBytes bs ∧ (want = true → (bs.take l).getLast?.map (·.fin) = some true) := by
  obtain ⟨m, hm, hlen, hwhat⟩ := h
  constructor
  · rintro ⟨hbytes, hfin⟩
    rcases hwhat with ⟨hall, hlast⟩ | ⟨-, rest, hne, heq⟩
    · rw [hall] at hbytes
      rw [hlast] at hfin; exact ⟨m, hm, (hlen m hm).mpr (Nat.le_refl m), hbytes, hfin⟩
    · rw [hbytes] at heq; exact absurd (List.append_right_eq_self.mp heq.symm) hne
  · rintro ⟨l, hl, hsup, hbytes, hfin⟩
    have hlm := (hlen l hl).mp hsup
    have hle := buffBytes_take_le bs hlm
    rw [hbytes] at hle
    -- the buffers after the `l`-th are empty
    have hsplit := buffBytes_take_append bs m
    have hrest : buffBytes (bs.drop m) = [] := by
      have hlength := congrArg List.length hsplit
      rw [length_append] at hlength; exact List.length_eq_zero_iff.mp (by omega)
    rw [hrest, append_nil] at hsplit
    rcases hwhat with ⟨hall, hlast⟩ | ⟨hpart, rest, hne, heq⟩
    · refine ⟨hall.trans hsplit, fun hwant => ?_⟩
      rw [hlast]
      rcases Nat.lt_or_eq_of_le hlm with hlt | rfl
      · obtain ⟨m, rfl⟩ : ∃ m', m = m' + 1 := ⟨m - 1, by omega⟩
        have hlast : (bs.take (m + 1)).getLast? = bs[m]? := by
          rw [List.getLast?_take, if_neg (Nat.succ_ne_zero m), Nat.add_sub_cancel, List.getElem?_eq_getElem (by omega)]
          rfl
        have hmem : bs[m] ∈ bs := List.getElem_mem _
        have hempty : bs[m].data = [] := by
          have hnone := buffBytes_take_append bs l
          rw [hbytes] at hnone
          have hnil := List.append_right_eq_self.mp hnone
          refine List.flatMap_eq_nil_iff.mp hnil _ ?_
          rw [List.mem_iff_getElem]
          exact ⟨m - l, by rw [length_drop]; omega, by rw [List.getElem_drop]; congr 1; omega⟩
        rw [hlast, List.getElem?_eq_getElem (by omega), map_some, hsolid _ hmem hempty]
      · exact hfin hwant
    · have hlong := congrArg List.length heq
      have hpos := List.length_pos_iff.mpr hne
      rw [length_append] at hlong; omega

/-! ## The loop over the streams -/

/-- The streams the loop sets back: it ends at one that was reset. -/
def reached (c : Conn) : List Nat → List Nat
  | [] => []
  | i :: is =>
    if (c.streams i).has0rtt then if isReset (c.streams i) then [i] else i :: reached c is
    else reached c is

variable {c : Conn} {is : List Nat}

lemma reached_congr {c' : Conn} (h : ∀ i ∈ is, c'.streams i = c.streams i) : reached c' is = reached c is := by
  induction is with
  | nil => rfl
  | cons i is ih =>
    unfold reached; rw [h i mem_cons_self, ih fun j hj => h j (mem_cons_of_mem i hj)]

variable {j : Nat}

lemma mem_of_mem_reached (h : j ∈ reached c is) : j ∈ is := by
  induction is with
  | nil => exact h
  | cons i is ih =>
    unfold reached at h; split at h
    · split at h
      · exact List.mem_cons.mpr (.inl (List.mem_singleton.mp h))
      · rcases List.mem_cons.mp h with h | h
        · exact List.mem_cons.mpr (.inl h)
        · exact mem_cons_of_mem i (ih h)
    · exact mem_cons_of_mem i (ih h)

lemma mem_reached (hsorted : is.Pairwise (· < ·)) :
    j ∈ reached c is ↔ j ∈ is ∧ (c.streams j).has0rtt = true ∧
      ∀ k ∈ is, k < j → (c.streams k).has0rtt = true → isReset (c.streams k) = false := by
  induction is with
  | nil => simp [reached]
  | cons i is ih =>
    obtain ⟨hlt, hsorted⟩ := List.pairwise_cons.mp hsorted
    have hi : ∀ k ∈ i :: is, ¬ k < i := by
      intro k hk
      rcases List.mem_cons.mp hk with rfl | hk
      · exact Nat.lt_irrefl k
      · exact Nat.lt_asymm (hlt k hk)
    unfold reached
    by_cases hearly : (c.streams i).has0rtt = true
    · rw [if_pos hearly]
      by_cases hreset : isReset (c.streams i) = true
      · rw [if_pos hreset, List.mem_singleton]
        constructor
        · rintro rfl; exact ⟨mem_cons_self, hearly, fun k hk hki => absurd hki (hi k hk)⟩
        · rintro ⟨hj, -, hbefore⟩
          rcases List.mem_cons.mp hj with rfl | hj
          · rfl
          · have hno := hbefore i mem_cons_self (hlt j hj) hearly
            rw [hreset] at hno; cases hno
      · rw [if_neg hreset, List.mem_cons, ih hsorted]
        constructor
        · rintro (rfl | ⟨hj, hje, hbefore⟩)
          · exact ⟨mem_cons_self, hearly, fun k hk hki => absurd hki (hi k hk)⟩
          · refine ⟨mem_cons_of_mem i hj, hje, fun k hk hkj hke => ?_⟩
            rcases List.mem_cons.mp hk with rfl | hk
            · simpa using hreset
            · exact hbefore k hk hkj hke
        · rintro ⟨hj, hje, hbefore⟩
          refine (List.mem_cons.mp hj).imp_right fun hj => ⟨hj, hje, fun k hk => ?_⟩
          exact hbefore k (mem_cons_of_mem i hk)
    · rw [if_neg hearly, ih hsorted]
      constructor
      · rintro ⟨hj, hje, hbefore⟩
        refine ⟨mem_cons_of_mem i hj, hje, fun k hk hkj hke => ?_⟩
        rcases List.mem_cons.mp hk with rfl | hk
        · exact absurd hke hearly
        · exact hbefore k hk hkj hke
      · rintro ⟨hj, hje, hbefore⟩
        rcases List.mem_cons.mp hj with rfl | hj
        · exact absurd hje hearly
        · exact ⟨hj, hje, fun k hk => hbefore k (mem_cons_of_mem i hk)⟩

def ofStream (j : Nat) (fs : List Frame) : List Frame := fs.filter (·.stream = j)

lemma Laid.ofStream_self (h : Laid i o fs) : ofStream i fs = fs :=
  List.filter_eq_self.mpr fun f hf => decide_eq_true (h.stream f hf)

lemma Laid.ofStream_of_ne (h : Laid i o fs) (hj : j ≠ i) : ofStream j fs = [] :=
  List.filter_eq_nil_iff.mpr fun f hf => by simpa [h.stream f hf] using Ne.symm hj

def offsets (c : Conn) : Nat := ∑ i ∈ range c.next, (c.streams i).sendOffset

structure SetBack (i : Nat) (s s' : St) : Prop where
  next : s'.conn.next = s.conn.next
  dataSent : s'.conn.fcDataSent = s.conn.fcDataSent
  pktOutSize : s'.conn.pktOutSize = s.conn.pktOutSize
  others : ∀ j ≠ i, s'.conn.streams j = s.conn.streams j
  stream : s'.conn.streams i = { s.conn.streams i with sendOffset := 0 }
  buffs : s'.buffs = s.buffs
  queued : s'.queued = s.queued

lemma setBack_spec (i : Nat) (s : St) : SetBack i s (s.setBack i) :=
  ⟨rfl, rfl, rfl, fun _ hj => update_of_ne hj _ _, by simp [St.setBack, Conn.modify], rfl, rfl⟩

lemma SetBack.offsets {s s' : St} (h : SetBack i s s') (hi : i < s.conn.next) :
    offsets s'.conn + (s.conn.streams i).sendOffset = offsets s.conn := by
  unfold EarlyData.offsets
  have hsum := sum_erase_add (range s.conn.next) (fun j => (s.conn.streams j).sendOffset) (mem_range.mpr hi)
  have hsum' := sum_erase_add (range s.conn.next) (fun j => (s'.conn.streams j).sendOffset) (mem_range.mpr hi)
  have hsame : ∑ j ∈ (range s.conn.next).erase i, (s'.conn.streams j).sendOffset =
      ∑ j ∈ (range s.conn.next).erase i, (s.conn.streams j).sendOffset :=
    sum_congr rfl fun j hj => by rw [h.others j (ne_of_mem_erase hj)]
  rw [h.stream, Nat.add_zero] at hsum'
  rw [h.next, ← hsum, ← hsame, hsum']

/-- What the loop does: each stream that is reached and was not reset has its frames, no
    other has any, and the count grows by what is written, not less what is taken back. -/
lemma rejectLoop_spec (header : Nat → Nat → Nat → Option Nat) (is : List Nat) : ∀ (s : St), is.Nodup →
    (∀ i ∈ is, i < s.conn.next) → (∀ i ∈ is, ∀ b ∈ s.buffs i, b.data = [] → b.fin = true) →
    ∃ fs, (rejectLoop header is s).queued = s.queued ++ fs ∧
      (∀ j ∈ reached s.conn is, isReset (s.conn.streams j) = false → Laid j 0 (ofStream j fs) ∧
        Outcome (header j) s.conn.pktOutSize (s.conn.streams j).id 0 0 (s.buffs j) (ofStream j fs)) ∧
      (∀ j, j ∉ reached s.conn is ∨ isReset (s.conn.streams j) = true → ofStream j fs = []) ∧
      (rejectLoop header is s).conn.fcDataSent + offsets s.conn =
        s.conn.fcDataSent + offsets (rejectLoop header is s).conn +
          ((reached s.conn is).map fun i => (s.conn.streams i).sendOffset).sum := by
  induction is with
  | nil =>
    intro s _ _ _
    exact ⟨[], (append_nil _).symm, fun j hj => (by cases hj), fun _ _ => rfl, rfl⟩
  | cons i is ih =>
    intro s hnd hnext hsolid
    obtain ⟨hi, hnd⟩ := List.nodup_cons.mp hnd
    have hlt : i < s.conn.next := hnext i mem_cons_self
    unfold rejectLoop reached
    by_cases hearly : (s.conn.streams i).has0rtt = true
    · rw [if_pos hearly, if_pos hearly]
      have hback := setBack_spec i s
      dsimp only
      generalize s.setBack i = s0 at hback ⊢
      have hoff := hback.offsets hlt
      have hreset : isReset (s0.conn.streams i) = isReset (s.conn.streams i) := by rw [hback.stream]; rfl
      rw [hreset]
      by_cases hres : isReset (s.conn.streams i) = true
      · rw [if_pos hres, if_pos hres]
        have hw := wrote_setBuffs i [] s0
        have hsum := sum_moved (hback.next.symm ▸ hlt) hw.moved
        have hdata := hw.moved.dataSent
        refine ⟨[], by rw [hw.queued, hback.queued], fun j hj hno => ?_, fun _ _ => rfl, ?_⟩
        · rw [List.mem_singleton.mp hj, hres] at hno; cases hno
        · have hcount := hback.dataSent
          simp only [List.map_singleton, List.sum_singleton]
          unfold offsets at hoff ⊢
          omega
      · rw [if_neg hres, if_neg hres]
        have hsolid0 : ∀ b ∈ s0.buffs i, b.data = [] → b.fin = true := by
          rw [hback.buffs]; exact hsolid i mem_cons_self
        obtain ⟨fs, hw, hout⟩ := writeBuffed_outcome (header i) i (s0.buffs i) 0 s0 hsolid0
        have hlaid : Laid i 0 fs := by
          have hl := hw.laid
          rw [hback.stream] at hl; exact hl
        rw [hback.stream, hback.buffs, hback.pktOutSize] at hout
        have hsum := sum_moved (hback.next.symm ▸ hlt) hw.moved
        generalize xqcStreamWriteBuffedDataToPackets (header i) i 0 (s0.buffs i) s0 = s1 at hw hsum ⊢
        have hne : ∀ j ∈ is, j ≠ i := by
          rintro j hj rfl
          exact hi hj
        have hstreams : ∀ j ≠ i, s1.conn.streams j = s.conn.streams j :=
          fun j hj => (hw.moved.others hj).trans (hback.others j hj)
        have hbuffs : ∀ j ≠ i, s1.buffs j = s.buffs j := fun j hj => by rw [hw.buffs j hj, hback.buffs]
        have hreached : reached s1.conn is = reached s.conn is := reached_congr fun j hj => hstreams j (hne j hj)
        obtain ⟨fs', hq, hwritten, hnone, hcount⟩ := ih s1 hnd
          (fun j hj => by rw [hw.moved.next, hback.next]; exact hnext j (mem_cons_of_mem i hj))
          (fun j hj => by rw [hbuffs j (hne j hj)]; exact hsolid j (mem_cons_of_mem i hj))
        rw [hreached] at hwritten hnone hcount
        have hnot : i ∉ reached s.conn is := fun h => hi (mem_of_mem_reached h)
        have happ : ∀ j, ofStream j (fs ++ fs') = ofStream j fs ++ ofStream j fs' := fun _ => List.filter_append ..
        have hself : ofStream i (fs ++ fs') = fs := by
          rw [happ, hlaid.ofStream_self, hnone i (.inl hnot), append_nil]
        have hother : ∀ j ≠ i, ofStream j (fs ++ fs') = ofStream j fs' := by
          intro j hj; rw [happ, hlaid.ofStream_of_ne hj, List.nil_append]
        refine ⟨fs ++ fs', by rw [hq, hw.queued, hback.queued, append_assoc], fun j hj hjr => ?_, fun j hj => ?_, ?_⟩
        · rcases List.mem_cons.mp hj with rfl | hj
          · rw [hself]; exact ⟨hlaid, hout⟩
          · have hji := hne j (mem_of_mem_reached hj)
            rw [hother j hji]
            have hthis := hwritten j hj (by rw [hstreams j hji]; exact hjr)
            rw [hstreams j hji, hbuffs j hji, hw.moved.pktOutSize, hback.pktOutSize] at hthis
            exact hthis
        · have hji : j ≠ i := by
            rintro rfl
            rcases hj with hj | hj
            · exact hj mem_cons_self
            · exact hres hj
          rw [hother j hji]
          refine hnone j (hj.imp (fun hn hm => hn (mem_cons_of_mem i hm)) fun hr => ?_)
          rw [hstreams j hji]; exact hr
        · have hlist : (reached s.conn is).map (fun j => (s1.conn.streams j).sendOffset) =
              (reached s.conn is).map fun j => (s.conn.streams j).sendOffset :=
            List.map_congr_left fun j hj => by rw [hstreams j (hne j (mem_of_mem_reached hj))]
          have hdata := hw.moved.dataSent
          rw [hback.dataSent] at hdata
          have hoffs : offsets s1.conn = offsets s0.conn + (bytes fs).length := hsum
          rw [hlist] at hcount
          rw [List.map_cons, List.sum_cons]; omega
    · rw [if_neg hearly, if_neg hearly]
      exact ih s hnd (fun j hj => hnext j (mem_cons_of_mem i hj)) fun j hj => hsolid j (mem_cons_of_mem i hj)

/-! ## The rejection -/

/-- The stream has sent 0-RTT data, and none that was created before it and sent some was reset. -/
def Reached (c : Conn) (i : Nat) : Prop :=
  c.Open i ∧ (c.streams i).has0rtt = true ∧
    ∀ j < i, c.Open j → (c.streams j).has0rtt = true → isReset (c.streams j) = false

lemma mem_reached_iff : i ∈ reached c c.allStreams ↔ Reached c i := by
  have hsorted : c.allStreams.Pairwise (· < ·) := List.pairwise_lt_range.filter _
  rw [mem_reached hsorted, mem_allStreams]
  refine and_congr_right fun _ => and_congr_right fun _ => ?_
  constructor
  · exact fun h j hj hopen => h j (mem_allStreams.mpr hopen) hj
  · exact fun h j hopen hj => h j hj (mem_allStreams.mp hopen)

/-- The frames of stream `i` that a rejection has queued. -/
def requeued (i : Nat) (s s' : St) : List Frame := ofStream i (s'.queued.drop s.queued.length)

/-- All that was accepted is queued, from offset 0 on. -/
structure SentAgain (i : Nat) (s s' : St) : Prop where
  laid : Laid i 0 (requeued i s s')
  bytes : bytes (requeued i s s') = s.accepted i
  fin : s.finAccepted i = true → lastFin (requeued i s s') = some true

/-- All that was accepted is in the first `n` buffers of the stream, and there are packets for these. -/
structure Enough (header : Nat → Nat → Nat → Option Nat) (i n : Nat) (s : St) : Prop where
  le : n ≤ (s.buffs i).length
  packets : supplied (header i) s.conn.pktOutSize (s.conn.streams i).id 0 0 ((s.buffs i).take n) = true
  bytes : buffBytes ((s.buffs i).take n) = s.accepted i
  fin : s.finAccepted i = true → ((s.buffs i).take n).getLast?.map (·.fin) = some true

lemma reject_spec {s : St} (h : Inv s) (header : Nat → Nat → Nat → Option Nat) :
    (∀ i, Reached s.conn i → isReset (s.conn.streams i) = false →
      Laid i 0 (requeued i s (xqcConnEarlyDataReject header s)) ∧
      Outcome (header i) s.conn.pktOutSize (s.conn.streams i).id 0 0 (s.buffs i)
        (requeued i s (xqcConnEarlyDataReject header s))) ∧
    (∀ i, ¬ Reached s.conn i → requeued i s (xqcConnEarlyDataReject header s) = []) ∧
    ((xqcConnEarlyDataReject header s).conn.fcDataSent = offsets (xqcConnEarlyDataReject header s).conn ↔
      ∀ i, Reached s.conn i → (s.conn.streams i).sendOffset = 0) := by
  have hsum : s.conn.fcDataSent = offsets s.conn := h.sum
  unfold xqcConnEarlyDataReject requeued
  by_cases hclient : s.conn.client = true
  · rw [if_pos hclient]
    obtain ⟨fs, hq, hwritten, hnone, hcount⟩ := rejectLoop_spec header s.conn.allStreams
      { s with conn := { s.conn with zeroRttRej := true } } (allStreams_nodup s.conn)
      (fun i hi => (mem_allStreams.mp hi).1) fun i hi => (h.stream i (mem_allStreams.mp hi).1).solid
    have hdrop : (rejectLoop header s.conn.allStreams
        { s with conn := { s.conn with zeroRttRej := true } }).queued.drop s.queued.length = fs := by
      rw [hq, List.drop_left]
    have hlist : reached { s.conn with zeroRttRej := true } s.conn.allStreams = reached s.conn s.conn.allStreams :=
      reached_congr fun _ _ => rfl
    rw [hlist] at hwritten hnone hcount
    have hoffs : offsets { s.conn with zeroRttRej := true } = offsets s.conn := rfl
    rw [hoffs] at hcount
    unfold Conn.allStreams at hdrop hcount ⊢
    dsimp only at hdrop hcount ⊢; rw [hdrop]
    refine ⟨fun i hi hr => hwritten i (mem_reached_iff.mpr hi) hr,
      fun i hi => hnone i (.inl fun hmem => hi (mem_reached_iff.mp hmem)), ?_⟩
    constructor
    · intro heq i hi
      have hzero : ((reached s.conn s.conn.allStreams).map fun i => (s.conn.streams i).sendOffset).sum = 0 := by
        unfold Conn.allStreams
        omega
      exact List.sum_eq_zero_iff.mp hzero _ (List.mem_map.mpr ⟨i, mem_reached_iff.mpr hi, rfl⟩)
    · intro hzero
      have hnil : ((reached s.conn s.conn.allStreams).map fun i => (s.conn.streams i).sendOffset).sum = 0 := by
        refine List.sum_eq_zero_iff.mpr fun n hn => ?_
        obtain ⟨i, hi, rfl⟩ := List.mem_map.mp hn
        exact hzero i (mem_reached_iff.mp hi)
      unfold Conn.allStreams at hnil
      omega
  · have hno : ∀ i, ¬ Reached s.conn i := fun i hi => hclient ((h.stream i hi.1.1).early hi.2.1)
    rw [if_neg hclient]
    refine ⟨fun i hi => absurd hi (hno i), fun i _ => ?_, fun _ i hi => absurd hi (hno i), fun _ => hsum⟩
    rw [List.drop_length]; rfl

lemma sentAgain_iff {s : St} (h : Inv s) (header : Nat → Nat → Nat → Option Nat) (hopen : s.conn.Open i)
    (hreset : isReset (s.conn.streams i) = false) :
    SentAgain i s (xqcConnEarlyDataReject header s) ↔ ∃ n, (n = 0 ∨ Reached s.conn i) ∧ Enough header i n s := by
  obtain ⟨hwritten, hnone, -⟩ := reject_spec h header
  have hst := h.stream i hopen.1
  have hbytes : buffBytes (s.buffs i) = s.accepted i := hst.bytes hopen.2
  by_cases hreach : Reached s.conn i
  · obtain ⟨hlaid, hout⟩ := hwritten i hreach hreset
    have hiff := outcome_iff hst.solid (s.finAccepted i) hout
    rw [hbytes] at hiff
    constructor
    · rintro ⟨-, h1, h2⟩
      obtain ⟨n, hn, hsup, hb, hf⟩ := hiff.mp ⟨h1, h2⟩
      exact ⟨n, .inr hreach, hn, hsup, hb, hf⟩
    · rintro ⟨n, -, hn, hsup, hb, hf⟩
      obtain ⟨h1, h2⟩ := hiff.mpr ⟨n, hn, hsup, hb, hf⟩
      exact ⟨hlaid, h1, h2⟩
  · -- nothing is queued
    have hempty := hnone i hreach
    constructor
    · rintro ⟨-, h1, h2⟩
      rw [hempty] at h1 h2; exact ⟨0, .inl rfl, zero_le, rfl, h1, h2⟩
    · rintro ⟨n, hn, henough⟩
      obtain rfl := hn.resolve_right hreach
      refine ⟨?_, ?_, ?_⟩ <;> rw [hempty]
      · exact trivial
      · exact henough.bytes
      · exact henough.fin

theorem rejected_data_is_sent_again_iff (s₀ s : St) (es : List Ev) (h₀ : s₀.Fresh) (h : Run Step s₀ es s)
    (header : Nat → Nat → Nat → Option Nat) :
    ((∀ i, s.conn.Open i → (s.conn.streams i).has0rtt = true → isReset (s.conn.streams i) = false →
        SentAgain i s (xqcConnEarlyDataReject header s)) ↔
      ∀ i, s.conn.Open i → (s.conn.streams i).has0rtt = true → isReset (s.conn.streams i) = false →
        ∃ n, (n = 0 ∨ Reached s.conn i) ∧ Enough header i n s) ∧
    ((xqcConnEarlyDataReject header s).conn.fcDataSent =
        ∑ i ∈ range (xqcConnEarlyDataReject header s).conn.next,
          ((xqcConnEarlyDataReject header s).conn.streams i).sendOffset ↔
      ∀ i, Reached s.conn i → (s.conn.streams i).sendOffset = 0) := by
  have hinv := run_inv h₀ h
  refine ⟨?_, (reject_spec hinv header).2.2⟩
  refine forall_congr' fun i => forall_congr' fun hopen => forall_congr' fun _ => forall_congr' fun hreset => ?_
  exact sentAgain_iff hinv header hopen hreset

def newSt : St where
  conn := newClient
  buffs _ := []
  queued := []
  accepted _ := []
  finAccepted _ := false

lemma newSt_fresh : newSt.Fresh := ⟨newClient_fresh, fun _ => rfl, rfl, fun _ => rfl, fun _ => rfl⟩

def easyHeader : Nat → Nat → Nat → Option Nat := fun _ _ => easy.header

def earlyRun (data : List UInt8) : List Ev :=
  [.other (.earlyParams fewData), .other (.create 0 .cliBid), .other (.state .clientInitialSent), .send easy true 0 data true]

lemma earlyRun_run (data : List UInt8) : ∃ s, Run Step newSt (earlyRun data) s ∧
    s = (xqcStreamSend easy true 0 data true { newSt with
      conn := { xqcCreateStreamWithConn 0 .cliBid (xqcConnSetEarlyRemoteTransportParams fewData newSt.conn) with
        state := .clientInitialSent } }).2 :=
  ⟨_, (((Run.nil.snoc (.other _ _ _ trivial (.earlyParams _ _))).snoc (.other _ _ _ trivial (.create _ _ _))).snoc
    (.other _ _ _ trivial (.state _ _))).snoc (.send _ _ _ _ _ _ (by decide)), rfl⟩

/-- Two bytes and the end of a stream are sent again; the count is right if there was only the end. -/
theorem accepted_bytes_are_sent_again : newSt.Fresh ∧
    (∃ s, Run Step newSt (earlyRun [104, 105]) s ∧ s.accepted 0 = [104, 105] ∧ s.finAccepted 0 = true ∧
      SentAgain 0 s (xqcConnEarlyDataReject easyHeader s)) ∧
    ∃ s, Run Step newSt (earlyRun []) s ∧ s.finAccepted 0 = true ∧
      (xqcConnEarlyDataReject easyHeader s).conn.fcDataSent =
        ∑ i ∈ range (xqcConnEarlyDataReject easyHeader s).conn.next,
          ((xqcConnEarlyDataReject easyHeader s).conn.streams i).sendOffset := by
  obtain ⟨s, hrun, rfl⟩ := earlyRun_run [104, 105]
  obtain ⟨t, hrun', rfl⟩ := earlyRun_run []
  have hagain := (rejected_data_is_sent_again_iff newSt _ _ newSt_fresh hrun easyHeader).1
  have hcount := (rejected_data_is_sent_again_iff newSt _ _ newSt_fresh hrun' easyHeader).2
  refine ⟨newSt_fresh, ⟨_, hrun, by decide, by decide, hagain.mpr (fun i hi _ _ => ?_) 0 (by decide) (by decide)
    (by decide)⟩, _, hrun', by decide, hcount.mpr fun i hi => ?_⟩
  · obtain rfl : i = 0 := Nat.lt_one_iff.mp hi.1
    refine ⟨1, .inr ⟨hi, by decide, fun j hj => absurd hj (Nat.not_lt_zero j)⟩, ?_⟩
    exact ⟨by decide, by decide, by decide, fun _ => by decide⟩
  · obtain rfl : i = 0 := Nat.lt_one_iff.mp hi.1.1
    decide

/-- Two streams send five bytes each, and the first is reset. -/
def resetRun : List Ev :=
  [.other (.earlyParams fewData), .other (.create 0 .cliBid), .other (.create 4 .cliBid), .other (.state .clientInitialSent),
    .send easy true 0 [104, 101, 108, 108, 111] false, .send easy true 1 [119, 111, 114, 108, 100] true,
    .other (.resetSent 0), .other (.params fewData), .other (.state .estabed), .updateLimits]

/-- The rejection queues nothing of the second stream, and counts ten bytes where the
    offsets add up to five. -/
theorem reset_stream_stops_the_rejection : newSt.Fresh ∧ ∃ s, Run Step newSt resetRun s ∧ s.conn.Open 1 ∧
    (s.conn.streams 1).has0rtt = true ∧ isReset (s.conn.streams 1) = false ∧
    s.accepted 1 = [119, 111, 114, 108, 100] ∧ s.finAccepted 1 = true ∧
    requeued 1 s (xqcConnEarlyDataReject easyHeader s) = [] ∧ ¬ SentAgain 1 s (xqcConnEarlyDataReject easyHeader s) ∧
    (xqcConnEarlyDataReject easyHeader s).conn.fcDataSent = 10 ∧
    ∑ i ∈ range (xqcConnEarlyDataReject easyHeader s).conn.next,
      ((xqcConnEarlyDataReject easyHeader s).conn.streams i).sendOffset = 5 := by
  have hrun : Run Step newSt resetRun _ :=
    (((((((((Run.nil.snoc (.other _ _ _ trivial (.earlyParams _ _))).snoc
      (.other _ _ _ trivial (.create _ _ _))).snoc (.other _ _ _ trivial (.create _ _ _))).snoc
      (.other _ _ _ trivial (.state _ _))).snoc (.send _ _ _ _ _ _ (by decide))).snoc
      (.send _ _ _ _ _ _ (by decide))).snoc (.other _ _ _ trivial (.resetSent _ _ (by decide)))).snoc
      (.other _ _ _ trivial (.params _ _))).snoc (.other _ _ _ trivial (.state _ _))).snoc (.updateLimits _)
  refine ⟨newSt_fresh, _, hrun, by decide, by decide, by decide, by decide,
    by decide, by decide, fun hagain => ?_, by decide, by decide⟩
  exact absurd hagain.bytes (by decide)

end RlccQuic.Transport.EarlyData
