/-
  RlccQuic.Transport.Ledger — the bytes in flight, and the flags they are counted from.

  `Balanced`: the counters of the send control are the sizes of the packets that carry the in-flight flag. `Ledger` is
  what keeps them so: every packet is in one list at most, a packet in flight is in the unacked list of its space and
  elicits an ACK, and the counters were never too small to take a packet off.

  Proved: the changes the code is made of keep it: to the record of a packet (`Ledger.update`), from one list to another
  (`Ledger.put`), out of flight (`Ledger.decrease`), into flight while fewer than 2^32 bytes are in flight
  (`Ledger.increase`), a packet of the free list or a new one (`Ledger.get`); and so do the loops that drop packets or
  put them back to be sent (`dropUnacked_spec`, `dropQueued_spec`, `reset_ledger`).
-/

import Mathlib.Algebra.Order.BigOperators.Group.Finset
import RlccQuic.Transport.SendCtl

namespace RlccQuic.Transport.SendCtl

open Lib Finset Function UInt32

/-! ## Bytes in flight -/

/-- What a packet adds to the bytes in flight of space `n`. -/
def flightBytes (n : Pns) (po : PacketOut) : Nat := if po.inFlight = true ∧ po.pns = n then po.usedSize.toNat else 0

/-- The sizes of the packets of space `n` that carry the in-flight flag. -/
def tally (s : Ctl) (n : Pns) : Nat := ∑ p ∈ range s.next, flightBytes n (s.pkts p)

def total (s : Ctl) : Nat := tally s .init + tally s .hsk + tally s .appData

structure Balanced (s : Ctl) : Prop where
  whole : s.bytesInFlight.toNat = (s.bytesAckElicitingInflight .init).toNat +
    (s.bytesAckElicitingInflight .hsk).toNat + (s.bytesAckElicitingInflight .appData).toNat
  space : ∀ n, (s.bytesAckElicitingInflight n).toNat = tally s n

lemma flightBytes_landed {po : PacketOut} (h : po.inFlight = false) (n : Pns) : flightBytes n po = 0 := by
  simp [flightBytes, h]

lemma flightBytes_flying {po : PacketOut} (h : po.inFlight = true) (n : Pns) :
    flightBytes n po = if n = po.pns then po.usedSize.toNat else 0 := by
  simp [flightBytes, h, eq_comm]

variable {s s' : Ctl} {p : Id}

lemma tally_congr (hn : s'.next = s.next) (h : ∀ p n, flightBytes n (s'.pkts p) = flightBytes n (s.pkts p))
    (n : Pns) : tally s' n = tally s n := by
  unfold tally; rw [hn]
  exact sum_congr rfl fun p _ => h p n

lemma flightBytes_le_tally (hp : p < s.next) (n : Pns) : flightBytes n (s.pkts p) ≤ tally s n :=
  single_le_sum (f := fun q => flightBytes n (s.pkts q)) (fun _ _ => zero_le) (mem_range.mpr hp)

lemma tally_update (s' : Ctl) (hp : p < s.next) (hn : s'.next = s.next)
    (h : ∀ q, q ≠ p → s'.pkts q = s.pkts q) (n : Pns) :
    tally s' n + flightBytes n (s.pkts p) = tally s n + flightBytes n (s'.pkts p) := by
  unfold tally
  rw [hn, ← add_sum_erase _ _ (mem_range.mpr hp), ← add_sum_erase (range s.next) (fun q => flightBytes n (s.pkts q))
    (mem_range.mpr hp)]
  have hrest : ∑ q ∈ (range s.next).erase p, flightBytes n (s'.pkts q) =
      ∑ q ∈ (range s.next).erase p, flightBytes n (s.pkts q) :=
    sum_congr rfl fun q hq => by rw [h q (mem_erase.mp hq).1]
  omega

/-- The bytes of one packet of space `n` are taken off. -/
lemma Balanced.sub {n : Pns} {size : UInt32} (h : Balanced s) (hle : size.toNat ≤ tally s n)
    (hw : s'.bytesInFlight = s.bytesInFlight - size)
    (hs : s'.bytesAckElicitingInflight =
      update s.bytesAckElicitingInflight n (s.bytesAckElicitingInflight n - size))
    (ht : ∀ m, tally s' m + (if m = n then size.toNat else 0) = tally s m) : Balanced s' := by
  have hn : (s.bytesAckElicitingInflight n - size).toNat = tally s n - size.toNat := by
    rw [UInt32.toNat_sub_of_le _ _ (by rw [UInt32.le_iff_toNat_le, h.space]; exact hle), h.space]
  have hspace : ∀ m, (s'.bytesAckElicitingInflight m).toNat = tally s' m := by
    intro m
    have htm := ht m
    rw [hs]
    by_cases hm : m = n
    · subst hm; rw [if_pos rfl] at htm
      rw [update_self]; omega
    · rw [if_neg hm] at htm; rw [update_of_ne hm, h.space]; omega
  refine ⟨?_, hspace⟩
  have hwhole := h.whole
  simp only [h.space] at hwhole
  have hle' : size ≤ s.bytesInFlight := by
    rw [le_iff_toNat_le]
    cases n <;> omega
  rw [hspace, hspace, hspace, hw, UInt32.toNat_sub_of_le _ _ hle']
  have h1 := ht .init
  have h2 := ht .hsk
  have h3 := ht .appData
  cases n <;> simp at h1 h2 h3 <;> omega

/-- The bytes of one packet of space `n` are added. -/
lemma Balanced.add (h : Balanced s) (n : Pns) (size : UInt32) (hroom : total s' < 2 ^ 32)
    (hw : s'.bytesInFlight = s.bytesInFlight + size)
    (hs : s'.bytesAckElicitingInflight =
      update s.bytesAckElicitingInflight n (s.bytesAckElicitingInflight n + size))
    (ht : ∀ m, tally s' m = tally s m + if m = n then size.toNat else 0) : Balanced s' := by
  have hle : ∀ m, tally s' m ≤ total s' := by
    intro m; unfold total
    cases m <;> omega
  have hspace : ∀ m, (s'.bytesAckElicitingInflight m).toNat = tally s' m := by
    intro m
    have htm := ht m
    have hlem := hle m
    rw [hs]
    by_cases hm : m = n
    · subst hm; rw [if_pos rfl] at htm
      rw [update_self, UInt32.toNat_add, h.space, ← htm]
      exact Nat.mod_eq_of_lt (by omega)
    · rw [if_neg hm] at htm; rw [update_of_ne hm, h.space]; omega
  refine ⟨?_, hspace⟩
  have hwhole := h.whole
  simp only [h.space] at hwhole
  have hsum : s.bytesInFlight.toNat + size.toNat = total s' := by
    unfold total; rw [ht, ht, ht]
    cases n <;> simp <;> omega
  rw [hspace, hspace, hspace, hw, UInt32.toNat_add, hsum, Nat.mod_eq_of_lt hroom]; rfl

/-! ## The ledger -/

variable {B : Prop}

/-- `B` says whether the bytes in flight have fit the counters so far; the lists and the flags do not depend on that. -/
structure Ledger (B : Prop) (s : Ctl) : Prop where
  single : Links.Single s.lists
  bound : ∀ {k p}, p ∈ s.lists k → p < s.next
  flying : ∀ {p}, (s.pkts p).inFlight = true →
    p ∈ s.lists (.unacked (s.pkts p).pns) ∧ (s.pkts p).frameTypes.isAckEliciting
  balanced : B → Balanced s
  /-- The error about counters that are too small was not logged. -/
  calm : B → s.tooSmall = false

lemma Ledger.congr (h : Ledger B s) (hp : s'.pkts = s.pkts) (hn : s'.next = s.next)
    (hl : s'.lists = s.lists) (hb : s'.bytesInFlight = s.bytesInFlight)
    (hs : s'.bytesAckElicitingInflight = s.bytesAckElicitingInflight) (ht : s'.tooSmall = s.tooSmall) : Ledger B s' := by
  refine ⟨?_, ?_, ?_, fun hB => ⟨?_, ?_⟩, ?_⟩
  · rw [hl]; exact h.single
  · rw [hl, hn]; exact h.bound
  · rw [hl, hp]; exact h.flying
  · rw [hb, hs]; exact (h.balanced hB).whole
  · intro n; rw [hs, tally_congr hn (fun p n => by rw [hp]) n]; exact (h.balanced hB).space n
  · rw [ht]; exact h.calm

variable {k j : Place}

lemma Ledger.place_unique (h : Ledger B s) (hk : p ∈ s.lists k) (hj : p ∈ s.lists j) : k = j :=
  h.single.one hk hj

lemma Ledger.landed (h : Ledger B s) (hp : ∀ n, p ∉ s.lists (.unacked n)) :
    (s.pkts p).inFlight = false := by
  cases hf : (s.pkts p).inFlight with
  | false => rfl
  | true => exact absurd (h.flying hf).1 (hp _)

lemma Ledger.landed_of_mem (h : Ledger B s) (hp : p ∈ s.lists k)
    (hk : ∀ n, k ≠ .unacked n) : (s.pkts p).inFlight = false :=
  h.landed fun n hn => hk n (h.place_unique hp hn)

lemma Ledger.landed_of_idle (h : Ledger B s) (hp : ¬ s.Live p) : (s.pkts p).inFlight = false :=
  h.landed fun n hn => hp ⟨.unacked n, by simp, hn⟩

/-! ## Changes to a record -/

/-- The record of `p` becomes `po`, of a packet that does not come into flight or out of it. -/
theorem Ledger.update (h : Ledger B s) {po : PacketOut}
    (hbytes : ∀ n, flightBytes n po = flightBytes n (s.pkts p))
    (hfly : po.inFlight = true → p ∈ s.lists (.unacked po.pns) ∧ po.frameTypes.isAckEliciting) :
    Ledger B { s with pkts := update s.pkts p po } := by
  refine ⟨h.single, h.bound, ?_, fun hB => ⟨(h.balanced hB).whole, ?_⟩, h.calm⟩
  · intro q hq
    by_cases hqp : q = p
    · subst hqp; simp only [update_self] at hq ⊢; exact hfly hq
    · simp only [update_of_ne hqp] at hq ⊢; exact h.flying hq
  · intro n
    refine ((h.balanced hB).space n).trans (Eq.symm ?_)
    apply tally_congr
    · rfl
    · intro q n
      by_cases hqp : q = p
      · subst hqp
        simp only [update_self, hbytes]
      · simp only [update_of_ne hqp]

lemma Ledger.updateLanded (h : Ledger B s) (po : PacketOut) (hf : (s.pkts p).inFlight = false)
    (hf' : po.inFlight = false) : Ledger B { s with pkts := Function.update s.pkts p po } :=
  h.update (fun n => (flightBytes_landed hf' n).trans (flightBytes_landed hf n).symm) (by simp [hf'])

/-! ## Changes to the lists -/

def Put (l l' : Links Place Id) (p : Id) (k : Place) : Prop :=
  Links.Single l' ∧ ∀ {q j}, q ∈ l' j ↔ (q = p ∧ j = k) ∨ (q ≠ p ∧ q ∈ l j)

lemma put_move {l : Links Place Id} (h : Links.Single l) (p : Id) (k : Place) : Put l (l.move k p) p k :=
  ⟨h.move k p, Links.mem_move h⟩

lemma put_moveFront {l : Links Place Id} (h : Links.Single l) (p : Id) (k : Place) : Put l (l.moveFront k p) p k :=
  ⟨h.moveFront k p, Links.mem_moveFront h⟩

lemma Put.live {l' : Links Place Id} {p c : Id} (h : Put s.lists l' p k) :
    ({ s with lists := l' } : Ctl).Live c ↔ (c = p ∧ k ≠ .free) ∨ (c ≠ p ∧ s.Live c) := by
  constructor
  · rintro ⟨j, hj, hm⟩
    rcases h.2.mp hm with ⟨rfl, rfl⟩ | ⟨hne, hm⟩
    · exact .inl ⟨rfl, hj⟩
    · exact .inr ⟨hne, j, hj, hm⟩
  · rintro (⟨rfl, hk⟩ | ⟨hne, j, hj, hm⟩)
    · exact ⟨k, hk, h.2.mpr (.inl ⟨rfl, rfl⟩)⟩
    · exact ⟨j, hj, h.2.mpr (.inr ⟨hne, hm⟩)⟩

theorem Ledger.put (h : Ledger B s) {l' : Links Place Id} (hput : Put s.lists l' p k)
    (hbound : p < s.next) (hf : (s.pkts p).inFlight = true → k = .unacked (s.pkts p).pns) :
    Ledger B { s with lists := l' } := by
  refine ⟨hput.1, ?_, ?_, fun hB => ⟨(h.balanced hB).whole, (h.balanced hB).space⟩, h.calm⟩
  · intro j q hq
    rcases hput.2.mp hq with ⟨rfl, _⟩ | ⟨_, hq⟩
    · exact hbound
    · exact h.bound hq
  · intro q hq
    refine ⟨hput.2.mpr ?_, (h.flying hq).2⟩
    by_cases hqp : q = p
    · subst hqp; exact .inl ⟨rfl, (hf hq).symm⟩
    · exact .inr ⟨hqp, (h.flying hq).1⟩

lemma Ledger.mem_move (h : Ledger B s) {p q : Id} :
    q ∈ (s.move p k).lists j ↔ (q = p ∧ j = k) ∨ (q ≠ p ∧ q ∈ s.lists j) :=
  Links.mem_move h.single

lemma Ledger.move (h : Ledger B s) (k : Place) (hp : p ∈ s.lists j)
    (hf : (s.pkts p).inFlight = false) : Ledger B (s.move p k) :=
  h.put (put_move h.single p k) (h.bound hp) (by simp [hf])

/-! ## Out of flight and into it -/

section TakeOff

variable (n : Pns) (size : UInt32) (s : Ctl)

@[simp] lemma takeOff_pkts : (takeOff n size s).pkts = s.pkts := by
  unfold takeOff
  split <;> rfl

@[simp] lemma takeOff_next : (takeOff n size s).next = s.next := by
  unfold takeOff
  split <;> rfl

@[simp] lemma takeOff_lists : (takeOff n size s).lists = s.lists := by
  unfold takeOff
  split <;> rfl

@[simp] lemma takeOff_packetNumber : (takeOff n size s).packetNumber = s.packetNumber := by
  unfold takeOff
  split <;> rfl

@[simp] lemma takeOff_conn : (takeOff n size s).conn = s.conn := by
  unfold takeOff
  split <;> rfl

lemma takeOff_move (q : Id) (k : Place) : takeOff n size (s.move q k) = (takeOff n size s).move q k := by
  unfold takeOff Ctl.move
  split <;> rfl

end TakeOff

section Decrease

variable (p : Id) (s : Ctl)

@[simp] lemma decrease_next : (xqcSendCtlDecreaseInflight p s).next = s.next := by
  unfold xqcSendCtlDecreaseInflight
  dsimp only [Ctl.modify]
  split <;> simp

@[simp] lemma decrease_lists : (xqcSendCtlDecreaseInflight p s).lists = s.lists := by
  unfold xqcSendCtlDecreaseInflight
  dsimp only [Ctl.modify]
  split <;> simp

@[simp] lemma decrease_conn : (xqcSendCtlDecreaseInflight p s).conn = s.conn := by
  unfold xqcSendCtlDecreaseInflight
  dsimp only [Ctl.modify]
  split <;> simp

lemma decrease_move (q : Id) (k : Place) :
    xqcSendCtlDecreaseInflight p (s.move q k) = (xqcSendCtlDecreaseInflight p s).move q k := by
  unfold xqcSendCtlDecreaseInflight
  simp only [takeOff_move, apply_ite (Ctl.move q k)]
  rfl

end Decrease

lemma Ledger.decrease_pkts (h : Ledger B s) (p : Id) :
    (xqcSendCtlDecreaseInflight p s).pkts = Function.update s.pkts p { s.pkts p with inFlight := false } := by
  unfold xqcSendCtlDecreaseInflight
  dsimp only [Ctl.modify]
  split
  · simp
  · rename_i hno
    have hf : (s.pkts p).inFlight = false := by
      by_contra hf
      have hf : (s.pkts p).inFlight = true := by simpa using hf
      exact hno ⟨hf, (h.flying hf).2⟩
    rw [← hf, update_eq_self]

theorem Ledger.decrease (h : Ledger B s) (p : Id) : Ledger B (xqcSendCtlDecreaseInflight p s) := by
  have hpkts := h.decrease_pkts p
  by_cases hf : (s.pkts p).inFlight = true ∧ (s.pkts p).frameTypes.isAckEliciting
  · have hbound := h.bound (h.flying hf.1).1
    have hle : (s.pkts p).usedSize.toNat ≤ tally s (s.pkts p).pns := by
      simpa [flightBytes_flying hf.1] using flightBytes_le_tally hbound (s.pkts p).pns
    have hge : B → ¬ s.bytesAckElicitingInflight (s.pkts p).pns < (s.pkts p).usedSize := by
      intro hB; rw [lt_iff_toNat_lt, (h.balanced hB).space]
      omega
    refine ⟨by simpa using h.single, by rw [decrease_lists, decrease_next]; exact h.bound, ?_,
      fun hB => (h.balanced hB).sub hle ?_ ?_ ?_, fun hB => ?_⟩
    · intro q hq; rw [hpkts] at hq ⊢
      by_cases hqp : q = p
      · subst hqp
        simp at hq
      · simp only [update_of_ne hqp, decrease_lists] at hq ⊢; exact h.flying hq
    · unfold xqcSendCtlDecreaseInflight
      simp only [if_pos hf, takeOff, if_neg (hge hB), Ctl.modify]
    · unfold xqcSendCtlDecreaseInflight
      simp only [if_pos hf, takeOff, if_neg (hge hB), Ctl.modify]
    · intro m
      have hup := tally_update (xqcSendCtlDecreaseInflight p s) hbound (by simp)
        (fun q hq => by rw [hpkts, update_of_ne hq]) m
      rw [flightBytes_flying hf.1, hpkts, update_self] at hup; exact hup
    · unfold xqcSendCtlDecreaseInflight
      simp only [if_pos hf, takeOff, if_neg (hge hB)]; exact h.calm hB
  · have hsame : xqcSendCtlDecreaseInflight p s = s := by
      unfold xqcSendCtlDecreaseInflight
      simp only [if_neg hf]
    rw [hsame]; exact h

theorem Ledger.increase (h : Ledger B s) (hp : p ∈ s.lists (.unacked (s.pkts p).pns))
    (hroom : B → total (xqcSendCtlIncreaseInflight p s) < 2 ^ 32) : Ledger B (xqcSendCtlIncreaseInflight p s) := by
  by_cases hc : (s.pkts p).inFlight = false ∧ (s.pkts p).frameTypes.canInFlight ∧ (s.pkts p).frameTypes.isAckEliciting
  · have heq : xqcSendCtlIncreaseInflight p s = { s with
        bytesInFlight := s.bytesInFlight + (s.pkts p).usedSize
        bytesAckElicitingInflight := Function.update s.bytesAckElicitingInflight (s.pkts p).pns
          (s.bytesAckElicitingInflight (s.pkts p).pns + (s.pkts p).usedSize)
        pkts := Function.update s.pkts p { s.pkts p with inFlight := true } } := by
      unfold xqcSendCtlIncreaseInflight
      simp only [if_pos hc, Ctl.modify]
    refine ⟨by rw [heq]; exact h.single, by rw [heq]; exact h.bound, ?_,
      fun hB => (h.balanced hB).add (s.pkts p).pns (s.pkts p).usedSize (hroom hB) ?_ ?_ ?_, by rw [heq]; exact h.calm⟩
    · rw [heq]
      intro q hq
      by_cases hqp : q = p
      · subst hqp; simp only [update_self]; exact ⟨hp, hc.2.2⟩
      · simp only [update_of_ne hqp] at hq ⊢; exact h.flying hq
    · rw [heq]
    · rw [heq]
    · intro m
      have hup := tally_update (xqcSendCtlIncreaseInflight p s) (h.bound hp) (by rw [heq])
        (fun q hq => by rw [heq]; exact update_of_ne hq _ _) m
      have hpo : (xqcSendCtlIncreaseInflight p s).pkts p = { s.pkts p with inFlight := true } := by
        rw [heq]; exact update_self _ _ _
      rw [flightBytes_landed hc.1, hpo, flightBytes_flying rfl] at hup; exact hup
  · have hsame : xqcSendCtlIncreaseInflight p s = s := by
      unfold xqcSendCtlIncreaseInflight
      simp only [if_neg hc]
    rw [hsame]; exact h

/-! ## Getting a packet -/

lemma Ledger.unlist (h : Ledger B s) (hf : (s.pkts p).inFlight = false) :
    Ledger B { s with lists := s.lists.del p } := by
  have hmem : ∀ {q k}, q ∈ s.lists.del p k ↔ q ≠ p ∧ q ∈ s.lists k := Links.mem_del h.single
  refine ⟨h.single.del p, fun hm => h.bound (hmem.mp hm).2, ?_,
    fun hB => ⟨(h.balanced hB).whole, (h.balanced hB).space⟩, h.calm⟩
  intro q hq
  refine ⟨hmem.mpr ⟨?_, (h.flying hq).1⟩, (h.flying hq).2⟩
  rintro rfl
  exact absurd hq (by simp [hf])

lemma Ledger.grow (h : Ledger B s) (hf : (s.pkts s.next).inFlight = false) :
    Ledger B { s with next := s.next + 1 } := by
  refine ⟨h.single, fun hm => (h.bound hm).trans (Nat.lt_succ_self _), h.flying,
    fun hB => ⟨(h.balanced hB).whole, ?_⟩, h.calm⟩
  intro n
  show (s.bytesAckElicitingInflight n).toNat = ∑ p ∈ range (s.next + 1), flightBytes n (s.pkts p)
  rw [sum_range_succ, flightBytes_landed hf]; exact (h.balanced hB).space n

/-- `d` is a packet that is not in use; all else is as in `s`. -/
structure Spare (B : Prop) (s s' : Ctl) (d : Id) : Prop where
  ledger : Ledger B s'
  idle : ¬ s'.Live d
  bound : d < s'.next
  others : ∀ {q}, q ≠ d → s'.pkts q = s.pkts q
  lists : ∀ {k q}, k ≠ .free → (q ∈ s'.lists k ↔ q ∈ s.lists k)
  conn : s'.conn = s.conn

variable {d : Id}

lemma Spare.live (h : Spare B s s' d) {c : Id} : s'.Live c ↔ s.Live c := by
  constructor
  · rintro ⟨k, hk, hm⟩
    exact ⟨k, hk, (h.lists hk).mp hm⟩
  · rintro ⟨k, hk, hm⟩
    exact ⟨k, hk, (h.lists hk).mpr hm⟩

lemma Spare.ne (h : Spare B s s' d) (hp : s.Live p) : p ≠ d := by
  rintro rfl
  exact h.idle (h.live.mpr hp)

lemma Spare.update (h : Spare B s s' d) (po : PacketOut) (hf : po.inFlight = false) :
    Spare B s { s' with pkts := update s'.pkts d po } d where
  ledger := h.ledger.updateLanded po (h.ledger.landed_of_idle h.idle) hf
  idle := h.idle
  bound := h.bound
  others hq := (update_of_ne hq _ _).trans (h.others hq)
  lists := h.lists
  conn := h.conn

lemma Spare.free (h : Spare B s s' d) : Spare B s (s'.move d .free) d := by
  have hf := h.ledger.landed_of_idle h.idle
  have hput := put_move h.ledger.single d .free
  refine ⟨h.ledger.put hput h.bound (by simp [hf]), ?_, h.bound, h.others, ?_, h.conn⟩
  · intro hl
    rcases hput.live.mp hl with ⟨_, hk⟩ | ⟨hne, _⟩
    · exact hk rfl
    · exact hne rfl
  · intro k q hk
    refine Iff.trans ?_ (h.lists hk)
    refine h.ledger.mem_move.trans ?_
    constructor
    · rintro (⟨_, hf⟩ | ⟨_, hm⟩)
      · exact absurd hf hk
      · exact hm
    · intro hm
      refine .inr ⟨?_, hm⟩
      rintro rfl
      exact h.idle ⟨k, hk, hm⟩

/-- `xqc_packet_out_get`: a packet that was not in use, zeroed. -/
theorem Ledger.get {w : World} (h : Ledger B s) (hg : xqcPacketOutGet w s = (some d, s')) :
    Spare B s s' d ∧ s'.pkts d = default := by
  unfold xqcPacketOutGet at hg; split at hg
  · rename_i p rest hfree; cases hg
    have hmem : d ∈ s.lists .free := by rw [hfree]; exact List.mem_cons_self
    have hidle : ¬ s.Live d := by
      rintro ⟨k, hk, hm⟩
      exact hk (h.place_unique hm hmem)
    have hdel : ∀ {q k}, q ∈ s.lists.del d k ↔ q ≠ d ∧ q ∈ s.lists k := Links.mem_del h.single
    have hzero := h.updateLanded default (h.landed_of_idle hidle) rfl
    refine ⟨⟨hzero.unlist (by simp; rfl), ?_, h.bound hmem, fun hq => update_of_ne hq _ _, ?_, rfl⟩,
      update_self _ _ _⟩
    · rintro ⟨k, hk, hm⟩
      exact (hdel.mp hm).1 rfl
    · intro k q hk
      refine hdel.trans ⟨And.right, fun hm => ⟨?_, hm⟩⟩
      rintro rfl
      exact hidle ⟨k, hk, hm⟩
  · dsimp only at hg; split at hg
    · cases hg
      have hidle : ¬ s.Live s.next := by
        rintro ⟨k, _, hm⟩
        exact Nat.lt_irrefl _ (h.bound hm)
      have hgrow := (h.updateLanded default (h.landed_of_idle hidle) rfl).grow (by simp; rfl)
      refine ⟨⟨hgrow.congr rfl rfl rfl rfl rfl rfl, hidle, Nat.lt_succ_self _, fun hq => update_of_ne hq _ _,
        fun _ => Iff.rfl, rfl⟩, update_self _ _ _⟩
    · cases hg

lemma get_none {w : World} (hg : xqcPacketOutGet w s = (none, s')) :
    s' = { s with asked := s.asked + 1 } := by
  unfold xqcPacketOutGet at hg; split at hg
  · cases hg
  · dsimp only at hg; split at hg
    · cases hg
    · cases hg; rfl

/-! ## Loops that drop packets or put them back -/

/-- What taking packets of kind `K` out of flight and to list `j` leaves. -/
structure Diverted (K : Id → Prop) (j : Place) (s s' : Ctl) : Prop where
  conn : s'.conn = s.conn
  same : ∀ p, s'.pkts p = { s.pkts p with inFlight := (s'.pkts p).inFlight }
  down : ∀ {p}, (s'.pkts p).inFlight = true → (s.pkts p).inFlight = true
  less : ∀ {k p}, k ≠ j → p ∈ s'.lists k → p ∈ s.lists k
  kept : ∀ {k p}, ¬ K p → p ∈ s.lists k → p ∈ s'.lists k
  source : ∀ {p}, p ∈ s'.lists j → p ∈ s.lists j ∨ s.Live p

lemma Diverted.refl (K : Id → Prop) (j : Place) (s : Ctl) : Diverted K j s s :=
  ⟨rfl, fun _ => rfl, id, fun _ => id, fun _ => id, .inl⟩

lemma Diverted.live {K : Id → Prop} (h : Diverted K j s s') (hp : s'.Live p) : s.Live p := by
  obtain ⟨k, hk, hm⟩ := hp
  by_cases hkj : k = j
  · subst hkj; exact (h.source hm).elim (fun hm => ⟨k, hk, hm⟩) id
  · exact ⟨k, hk, h.less hkj hm⟩

lemma Diverted.trans {K : Id → Prop} {s t u : Ctl} (h : Diverted K j s t) (h' : Diverted K j t u) :
    Diverted K j s u where
  conn := h'.conn.trans h.conn
  same p := by rw [h'.same p, h.same p]
  down hf := h.down (h'.down hf)
  less hk hm := h.less hk (h'.less hk hm)
  kept hK hm := h'.kept hK (h.kept hK hm)
  source hm := (h'.source hm).elim h.source fun hl => .inr (h.live hl)

lemma decrease_landed (hf : (s.pkts p).inFlight = false) : xqcSendCtlDecreaseInflight p s = s := by
  unfold xqcSendCtlDecreaseInflight
  simp [hf]

lemma Ledger.divert (h : Ledger B s) {K : Id → Prop} (j : Place) (hk : k ≠ .free)
    (hp : p ∈ s.lists k) (hK : K p) :
    Ledger B ((xqcSendCtlDecreaseInflight p s).move p j) ∧ Diverted K j s ((xqcSendCtlDecreaseInflight p s).move p j) := by
  have hd := h.decrease p
  have hpkts := h.decrease_pkts p
  have hmem : ∀ {q i}, q ∈ ((xqcSendCtlDecreaseInflight p s).move p j).lists i ↔
      (q = p ∧ i = j) ∨ (q ≠ p ∧ q ∈ s.lists i) := by
    intro q i; rw [← decrease_lists p s]
    exact hd.mem_move
  refine ⟨hd.move j (by simpa using hp) (by rw [hpkts]; simp), by simp [Ctl.move], ?_, ?_, ?_, ?_, ?_⟩
  · intro q; rw [Ctl.move, hpkts]
    by_cases hq : q = p
    · subst hq; simp
    · simp [update_of_ne hq]
  · intro q hq; rw [Ctl.move, hpkts] at hq
    by_cases hqp : q = p
    · subst hqp
      simp at hq
    · simpa [update_of_ne hqp] using hq
  · intro i q hi hm
    rcases hmem.mp hm with ⟨_, rfl⟩ | ⟨_, hm⟩
    · exact absurd rfl hi
    · exact hm
  · intro i q hK' hm
    refine hmem.mpr (.inr ⟨?_, hm⟩)
    rintro rfl
    exact hK' hK
  · intro q hm
    rcases hmem.mp hm with ⟨rfl, _⟩ | ⟨_, hm⟩
    · exact .inr ⟨k, hk, hp⟩
    · exact .inl hm

/-- The kind of a packet does not depend on whether it is in flight. -/
def Steady (kind : PacketOut → Bool) : Prop := ∀ po b, kind { po with inFlight := b } = kind po

/-- A loop that takes the packets of one kind from list `k` to list `j`. -/
lemma walk_divert {K : Id → Prop} (kind : PacketOut → Bool) (f : Id → Ctl → Ctl) (hk : k ≠ .free)
    (hkj : k ≠ j) (hkind : Steady kind)
    (hf : ∀ p t, Ledger B t → p ∈ t.lists k →
      f p t = if kind (t.pkts p) then (xqcSendCtlDecreaseInflight p t).move p j else t)
    (h : Ledger B s) (hK : ∀ p ∈ s.lists k, kind (s.pkts p) = true → K p) :
    Ledger B (walk (·.lists k) (fun p t => (f p t, true)) s) ∧
      Diverted K j s (walk (·.lists k) (fun p t => (f p t, true)) s) ∧
      ∀ p ∈ (walk (·.lists k) (fun p t => (f p t, true)) s).lists k, ¬ kind (s.pkts p) = true := by
  have hsame : ∀ {t p}, Diverted K j s t → kind (t.pkts p) = kind (s.pkts p) := by
    intro t p ht; rw [ht.same p, hkind]
  have hstep : ∀ p t, Ledger B t ∧ Diverted K j s t → p ∈ t.lists k →
      (Ledger B (f p t) ∧ Diverted K j s (f p t)) ∧ Diverted K j t (f p t) := by
    intro p t ht hp; rw [hf p t ht.1 hp]
    split
    · rename_i hkp; rw [hsame ht.2] at hkp
      have hd := ht.1.divert j hk hp (hK p (ht.2.less hkj hp) hkp)
      exact ⟨⟨hd.1, ht.2.trans hd.2⟩, hd.2⟩
    · exact ⟨ht, .refl K j t⟩
  have h0 : Ledger B s ∧ Diverted K j s s := ⟨h, .refl K j s⟩
  have hall : Ledger B (walk (·.lists k) (fun p t => (f p t, true)) s) ∧
      Diverted K j s (walk (·.lists k) (fun p t => (f p t, true)) s) :=
    walk_inv (P := fun t => Ledger B t ∧ Diverted K j s t) (fun p t ht hp => (hstep p t ht hp).1) h0
  refine ⟨hall.1, hall.2, ?_⟩
  refine walk_none (P := fun t => Ledger B t ∧ Diverted K j s t) (D := fun _ p => kind (s.pkts p) = true)
    (fun p t ht hp => (hstep p t ht hp).1) (fun _ _ _ _ hgo => absurd hgo (by simp)) ?_ h0
  intro p t ht hp q hq hkq
  refine ⟨?_, (hstep p t ht hp).2.less hkj hq, hkq⟩
  rintro rfl
  rw [← hsame ht.2] at hkq
  simp only [hf q t ht.1 hp, hkq, if_true] at hq
  rcases (ht.1.decrease q).mem_move.mp hq with ⟨_, hk'⟩ | ⟨hne, _⟩
  · exact hkj hk'
  · exact hne rfl

/-- The state `t` after some dropping of packets of kind `K`, and `t'` when list `k` has been gone through, too. -/
def Dropped (B : Prop) (K : Id → Prop) (k : Place) (s t t' : Ctl) : Prop :=
  Ledger B t' ∧ Diverted K .free s t' ∧ (∀ p ∈ t'.lists k, ¬ K p) ∧ ∀ {j p}, j ≠ .free → p ∈ t'.lists j → p ∈ t.lists j

section Drop

variable {K : Id → Prop} {kind : PacketOut → Bool} (hkind : Steady kind) {s t : Ctl} (h : Ledger B t)
  (hd : Diverted K .free s t)

include hkind h hd

lemma walk_drop {f : Id → Ctl → Ctl} (hk : k ≠ .free)
    (hf : ∀ p t, Ledger B t → p ∈ t.lists k →
      f p t = if kind (t.pkts p) then (xqcSendCtlDecreaseInflight p t).move p .free else t)
    (hK : ∀ p ∈ s.lists k, kind (s.pkts p) = true ↔ K p) :
    Dropped B K k s t (walk (·.lists k) (fun p t => (f p t, true)) t) := by
  have hsame : ∀ p, kind (t.pkts p) = kind (s.pkts p) := fun p => by rw [hd.same p, hkind]
  obtain ⟨hl, hd', hno⟩ := walk_divert (K := K) kind f hk hk hkind hf h
    (fun p hp hkp => (hK p (hd.less hk hp)).mp (by rwa [← hsame]))
  refine ⟨hl, hd.trans hd', ?_, hd'.less⟩
  intro p hp hKp
  exact hno p hp ((hsame p).trans ((hK p (hd.less hk (hd'.less hk hp))).mpr hKp))

theorem dropUnacked_spec {n : Pns} (hK : ∀ p ∈ s.lists (.unacked n), kind (s.pkts p) = true ↔ K p) :
    Dropped B K (.unacked n) s t (dropUnacked n kind t) :=
  walk_drop hkind h hd (by simp) (fun p t _ _ => by rw [decrease_move]) hK

theorem dropQueued_spec (hk : k ≠ .free) (hun : ∀ n, k ≠ .unacked n)
    (hK : ∀ p ∈ s.lists k, kind (s.pkts p) = true ↔ K p) : Dropped B K k s t (dropQueued k kind t) :=
  walk_drop hkind h hd hk (fun p t ht hp => by rw [decrease_landed (ht.landed_of_mem hp hun)]) hK

end Drop

def Requeued (B : Prop) (k : Place) (s s' : Ctl) : Prop :=
  Ledger B s' ∧ Diverted (fun _ => True) .send s s' ∧ ∀ p, p ∉ s'.lists k

lemma requeue_spec (hk : k ≠ .free) (hks : k ≠ .send) (hun : ∀ n, k ≠ .unacked n) (h : Ledger B s) :
    Requeued B k s (requeue k s) := by
  have hw := walk_divert (K := fun _ => True) (fun _ => true) (fun p t => t.move p .send) hk hks (fun _ _ => rfl)
    (fun p t ht hp => by rw [decrease_landed (ht.landed_of_mem hp hun), if_pos rfl]) h (fun _ _ _ => trivial)
  exact ⟨hw.1, hw.2.1, fun p hp => hw.2.2 p hp rfl⟩

lemma requeueUnacked_spec (n : Pns) (h : Ledger B s) : Requeued B (.unacked n) s (requeueUnacked n s) := by
  have hw := walk_divert (K := fun _ => True) (k := .unacked n) (j := .send) (fun _ => true)
    (fun p t => xqcSendCtlDecreaseInflight p (t.move p .send)) (by simp) (by simp) (fun _ _ => rfl)
    (fun p t _ _ => by rw [decrease_move, if_pos rfl]) h (fun _ _ _ => trivial)
  exact ⟨hw.1, hw.2.1, fun p hp => hw.2.2 p hp rfl⟩

/-- `xqc_send_ctl_reset`: what was sent is out of flight, and every packet in use
    but the buffered ones waits in the send list. -/
lemma reset_spec (h : Ledger B s) :
    Ledger B (xqcSendCtlReset s) ∧ Diverted (fun _ => True) .send s (xqcSendCtlReset s) ∧
      ∀ k, k ≠ .send → k ≠ .buff → k ≠ .free → ∀ p, p ∉ (xqcSendCtlReset s).lists k := by
  unfold xqcSendCtlReset
  generalize hs0 : ({ s with
    rtt := { s.rtt with
      minrtt := 0xFFFFFFFF, srtt := 250000, rttvar := 125000, reorderingPacketThreshold := 3,
      reorderingTimeThresholdShift := 3 }
    largestAcked := fun _ => none
    largestAckedSentTime := fun _ => 0
    lossTime := fun _ => 0 } : Ctl) = s0
  have h0 : Ledger B s0 := by rw [← hs0]; exact h.congr rfl rfl rfl rfl rfl rfl
  have d0 : Diverted (fun _ => True) .send s s0 := by rw [← hs0]; exact ⟨rfl, fun _ => rfl, id, fun _ => id, fun _ => id, .inl⟩
  obtain ⟨h1, d1, e1⟩ := requeueUnacked_spec .init h0
  obtain ⟨h2, d2, e2⟩ := requeueUnacked_spec .hsk h1
  obtain ⟨h3, d3, e3⟩ := requeueUnacked_spec .appData h2
  obtain ⟨h4, d4, e4⟩ := requeue_spec (k := .highPri) (by simp) (by simp) (by simp) h3
  obtain ⟨h5, d5, e5⟩ := requeue_spec (k := .lost) (by simp) (by simp) (by simp) h4
  obtain ⟨h6, d6, e6⟩ := requeue_spec (k := .probe) (by simp) (by simp) (by simp) h5
  refine ⟨h6, d0.trans (d1.trans (d2.trans (d3.trans (d4.trans (d5.trans d6))))), ?_⟩
  -- a list that was emptied stays empty
  intro k hs hb hf p hp
  match k with
  | .send => exact hs rfl
  | .buff => exact hb rfl
  | .free => exact hf rfl
  | .probe => exact e6 p hp
  | .lost => exact e5 p (d6.less hs hp)
  | .highPri => exact e4 p (d5.less hs (d6.less hs hp))
  | .unacked .appData => exact e3 p (d4.less hs (d5.less hs (d6.less hs hp)))
  | .unacked .hsk => exact e2 p (d3.less hs (d4.less hs (d5.less hs (d6.less hs hp))))
  | .unacked .init => exact e1 p (d2.less hs (d3.less hs (d4.less hs (d5.less hs (d6.less hs hp)))))

end RlccQuic.Transport.SendCtl
