/-
  RlccQuic.Transport.SendOrder — the order of the unacked lists.

  A packet is put at the tail of its unacked list, after its origin, which is in that list already; so no packet is
  followed by its origin (`Lined`), however events are interleaved. The numbers ascend along a list (`Ranked`) because a
  number is taken from the counter of its space when the packet is sent, or when it goes into a burst whose packets are
  then sent in that order.

  Proved, over every run of a new connection: no packet is followed by its origin
  (`run_lined`); the numbers ascend as long as no counter wraps (`run_ranked`).
-/

import RlccQuic.Transport.Unacked

namespace RlccQuic.Transport.SendCtl

open Lib List Function
open UInt64 (toNat_add le_refl)

variable {B : Prop} (w : World)

/-! ## Joining a list -/

variable {s : Ctl} {p : Id}

lemma unacked_join (hp : ∀ n, p ∉ s.lists (.unacked n)) (m n : Pns) :
    (s.move p (.unacked m)).lists (.unacked n) =
      if n = m then s.lists (.unacked n) ++ [p] else s.lists (.unacked n) := by
  have hdel : s.lists.del p (.unacked n) = s.lists (.unacked n) := erase_of_not_mem (hp n)
  by_cases hn : n = m
  · subst hn
    simp only [Ctl.move, Links.move, update_self, hdel, if_true]
  · have hne : Place.unacked n ≠ .unacked m := by simpa using hn
    simp only [Ctl.move, Links.move, update_of_ne hne, hdel, if_neg hn]

variable {t : Ctl}

lemma Recedes.away (h : Recedes s t) (hp : ∀ n, p ∉ s.lists (.unacked n)) (n : Pns) : p ∉ t.lists (.unacked n) :=
  fun hn => hp n (h.mem hn)

lemma Queue.place_unacked (q : Queue) (n : Pns) : q.place ≠ .unacked n := q.place_ne.2 n

/-! ## Origins come first -/

def Lined (s : Ctl) : Prop := ∀ n, (s.lists (.unacked n)).Pairwise fun a b => (s.pkts a).origin ≠ some b

lemma Recedes.lined (h : Recedes s t) (hs : Lined s) : Lined t := by
  intro n
  refine ((hs n).sublist (h.sub n)).imp_of_mem ?_
  intro a b ha _ hab
  rwa [(h.same ha).2]

lemma Lined.join (h : Lined s) (hp : ∀ n, p ∉ s.lists (.unacked n))
    (hno : ∀ {n a}, a ∈ s.lists (.unacked n) → (s.pkts a).origin ≠ some p) (m : Pns) :
    Lined (s.move p (.unacked m)) := by
  intro n; rw [unacked_join hp m n]
  split
  · refine pairwise_append.mpr ⟨h n, pairwise_singleton _ _, ?_⟩
    intro a ha b hb; rw [mem_singleton.mp hb]
    exact hno ha
  · exact h n

variable {k : Place} {n : Pns}

lemma Inv.uncopied (h : Inv B s) (ht : Recedes s t) (hp : p ∈ s.lists k)
    (hk : ∀ n, k ≠ .unacked n) {a : Id} (ha : a ∈ t.lists (.unacked n)) : (t.pkts a).origin ≠ some p := by
  rw [(ht.same ha).2]; exact h.not_copied hp hk ⟨_, by simp, ht.mem ha⟩

lemma settle_lined (h : Inv B s) (hs : Lined s) (ht : Recedes s t)
    (hp : p ∈ s.lists k) (hk : ∀ n, k ≠ .unacked n) : Lined (settle p t) := by
  unfold settle
  dsimp only; split
  · exact (ht.lined hs).join (ht.away (not_unacked_of_mem h.ledger hp hk)) (h.uncopied ht hp hk) _
  · exact (ebbs_move p (by simp)).toRecedes.lined (ht.lined hs)

variable {r : Sent} {q : Queue} {cwnd : UInt32} {now : UInt64}

lemma sendOne_lined (h : Inv B s) (hs : Lined s)
    (hp : p ∈ s.lists q.place) : Lined (sendOne w q now r p s) := by
  have haway := not_unacked_of_mem h.ledger hp q.place_unacked
  have hu := (encPacketWithPn_ebbs w haway).toRecedes.trans (sendPacketWithPn_recedes now r p _)
  unfold sendOne; split
  · exact hu.lined hs
  · split
    · exact (hu.lined hs).join (hu.away haway) (h.uncopied hu hp q.place_unacked) _
    · exact settle_lined h hs hu hp q.place_unacked

lemma sendRound_rule (P : Ctl → Prop) (h : Inv B s)
    (hp : p ∈ s.lists q.place) (hpass : ∀ t, Ebbs s t → P t)
    (hone : ∀ t, Inv B t → Ebbs s t → p ∈ t.lists q.place → P (sendOne w q now r p t)) :
    P (sendRound w q cwnd now r p s) := by
  have hself := hone s h (.refl s) hp
  cases q with
  | highPri | probe => exact hself
  | send =>
    unfold sendRound
    dsimp only; split
    · exact hpass s (.refl s)
    · exact hself
  | lost =>
    unfold sendRound
    have hi := indirectly_ebbs p s
    obtain ⟨s', hd⟩ | ⟨hd, -⟩ := indirectly_cases p s
    · rw [hd] at hi ⊢; exact hpass s' hi
    · rw [hd]
      have hmark : Ebbs s (s.modify p ({ · with lost := true })) := ebbs_modify p fun _ => ⟨rfl, rfl⟩
      dsimp only; split
      · exact hpass _ hmark
      · exact hone _ (h.touch rfl) hmark hp

lemma sendRound_lined (h : Inv B s)
    (hs : Lined s) (hp : p ∈ s.lists q.place) : Lined (sendRound w q cwnd now r p s) :=
  sendRound_rule w Lined h hp (fun _ ht => ht.toRecedes.lined hs)
    fun _ hi ht hpt => sendOne_lined w hi (ht.toRecedes.lined hs) hpt

lemma burstRound_recedes (h : Inv B s) (hp : p ∈ s.lists q.place) :
    Recedes s (burstRound w q now p s) := by
  have haway := not_unacked_of_mem h.ledger hp q.place_unacked
  have hi := indirectly_ebbs p s
  cases q with
  | highPri | send => exact encPacket_recedes w now haway
  | lost =>
    unfold burstRound
    obtain ⟨s', hd⟩ | ⟨hd, -⟩ := indirectly_cases p s
    · rw [hd] at hi ⊢; exact hi.toRecedes
    · rw [hd]
      have hmark : Ebbs s (s.modify p ({ · with lost := true })) := ebbs_modify p fun _ => ⟨rfl, rfl⟩
      exact hmark.toRecedes.trans (encPacket_recedes w now haway)
  | probe =>
    unfold burstRound
    obtain ⟨s', hd⟩ | ⟨hd, -⟩ := indirectly_cases p s
    · rw [hd] at hi ⊢; exact hi.toRecedes
    · rw [hd]
      exact encPacket_recedes w now haway

def Ev.quiet : Ev → Bool
  | .send _ _ _ _ | .encode _ _ _ | .sent _ => false
  | _ => true

lemma step_ebbs {e : Ev} (h : Inv B s) (hs : Step w s e t) (hq : e.quiet = true) : Ebbs s t := by
  cases hs with
  | write type => exact writeNew_ebbs w type h.ledger
  | append p f hp => exact ebbs_updateAway _ (not_unacked_of_mem h.ledger hp (by simp))
  | recycle p hp he => exact ebbs_move p (by simp)
  | toHead p hp => exact ebbs_moveToHead p
  | toHighPri p hp => exact ebbs_move p (by simp)
  | send q cwnd now r p hp | encode q p now hp | sent q p hp => cases hq
  | buff => exact buff_ebbs s
  | writeBuffed => exact writeBuffed_ebbs s
  | ack info recvTime clock => exact onAckReceived_ebbs w h
  | timeout fuel now pto idle => exact timeout_ebbs w h
  | closeStream stream => exact dropApp_ebbs _ s
  | discard n => exact dropSpace_ebbs n s
  | handshakeComplete rejected hc => exact handshakeComplete_ebbs rejected s
  | handshakeConfirmed hc hn => exact (ebbs_conn s _).trans (dropSpace_ebbs .hsk _)
  | txKey hc => exact ebbs_conn s _
  | retry hc hr => exact onRecvRetry_ebbs w h hr
  | close => exact destroy_ebbs s

lemma step_lined {e : Ev} (h : Inv B s) (hl : Lined s) (hs : Step w s e t) : Lined t := by
  by_cases hq : e.quiet = true
  · exact (step_ebbs w h hs hq).toRecedes.lined hl
  · cases hs with
    | send q cwnd now r p hp => exact sendRound_lined w h hl (mem_of_head hp)
    | encode q p now hp => exact (burstRound_recedes w h hp).lined hl
    | sent q p hp => exact settle_lined h hl (onPacketSent_ebbs p s).toRecedes (mem_of_head hp) q.place_unacked
    | _ => exact absurd rfl hq

/-! ## Numbers ascend -/

/-- The numbers ascend along the unacked list of space `n`. -/
def Ascending (s : Ctl) (n : Pns) : Prop :=
  (s.lists (.unacked n)).Pairwise fun a b => (s.pkts a).pktNum < (s.pkts b).pktNum

/-- They ascend in every list, and are below the counter of their space. -/
structure Ranked (s : Ctl) : Prop where
  ascending : ∀ n, Ascending s n
  below : ∀ {n p}, p ∈ s.lists (.unacked n) → (s.pkts p).pktNum < s.packetNumber n

lemma Recedes.ascending (h : Recedes s t) (hs : Ascending s n) : Ascending t n := by
  refine (hs.sublist (h.sub n)).imp_of_mem ?_
  intro a b ha hb hab
  rwa [(h.same ha).1, (h.same hb).1]

lemma Recedes.ranked (h : Recedes s t) (hs : Ranked s) (hroom : ∀ n, s.packetNumber n ≤ t.packetNumber n) :
    Ranked t := by
  refine ⟨fun n => h.ascending (hs.ascending n), ?_⟩
  intro n p hp; rw [(h.same hp).1]
  exact UInt64.lt_of_lt_of_le (hs.below (h.mem hp)) (hroom n)

lemma Ranked.join (h : Ranked s) {m : Pns} (hp : ∀ n, p ∉ s.lists (.unacked n))
    (hover : ∀ a ∈ s.lists (.unacked m), (s.pkts a).pktNum < (s.pkts p).pktNum)
    (hbelow : (s.pkts p).pktNum < s.packetNumber m) : Ranked (s.move p (.unacked m)) := by
  refine ⟨?_, ?_⟩
  · intro n; unfold Ascending
    rw [unacked_join hp m n]; split
    · rename_i hn
      subst hn
      refine pairwise_append.mpr ⟨h.ascending n, pairwise_singleton _ _, ?_⟩
      intro a ha b hb; rw [mem_singleton.mp hb]
      exact hover a ha
    · exact h.ascending n
  · intro n q hq; rw [unacked_join hp m n] at hq
    split at hq
    · rename_i hn
      subst hn
      rcases mem_append.mp hq with hq | hq
      · exact h.below hq
      · rw [mem_singleton.mp hq]; exact hbelow
    · exact h.below hq

lemma lt_succ_of_le {x : UInt64} (h : x ≤ x + 1) : x < x + 1 := by
  rw [UInt64.le_iff_toNat_le] at h
  rw [UInt64.lt_iff_toNat_lt]
  simp at h ⊢
  omega

lemma sendPacketWithPn_num {s : Ctl} (now : UInt64) (p : Id) :
    let u := xqcSendPacketWithPn now .all p (xqcEncPacketWithPn w p s)
    let m := (u.pkts p).pns
    (u.pkts p).pktNum = s.packetNumber m ∧ u.packetNumber = update s.packetNumber m (s.packetNumber m + 1) := by
  unfold xqcSendPacketWithPn
  simp only [if_true]
  generalize hv : ({ (xqcEncPacketWithPn w p s).modify p ({ · with sentTime := now }) with packetNumber := _ } : Ctl) = v
  have hnum : (v.pkts p).pktNum = s.packetNumber (v.pkts p).pns := by
    rw [← hv]
    simp only [xqcEncPacketWithPn, Ctl.modify, update_self, PacketOut.pns]
  have hcount : v.packetNumber = update s.packetNumber (v.pkts p).pns (s.packetNumber (v.pkts p).pns + 1) := by
    rw [← hv]; rfl
  obtain ⟨f, l, t, hrec⟩ := onPacketSent_record p v
  rw [(onPacketSent_ebbs p v).numbers, hrec]; exact ⟨hnum, hcount⟩

lemma sendOne_ranked (h : Inv B s) (hs : Ranked s)
    (hp : p ∈ s.lists q.place) (hr : r ≠ .short)
    (hroom : ∀ n, s.packetNumber n ≤ (sendOne w q now r p s).packetNumber n) : Ranked (sendOne w q now r p s) := by
  have haway := not_unacked_of_mem h.ledger hp q.place_unacked
  have hu := (encPacketWithPn_ebbs w haway).toRecedes.trans (sendPacketWithPn_recedes now r p _)
  cases r with
  | short => exact absurd rfl hr
  | error => exact hu.ranked hs hroom
  | all =>
    obtain ⟨hnum, hcount⟩ := sendPacketWithPn_num w (s := s) now p
    unfold sendOne settle at hroom ⊢
    simp only [reduceCtorEq, if_false] at hroom ⊢
    generalize xqcSendPacketWithPn now .all p (xqcEncPacketWithPn w p s) = u at hu hnum hcount hroom ⊢
    have hroom' : ∀ n, s.packetNumber n ≤ u.packetNumber n := by
      intro n
      have := hroom n
      split at this <;> exact this
    have hjoin : Ranked (u.move p (.unacked (u.pkts p).pns)) := by
      refine (hu.ranked hs hroom').join (hu.away haway) ?_ ?_
      · intro a ha; rw [(hu.same ha).1, hnum]; exact hs.below (hu.mem ha)
      · have hself := hroom' (u.pkts p).pns
        rw [hcount, update_self] at hself
        rw [hnum, hcount, update_self]; exact lt_succ_of_le hself
    split
    · exact hjoin
    · split
      · exact hjoin
      · exact (ebbs_move p (by simp)).toRecedes.ranked (hu.ranked hs hroom') fun _ => le_refl _

lemma sendRound_ranked (h : Inv B s)
    (hs : Ranked s) (hp : p ∈ s.lists q.place) (hr : r ≠ .short)
    (hroom : ∀ n, s.packetNumber n ≤ (sendRound w q cwnd now r p s).packetNumber n) :
    Ranked (sendRound w q cwnd now r p s) := by
  revert hroom
  refine sendRound_rule w (fun t => (∀ n, s.packetNumber n ≤ t.packetNumber n) → Ranked t) h hp ?_ ?_
  · exact fun t ht hroom => ht.toRecedes.ranked hs hroom
  · intro t hi ht hpt hroom
    have hsame : ∀ n, s.packetNumber n ≤ t.packetNumber n := fun n => by
      rw [ht.numbers]; exact le_refl _
    rw [← ht.numbers] at hroom
    exact sendOne_ranked w hi (ht.toRecedes.ranked hs hsame) hpt hr hroom

/-! ## Bursts -/

structure Encoded (p : Id) (s t : Ctl) : Prop where
  recedes : Recedes s t
  lists : t.lists = s.lists
  others : ∀ {x}, x ≠ p → t.pkts x = s.pkts x
  num : (t.pkts p).pktNum = s.packetNumber (t.pkts p).pns
  numbers : t.packetNumber = update s.packetNumber (t.pkts p).pns (s.packetNumber (t.pkts p).pns + 1)

def SameNumbers (s t : Ctl) : Prop := ∀ x, (t.pkts x).pktNum = (s.pkts x).pktNum ∧ (t.pkts x).pns = (s.pkts x).pns

/-- `p` was acknowledged through its origin, and leaves list `k`. -/
structure Settled (p : Id) (k : Place) (s t : Ctl) : Prop where
  ebbs : Ebbs s t
  lists : t.lists k = (s.lists k).erase p
  kept : SameNumbers s t

lemma encPacket_encoded (now : UInt64) (hp : ∀ n, p ∉ s.lists (.unacked n)) :
    Encoded p s (xqcConnEncPacket w now p s) := by
  refine ⟨encPacket_recedes w now hp, rfl, fun hx => update_of_ne hx _ _, ?_, ?_⟩
  · simp only [xqcConnEncPacket, update_self, PacketOut.pns]
  · simp only [xqcConnEncPacket, update_self, PacketOut.pns]

lemma SameNumbers.of_eq (h : t.pkts = s.pkts) : SameNumbers s t := by
  intro x; rw [h]
  exact ⟨rfl, rfl⟩

lemma pkts_modify {β : Type} {v : PacketOut → β} {f : PacketOut → PacketOut} (hf : v (f (s.pkts p)) = v (s.pkts p)) (q : Id) :
    v ((s.modify p f).pkts q) = v (s.pkts q) := by
  by_cases hq : q = p
  · subst hq
    simp only [Ctl.modify, update_self, hf]
  · simp only [Ctl.modify, update_of_ne hq]

lemma SameNumbers.modify (ht : SameNumbers s t) (p : Id) {f : PacketOut → PacketOut}
    (hf : ∀ po, (f po).pktNum = po.pktNum ∧ (f po).pns = po.pns) : SameNumbers s (t.modify p f) := fun x =>
  ⟨(pkts_modify (hf _).1 x).trans (ht x).1, (pkts_modify (hf _).2 x).trans (ht x).2⟩

lemma noteHandshakeDone_pkts (p : Id) (s : Ctl) : (noteHandshakeDone p s).pkts = s.pkts := by
  unfold noteHandshakeDone
  split <;> rfl

lemma onPacketAcked_kept (p : Id) (s : Ctl) : SameNumbers s (xqcSendCtlOnPacketAcked p s) := by
  have hnote : SameNumbers s (noteHandshakeDone p s) := .of_eq (noteHandshakeDone_pkts p s)
  have hleave : SameNumbers s (leaveFlight p (noteHandshakeDone p s)) := by
    unfold leaveFlight xqcSendCtlDecreaseInflight
    dsimp only
    generalize noteHandshakeDone p s = t at hnote
    split
    · refine SameNumbers.modify ?_ p fun _ => ⟨rfl, rfl⟩
      split
      · refine SameNumbers.modify ?_ p fun _ => ⟨rfl, rfl⟩
        intro x; rw [takeOff_pkts]
        exact hnote x
      · exact hnote
    · exact hnote
  unfold xqcSendCtlOnPacketAcked setAcked
  have hown := hleave.modify p (f := ({ · with acked := true })) fun _ => ⟨rfl, rfl⟩
  split
  · exact hown
  · exact hown.modify _ fun _ => ⟨rfl, rfl⟩

lemma onPacketAcked_lists (p : Id) (s : Ctl) : (xqcSendCtlOnPacketAcked p s).lists = s.lists := by
  have hset : ∀ t : Ctl, (setAcked p t).lists = t.lists := by
    intro t; unfold setAcked
    split <;> rfl
  have hleave : ∀ t : Ctl, (leaveFlight p t).lists = t.lists := by
    intro t; unfold leaveFlight
    split
    · simp [Ctl.modify]
    · rfl
  have hnote : (noteHandshakeDone p s).lists = s.lists := by
    unfold noteHandshakeDone
    split <;> rfl
  rw [xqcSendCtlOnPacketAcked, hset, hleave, hnote]

lemma remove_pkts {β : Type} {v : PacketOut → β} (hv : ∀ n po, v (po.withRefs n) = v po) (p q : Id) (s : Ctl) :
    v ((xqcSendCtlMaybeRemoveUnacked p s).pkts q) = v (s.pkts q) := by
  unfold xqcSendCtlMaybeRemoveUnacked
  dsimp only; split
  · rfl
  · split
    · rfl
    · split <;> exact pkts_modify (s := s.move p .free) (hv _ _) q

lemma remove_kept (p : Id) (h : SameNumbers s t) : SameNumbers s (xqcSendCtlMaybeRemoveUnacked p t) := fun x =>
  ⟨(remove_pkts (v := PacketOut.pktNum) (fun _ _ => rfl) p x t).trans (h x).1,
    (remove_pkts (v := PacketOut.pns) (fun _ _ => rfl) p x t).trans (h x).2⟩

lemma move_free_lists (p : Id) (t : Ctl) (hk : k ≠ .free) : (t.move p .free).lists k = (t.lists k).erase p := by
  simp only [Ctl.move, Links.move, update_of_ne hk, Links.del]

lemma remove_lists_root (ho : (t.pkts p).origin = none) (hk : k ≠ .free) :
    (xqcSendCtlMaybeRemoveUnacked p t).lists k = t.lists k ∨
      (xqcSendCtlMaybeRemoveUnacked p t).lists k = (t.lists k).erase p := by
  unfold xqcSendCtlMaybeRemoveUnacked
  dsimp only; rw [ho]
  split
  · exact .inl rfl
  · exact .inr (move_free_lists p t hk)

lemma remove_lists_copy {o : Id} (ho : (t.pkts p).origin = some o) (hk : k ≠ .free) :
    (xqcSendCtlMaybeRemoveUnacked p t).lists k = (t.lists k).erase p ∨
      (xqcSendCtlMaybeRemoveUnacked p t).lists k = ((t.lists k).erase p).erase o := by
  unfold xqcSendCtlMaybeRemoveUnacked
  dsimp only; rw [ho, if_neg (by simp)]
  dsimp only; split
  · refine .inr ((move_free_lists o _ hk).trans ?_)
    rw [← move_free_lists p t hk]; rfl
  · exact .inl (move_free_lists p t hk)

lemma erase_middle {front back : List Id} (h : (front ++ p :: back).Nodup) :
    (front ++ p :: back).erase p = front ++ back := by
  have hp : p ∉ front := by
    intro hp; exact (disjoint_of_nodup_append h) hp mem_cons_self
  rw [erase_append_right _ hp, erase_cons_head]

/-- What is removed is the packet and perhaps its origin; if the origin does not come
    after it, the rest of the list stays. -/
lemma remove_rest {u : Ctl} {front ps : List Id} (hnd : (front ++ p :: ps).Nodup)
    (hl : u.lists (.unacked n) = front ++ p :: ps) (hafter : ∀ o, (u.pkts p).origin = some o → o ∉ ps) :
    ∃ front', (xqcSendCtlMaybeRemoveUnacked p u).lists (.unacked n) = front' ++ ps := by
  cases ho : (u.pkts p).origin with
  | none =>
    rcases remove_lists_root (k := .unacked n) ho (by simp) with hr | hr
    · exact ⟨front ++ [p], by rw [hr, hl]; simp⟩
    · exact ⟨front, by rw [hr, hl, erase_middle hnd]⟩
  | some o =>
    rcases remove_lists_copy (k := .unacked n) ho (by simp) with hr | hr
    · exact ⟨front, by rw [hr, hl, erase_middle hnd]⟩
    · rw [hr, hl, erase_middle hnd]
      by_cases hof : o ∈ front
      · exact ⟨front.erase o, erase_append_left _ hof⟩
      · rw [erase_of_not_mem (by simp [hof, hafter o ho])]; exact ⟨front, rfl⟩

lemma Lined.not_after (h : Lined s) {o : Id} {front ps : List Id}
    (hl : s.lists (.unacked n) = front ++ p :: ps) (ho : (s.pkts p).origin = some o) : o ∉ ps := by
  have hline := h n
  rw [hl] at hline
  intro hm; exact (pairwise_cons.mp (pairwise_append.mp hline).2.1).1 o hm ho

lemma onPacketAcked_origin (p : Id) (s : Ctl) (hp : ∀ o, (s.pkts p).origin = some o → o ≠ p) :
    ((xqcSendCtlOnPacketAcked p s).pkts p).origin = (s.pkts p).origin := by
  have hset : ∀ t : Ctl, (∀ o, (t.pkts p).origin = some o → o ≠ p) → ((setAcked p t).pkts p).origin = (t.pkts p).origin := by
    intro t ht; unfold setAcked
    split
    · simp only [Ctl.modify, update_self]
    · rename_i o ho
      simp only [Ctl.modify, update_of_ne (ht o ho).symm, update_self]
  have hleave : ((leaveFlight p (noteHandshakeDone p s)).pkts p).origin = (s.pkts p).origin := by
    rw [← noteHandshakeDone_pkts p s]
    unfold leaveFlight xqcSendCtlDecreaseInflight; split
    · simp only [Ctl.modify, update_self]; split
      · simp
      · rfl
    · rfl
  rw [xqcSendCtlOnPacketAcked, hset _ (by rw [hleave]; exact hp), hleave]

lemma indirectly_settled {s' : Ctl} (h : Inv B s) (hp : p ∈ s.lists k) (hk : k ≠ .free)
    (hun : ∀ n, k ≠ .unacked n) (hd : xqcSendCtlIndirectlyAckPo p s = (true, s')) : Settled p k s s' := by
  have hebb := indirectly_ebbs p s
  rw [hd] at hebb
  have hlive : s.Live p := ⟨k, hk, hp⟩
  have hacked : (s.pkts p).acked = false := (h.sound.fits hk hp).waiting hun
  unfold xqcSendCtlIndirectlyAckPo at hd
  dsimp only at hd; split at hd
  · rename_i hack; rw [hacked, Bool.false_or] at hack
    rw [if_pos hack] at hd; cases hd
    refine ⟨hebb, ?_, remove_kept p (onPacketAcked_kept p s)⟩
    -- its origin is in an unacked list
    obtain ⟨o, ho⟩ : ∃ o, (s.pkts p).origin = some o := by
      cases hc : (s.pkts p).origin with
      | none => rw [hc] at hack; cases hack
      | some o => exact ⟨o, rfl⟩
    have hne : o ∉ s.lists k := fun hm => hun _ (h.place_unique hm (h.sound.origin hlive ho).1)
    have horigin : ((xqcSendCtlOnPacketAcked p s).pkts p).origin = some o := by
      rw [onPacketAcked_origin p s fun o ho => h.sound.origin_ne hlive ho, ho]
    rcases remove_lists_copy horigin hk with hl | hl
    · rw [hl, onPacketAcked_lists]
    · rw [hl, onPacketAcked_lists]; exact erase_of_not_mem fun hm => hne (mem_of_mem_erase hm)
  · cases hd

lemma burstRound_cases (now : UInt64) (h : Inv B s) (hp : p ∈ s.lists q.place) :
    Encoded p s (burstRound w q now p s) ∨ Settled p q.place s (burstRound w q now p s) := by
  have haway := not_unacked_of_mem h.ledger hp q.place_unacked
  cases q with
  | highPri | send => exact .inl (encPacket_encoded w now haway)
  | lost =>
    unfold burstRound
    obtain ⟨s', hd⟩ | ⟨hd, -⟩ := indirectly_cases p s
    · rw [hd]; exact .inr (indirectly_settled h hp (by simp [Queue.place]) (by simp [Queue.place]) hd)
    · rw [hd]
      have hmark : Ebbs s (s.modify p ({ · with lost := true })) := ebbs_modify p fun _ => ⟨rfl, rfl⟩
      have he := encPacket_encoded w (s := s.modify p ({ · with lost := true })) now haway
      refine .inl ⟨hmark.toRecedes.trans he.recedes, he.lists, fun hx => (he.others hx).trans ?_, he.num, he.numbers⟩
      exact update_of_ne hx _ _
  | probe =>
    unfold burstRound
    obtain ⟨s', hd⟩ | ⟨hd, -⟩ := indirectly_cases p s
    · rw [hd]; exact .inr (indirectly_settled h hp (by simp [Queue.place]) (by simp [Queue.place]) hd)
    · rw [hd]
      exact .inl (encPacket_encoded w now haway)

variable {burst : List Id}

section Fill

variable {q : Queue} (now : UInt64) {rest : List Id}

lemma fillBurst_spec (ps : List Id) : ∀ {front : List Id} {s : Ctl}, Inv B s →
    s.lists q.place = front ++ (ps ++ rest) →
    Inv B (fillBurst w q now ps s).2 ∧ Recedes s (fillBurst w q now ps s).2 ∧
      (fillBurst w q now ps s).2.lists q.place = front ++ ((fillBurst w q now ps s).1 ++ rest) ∧
      ∀ n, ∃ j ≤ (fillBurst w q now ps s).1.length,
        (fillBurst w q now ps s).2.packetNumber n = s.packetNumber n + UInt64.ofNat j := by
  induction ps with
  | nil =>
    intro front s h hl
    exact ⟨h, .of_eq rfl rfl, hl, fun n => ⟨0, le_rfl, (UInt64.add_zero _).symm⟩⟩
  | cons p ps ih =>
    intro front s h hl
    have hp : p ∈ s.lists q.place := by
      rw [hl]
      simp
    have hinv : Inv B (burstRound w q now p s) := burstRound_inv w h hp
    have hnd := h.ledger.single.nodup q.place
    rw [hl] at hnd
    unfold fillBurst
    dsimp only
    rcases burstRound_cases w now h hp with he | he
    · generalize burstRound w q now p s = t at hinv he
      have hl' : t.lists q.place = (front ++ [p]) ++ (ps ++ rest) := by
        rw [he.lists, hl]
        simp
      obtain ⟨h1, hrec, h2, h3⟩ := ih hinv hl'
      rw [he.lists, if_pos hp]
      refine ⟨h1, he.recedes.trans hrec, by rw [h2]; simp, ?_⟩
      intro n
      obtain ⟨j, hj, hn⟩ := h3 n
      by_cases hm : n = (t.pkts p).pns
      · subst hm
        refine ⟨j + 1, by simpa using hj, ?_⟩
        rw [hn, he.numbers, update_self, UInt64.add_assoc, UInt64.ofNat_add]
        congr 1
        exact UInt64.add_comm _ _
      · exact ⟨j, Nat.le_succ_of_le hj, by rw [hn, he.numbers, update_of_ne hm]⟩
    · generalize burstRound w q now p s = t at hinv he
      have hl' : t.lists q.place = front ++ (ps ++ rest) := by
        rw [he.lists, hl]; exact erase_middle hnd
      obtain ⟨h1, hrec, h2, h3⟩ := ih hinv hl'
      have hgone : p ∉ t.lists q.place := by
        rw [he.lists, hl]; exact hnd.not_mem_erase
      rw [if_neg hgone]
      refine ⟨h1, he.ebbs.toRecedes.trans hrec, h2, ?_⟩
      intro n; rw [← he.ebbs.numbers]
      exact h3 n

/-- The packets `burst` of a queue have numbers, in order, above all that was sent. -/
structure Loaded (burst : List Id) (s : Ctl) : Prop where
  ranked : Ranked s
  above : ∀ e ∈ burst, ∀ a ∈ s.lists (.unacked (s.pkts e).pns), (s.pkts a).pktNum < (s.pkts e).pktNum
  below : ∀ e ∈ burst, (s.pkts e).pktNum < s.packetNumber (s.pkts e).pns
  order : burst.Pairwise fun a b => (s.pkts a).pns = (s.pkts b).pns → (s.pkts a).pktNum < (s.pkts b).pktNum

lemma Loaded.settled (h : Loaded burst s) (ht : Settled p k s t) : Loaded burst t := by
  have hnum : ∀ x, (t.pkts x).pktNum = (s.pkts x).pktNum := fun x => (ht.kept x).1
  have hpns : ∀ x, (t.pkts x).pns = (s.pkts x).pns := fun x => (ht.kept x).2
  have hroom : ∀ n, s.packetNumber n ≤ t.packetNumber n := by
    intro n; rw [ht.ebbs.numbers]
    exact le_refl _
  refine ⟨ht.ebbs.toRecedes.ranked h.ranked hroom, ?_, ?_, ?_⟩
  · intro e he a ha; rw [hnum, hnum]
    rw [hpns] at ha; exact h.above e he a (ht.ebbs.mem ha)
  · intro e he; rw [hnum, hpns, ht.ebbs.numbers]; exact h.below e he
  · refine h.order.imp ?_
    intro a b hab hn; rw [hnum, hnum]
    rw [hpns, hpns] at hn; exact hab hn

lemma Loaded.encoded (h : Loaded burst s) (ht : Encoded p s t) (hp : p ∉ burst)
    (haway : ∀ n, p ∉ s.lists (.unacked n)) (hroom : ∀ n, s.packetNumber n ≤ t.packetNumber n) :
    Loaded (burst ++ [p]) t := by
  have hsame : ∀ e ∈ burst, t.pkts e = s.pkts e := by
    intro e he
    refine ht.others ?_
    rintro rfl
    exact hp he
  have hlisted : ∀ {n a}, a ∈ t.lists (.unacked n) → t.pkts a = s.pkts a := by
    intro n a ha
    refine ht.others ?_
    rintro rfl
    exact haway n (ht.recedes.mem ha)
  refine ⟨ht.recedes.ranked h.ranked hroom, ?_, ?_, ?_⟩
  · intro e he a ha; rw [hlisted ha]
    rcases mem_append.mp he with he | he
    · rw [hsame e he] at ha ⊢; exact h.above e he a (ht.recedes.mem ha)
    · rw [mem_singleton.mp he] at ha ⊢; rw [ht.num]; exact h.ranked.below (ht.recedes.mem ha)
  · intro e he
    rcases mem_append.mp he with he | he
    · rw [hsame e he]; exact UInt64.lt_of_lt_of_le (h.below e he) (hroom _)
    · rw [mem_singleton.mp he]
      have hself := hroom (t.pkts p).pns
      rw [ht.numbers, update_self] at hself
      rw [ht.num, ht.numbers, update_self]; exact lt_succ_of_le hself
  · refine pairwise_append.mpr ⟨?_, pairwise_singleton _ _, ?_⟩
    · refine h.order.imp_of_mem ?_
      intro a b ha hb hab
      rwa [hsame a ha, hsame b hb]
    · intro a ha b hb hn; rw [mem_singleton.mp hb] at hn ⊢
      rw [ht.num, ← hn, hsame a ha]; exact h.below a ha

lemma le_step_of_le {x y : UInt64} {j : Nat} (hj : j + 1 ≤ xqcMaxSendMsgOnce) (hy : y = x + 1 + UInt64.ofNat j)
    (h : x ≤ y) : x ≤ x + 1 ∧ x + 1 ≤ y := by
  have hmod : j % 2 ^ 64 = j := Nat.mod_eq_of_lt (by unfold xqcMaxSendMsgOnce at hj; omega)
  unfold xqcMaxSendMsgOnce at hj; rw [hy] at h ⊢
  simp only [UInt64.le_iff_toNat_le, toNat_add, UInt64.toNat_ofNat', hmod, UInt64.toNat_one] at h ⊢
  omega

lemma fillBurst_loaded (ps : List Id) : ∀ {front : List Id} {s : Ctl}, Inv B s → Loaded front s →
    s.lists q.place = front ++ (ps ++ rest) → (fillBurst w q now ps s).1.length ≤ xqcMaxSendMsgOnce →
    (∀ n, s.packetNumber n ≤ (fillBurst w q now ps s).2.packetNumber n) →
    Loaded (front ++ (fillBurst w q now ps s).1) (fillBurst w q now ps s).2 := by
  induction ps with
  | nil => intro front s _ hload _ _ _; rw [fillBurst, append_nil]; exact hload
  | cons p ps ih =>
    intro front s h hload hl hlen hroom
    have hp : p ∈ s.lists q.place := by
      rw [hl]
      simp
    have hinv : Inv B (burstRound w q now p s) := burstRound_inv w h hp
    have hnd := h.ledger.single.nodup q.place
    rw [hl] at hnd
    unfold fillBurst at hlen hroom ⊢
    dsimp only at hlen hroom ⊢
    rcases burstRound_cases w now h hp with he | he
    · generalize burstRound w q now p s = t at hinv he hlen hroom
      have hl' : t.lists q.place = (front ++ [p]) ++ (ps ++ rest) := by
        rw [he.lists, hl]
        simp
      rw [he.lists, if_pos hp] at hlen ⊢
      obtain ⟨-, -, -, hcount⟩ := fillBurst_spec w now ps hinv hl'
      have hsteps : ∀ n, s.packetNumber n ≤ t.packetNumber n ∧
          t.packetNumber n ≤ (fillBurst w q now ps t).2.packetNumber n := by
        intro n
        by_cases hm : n = (t.pkts p).pns
        · subst hm
          obtain ⟨j, hj, hn⟩ := hcount (t.pkts p).pns
          rw [he.numbers, update_self] at hn ⊢
          exact le_step_of_le (Nat.le_trans (Nat.succ_le_succ hj) hlen) hn (hroom _)
        · have hsame : t.packetNumber n = s.packetNumber n := by rw [he.numbers, update_of_ne hm]
          rw [hsame]; exact ⟨le_refl _, hroom n⟩
      have hfront : p ∉ front := fun hf => disjoint_of_nodup_append hnd hf mem_cons_self
      have hnext := hload.encoded he hfront (not_unacked_of_mem h.ledger hp q.place_unacked) fun n => (hsteps n).1
      have := ih hinv hnext hl' (Nat.le_of_succ_le hlen) fun n => (hsteps n).2
      rwa [append_assoc] at this
    · generalize burstRound w q now p s = t at hinv he hlen hroom
      have hl' : t.lists q.place = front ++ (ps ++ rest) := by
        rw [he.lists, hl]; exact erase_middle hnd
      have hgone : p ∉ t.lists q.place := by
        rw [he.lists, hl]; exact hnd.not_mem_erase
      rw [if_neg hgone] at hlen ⊢
      refine ih hinv (hload.settled he) hl' hlen ?_
      rw [he.ebbs.numbers]; exact hroom

lemma onPacketSent_others {x : Id} (hx : x ≠ p) (s : Ctl) : (xqcSendCtlOnPacketSent p s).pkts x = s.pkts x := by
  have hinc : ∀ t : Ctl, (xqcSendCtlIncreaseInflight p t).pkts x = t.pkts x := by
    intro t; unfold xqcSendCtlIncreaseInflight
    dsimp only; split
    · exact update_of_ne hx _ _
    · rfl
  rw [onPacketSent_eq]; split
  · simp only [Ctl.modify, update_of_ne hx]; split
    · rw [noteSent_pkts]
    · rw [hinc, noteSent_pkts]
  · rw [noteSent_pkts]

lemma onPacketSent_lists (p : Id) (s : Ctl) : (xqcSendCtlOnPacketSent p s).lists = s.lists := by
  have hinc : ∀ t : Ctl, (xqcSendCtlIncreaseInflight p t).lists = t.lists := by
    intro t; unfold xqcSendCtlIncreaseInflight
    dsimp only
    split <;> rfl
  rw [onPacketSent_eq]; split
  · simp only [Ctl.modify]; split
    · rw [noteSent_lists]
    · rw [hinc, noteSent_lists]
  · rw [noteSent_lists]

lemma Loaded.sent (h : Loaded (p :: burst) s) (hp : p ∉ burst)
    (haway : ∀ n, p ∉ s.lists (.unacked n)) : Loaded burst (onPacketSentInBurst p s) := by
  have hebb := onPacketSent_ebbs p s
  have hrec := onPacketSent_record p s
  have hothers : ∀ x, x ≠ p → (xqcSendCtlOnPacketSent p s).pkts x = s.pkts x := fun x hx => onPacketSent_others hx s
  have hlists := onPacketSent_lists p s
  unfold onPacketSentInBurst settle
  dsimp only
  generalize xqcSendCtlOnPacketSent p s = u at hebb hrec hothers hlists
  have hpp : (u.pkts p).pktNum = (s.pkts p).pktNum ∧ (u.pkts p).pns = (s.pkts p).pns := by
    obtain ⟨f, l, t, hrec⟩ := hrec
    rw [hrec]; exact ⟨rfl, rfl⟩
  have hranked : Ranked u := hebb.toRecedes.ranked h.ranked fun n => by rw [hebb.numbers]; exact le_refl _
  have hburst : ∀ e ∈ burst, u.pkts e = s.pkts e := by
    intro e he
    refine hothers e ?_
    rintro rfl
    exact hp he
  have hbelow : ∀ e ∈ burst, (u.pkts e).pktNum < u.packetNumber (u.pkts e).pns := by
    intro e he; rw [hburst e he, hebb.numbers]
    exact h.below e (mem_cons_of_mem _ he)
  have horder : burst.Pairwise fun a b => (u.pkts a).pns = (u.pkts b).pns → (u.pkts a).pktNum < (u.pkts b).pktNum := by
    refine (pairwise_cons.mp h.order).2.imp_of_mem ?_
    intro a b ha hb hab
    rwa [hburst a ha, hburst b hb]
  have hold : ∀ e ∈ burst, ∀ a ∈ u.lists (.unacked (u.pkts e).pns), (u.pkts a).pktNum < (u.pkts e).pktNum := by
    intro e he a ha; rw [(hebb.same ha).1]
    rw [hburst e he] at ha ⊢; exact h.above e (mem_cons_of_mem _ he) a (hebb.mem ha)
  split
  · -- it joins its list below the rest of the burst
    refine ⟨hranked.join (hebb.toRecedes.away haway) ?_ ?_, ?_, hbelow, horder⟩
    · intro a ha; rw [(hebb.same ha).1, hpp.1]
      rw [hpp.2] at ha; exact h.above p mem_cons_self a (hebb.mem ha)
    · rw [hpp.1, hpp.2, hebb.numbers]; exact h.below p mem_cons_self
    · intro e he a ha; rw [unacked_join (hebb.toRecedes.away haway)] at ha
      split at ha
      · rename_i hn
        rcases mem_append.mp ha with ha | ha
        · exact hold e he a ha
        · show (u.pkts a).pktNum < (u.pkts e).pktNum
          have hn' : (u.pkts e).pns = (u.pkts p).pns := hn
          rw [mem_singleton.mp ha, hpp.1, hburst e he]
          refine (pairwise_cons.mp h.order).1 e he ?_
          rw [← hpp.2, ← hn', hburst e he]
      · exact hold e he a ha
  · have hfree := ebbs_move (s := u) p (k := .free) (by simp)
    refine ⟨hfree.toRecedes.ranked hranked fun _ => le_refl _, ?_, hbelow, horder⟩
    intro e he a ha; exact hold e he a (hfree.mem ha)

lemma sentInBurst_lists (q : Queue) : (onPacketSentInBurst p s).lists q.place = (s.lists q.place).erase p := by
  have hmove : ∀ (t : Ctl) (k : Place), q.place ≠ k → (t.move p k).lists q.place = (t.lists q.place).erase p := by
    intro t k hk
    simp only [Ctl.move, Links.move, update_of_ne hk, Links.del]
  unfold onPacketSentInBurst settle; rw [hmove, onPacketSent_lists]
  split
  · exact q.place_unacked _
  · exact q.place_ne.1

lemma sendBurst_loaded (m : Nat) : ∀ {burst : List Id} {s : Ctl}, Inv False s → Loaded burst s →
    s.lists q.place = burst ++ rest → m ≤ burst.length → Ranked (xqcOnPacketsSendBurst q m s) := by
  induction m with
  | zero => intro burst s _ h _ _; exact h.ranked
  | succ m ih =>
    intro burst s hinv h hl hm
    match burst with
    | [] => exact absurd hm (by simp)
    | p :: burst =>
      have hp : p ∈ s.lists q.place := by
        rw [hl]; exact mem_cons_self
      have hnd := hinv.ledger.single.nodup q.place
      rw [hl] at hnd
      have hpb : p ∉ burst := by
        have := (nodup_cons.mp hnd).1; exact fun hb => this (mem_append_left _ hb)
      unfold xqcOnPacketsSendBurst; rw [hl]
      dsimp only [cons_append]
      refine ih ?_ (h.sent hpb (not_unacked_of_mem hinv.ledger hp q.place_unacked)) ?_ (Nat.le_of_succ_le_succ hm)
      · exact sent_settle hinv hp q.place_ne.1 q.place_ne.2 False.elim
      · rw [sentInBurst_lists, hl, cons_append, erase_cons_head]

lemma sendBurst_spec (m : Nat) : ∀ {s : Ctl}, Inv False s →
    Inv False (xqcOnPacketsSendBurst q m s) ∧ (Lined s → Lined (xqcOnPacketsSendBurst q m s)) ∧
      (xqcOnPacketsSendBurst q m s).packetNumber = s.packetNumber := by
  induction m with
  | zero => intro s h; exact ⟨h, id, rfl⟩
  | succ m ih =>
    intro s h; unfold xqcOnPacketsSendBurst
    cases hl : s.lists q.place with
    | nil => exact ⟨h, id, rfl⟩
    | cons p l =>
      have hp : p ∈ s.lists q.place := by
        rw [hl]; exact mem_cons_self
      have hebb := onPacketSent_ebbs p s
      obtain ⟨h1, h2, h3⟩ := ih (sent_settle h hp q.place_ne.1 q.place_ne.2 False.elim)
      exact ⟨h1, fun hs => h2 (settle_lined h hs hebb.toRecedes hp q.place_unacked), h3.trans hebb.numbers⟩

end Fill

/-! ## Calls and runs -/

lemma challenge_spec (h : Inv B s) (sent : Bool) :
    Inv B (xqcConnServerSendPathChallenge w sent s) ∧ Recedes s (xqcConnServerSendPathChallenge w sent s) := by
  have hinv := writeNew_inv w .shortHeader h
  have hebb := writeNew_ebbs w .shortHeader h.ledger
  unfold xqcConnServerSendPathChallenge
  rcases hw : xqcWriteNewPacket w .shortHeader s with ⟨d, s1⟩
  rw [hw] at hinv hebb
  cases d with
  | none => exact ⟨hinv.1, hebb.toRecedes⟩
  | some d =>
    have hd := hinv.2 d (by simp)
    have haway := not_unacked_of_mem hinv.1.ledger hd (by simp)
    have h2 := addFrame_inv hinv.1 hd ⟨.pathChallenge, 9, none, 0⟩
    have e2 : Ebbs s1 (s1.modify d (PacketOut.addFrame ⟨.pathChallenge, 9, none, 0⟩)) := ebbs_updateAway _ haway
    have h3 := encPacketWithPn_inv w h2 hd (by simp) (by simp)
    have e3 := encPacketWithPn_ebbs w (e2.toRecedes.away haway)
    have hd3 : d ∈ (xqcEncPacketWithPn w d (s1.modify d (PacketOut.addFrame ⟨.pathChallenge, 9, none, 0⟩))).lists .send :=
      hd
    dsimp only
    generalize xqcEncPacketWithPn w d (s1.modify d (PacketOut.addFrame ⟨.pathChallenge, 9, none, 0⟩)) = u at h3 e3 hd3
    have hu := (hebb.trans (e2.trans e3)).toRecedes
    have hfree : ∀ f : Pns → UInt64, Inv B (({ u with packetNumber := f } : Ctl).move d .free) ∧
        Recedes s (({ u with packetNumber := f } : Ctl).move d .free) := by
      intro f
      have hf : Inv B { u with packetNumber := f } := h3.congr rfl
      have ef : Recedes u { u with packetNumber := f } := .of_eq rfl rfl
      exact ⟨hf.releaseWaiting hd3 (by simp), hu.trans (ef.trans (ebbs_move d (by simp)).toRecedes)⟩
    split
    · exact hfree _
    · exact hfree u.packetNumber

lemma turn_lined {c : Call} (h : Inv False s) (hl : Lined s) (ht : Turn w s c t) : Inv False t ∧ Lined t := by
  cases ht with
  | one e t hw hst => exact ⟨step_inv w h hst False.elim, step_lined w h hl hst⟩
  | burst q now k sent hk hs =>
    have hlists : s.lists q.place = [] ++ ((s.lists q.place).take k ++ (s.lists q.place).drop k) := by simp
    obtain ⟨hfill, hrec, -, -⟩ := fillBurst_spec w now ((s.lists q.place).take k) h hlists
    obtain ⟨h1, h2, -⟩ := sendBurst_spec (q := q) sent hfill
    exact ⟨h1, h2 (hrec.lined hl)⟩
  | challenge sent =>
    obtain ⟨hinv, hrec⟩ := challenge_spec w h sent
    exact ⟨hinv, hrec.lined hl⟩

theorem run_lined {conn : Conn} (hc : conn.Fresh) {cs : List Call}
    (h : Run (Turn w) (xqcSendCtlCreate conn) cs s) : Inv False s ∧ Lined s := by
  refine h.inv (P := fun s => Inv False s ∧ Lined s) ?_ ⟨create_inv hc, fun n => List.Pairwise.nil⟩
  intro s c t hs hst; exact turn_lined w hs.1 hs.2 hst

lemma turn_ranked {c : Call} (h : Inv False s) (hs : Ranked s) (ht : Turn w s c t)
    (hroom : ∀ n, s.packetNumber n ≤ t.packetNumber n) : Ranked t := by
  cases ht with
  | one e t hw hst =>
    by_cases hq : e.quiet = true
    · exact (step_ebbs w h hst hq).toRecedes.ranked hs hroom
    · cases hst with
      | send q cwnd now r p hp =>
        refine sendRound_ranked w h hs (mem_of_head hp) ?_ hroom
        rintro rfl
        cases hw
      | encode q p now hp | sent q p hp => cases hw
      | _ => exact absurd rfl hq
  | burst q now k sent hk hs' =>
    have hl : s.lists q.place = [] ++ ((s.lists q.place).take k ++ (s.lists q.place).drop k) := by simp
    obtain ⟨hinv, -, hlists, -⟩ := fillBurst_spec w now ((s.lists q.place).take k) h hl
    have hload : Loaded [] s := ⟨hs, by simp, by simp, List.Pairwise.nil⟩
    rw [(sendBurst_spec sent hinv).2.2] at hroom
    have hburst := fillBurst_loaded w now _ h hload hl hk hroom
    exact sendBurst_loaded sent hinv hburst hlists hs'
  | challenge sent => exact (challenge_spec w h sent).2.ranked hs hroom

theorem run_ranked {conn : Conn} (hc : conn.Fresh) {cs : List Call}
    (h : Run (fun s c t => Turn w s c t ∧ ∀ n, s.packetNumber n ≤ t.packetNumber n) (xqcSendCtlCreate conn) cs s) :
    Ranked s := by
  refine (h.inv (P := fun s => (Inv False s ∧ Lined s) ∧ Ranked s) ?_ ⟨⟨create_inv hc, fun n => List.Pairwise.nil⟩,
    fun n => List.Pairwise.nil, fun hp => absurd hp not_mem_nil⟩).2
  intro s c t hs hst
  exact ⟨turn_lined w hs.1.1 hs.1.2 hst.1, turn_ranked w hs.1.1 hs.2 hst.1 hst.2⟩

end RlccQuic.Transport.SendCtl
