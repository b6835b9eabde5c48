/-
  RlccQuic.Transport.PacketInv — where packets are, and what copies have of their origins.

  `Sound`: the list a packet is in says what it is (`Fits`): what waits to be sent is not acknowledged, and only the
  lost, the probe and the unacked lists hold copies. A copy in use has its origin in the unacked list, not in flight
  (`Copy`), and no more copies are in use than the origin counts: so when the last one is settled and takes its origin
  along, the origin is not in flight, and its address is not reused while a copy points to it.

  Proved: the changes the code is made of keep it, and the ledger: to the record of a packet (`Inv.update`), from one list to
  another (`Inv.relocate`), to the free list (`Inv.release`), into use (`Inv.adopt`), out of flight and into it
  (`Inv.decrease`, `Inv.increase`), copying (`Inv.copyTo`), and dropping whatever is dropped with its copies (`Inv.shrink`).
-/

import RlccQuic.Transport.Ledger

namespace RlccQuic.Transport.SendCtl

open Lib Finset Function

variable {B : Prop}

/-! ## Where packets are -/

structure Fits (retried : Bool) (k : Place) (po : PacketOut) : Prop where
  space : ∀ n, k = .unacked n → po.pns = n
  fresh : po.inFlight = true → po.acked = false
  waiting : (∀ n, k ≠ .unacked n) → po.acked = false
  first : k = .send ∨ k = .highPri ∨ k = .buff → po.origin = none
  resend : retried = false → po.resend = false

/-- What a copy `c` has of its origin `o`; `oneRtt` says that 1-RTT packets can be sent. -/
structure Copy (oneRtt : Bool) (c o : PacketOut) : Prop where
  root : o.origin = none
  landed : o.inFlight = false
  pns : c.pns = o.pns
  streams : o.pns = .appData → o.frameTypes = {.stream} →
    c.frameTypes = {.stream} ∧ c.streamFrames = o.streamFrames
  early : o.pktType = .zeroRtt → c.pktType = .zeroRtt ∨ oneRtt = true

def HasCopies (s : Ctl) (o : Id) (S : Finset Id) : Prop := ∀ c, s.Live c → (s.pkts c).origin = some o → c ∈ S

structure Sound (s : Ctl) : Prop where
  fits : ∀ {k p}, k ≠ .free → p ∈ s.lists k → Fits s.conn.retryRecvd k (s.pkts p)
  origin : ∀ {c o}, s.Live c → (s.pkts c).origin = some o →
    o ∈ s.lists (.unacked (s.pkts o).pns) ∧ Copy s.conn.canSend1rtt (s.pkts c) (s.pkts o)
  count : ∀ o, ∃ S : Finset Id, S.card ≤ (s.pkts o).originRefCnt ∧ HasCopies s o S
  client : s.conn.server = false → s.conn.canSend1rtt = true → s.conn.handshakeCompleted = true

structure Inv (B : Prop) (s : Ctl) : Prop where
  ledger : Ledger B s
  sound : Sound s

variable {s s' : Ctl} {p : Id}

lemma Sound.congr (h : Sound s) (hp : s'.pkts = s.pkts) (hl : s'.lists = s.lists)
    (hr : s'.conn.retryRecvd = s.conn.retryRecvd) (h1 : s'.conn.canSend1rtt = s.conn.canSend1rtt)
    (hv : s'.conn.server = s.conn.server) (hh : s'.conn.handshakeCompleted = s.conn.handshakeCompleted) : Sound s' := by
  have hlive : ∀ c, s'.Live c ↔ s.Live c := fun c => by simp only [Ctl.Live, hl]
  refine ⟨?_, ?_, ?_, ?_⟩
  · rw [hl, hp, hr]; exact h.fits
  · rw [hp, hl, h1]; intro c o hc; exact h.origin ((hlive c).mp hc)
  · intro o
    obtain ⟨S, hS, hin⟩ := h.count o
    refine ⟨S, by rw [hp]; exact hS, fun c hc ho => hin c ((hlive c).mp hc) ?_⟩
    rwa [hp] at ho
  · rw [hv, h1, hh]; exact h.client

def Ctl.parts (s : Ctl) :=
  (s.pkts, s.next, s.lists, s.bytesInFlight, s.bytesAckElicitingInflight, s.tooSmall, s.conn.retryRecvd, s.conn.canSend1rtt,
    s.conn.server, s.conn.handshakeCompleted)

lemma Inv.congr (h : Inv B s) (hs : s'.parts = s.parts) : Inv B s' := by
  simp only [Ctl.parts, Prod.mk.injEq] at hs
  obtain ⟨hp, hn, hl, hb, hs, ht, hr, h1, hv, hh⟩ := hs
  exact ⟨h.ledger.congr hp hn hl hb hs ht, h.sound.congr hp hl hr h1 hv hh⟩

/-! ## Origins -/

variable {k : Place}

lemma Inv.place_unique (h : Inv B s) {j : Place} (hk : p ∈ s.lists k) (hj : p ∈ s.lists j) : k = j :=
  h.ledger.place_unique hk hj

variable {c : Id}

/-- A packet that has copies is in the unacked list of its space, so one that is anywhere else has none. -/
lemma Inv.not_copied (h : Inv B s) (hp : p ∈ s.lists k) (hk : ∀ n, k ≠ .unacked n) (hc : s.Live c) :
    (s.pkts c).origin ≠ some p := by
  intro ho; exact hk _ (h.place_unique hp (h.sound.origin hc ho).1)

lemma Sound.not_copied_of_idle (h : Sound s) (hp : ¬ s.Live p) (hc : s.Live c) :
    (s.pkts c).origin ≠ some p := by
  intro ho; exact hp ⟨_, by simp, (h.origin hc ho).1⟩

lemma Sound.not_copied_of_flying (h : Sound s) (hp : (s.pkts p).inFlight = true)
    (hc : s.Live c) : (s.pkts c).origin ≠ some p := by
  intro ho
  have hf := (h.origin hc ho).2.landed
  rw [hp] at hf; cases hf

lemma Sound.origin_ne (h : Sound s) {o : Id} (hc : s.Live c) (ho : (s.pkts c).origin = some o) : o ≠ c := by
  rintro rfl
  have := (h.origin hc ho).2.root
  rw [ho] at this; cases this

lemma Sound.count_others (h : Sound s) {p o : Id} (hp : s.Live p) (ho : (s.pkts p).origin = some o) :
    ∃ S : Finset Id, S.card < (s.pkts o).originRefCnt ∧ ∀ c, s.Live c → c ≠ p → (s.pkts c).origin = some o → c ∈ S := by
  obtain ⟨S, hS, hin⟩ := h.count o
  have hmem := hin p hp ho
  refine ⟨S.erase p, ?_, fun c hc hne hc' => mem_erase.mpr ⟨hne, hin c hc hc'⟩⟩
  have := card_erase_lt_of_mem hmem; omega

/-! ## Changes to a record -/

lemma Sound.update (h : Sound s) {po : PacketOut}
    (hfit : ∀ {k}, k ≠ .free → p ∈ s.lists k → Fits s.conn.retryRecvd k po)
    (hown : s.Live p → po.origin = (s.pkts p).origin)
    (hcopy : ∀ {o}, s.Live p → (s.pkts p).origin = some o → Copy s.conn.canSend1rtt po (s.pkts o))
    (horigin : ∀ {c}, s.Live c → (s.pkts c).origin = some p → Copy s.conn.canSend1rtt (s.pkts c) po)
    (hcount : ∃ S : Finset Id, S.card ≤ po.originRefCnt ∧ HasCopies s p S) :
    Sound { s with pkts := update s.pkts p po } := by
  -- whose copy a packet in use is does not change
  have hsame : ∀ {c o}, s.Live c → (Function.update s.pkts p po c).origin = some o → (s.pkts c).origin = some o := by
    intro c o hc ho
    by_cases hcp : c = p
    · subst hcp; rwa [update_self, hown hc] at ho
    · rwa [update_of_ne hcp] at ho
  refine ⟨?_, ?_, ?_, h.client⟩
  · intro k q hk hq
    by_cases hqp : q = p
    · subst hqp; simpa only [update_self] using hfit hk hq
    · simpa only [update_of_ne hqp] using h.fits hk hq
  · intro c o hc ho
    have ho' := hsame hc ho
    have hne := h.origin_ne hc ho'
    obtain ⟨hmem, hcp⟩ := h.origin hc ho'
    by_cases hop : o = p
    · subst hop
      have hnew := horigin hc ho'
      simp only [update_self, update_of_ne hne.symm]; rw [← hnew.pns, hcp.pns]
      exact ⟨hmem, hnew⟩
    · simp only [update_of_ne hop]
      refine ⟨hmem, ?_⟩
      by_cases hcp' : c = p
      · subst hcp'; simpa only [update_self] using hcopy hc ho'
      · simpa only [update_of_ne hcp'] using hcp
  · intro o
    by_cases hop : o = p
    · subst hop
      obtain ⟨S, hS, hin⟩ := hcount
      exact ⟨S, by simpa only [update_self] using hS, fun c hc ho => hin c hc (hsame hc ho)⟩
    · obtain ⟨S, hS, hin⟩ := h.count o
      exact ⟨S, by simpa only [update_of_ne hop] using hS, fun c hc ho => hin c hc (hsame hc ho)⟩

lemma Inv.updateIdle (h : Inv B s) (po : PacketOut) (hp : ¬ s.Live p) (hf : po.inFlight = false) :
    Inv B { s with pkts := update s.pkts p po } := by
  refine ⟨h.ledger.updateLanded po (h.ledger.landed_of_idle hp) hf, h.sound.update ?_ ?_ ?_ ?_ ⟨∅, by simp, ?_⟩⟩
  · intro k hk hm; exact absurd ⟨k, hk, hm⟩ hp
  · intro hl; exact absurd hl hp
  · intro o hl; exact absurd hl hp
  · intro c hc ho; exact absurd ho (h.sound.not_copied_of_idle hp hc)
  · intro c hc ho; exact absurd ho (h.sound.not_copied_of_idle hp hc)

lemma Inv.updateWaiting (h : Inv B s) {po : PacketOut} (hp : p ∈ s.lists k)
    (hk : k ≠ .free) (hun : ∀ n, k ≠ .unacked n) (hf : po.inFlight = (s.pkts p).inFlight)
    (ha : po.acked = (s.pkts p).acked) (ho : po.origin = (s.pkts p).origin) (hr : po.resend = (s.pkts p).resend)
    (hcopy : ∀ {o}, (s.pkts p).origin = some o → Copy s.conn.canSend1rtt po (s.pkts o)) :
    Inv B { s with pkts := update s.pkts p po } := by
  have hland := h.ledger.landed_of_mem hp hun
  have hfit := h.sound.fits hk hp
  refine ⟨h.ledger.updateLanded po hland (hf.trans hland), h.sound.update ?_ (fun _ => ho) (fun _ => hcopy) ?_
    ⟨∅, by simp, ?_⟩⟩
  · intro j hj hm
    obtain rfl := h.place_unique hp hm
    refine ⟨fun n hn => absurd hn (hun n), ?_, ?_, ?_, ?_⟩
    · rw [hf, ha]; exact hfit.fresh
    · rw [ha]; exact hfit.waiting
    · rw [ho]; exact hfit.first
    · rw [hr]; exact hfit.resend
  · intro c hc ho'; exact absurd ho' (h.not_copied hp hun hc)
  · intro c hc ho'; exact absurd ho' (h.not_copied hp hun hc)

/-- A packet that was sent and is not in flight is acknowledged, or counts its copies anew. -/
lemma Inv.mark (h : Inv B s) {a : Bool} {m : Nat} (hf : (s.pkts p).inFlight = false)
    (hun : ∀ {k}, k ≠ .free → p ∈ s.lists k → ∃ n, k = .unacked n)
    (hcount : ∃ S : Finset Id, S.card ≤ m ∧ HasCopies s p S) :
    Inv B { s with pkts := update s.pkts p { s.pkts p with acked := a, originRefCnt := m } } := by
  refine ⟨h.ledger.updateLanded _ hf hf, h.sound.update ?_ (fun _ => rfl) ?_ ?_ hcount⟩
  · intro k hk hm
    have hfit := h.sound.fits hk hm
    obtain ⟨n, hn⟩ := hun hk hm
    exact ⟨hfit.space, fun hf' => absurd hf' (by simp [hf]), fun hw => absurd hn (hw n), hfit.first, hfit.resend⟩
  · intro o hl ho
    have hc := (h.sound.origin hl ho).2
    exact ⟨hc.root, hc.landed, hc.pns, hc.streams, hc.early⟩
  · intro c hl ho
    have hc := (h.sound.origin hl ho).2
    exact ⟨hc.root, hc.landed, hc.pns, hc.streams, hc.early⟩

def partsOf (po : PacketOut) :=
  (po.inFlight, po.pktType, po.frameTypes, po.usedSize, po.origin, po.streamFrames, po.originRefCnt, po.acked, po.resend)

lemma Inv.touch (h : Inv B s) {po : PacketOut} (hpo : partsOf po = partsOf (s.pkts p)) :
    Inv B { s with pkts := update s.pkts p po } := by
  simp only [partsOf, Prod.mk.injEq] at hpo
  obtain ⟨hf, ht, hk, hu, ho, hs, hr, ha, hd⟩ := hpo
  have hn : po.pns = (s.pkts p).pns := by simp only [PacketOut.pns, ht]
  refine ⟨h.ledger.update ?_ ?_, h.sound.update ?_ (fun _ => ho) ?_ ?_ ?_⟩
  · intro n
    simp only [flightBytes, hf, hn, hu]
  · rw [hf, hn, hk]; exact h.ledger.flying
  · intro k hk' hm
    have hfit := h.sound.fits hk' hm
    exact ⟨by rw [hn]; exact hfit.space, by rw [hf, ha]; exact hfit.fresh, by rw [ha]; exact hfit.waiting,
      by rw [ho]; exact hfit.first, by rw [hd]; exact hfit.resend⟩
  · intro o hl ho'
    have hc := (h.sound.origin hl ho').2
    exact ⟨hc.root, hc.landed, by rw [hn]; exact hc.pns, by rw [hk, hs]; exact hc.streams, by rw [ht]; exact hc.early⟩
  · intro c hl ho'
    have hc := (h.sound.origin hl ho').2
    exact ⟨by rw [ho]; exact hc.root, by rw [hf]; exact hc.landed, by rw [hn]; exact hc.pns,
      by rw [hn, hk, hs]; exact hc.streams, by rw [ht]; exact hc.early⟩
  · rw [hr]; exact h.sound.count p

/-! ## Changes to the lists -/

/-- A packet is put into a list where it fits. If it is a copy and in use then, its
    origin has room for it among the others. -/
lemma Sound.put (h : Sound s) {l' : Links Place Id} (hput : Put s.lists l' p k)
    (hfit : k ≠ .free → Fits s.conn.retryRecvd k (s.pkts p))
    (hstay : ∀ {c}, s.Live c → c ≠ p → (s.pkts c).origin = some p → k = .unacked (s.pkts p).pns)
    (hcopy : ∀ {o}, k ≠ .free → (s.pkts p).origin = some o →
      o ≠ p ∧ o ∈ s.lists (.unacked (s.pkts o).pns) ∧ Copy s.conn.canSend1rtt (s.pkts p) (s.pkts o))
    (hcount : ∀ {o}, k ≠ .free → (s.pkts p).origin = some o →
      ∃ S : Finset Id, S.card < (s.pkts o).originRefCnt ∧ ∀ c, s.Live c → c ≠ p → (s.pkts c).origin = some o → c ∈ S) :
    Sound { s with lists := l' } := by
  refine ⟨?_, ?_, ?_, h.client⟩
  · intro j q hj hq
    rcases hput.2.mp hq with ⟨rfl, rfl⟩ | ⟨_, hq⟩
    · exact hfit hj
    · exact h.fits hj hq
  · intro c o hc ho
    rcases hput.live.mp hc with ⟨rfl, hk⟩ | ⟨hne, hc⟩
    · obtain ⟨hop, hmem, hcp⟩ := hcopy hk ho
      exact ⟨hput.2.mpr (.inr ⟨hop, hmem⟩), hcp⟩
    · obtain ⟨hmem, hcp⟩ := h.origin hc ho
      refine ⟨hput.2.mpr ?_, hcp⟩
      by_cases hop : o = p
      · subst hop; exact .inl ⟨rfl, (hstay hc hne ho).symm⟩
      · exact .inr ⟨hop, hmem⟩
  · intro o
    by_cases hp : k ≠ .free ∧ (s.pkts p).origin = some o
    · obtain ⟨S, hS, hin⟩ := hcount hp.1 hp.2
      refine ⟨insert p S, (card_insert_le p S).trans hS, ?_⟩
      intro c hc ho
      rcases hput.live.mp hc with ⟨rfl, _⟩ | ⟨hne, hc⟩
      · exact mem_insert_self c S
      · exact mem_insert_of_mem (hin c hc hne ho)
    · obtain ⟨S, hS, hin⟩ := h.count o
      refine ⟨S, hS, ?_⟩
      intro c hc ho
      rcases hput.live.mp hc with ⟨rfl, hk⟩ | ⟨_, hc⟩
      · exact absurd ⟨hk, ho⟩ hp
      · exact hin c hc ho

/-- A packet in use that is not in flight goes to another list for packets in use; what has copies stays where it is. -/
theorem Inv.relocate (h : Inv B s) {l' : Links Place Id} {j : Place} (hput : Put s.lists l' p k)
    (hj : j ≠ .free) (hp : p ∈ s.lists j) (hun : ∀ n, j ≠ .unacked n)
    (hfit : Fits s.conn.retryRecvd k (s.pkts p)) : Inv B { s with lists := l' } := by
  have hlive : s.Live p := ⟨j, hj, hp⟩
  have hland := h.ledger.landed_of_mem hp hun
  refine ⟨h.ledger.put hput (h.ledger.bound hp) (by simp [hland]), h.sound.put hput (fun _ => hfit) ?_ ?_ ?_⟩
  · intro c hc _ ho; exact absurd ho (h.not_copied hp hun hc)
  · intro o _ ho; exact ⟨h.sound.origin_ne hlive ho, h.sound.origin hlive ho⟩
  · intro o _ ho; exact h.sound.count_others hlive ho

theorem Inv.release (h : Inv B s) (hbound : p < s.next) (hf : (s.pkts p).inFlight = false)
    (hno : ∀ {c}, s.Live c → c ≠ p → (s.pkts c).origin ≠ some p) : Inv B (s.move p .free) := by
  have hput := put_move h.ledger.single p .free
  exact ⟨h.ledger.put hput hbound (by simp [hf]), h.sound.put hput (fun hk => absurd rfl hk)
    (fun hc hne ho => absurd ho (hno hc hne)) (fun hk => absurd rfl hk) (fun hk => absurd rfl hk)⟩

lemma Inv.releaseWaiting (h : Inv B s) (hp : p ∈ s.lists k) (hk : ∀ n, k ≠ .unacked n) :
    Inv B (s.move p .free) :=
  h.release (h.ledger.bound hp) (h.ledger.landed_of_mem hp hk) fun hc _ => h.not_copied hp hk hc

theorem Inv.adopt (h : Inv B s) (hp : ¬ s.Live p) (hbound : p < s.next)
    (hfit : Fits s.conn.retryRecvd k (s.pkts p)) (ho : (s.pkts p).origin = none) : Inv B (s.move p k) := by
  have hput := put_move h.ledger.single p k
  have hf := h.ledger.landed_of_idle hp
  refine ⟨h.ledger.put hput hbound (by simp [hf]), h.sound.put hput (fun _ => hfit) ?_ ?_ ?_⟩
  · intro c hc _ ho'; exact absurd ho' (h.sound.not_copied_of_idle hp hc)
  · intro o _ ho'; rw [ho] at ho'; cases ho'
  · intro o _ ho'; rw [ho] at ho'; cases ho'

/-! ## Out of flight and into it -/

theorem Inv.decrease (h : Inv B s) (p : Id) : Inv B (xqcSendCtlDecreaseInflight p s) := by
  refine ⟨h.ledger.decrease p, ?_⟩
  have hs : Sound { s with pkts := update s.pkts p { s.pkts p with inFlight := false } } := by
    refine h.sound.update ?_ (fun _ => rfl) ?_ ?_ (h.sound.count p)
    · intro k hk hm
      have hfit := h.sound.fits hk hm
      exact ⟨hfit.space, by simp, hfit.waiting, hfit.first, hfit.resend⟩
    · intro o hl ho
      have hc := (h.sound.origin hl ho).2
      exact ⟨hc.root, hc.landed, hc.pns, hc.streams, hc.early⟩
    · intro c hl ho
      have hc := (h.sound.origin hl ho).2
      exact ⟨hc.root, rfl, hc.pns, hc.streams, hc.early⟩
  exact hs.congr (h.ledger.decrease_pkts p) (by simp) (by simp) (by simp) (by simp) (by simp)

theorem Inv.increase (h : Inv B s) (hp : p ∈ s.lists (.unacked (s.pkts p).pns))
    (ha : (s.pkts p).acked = false) (hno : ∀ {c}, s.Live c → (s.pkts c).origin ≠ some p)
    (hroom : B → total (xqcSendCtlIncreaseInflight p s) < 2 ^ 32) : Inv B (xqcSendCtlIncreaseInflight p s) := by
  refine ⟨h.ledger.increase hp hroom, ?_⟩
  unfold xqcSendCtlIncreaseInflight
  dsimp only; split
  · have hs : Sound { s with pkts := update s.pkts p { s.pkts p with inFlight := true } } := by
      refine h.sound.update ?_ (fun _ => rfl) ?_ ?_ (h.sound.count p)
      · intro k hk hm
        have hfit := h.sound.fits hk hm
        exact ⟨hfit.space, fun _ => ha, hfit.waiting, hfit.first, hfit.resend⟩
      · intro o hl ho
        have hc := (h.sound.origin hl ho).2
        exact ⟨hc.root, hc.landed, hc.pns, hc.streams, hc.early⟩
      · intro c hl ho; exact absurd ho (hno hl)
    exact hs.congr rfl rfl rfl rfl rfl rfl
  · exact h.sound

/-! ## Spare B packets -/

variable {d : Id}

/-- A packet that is not in use may be changed or taken off the free list: the others do not refer to it. -/
lemma Spare.sound (h : Spare B s s' d) (hs : Sound s) : Inv B s' := by
  have hsame : ∀ {c}, s'.Live c → s'.pkts c = s.pkts c := by
    intro c hc
    refine h.others ?_
    rintro rfl
    exact h.idle hc
  refine ⟨h.ledger, ?_, ?_, ?_, ?_⟩
  · intro k p hk hm; rw [hsame ⟨k, hk, hm⟩, h.conn]; exact hs.fits hk ((h.lists hk).mp hm)
  · intro c o hc ho; rw [hsame hc] at ho ⊢
    obtain ⟨hmem, hcp⟩ := hs.origin (h.live.mp hc) ho
    have ho' : s'.pkts o = s.pkts o := hsame ⟨_, by simp, (h.lists (by simp)).mpr hmem⟩
    rw [ho', h.conn]; exact ⟨(h.lists (by simp)).mpr hmem, hcp⟩
  · intro o
    by_cases hod : o = d
    · refine ⟨∅, by simp, ?_⟩
      intro c hc ho; rw [hsame hc, hod] at ho
      refine absurd ho (hs.not_copied_of_idle ?_ (h.live.mp hc))
      intro hl; exact h.idle (h.live.mpr hl)
    · obtain ⟨S, hS, hin⟩ := hs.count o
      refine ⟨S, by rw [h.others hod]; exact hS, fun c hc ho => hin c (h.live.mp hc) ?_⟩
      rwa [hsame hc] at ho
  · rw [h.conn]; exact hs.client

/-! ## Copying -/

/-- What writing the ACK frame of a copy again leaves as it is. -/
structure Rewritten (po po' : PacketOut) : Prop where
  landed : po'.inFlight = po.inFlight
  acked : po'.acked = po.acked
  origin : po'.origin = po.origin
  resend : po'.resend = po.resend
  type : po'.pktType = po.pktType
  plain : .ack ∉ po.frameTypes → po'.frameTypes = po.frameTypes ∧ po'.streamFrames = po.streamFrames

lemma rewriteAck_spec (w : World) (h : Spare B s s' d) (hf : (s'.pkts d).inFlight = false) :
    Spare B s (rewriteAck w d s') d ∧ Rewritten (s'.pkts d) ((rewriteAck w d s').pkts d) := by
  unfold rewriteAck
  dsimp only; split
  · rename_i hack
    have hcut := h.update { s'.pkts d with
      frameTypes := (s'.pkts d).frameTypes.erase .ack, usedSize := (s'.pkts d).ackOffset } hf
    have hcut' : Spare B s { s' with
        asked := s'.asked + 1
        pkts := update s'.pkts d { s'.pkts d with
          frameTypes := (s'.pkts d).frameTypes.erase .ack, usedSize := (s'.pkts d).ackOffset } } d :=
      ⟨hcut.ledger.congr rfl rfl rfl rfl rfl rfl, hcut.idle, hcut.bound, hcut.others, hcut.lists, hcut.conn⟩
    split
    · refine ⟨hcut'.update _ ?_, ?_⟩
      · simpa [PacketOut.addFrame] using hf
      · refine ⟨?_, ?_, ?_, ?_, ?_, fun hno => absurd hack.2 hno⟩ <;> simp [Ctl.modify, PacketOut.addFrame]
    · split
      · refine ⟨hcut'.free, ?_⟩
        refine ⟨?_, ?_, ?_, ?_, ?_, fun hno => absurd hack.2 hno⟩ <;> simp [Ctl.move]
      · refine ⟨hcut', ?_⟩
        refine ⟨?_, ?_, ?_, ?_, ?_, fun hno => absurd hack.2 hno⟩ <;> simp
  · exact ⟨h, rfl, rfl, rfl, rfl, rfl, fun _ => ⟨rfl, rfl⟩⟩

section Root

variable {s : Ctl} (h : Sound s) {p : Id} {n : Pns} (hp : p ∈ s.lists (.unacked n))

include h hp

lemma Sound.root_mem : s.root p ∈ s.lists (.unacked (s.pkts (s.root p)).pns) := by
  unfold Ctl.root
  cases ho : (s.pkts p).origin with
  | none => rw [Option.getD_none, (h.fits (by simp) hp).space n rfl]; exact hp
  | some o => exact (h.origin ⟨_, by simp, hp⟩ ho).1

lemma Sound.root_landed (hf : (s.pkts p).inFlight = false) : (s.pkts (s.root p)).inFlight = false := by
  unfold Ctl.root
  cases ho : (s.pkts p).origin with
  | none => exact hf
  | some o => exact (h.origin ⟨_, by simp, hp⟩ ho).2.landed

lemma Sound.copy_root (hf : (s.pkts p).inFlight = false) {c : PacketOut}
    (hc : Rewritten ((s.pkts p).copyOf (s.root p)) c) : Copy s.conn.canSend1rtt c (s.pkts (s.root p)) := by
  have htype : c.pktType = (s.pkts p).pktType := hc.type
  have hpns : c.pns = (s.pkts p).pns := by simp only [PacketOut.pns, htype]
  have hplain : .ack ∉ (s.pkts p).frameTypes →
      c.frameTypes = (s.pkts p).frameTypes ∧ c.streamFrames = (s.pkts p).streamFrames := hc.plain
  clear hc
  unfold Ctl.root
  cases ho : (s.pkts p).origin with
  | none =>
    rw [Option.getD_none]
    refine ⟨ho, hf, hpns, ?_, fun he => .inl (htype.trans he)⟩
    intro _ ht
    obtain ⟨h1, h2⟩ := hplain (by simp [ht])
    exact ⟨h1.trans ht, h2⟩
  | some o =>
    obtain ⟨_, hcp⟩ := h.origin ⟨_, by simp, hp⟩ ho
    refine ⟨hcp.root, hcp.landed, hpns.trans hcp.pns, ?_, fun he => (hcp.early he).imp_left htype.trans⟩
    intro hn ht
    obtain ⟨h1, h2⟩ := hcp.streams hn ht
    obtain ⟨h3, h4⟩ := hplain (by simp [h1])
    exact ⟨h3.trans h1, h4.trans h2⟩

end Root

/-- What `xqc_packet_out_copy` does: `d` is a copy of `p`, and the root counts it. -/
structure Copied (B : Prop) (s s' : Ctl) (p d : Id) : Prop where
  inv : Inv B s'
  idle : ¬ s'.Live d
  bound : d < s'.next
  ne : s.root p ≠ d
  copy : s'.pkts d = (s.pkts p).copyOf (s.root p)
  root : s'.pkts (s.root p) = (s.pkts (s.root p)).withRefs ((s.pkts (s.root p)).originRefCnt + 1)
  others : ∀ {q}, q ≠ d → q ≠ s.root p → s'.pkts q = s.pkts q
  lists : ∀ {k q}, k ≠ .free → (q ∈ s'.lists k ↔ q ∈ s.lists k)
  conn : s'.conn = s.conn

lemma Copied.spare (h : Copied B s s' p d) : Spare B s' s' d :=
  ⟨h.inv.ledger, h.idle, h.bound, fun _ => rfl, fun _ => Iff.rfl, rfl⟩

lemma Copied.origin {p q : Id} (h : Copied B s s' p d) (hq : q ≠ d) :
    (s'.pkts q).origin = (s.pkts q).origin := by
  by_cases hr : q = s.root p
  · rw [hr, h.root]; rfl
  · rw [h.others hq hr]

lemma copy_spec {s s1 : Ctl} {n : Pns} (h : Inv B s) (hspare : Spare B s s1 d) (hp : p ∈ s.lists (.unacked n))
    (hf : (s.pkts p).inFlight = false) : Copied B s (xqcPacketOutCopy d p s1) p d := by
  have hrmem := h.sound.root_mem hp
  have hrd : s.root p ≠ d := hspare.ne ⟨_, by simp, hrmem⟩
  have hs1 : s1.pkts p = s.pkts p := hspare.others (hspare.ne ⟨_, by simp, hp⟩)
  have hroot : s1.root p = s.root p := by simp only [Ctl.root, hs1]
  have hrec := hspare.update ((s.pkts p).copyOf (s.root p)) hf
  have hr : update s1.pkts d ((s.pkts p).copyOf (s.root p)) (s.root p) = s.pkts (s.root p) := by
    rw [update_of_ne hrd, hspare.others hrd]
  have heq : xqcPacketOutCopy d p s1 = { s1 with
      pkts := update (update s1.pkts d ((s.pkts p).copyOf (s.root p)))
        (s.root p) ((s.pkts (s.root p)).withRefs ((s.pkts (s.root p)).originRefCnt + 1)) } := by
    unfold xqcPacketOutCopy
    simp only [hroot, hs1, Ctl.modify, hr]
  have hinv := hrec.sound h.sound
  obtain ⟨S, hS, hin⟩ := hinv.sound.count (s.root p)
  have hmark := hinv.mark (p := s.root p) (a := (s.pkts (s.root p)).acked)
    (m := (s.pkts (s.root p)).originRefCnt + 1) (by simp only [hr]; exact h.sound.root_landed hp hf)
    (fun hk hm => ⟨_, h.place_unique ((hrec.lists hk).mp hm) hrmem⟩)
    ⟨S, by simp only [hr] at hS; omega, hin⟩
  simp only [hr] at hmark; rw [heq]
  refine ⟨hmark, hspare.idle, hspare.bound, hrd, ?_, ?_, ?_, hspare.lists, hspare.conn⟩
  · simp only [update_of_ne hrd.symm, update_self]
  · simp only [update_self]
  · intro q hqd hqr
    simp only [update_of_ne hqr, update_of_ne hqd, hspare.others hqd]

theorem Inv.copyTo (w : World) (h : Inv B s) {n : Pns} (hp : p ∈ s.lists (.unacked n))
    (hf : (s.pkts p).inFlight = false) (ha : (s.pkts p).acked = false) (hk : k = .lost ∨ k = .probe) :
    Inv B (copyTo w k p s) := by
  unfold SendCtl.copyTo
  rcases hg : xqcPacketOutGet w s with ⟨d, s1⟩
  cases d with
  | none => rw [get_none hg]; exact h.congr rfl
  | some d =>
    dsimp only
    have h3 := copy_spec h (h.ledger.get hg).1 hp hf
    generalize xqcPacketOutCopy d p s1 = s3 at h3
    obtain ⟨h4, hrw⟩ := rewriteAck_spec w h3.spare (by rw [h3.copy]; exact hf)
    generalize rewriteAck w d s3 = s4 at h4 hrw ⊢
    rw [h3.copy] at hrw
    have hinv := h4.sound h3.inv.sound
    have hcp := h.sound.copy_root hp hf hrw
    have hroot := (h4.others h3.ne).trans h3.root
    have hconn : s4.conn = s.conn := h4.conn.trans h3.conn
    have hland : (s4.pkts d).inFlight = false := hrw.landed.trans hf
    have hown : (s4.pkts d).origin = some (s.root p) := hrw.origin
    have hput := put_move hinv.ledger.single d k
    have h5 : Inv B (s4.move d k) := by
      refine ⟨hinv.ledger.put hput h4.bound (by simp [hland]), hinv.sound.put hput (fun _ => ?_) ?_ ?_ ?_⟩
      · refine ⟨?_, by simp [hland], fun _ => hrw.acked.trans ha, ?_, ?_⟩
        · rintro m rfl
          rcases hk with hk | hk <;> cases hk
        · intro hk'
          rcases hk with rfl | rfl <;> simp at hk'
        · rw [hconn]; intro hno; exact hrw.resend.trans ((h.sound.fits (by simp) hp).resend hno)
      · intro c hc _ ho; exact absurd ho (hinv.sound.not_copied_of_idle h4.idle hc)
      · intro o _ ho
        obtain rfl : s.root p = o := Option.some.inj (hown.symm.trans ho)
        rw [hroot, hconn]
        exact ⟨h3.ne, (h4.lists (by simp)).mpr ((h3.lists (by simp)).mpr (h.sound.root_mem hp)),
          hcp.root, hcp.landed, hcp.pns, hcp.streams, hcp.early⟩
      · intro o _ ho
        obtain rfl : s.root p = o := Option.some.inj (hown.symm.trans ho)
        obtain ⟨S, hS, hin⟩ := h.sound.count (s.root p)
        refine ⟨S, by rw [hroot]; exact Nat.lt_succ_of_le hS, ?_⟩
        intro c hc hcd hco
        obtain ⟨j, hj, hm⟩ := h4.live.mp hc
        rw [h4.others hcd, h3.origin hcd] at hco
        exact hin c ⟨j, hj, (h3.lists hj).mp hm⟩ hco
    exact h5.touch rfl

/-! ## Dropping -/

theorem Inv.shrink {K : Id → Prop} (h : Inv B s) (hl : Ledger B s') (hd : Diverted K .free s s')
    (hclosed : ∀ {c o}, s'.Live c → (s.pkts c).origin = some o → ¬ K o) : Inv B s' := by
  have horigin : ∀ c, (s'.pkts c).origin = (s.pkts c).origin := fun c => by rw [hd.same c]
  refine ⟨hl, ?_, ?_, ?_, ?_⟩
  · intro k p hk hm
    have hfit := h.sound.fits hk (hd.less hk hm)
    rw [hd.same p, hd.conn]
    exact ⟨hfit.space, fun hf => hfit.fresh (hd.down hf), hfit.waiting, hfit.first, hfit.resend⟩
  · intro c o hc ho; rw [horigin] at ho
    obtain ⟨hmem, hcp⟩ := h.sound.origin (hd.live hc) ho
    refine ⟨?_, ?_⟩
    · rw [hd.same o]; exact hd.kept (hclosed hc ho) hmem
    · have hland : (s'.pkts o).inFlight = false := by
        by_contra hf
        have := hd.down (p := o) (by simpa using hf)
        rw [hcp.landed] at this; cases this
      rw [hd.same c, hd.same o, hd.conn, hland]
      exact ⟨hcp.root, rfl, hcp.pns, hcp.streams, hcp.early⟩
  · intro o
    obtain ⟨S, hS, hin⟩ := h.sound.count o
    refine ⟨S, by rw [hd.same o]; exact hS, fun c hc ho => hin c (hd.live hc) ?_⟩
    rwa [horigin] at ho
  · rw [hd.conn]; exact h.sound.client

end RlccQuic.Transport.SendCtl
