/-
  RlccQuic.Transport.KeyStart — when an endpoint starts a key update, and the number it takes for the first one of the
  new phase (`xqc_packet_parser.c`: `xqc_packet_encrypt_buf`; `xqc_conn.c`: `xqc_conn_confirm_key_update`).

  An update waits until `first_sent_pktno` is not above the largest number acknowledged, which is `UINT64_MAX` until the
  first acknowledgment and may be that of a 0-RTT packet. `first_sent_pktno` is one more than the counter of packet
  numbers: the next number if the packet is sent alone, and counted after it was encrypted; one too high if the counter
  was moved before, in a burst, or the update is the peer's.

  Proved: along the runs of `KeyAgreement`, an update that starts once a 1-RTT packet was acknowledged starts after one
  of its phase was; and in every continuation the first packet of the new phase has the number `first_sent_pktno` exactly if
  as many packets have taken a number without going out as that is ahead (`updates_start_after_an_ack`). The first update
  waits for nothing, and in a burst it is one ahead (`a_first_update_waits_for_nothing`).
-/

import RlccQuic.Transport.KeyAgreement

namespace RlccQuic.Transport.KeyAgreement

open Lib KeyUpdate Function

variable {s t : Net} {a b : Endpoint} {g r d : Nat} {v : Sending} {start : Bool → UInt64}

/-! ## The first number of a phase -/

/-- How far `first_sent_pktno` is above the next number after an update. -/
def ahead : Ev → Nat
  | .send _ v => if !v.burst && v.sent then 0 else 1
  | _ => 1

lemma send_numbers (ha : Sound a g) (hlt : a.conn.packetNumber.toNat < 2 ^ 62) (x : Bool) :
    (send v a).conn.packetNumber.toNat = a.conn.packetNumber.toNat + (if v.burst || v.sent then 1 else 0) ∧
      (send v a).wire = (if v.sent then ⟨phaseOf g, g, a.conn.packetNumber, v.ack⟩ :: a.wire else a.wire) ∧
      (writeGen (send v a).conn ≠ g → (send v a).conn.ctx.firstSentPktno.toNat =
        (send v a).conn.packetNumber.toNat + ahead (.send x v)) := by
  have hkey : (a.conn.crypto.txCkm a.conn.ctx.curOutKeyPhase).key = some g := by
    rw [ha.keyed.curOut, ha.keyed.tx]; rfl
  have hsucc := toNat_succ (n := a.conn.packetNumber) (Nat.le_of_lt hlt)
  have hsucc2 : (a.conn.packetNumber + 1 + 1).toNat = a.conn.packetNumber.toNat + 2 := by
    rw [toNat_succ (by omega), hsucc]
  unfold send; rw [hkey, ha.keyed.curOut]
  dsimp only
  generalize hc : (if v.burst then { a.conn with packetNumber := a.conn.packetNumber + 1 } else a.conn) = c
  have hkeyed : Keyed c g a.discarded := by
    rw [← hc]; split
    · exact ha.keyed.congr rfl rfl rfl rfl
    · exact ha.keyed
  have hnum : c.packetNumber = if v.burst then a.conn.packetNumber + 1 else a.conn.packetNumber := by
    rw [← hc]; split <;> rfl
  obtain ⟨c', henc, hcase⟩ := encrypt_cases hkeyed v.now v.pto
  rw [henc]
  have hnum' : c'.packetNumber = c.packetNumber := by
    rcases hcase with ⟨-, hadv⟩ | hsame
    · exact hadv.packetNumber
    · rw [hsame]
  refine ⟨?_, rfl, fun hup => ?_⟩
  · cases hb : v.burst <;> cases hs : v.sent <;> simp [hnum', hnum, hb, hsucc]
  · rcases hcase with ⟨-, hadv⟩ | hsame
    · have hfirst := hadv.firstSent
      cases hb : v.burst <;> cases hs : v.sent <;> simp [hnum', hnum, hfirst, ahead, hb, hs, hsucc, hsucc2]
    · refine absurd ?_ hup
      have hk : Keyed c' g a.discarded := by
        rw [hsame]; exact hkeyed.congr rfl rfl rfl rfl
      dsimp only; split
      · exact (show Keyed { c' with packetNumber := c'.packetNumber + 1 } _ _ from hk.congr rfl rfl rfl rfl).writeGen
      · exact hk.writeGen

/-- The packets of bursts that took a number and did not go out. -/
def skipped (x : Bool) (es : List Ev) : Nat :=
  es.countP fun
    | .send y v => y == x && v.burst && !v.sent
    | _ => false

/-- The endpoint has sent nothing in generation `g`, its own. -/
def Silent (x : Bool) (g : Nat) (s : Net) : Prop :=
  writeGen (s x).conn = g ∧ ∀ p ∈ (s x).wire, p.generation ≠ g

/-- A step out of which the endpoint is silent left it silent, and took a number only for a packet that did not go out. -/
lemma step_silent {x : Bool} {e : Ev} {gs : Bool → Nat} (hi : Inv s gs) (hs : Guard Careful Step s e t)
    (hge : g ≤ writeGen (s x).conn) :
    g ≤ writeGen (t x).conn ∧ (Silent x g t → Silent x g s ∧
      (t x).conn.packetNumber.toNat = (s x).conn.packetNumber.toNat + skipped x [e]) := by
  have hgen := (hi.sound x).keyed.writeGen
  obtain ⟨hcare, hs⟩ := hs
  have hother : ∀ y f, y ≠ x → g ≤ writeGen (update s y f x).conn ∧ (Silent x g (update s y f) → Silent x g s ∧
      (update s y f x).conn.packetNumber.toNat = (s x).conn.packetNumber.toNat) := by
    intro y f hy
    unfold Silent; rw [update_of_ne hy.symm]; exact ⟨hge, fun h => ⟨h, rfl⟩⟩
  -- one that sends nothing
  have hquiet : ∀ f : Endpoint, writeGen (s x).conn ≤ writeGen f.conn → f.wire = (s x).wire →
      f.conn.packetNumber = (s x).conn.packetNumber → g ≤ writeGen (update s x f x).conn ∧
      (Silent x g (update s x f) → Silent x g s ∧
        (update s x f x).conn.packetNumber.toNat = (s x).conn.packetNumber.toNat) := by
    intro f hle hwire hnum
    unfold Silent; rw [update_self, hwire, hnum]
    exact ⟨Nat.le_trans hge hle, fun h => ⟨⟨Nat.le_antisymm (h.1 ▸ hle) hge, h.2⟩, rfl⟩⟩
  cases hs with
  | send y v =>
    by_cases hy : y = x
    · subst hy
      obtain ⟨g', hsent⟩ := send_spec (v := v) (hi.sound y) hcare.1
      obtain ⟨hnum, hwire, -⟩ := send_numbers (v := v) (hi.sound y) hcare.1 y
      have hle : gs y ≤ g' := by rcases hsent.update with h | h <;> omega
      unfold Silent; rw [update_self, hwire, hnum, hsent.keyed.writeGen]
      rw [hgen] at hge ⊢
      refine ⟨Nat.le_trans hge hle, fun ⟨hg, hnone⟩ => ?_⟩
      cases hb : v.sent with
      | true =>
        rw [hb, if_pos rfl] at hnone
        exact absurd (by show gs y = g; omega) (hnone _ List.mem_cons_self)
      | false =>
        rw [hb, if_neg (by decide)] at hnone
        refine ⟨⟨by omega, hnone⟩, ?_⟩
        cases hburst : v.burst <;> simp [skipped, hb, hburst]
    · obtain ⟨h1, h2⟩ := hother y (send v (s y)) hy
      have hskip : skipped x [.send y v] = 0 := by simp [skipped, hy]
      rw [hskip]; exact ⟨h1, h2⟩
  | deliver y now pto p hp htimer =>
    by_cases hy : y = x
    · subst hy
      obtain ⟨hnum, hnear, hnext⟩ := hcare
      rw [hgen] at hnear hnext
      have hlink := hi.link !y
      rw [Bool.not_not] at hlink
      obtain ⟨r', c, hdec, htook⟩ := decrypt_took (hi.sound y) hlink hp htimer hnum hnear hnext now pto
      refine hquiet _ ?_ ?_ ?_ <;> unfold deliver <;> rw [hdec]
      · rw [hgen, (show Keyed (note p.number p.ack c) _ _ from htook.keyed.congr rfl rfl rfl rfl).writeGen]; exact htook.le
      · exact htook.packetNumber
    · exact hother y _ hy
  | timeout y =>
    by_cases hy : y = x
    · subst hy
      exact hquiet _ (Nat.le_of_eq (hgen.trans (timeout_sound (hi.sound y)).keyed.writeGen.symm)) rfl rfl
    · exact hother y _ hy

lemma run_silent {x : Bool} {es : List Ev} (hi : ∃ gs, Inv s gs) (h : Run (Guard Careful Step) s es t)
    (hsilent : Silent x (writeGen (s x).conn) t) :
    (t x).conn.packetNumber.toNat = (s x).conn.packetNumber.toNat + skipped x es := by
  suffices hall : (∃ gs, Inv t gs) ∧ writeGen (s x).conn ≤ writeGen (t x).conn ∧ (Silent x (writeGen (s x).conn) t →
      (t x).conn.packetNumber.toNat = (s x).conn.packetNumber.toNat + skipped x es) from hall.2.2 hsilent
  clear hsilent
  induction h with
  | nil => exact ⟨hi, Nat.le_refl _, fun _ => rfl⟩
  | snoc _ hs ih =>
    obtain ⟨⟨gs, hi'⟩, hge, hnum⟩ := ih
    obtain ⟨hge', hstep⟩ := step_silent hi' hs hge
    refine ⟨step_inv ⟨gs, hi'⟩ hs, hge', fun hsilent => ?_⟩
    obtain ⟨hbefore, hone⟩ := hstep hsilent
    rw [hone, hnum hbefore, Nat.add_assoc, skipped, skipped, skipped, List.countP_append]

/-- What an update leaves of `first_sent_pktno`. -/
lemma update_first {x : Bool} {e : Ev} {gs : Bool → Nat} (hi : Inv s gs) (hs : Guard Careful Step s e t)
    (hup : writeGen (t x).conn ≠ writeGen (s x).conn) :
    (t x).conn.ctx.firstSentPktno.toNat = (t x).conn.packetNumber.toNat + ahead e := by
  have hgen := (hi.sound x).keyed.writeGen
  have hself : ∀ y f, t = update s y f → y = x := by
    rintro y f rfl
    by_contra hy
    exact hup (by rw [update_of_ne (Ne.symm hy)])
  obtain ⟨hcare, hs⟩ := hs
  cases hs with
  | send y v =>
    obtain rfl := hself y _ rfl
    rw [update_self, hgen] at hup
    rw [update_self]; exact (send_numbers (hi.sound y) hcare.1 y).2.2 hup
  | deliver y now pto p hp htimer =>
    obtain rfl := hself y _ rfl
    obtain ⟨hnum, hnear, hnext⟩ := hcare
    rw [hgen] at hnear hnext hup
    have hlink := hi.link !y
    rw [Bool.not_not] at hlink
    obtain ⟨r', c, hdec, htook⟩ := decrypt_took (hi.sound y) hlink hp htimer hnum hnear hnext now pto
    rw [update_self] at hup ⊢
    unfold deliver at hup ⊢; rw [hdec] at hup ⊢
    have hr : writeGen (note p.number p.ack c) = r' :=
      (show Keyed (note p.number p.ack c) _ _ from htook.keyed.congr rfl rfl rfl rfl).writeGen
    obtain ⟨-, hadv⟩ := htook.update.resolve_left fun hsame => hup (hr.trans hsame.1)
    change c.ctx.firstSentPktno.toNat = c.packetNumber.toNat + 1
    rw [hadv.firstSent, hadv.packetNumber, toNat_succ (hi.sound y).bound]
  | timeout y =>
    obtain rfl := hself y _ rfl
    rw [update_self, hgen, (timeout_sound (hi.sound y)).keyed.writeGen] at hup; exact absurd rfl hup

/-! ## What was acknowledged -/

/-- The largest number acknowledged is one the peer has received, or that of a 0-RTT packet. -/
def Heard (start : Bool → UInt64) (s : Net) : Prop :=
  ∀ x, (s x).conn.largestAcked = u64Max ∨ (s x).conn.largestAcked < start x ∨
    (s x).conn.largestAcked ∈ (s !x).received

/-- An endpoint changes: its own largest number, or what it has received, is as good as before. -/
lemma Heard.change {x : Bool} {e : Endpoint} (h : Heard start s)
    (hown : e.conn.largestAcked = (s x).conn.largestAcked ∨ e.conn.largestAcked ∈ (s !x).received)
    (hpeer : (s x).received ⊆ e.received) : Heard start (update s x e) := by
  have hne : (!x) ≠ x := by cases x <;> decide
  intro y
  by_cases hy : y = x
  · subst hy; rw [update_self, update_of_ne hne]
    rcases hown with hsame | hin
    · rw [hsame]; exact h y
    · exact .inr (.inr hin)
  · obtain rfl : y = !x := by cases x <;> cases y <;> simp at hy ⊢
    have hold := h !x
    rw [Bool.not_not] at hold ⊢
    rw [update_of_ne hne, update_self]
    exact hold.imp_right (Or.imp_right fun hin => hpeer hin)

lemma step_heard {e : Ev} {gs : Bool → Nat} (hi : Inv s gs) (h : Heard start s) (hs : Guard Careful Step s e t) :
    Heard start t := by
  obtain ⟨hcare, hs⟩ := hs
  cases hs with
  | send x v =>
    obtain ⟨g', hsent⟩ := send_spec (v := v) (hi.sound x) hcare.1
    exact h.change (.inl hsent.largestAcked) (by rw [hsent.received]; exact List.Subset.refl _)
  | deliver x now pto p hp htimer =>
    obtain ⟨hnum, hnear, hnext⟩ := hcare
    rw [(hi.sound x).keyed.writeGen] at hnear hnext
    have hlink := hi.link !x
    rw [Bool.not_not] at hlink
    obtain ⟨r', c, hdec, htook⟩ := decrypt_took (hi.sound x) hlink hp htimer hnum hnear hnext now pto
    unfold deliver; rw [hdec]
    refine h.change ?_ (List.subset_cons_self _ _)
    rcases note_acked p.number p.ack c with hsame | ⟨n, hn, heq⟩
    · exact .inl (hsame.trans htook.largestAcked)
    · exact .inr (heq ▸ (hi.sound !x).acks p hp n hn)
  | timeout x => exact h.change (.inl rfl) (List.Subset.refl _)

theorem updates_start_after_an_ack (s₀ s : Net) (es : List Ev) (h₀ : ∀ x, (s₀ x).Fresh)
    (h : Run (Guard Careful Step) s₀ es s) :
    ∀ x e t, Guard Careful Step s e t → writeGen (t x).conn ≠ writeGen (s x).conn →
      (∀ v, e = .send x v → (s x).conn.largestAcked ≠ u64Max → (s₀ x).conn.packetNumber ≤ (s x).conn.largestAcked →
        ∃ p ∈ (s x).wire, p.generation = writeGen (s x).conn ∧ p.number = (s x).conn.largestAcked ∧
          p.number ∈ (s !x).received) ∧
      ∀ es' u w u' p, Run (Guard Careful Step) t es' u → Silent x (writeGen (t x).conn) u →
        Guard Careful Step u (.send x w) u' → (u' x).wire = p :: (u x).wire →
        p.generation = writeGen (t x).conn ∧
          ((t x).conn.ctx.firstSentPktno = p.number ↔ skipped x es' = ahead e) := by
  obtain ⟨⟨gs, hi⟩, hheard⟩ := h.inv (P := fun s => (∃ g, Inv s g) ∧ Heard (fun x => (s₀ x).conn.packetNumber) s)
    (fun _ _ _ hp hs => ⟨step_inv hp.1 hs, step_heard hp.1.choose_spec hp.2 hs⟩)
    ⟨⟨_, fresh_inv h₀⟩, fun x => (h₀ x).acked.imp_right .inl⟩
  intro x e t hs hup
  refine ⟨?_, fun es' u w u' p hrun hsilent hsend hwire => ?_⟩
  · rintro v rfl hne hle
    obtain ⟨hcare, hs⟩ := hs
    cases hs
    rw [update_self, (hi.sound x).keyed.writeGen] at hup
    rw [(hi.sound x).keyed.writeGen]
    obtain ⟨g', hsent⟩ := send_spec (v := v) (hi.sound x) hcare.1
    rw [hsent.keyed.writeGen] at hup
    obtain ⟨-, hdue, -⟩ := hsent.update.resolve_left fun hsame => hup hsame.1
    have hin := ((hheard x).resolve_left hne).resolve_left (UInt64.not_lt.mpr hle)
    obtain ⟨p, hp, hn, -⟩ := (hi.link x).recv _ hin
    have hfirst := (of_decide_eq_true hdue).2.1
    rw [← hn] at hin hfirst
    exact ⟨p, hp, (hi.link x).sent p hp (UInt64.le_iff_toNat_le.mp hfirst), hn, hin⟩
  · have hfirst := update_first hi hs hup
    have hinv := step_inv ⟨gs, hi⟩ hs
    have hnum := run_silent hinv hrun hsilent
    obtain ⟨gu, hiu⟩ := hrun.inv (P := fun s => ∃ g, Inv s g) (fun _ _ _ => step_inv) hinv
    obtain ⟨hcare, hsend⟩ := hsend
    cases hsend
    rw [update_self, (send_numbers (hiu.sound x) hcare.1 x).2.1] at hwire
    cases hw : w.sent with
    | false => rw [hw] at hwire; simp at hwire
    | true =>
      rw [hw, if_pos rfl] at hwire
      obtain rfl := (List.cons.inj hwire).1
      refine ⟨(hiu.sound x).keyed.writeGen.symm.trans hsilent.1, ?_⟩
      rw [← UInt64.toNat_inj, hfirst]
      show _ = (u x).conn.packetNumber.toNat ↔ _
      omega

def ackedRun : List Ev :=
  [.send false (alone 100 none), .deliver true 105 10 ⟨false, 0, 0, none⟩, .send true (alone 105 (some 0)),
    .deliver false 110 10 ⟨false, 0, 0, some 0⟩]

theorem an_update_after_an_ack : ∃ s t u, Run (Guard Careful Step) newNet ackedRun s ∧
    Guard Careful Step s (.send false (alone 120 none)) t ∧ writeGen (t false).conn = 1 ∧
    (∃ p ∈ (s false).wire, p.generation = 0 ∧ p.number ∈ (s true).received) ∧
    Guard Careful Step t (.send false (alone 130 none)) u ∧
    ∃ p, (u false).wire = p :: (t false).wire ∧ p.generation = 1 ∧ (t false).conn.ctx.firstSentPktno = p.number := by
  have hrun : Run (Guard Careful Step) newNet ackedRun _ :=
    (((Run.nil.snoc ⟨by decide, step_alone _ _ _⟩).snoc
      ⟨by decide, .deliver _ _ _ _ _ (by decide) (by decide)⟩).snoc
      ⟨by decide, step_answer _ (by decide)⟩).snoc
      ⟨by decide, .deliver _ _ _ _ _ (by decide) (by decide)⟩
  have hstep := updates_start_after_an_ack _ _ _ newNet_fresh hrun false (.send false (alone 120 none)) _
    ⟨by decide, step_alone _ _ _⟩ (by decide)
  obtain ⟨p, hp, hgen, -, hin⟩ := hstep.1 _ rfl (by decide) (by decide)
  obtain ⟨hnew, hfirst⟩ := hstep.2 [] _ (alone 130 none) _ _ .nil ⟨rfl, by decide⟩ ⟨by decide, step_alone _ _ _⟩ rfl
  exact ⟨_, _, _, hrun, ⟨by decide, step_alone _ _ _⟩, by decide, ⟨p, hp, hgen.trans (by decide), hin⟩,
    ⟨by decide, step_alone _ _ _⟩, _, rfl, hnew.trans (by decide), hfirst.mpr rfl⟩

/-- No packet was received. The second one is sent in a burst, with number 1, and starts an
    update; the first of the new phase has number 2, and `first_sent_pktno` is 3. -/
theorem a_first_update_waits_for_nothing : ∃ s t u, Run Step newNet [.send false (alone 100 none)] s ∧
    Step s (.send false ⟨100, 10, true, true, none⟩) t ∧ Step t (.send false (alone 110 none)) u ∧
    writeGen (s false).conn = 0 ∧ writeGen (t false).conn = 1 ∧ (s true).received = [] ∧
    (s false).conn.largestAcked = u64Max ∧ (t false).conn.ctx.firstSentPktno = 3 ∧
    (u false).wire = ⟨true, 1, 2, none⟩ :: (t false).wire :=
  ⟨_, _, _, .snoc .nil (step_alone _ _ _), .send _ _ _ (by simp), step_alone _ _ _, by decide⟩

end RlccQuic.Transport.KeyAgreement
