/-
  RlccQuic.Transport.KeyAgreement — two endpoints that update their keys.

  Both run `KeyUpdate`; packets may be lost, delivered in any order and more than once. Only the key phase bit tells the
  generation of a packet. The receiver takes a packet with the other bit for one of the next generation if its number is
  above `first_recv_pktno`, which an update sets to `UINT64_MAX` and the packet that made the update does not lower; the
  sender takes its own update for received if `first_sent_pktno` is not above `ctl_largest_acked`, which is `UINT64_MAX`
  until the first acknowledgment.

  Times, and the packets an acknowledgment names of those that were received, are chosen freely.

  Proved: in every run in which no endpoint that never got an acknowledgment updates its keys a second time, a packet of
  the next generation has a number above `first_recv_pktno`, none is two generations old, and numbers are decoded right,
  every packet that is delivered is decrypted, and the generations are never more than one apart (`generations_agree`).
  Without acknowledgments they drift apart (`updates_without_an_ack_drift_apart`), and an update can be missed though
  all before it was acknowledged (`an_acknowledged_update_is_not_enough`).
-/

import RlccQuic.Lib.Run
import RlccQuic.Lib.Word
import RlccQuic.Transport.KeyUpdate

namespace RlccQuic.Transport.KeyAgreement

open Lib Lib.Word KeyUpdate List Function UInt64

/-! ## The machine -/

structure Endpoint where
  conn : GenConn
  /-- The packets it has sent. -/
  wire : List Sealed
  /-- The numbers of the packets it has decrypted. -/
  received : List UInt64
  /-- The timer has discarded the keys of the generations below. -/
  discarded : Nat
  /-- A packet could not be decrypted. -/
  failed : Bool

abbrev Net := Bool → Endpoint

/-- The generation of the keys that packets are sealed with. -/
def writeGen (c : GenConn) : Nat := (c.crypto.txCkm c.ctx.curOutKeyPhase).key.getD 0

/-- How a packet is sent: in a burst or alone, with or without success. -/
structure Sending where
  now : UInt64
  pto : UInt64
  burst : Bool
  sent : Bool
  ack : Option UInt64
  deriving DecidableEq, Repr

/-- `xqc_conn_enc_packet` in a burst, `xqc_enc_packet_with_pn` and `xqc_send_packet_with_pn` otherwise: a burst takes
    the number before it encrypts, the other way only once the packet was sent. -/
def send (v : Sending) (e : Endpoint) : Endpoint :=
  match (e.conn.crypto.txCkm e.conn.ctx.curOutKeyPhase).key with
  | none => e
  | some generation =>
    let c := if v.burst then { e.conn with packetNumber := e.conn.packetNumber + 1 } else e.conn
    match xqcPacketEncryptBuf generations v.now v.pto c with
    | (false, c) => { e with conn := c }
    | (true, c) =>
      { e with
        conn := if !v.burst && v.sent then { c with packetNumber := c.packetNumber + 1 } else c
        wire := if v.sent then ⟨e.conn.ctx.curOutKeyPhase, generation, e.conn.packetNumber, v.ack⟩ :: e.wire else e.wire }

/-- `xqc_conn_record_single` and `xqc_send_ctl_on_ack_received`, for what they do to the numbers. -/
def note (number : UInt64) (ack : Option UInt64) (c : GenConn) : GenConn :=
  { c with
    largestRecvd := if number > c.largestRecvd then number else c.largestRecvd
    largestAcked :=
      match ack with
      | none => c.largestAcked
      | some a => if c.largestAcked = u64Max then a else maxU64 c.largestAcked a }

def deliver (now pto : UInt64) (p : Sealed) (e : Endpoint) : Endpoint :=
  match xqcPacketDecrypt generations now pto p e.conn with
  | (.error _, c) => { e with conn := c, failed := true }
  | (.ok number, c) => { e with conn := note number p.ack c, received := number :: e.received }

def timeout (e : Endpoint) : Endpoint :=
  { e with conn := xqcCryptoDiscardOldKeys generations e.conn, discarded := writeGen e.conn }

inductive Ev where
  | send (x : Bool) (v : Sending)
  | deliver (x : Bool) (now pto : UInt64) (p : Sealed)
  | timeout (x : Bool) (now : UInt64)
  deriving DecidableEq, Repr

/-- Endpoint `x` acts. A packet is delivered before the timer discards its keys. -/
inductive Step : Net → Ev → Net → Prop
  | send (s : Net) (x : Bool) (v : Sending) (hack : ∀ a, v.ack = some a → a ∈ (s x).received) :
      Step s (.send x v) (update s x (send v (s x)))
  | deliver (s : Net) (x : Bool) (now pto : UInt64) (p : Sealed) (hp : p ∈ (s !x).wire)
      (htimer : (s x).discarded ≤ p.generation) :
      Step s (.deliver x now pto p) (update s x (deliver now pto p (s x)))
  | timeout (s : Net) (x : Bool) (now t : UInt64) (ht : (s x).conn.timer = some t) (hnow : t ≤ now) :
      Step s (.timeout x now) (update s x (timeout (s x)))

/-- The handshake is complete; 0-RTT packets may have taken numbers, and may have been acknowledged. -/
structure Endpoint.Fresh (e : Endpoint) : Prop where
  keyPhase : e.conn.crypto.keyPhase = false
  rx : e.conn.crypto.rxCkm false = keysOf 0
  tx : e.conn.crypto.txCkm false = keysOf 0
  confirmed : e.conn.confirmed = true
  ctx : e.conn.ctx = ⟨false, false, 0, 0, 0, 0, 0⟩
  number : e.conn.packetNumber.toNat ≤ 2 ^ 62
  acked : e.conn.largestAcked = u64Max ∨ e.conn.largestAcked < e.conn.packetNumber
  wire : e.wire = []
  received : e.received = []
  discarded : e.discarded = 0
  failed : e.failed = false

def header (p : Sealed) : Header := ⟨p.keyPhase, 4, p.number &&& 0xffffffff⟩

def Careful (s : Net) : Ev → Prop
  | .send x v =>
    (s x).conn.packetNumber.toNat < 2 ^ 62 ∧
      ((s x).conn.initiates v.now = true → writeGen (s x).conn = 0 ∨ (s x).conn.largestAcked ≠ u64Max)
  | .deliver x _ _ p =>
    (s x).conn.pktNum (header p) = p.number ∧ writeGen (s x).conn ≤ p.generation + 1 ∧
      (p.generation = writeGen (s x).conn + 1 → p.number > (s x).conn.ctx.firstRecvPktno)
  | .timeout _ _ => True

/-! ## One endpoint -/

def phaseOf (g : Nat) : Bool := decide (g % 2 = 1)

lemma phaseOf_succ (g : Nat) : phaseOf (g + 1) = !phaseOf g := by
  unfold phaseOf
  rcases Nat.mod_two_eq_zero_or_one g with h | h
  · have h' : (g + 1) % 2 = 1 := by omega
    simp [h, h']
  · have h' : (g + 1) % 2 = 0 := by omega
    simp [h, h']

/-- The connection is in generation `g`, and has the keys of the one before unless they were discarded. -/
structure Keyed (c : GenConn) (g discarded : Nat) : Prop where
  keyPhase : c.crypto.keyPhase = phaseOf g
  curOut : c.ctx.curOutKeyPhase = phaseOf g
  nextIn : c.ctx.nextInKeyPhase = phaseOf g
  confirmed : c.confirmed = true
  rx : c.crypto.rxCkm (phaseOf g) = keysOf g
  tx : c.crypto.txCkm (phaseOf g) = keysOf g
  old : ∀ n, g = n + 1 → discarded ≤ n → c.crypto.rxCkm (phaseOf n) = keysOf n

variable {c : GenConn} {g d : Nat} {p : Sealed}

lemma Keyed.writeGen (h : Keyed c g d) : writeGen c = g := by
  unfold KeyAgreement.writeGen; rw [h.curOut, h.tx]
  rfl

lemma Keyed.congr {c c' : GenConn} (h : Keyed c g d) (hcrypto : c'.crypto = c.crypto)
    (hconfirmed : c'.confirmed = c.confirmed) (hout : c'.ctx.curOutKeyPhase = c.ctx.curOutKeyPhase)
    (hin : c'.ctx.nextInKeyPhase = c.ctx.nextInKeyPhase) : Keyed c' g d := by
  refine ⟨?_, hout.trans h.curOut, hin.trans h.nextIn, hconfirmed.trans h.confirmed, ?_, ?_, ?_⟩ <;> rw [hcrypto]
  · exact h.keyPhase
  · exact h.rx
  · exact h.tx
  · exact h.old

/-- The keys of the next generation are in the other place. -/
structure Updated (c c' : GenConn) (g : Nat) : Prop where
  rx : c'.crypto.rxCkm = update c.crypto.rxCkm (!phaseOf g) (keysOf (g + 1))
  tx : c'.crypto.txCkm = c.crypto.txCkm
  same : c' = { c with crypto := c'.crypto, confirmed := false }
  keyPhase : c'.crypto.keyPhase = c.crypto.keyPhase

lemma updateRead (h : Keyed c g d) :
    ∃ c', xqcTlsUpdate1rttKeys generations .rxRead c = (true, c') ∧ Updated c c' g := by
  refine ⟨{ c with
    crypto := { c.crypto with rxCkm := update c.crypto.rxCkm (!phaseOf g) (keysOf (g + 1)) }
    confirmed := false }, ?_, rfl, rfl, rfl, rfl⟩
  unfold xqcTlsUpdate1rttKeys xqcCryptoDeriveUpdatedKeys deriveUpdated
  simp only [h.keyPhase, h.rx, keysOf, generations, Option.map_some]
  rfl

lemma updateWrite {c c1 : GenConn} (h : Keyed c g d) (h1 : Updated c c1 g) (now pto : UInt64) :
    ∃ c2, xqcTlsUpdate1rttKeys generations .txWrite c1 = (true, c2) ∧
      Keyed (xqcConnConfirmKeyUpdate now pto c2) (g + 1) d ∧
      (xqcConnConfirmKeyUpdate now pto c2).packetNumber = c.packetNumber ∧
      (xqcConnConfirmKeyUpdate now pto c2).largestAcked = c.largestAcked ∧
      (xqcConnConfirmKeyUpdate now pto c2).ctx.firstSentPktno = c.packetNumber + 1 ∧
      (xqcConnConfirmKeyUpdate now pto c2).ctx.firstRecvPktno = u64Max := by
  obtain ⟨hrx, htx, hsame, hphase⟩ := h1
  refine ⟨{ c with
    crypto := { c1.crypto with txCkm := update c.crypto.txCkm (!phaseOf g) (keysOf (g + 1)) }
    confirmed := true }, ?_, ?_, rfl, rfl, rfl, rfl⟩
  · unfold xqcTlsUpdate1rttKeys xqcCryptoDeriveUpdatedKeys deriveUpdated; rw [hsame]
    simp only [hphase, h.keyPhase, htx, h.tx, keysOf, generations, Option.map_some]
    rfl
  · have hne : phaseOf g ≠ !phaseOf g := by cases phaseOf g <;> decide
    refine ⟨?_, ?_, ?_, rfl, ?_, ?_, fun n hn _ => ?_⟩
    · simp only [xqcConnConfirmKeyUpdate, h.curOut, phaseOf_succ]
    · simp only [xqcConnConfirmKeyUpdate, h.curOut, phaseOf_succ]
    · simp only [xqcConnConfirmKeyUpdate, h.nextIn, phaseOf_succ]
    · simp only [xqcConnConfirmKeyUpdate, hrx, phaseOf_succ, update_self]
    · simp only [xqcConnConfirmKeyUpdate, phaseOf_succ, update_self]
    · obtain rfl : g = n := Nat.succ.inj hn
      simp only [xqcConnConfirmKeyUpdate, hrx, update_of_ne hne]; exact h.rx

structure Advanced (c c' : GenConn) (g d : Nat) : Prop where
  keyed : Keyed c' (g + 1) d
  packetNumber : c'.packetNumber = c.packetNumber
  largestAcked : c'.largestAcked = c.largestAcked
  firstSent : c'.ctx.firstSentPktno = c.packetNumber + 1
  firstRecv : c'.ctx.firstRecvPktno = u64Max

lemma decrypt_of_opened {c1 : GenConn} (hnum : c.pktNum (header p) = p.number)
    (hread : updateReadKeys generations (header p) c = (true, c1))
    (hopen : xqcCryptoDecryptPayload generations p.number p.keyPhase p c1.crypto = true) (now pto : UInt64) :
    xqcPacketDecrypt generations now pto p c = applyKeyUpdate generations now pto (header p) p.number c1 := by
  unfold xqcPacketDecrypt; rw [show generations.unmask p = some (header p) from rfl]
  simp only [hread, hnum, show (header p).keyPhase = p.keyPhase from rfl, hopen, if_true]

lemma decryptPayload_of_keys {n : Nat} {crypto : Crypto (Option Nat) Nat Nat} (hkeys : crypto.rxCkm p.keyPhase = keysOf n)
    (hn : p.generation = n) : xqcCryptoDecryptPayload generations p.number p.keyPhase p crypto = true := by
  unfold xqcCryptoDecryptPayload; rw [hkeys]
  simp [keysOf, generations, hn]

lemma decrypt_current (h : Keyed c g d) (hphase : p.keyPhase = phaseOf p.generation) (hnum : c.pktNum (header p) = p.number)
    (hg : p.generation = g) (now pto : UInt64) :
    xqcPacketDecrypt generations now pto p c = (.ok p.number,
      if p.number < c.ctx.firstRecvPktno then { c with ctx := { c.ctx with firstRecvPktno := p.number } } else c) := by
  have hin : p.keyPhase = c.ctx.nextInKeyPhase := by rw [hphase, hg, h.nextIn]
  have hnot : ¬ c.looksNew (header p) := fun hnew => hnew.1 hin
  have hopen : xqcCryptoDecryptPayload generations p.number p.keyPhase p c.crypto = true :=
    decryptPayload_of_keys (by rw [hphase, hg]; exact h.rx) hg
  rw [decrypt_of_opened hnum (if_neg hnot) hopen]
  unfold applyKeyUpdate; rw [if_neg (fun hne => hne.1 hin)]
  by_cases hlow : p.number < c.ctx.firstRecvPktno
  · rw [if_pos ⟨hin, hlow⟩, if_pos hlow]
  · rw [if_neg (fun hlt => hlow hlt.2), if_neg hlow]

lemma decrypt_old (h : Keyed c g d) (hphase : p.keyPhase = phaseOf p.generation) (hnum : c.pktNum (header p) = p.number)
    (hg : g = p.generation + 1) (hd : d ≤ p.generation) (hlow : p.number ≤ c.ctx.firstRecvPktno) (now pto : UInt64) :
    xqcPacketDecrypt generations now pto p c = (.ok p.number, c) := by
  have hne : p.keyPhase ≠ c.ctx.nextInKeyPhase := by
    rw [hphase, h.nextIn, hg, phaseOf_succ]
    cases phaseOf p.generation <;> decide
  have hnot : ¬ c.looksNew (header p) := by
    intro hnew
    have hgt := hnew.2.1
    rw [hnum, gt_iff_lt, lt_iff_toNat_lt] at hgt
    rw [le_iff_toNat_le] at hlow; omega
  have hopen : xqcCryptoDecryptPayload generations p.number p.keyPhase p c.crypto = true :=
    decryptPayload_of_keys (by rw [hphase]; exact h.old _ hg hd) rfl
  rw [decrypt_of_opened hnum (if_neg hnot) hopen]
  unfold applyKeyUpdate
  rw [if_neg (fun hno => absurd h.confirmed (by rw [hno.2]; decide)), if_neg (fun heq => hne heq.1)]

lemma decrypt_next (h : Keyed c g d) (hphase : p.keyPhase = phaseOf p.generation) (hnum : c.pktNum (header p) = p.number)
    (hg : p.generation = g + 1) (hhigh : p.number > c.ctx.firstRecvPktno) (now pto : UInt64) :
    ∃ c', xqcPacketDecrypt generations now pto p c = (.ok p.number, c') ∧ Advanced c c' g d := by
  have hphase' : p.keyPhase = !phaseOf g := by rw [hphase, hg, phaseOf_succ]
  have hne : p.keyPhase ≠ c.ctx.nextInKeyPhase := by
    rw [hphase', h.nextIn]
    cases phaseOf g <;> decide
  have hnew : c.looksNew (header p) := ⟨hne, by rw [hnum]; exact hhigh, h.confirmed⟩
  obtain ⟨c1, hread, hupd⟩ := updateRead h
  obtain ⟨c2, hwrite, hkeyed, h1, h2, h3, h4⟩ := updateWrite h hupd now pto
  have hopen : xqcCryptoDecryptPayload generations p.number p.keyPhase p c1.crypto = true :=
    decryptPayload_of_keys (by rw [hphase', hupd.rx, update_self]) hg
  have hstill : (header p).keyPhase ≠ c1.ctx.nextInKeyPhase ∧ c1.confirmed = false := by
    rw [hupd.same]; exact ⟨hne, rfl⟩
  refine ⟨xqcConnConfirmKeyUpdate now pto c2, ?_, hkeyed, h1, h2, h3, h4⟩
  rw [decrypt_of_opened hnum ((if_pos hnew).trans hread) hopen]
  unfold applyKeyUpdate; rw [if_pos hstill, hwrite]

lemma encrypt_cases (h : Keyed c g d) (now pto : UInt64) :
    ∃ c', xqcPacketEncryptBuf generations now pto c = (true, c') ∧
      ((c.initiates now = true ∧ Advanced c c' g d) ∨
        c' = { c with ctx := { c.ctx with encPktCnt := c'.ctx.encPktCnt } }) := by
  unfold xqcPacketEncryptBuf; split
  · dsimp only; split
    · rename_i hdue
      have hcount : Keyed { c with ctx := { c.ctx with encPktCnt := c.ctx.encPktCnt + 1 } } g d := h.congr rfl rfl rfl rfl
      obtain ⟨c1, hread, hupd⟩ := updateRead hcount
      obtain ⟨c2, hwrite, hkeyed, h1, h2, h3, h4⟩ := updateWrite hcount hupd now pto
      rw [hread]
      dsimp only; rw [hwrite]
      exact ⟨_, rfl, .inl ⟨hdue, hkeyed, h1, h2, h3, h4⟩⟩
    · exact ⟨_, rfl, .inr rfl⟩
  · exact ⟨_, rfl, .inr rfl⟩

/-! ## Both endpoints -/

structure Sound (e : Endpoint) (g : Nat) : Prop where
  keyed : Keyed e.conn g e.discarded
  failed : e.failed = false
  bound : e.conn.packetNumber.toNat ≤ 2 ^ 62
  acks : ∀ p ∈ e.wire, ∀ n, p.ack = some n → n ∈ e.received
  acked : e.conn.largestAcked = u64Max ∨ e.conn.largestAcked.toNat < e.conn.packetNumber.toNat

/-- The packets from `a`, in generation `g`, to `b`, in generation `r`. -/
structure Link (a b : Endpoint) (g r : Nat) : Prop where
  near : g ≤ r + 1
  number : ∀ p ∈ a.wire, p.number.toNat < a.conn.packetNumber.toNat
  gen : ∀ p ∈ a.wire, p.generation ≤ g ∧ p.keyPhase = phaseOf p.generation
  order : ∀ p ∈ a.wire, ∀ q ∈ a.wire, p.generation < q.generation → p.number.toNat < q.number.toNat
  sent : ∀ p ∈ a.wire, a.conn.ctx.firstSentPktno.toNat ≤ p.number.toNat → p.generation = g
  recv : ∀ n ∈ b.received, ∃ p ∈ a.wire, p.number = n ∧ p.generation ≤ r
  heard : 0 < g → a.conn.largestAcked ≠ u64Max → a.conn.ctx.firstSentPktno ≤ a.conn.largestAcked →
    a.conn.largestAcked ∈ b.received
  first : b.conn.ctx.firstRecvPktno = u64Max ∨ r = 0 ∨
    ∃ p ∈ a.wire, p.generation = r ∧ p.number = b.conn.ctx.firstRecvPktno

structure Inv (s : Net) (g : Bool → Nat) : Prop where
  sound : ∀ x, Sound (s x) (g x)
  link : ∀ x, Link (s x) (s !x) (g x) (g !x)

lemma toNat_le_u64Max (n : UInt64) : n ≤ u64Max := by
  have := n.toNat_lt
  change n.toNat ≤ 2 ^ 64 - 1
  omega

lemma toNat_succ {n : UInt64} (h : n.toNat ≤ 2 ^ 62) : (n + 1).toNat = n.toNat + 1 := by
  change (n.toNat + 1) % 2 ^ 64 = n.toNat + 1
  omega

variable {s : Net}

lemma Inv.change {g : Bool → Nat} {x : Bool} {e : Endpoint} {n : Nat} (h : Inv s g) (hs : Sound e n)
    (hout : Link e (s !x) n (g !x)) (hin : Link (s !x) e (g !x) n) :
    Inv (update s x e) (update g x n) := by
  have hne : (!x) ≠ x := by cases x <;> decide
  refine ⟨fun y => ?_, fun y => ?_⟩
  · by_cases hy : y = x
    · subst hy; rw [update_self, update_self]; exact hs
    · rw [update_of_ne hy, update_of_ne hy]; exact h.sound y
  · by_cases hy : y = x
    · subst hy; rw [update_self, update_self, update_of_ne hne, update_of_ne hne]; exact hout
    · obtain rfl : y = !x := by cases x <;> cases y <;> simp at hy ⊢
      rw [update_of_ne hne, update_of_ne hne, Bool.not_not, update_self, update_self]
      exact hin

variable {v : Sending} {a' : Endpoint} {g' r' : Nat}

section Steps

variable {a b : Endpoint} {g r : Nat}

lemma advance_sent (ha : Sound a g) (hab : Link a b g r) (hadv : Advanced a.conn c g d)
    (p : Sealed) (hp : p ∈ a.wire) : ¬ c.ctx.firstSentPktno.toNat ≤ p.number.toNat := by
  rw [hadv.firstSent, toNat_succ ha.bound]
  have := hab.number p hp; omega

lemma advance_heard (ha : Sound a g) (hadv : Advanced a.conn c g d)
    (hnot : c.largestAcked ≠ u64Max) : ¬ c.ctx.firstSentPktno ≤ c.largestAcked := by
  rw [hadv.firstSent, le_iff_toNat_le, toNat_succ ha.bound, hadv.largestAcked]
  rw [hadv.largestAcked] at hnot
  have := ha.acked.resolve_left hnot; omega

lemma initiates_behind {now : UInt64} (hab : Link a b g r) (hdue : a.conn.initiates now = true)
    (hcare : g = 0 ∨ a.conn.largestAcked ≠ u64Max) : g ≤ r := by
  obtain ⟨-, hle, -⟩ := of_decide_eq_true hdue
  rcases Nat.eq_zero_or_pos g with rfl | hpos
  · exact Nat.zero_le r
  · have hmem := hab.heard hpos (hcare.resolve_left (Nat.pos_iff_ne_zero.mp hpos)) hle
    obtain ⟨p, hp, hn, hgen⟩ := hab.recv _ hmem
    rw [le_iff_toNat_le, ← hn] at hle
    rw [← hab.sent p hp hle]; exact hgen

/-- A packet was sealed with the keys of generation `g`; the endpoint is in `g'` now. -/
structure Sent (v : Sending) (a a' : Endpoint) (g g' : Nat) : Prop where
  received : a'.received = a.received
  discarded : a'.discarded = a.discarded
  failed : a'.failed = a.failed
  wire : a'.wire = a.wire ∨ (a'.wire = ⟨phaseOf g, g, a.conn.packetNumber, v.ack⟩ :: a.wire ∧
    a.conn.packetNumber.toNat < a'.conn.packetNumber.toNat)
  number : a.conn.packetNumber.toNat ≤ a'.conn.packetNumber.toNat ∧
    a'.conn.packetNumber.toNat ≤ a.conn.packetNumber.toNat + 1
  largestAcked : a'.conn.largestAcked = a.conn.largestAcked
  keyed : Keyed a'.conn g' a.discarded
  update : (g' = g ∧ a'.conn.ctx.firstSentPktno = a.conn.ctx.firstSentPktno ∧
      a'.conn.ctx.firstRecvPktno = a.conn.ctx.firstRecvPktno) ∨
    (g' = g + 1 ∧ a.conn.initiates v.now = true ∧ a.conn.packetNumber.toNat < a'.conn.ctx.firstSentPktno.toNat ∧
      a'.conn.ctx.firstRecvPktno = u64Max)

lemma send_spec (ha : Sound a g) (hlt : a.conn.packetNumber.toNat < 2 ^ 62) : ∃ g', Sent v a (send v a) g g' := by
  have hkey : (a.conn.crypto.txCkm a.conn.ctx.curOutKeyPhase).key = some g := by
    rw [ha.keyed.curOut, ha.keyed.tx]; rfl
  have hsucc := toNat_succ ha.bound
  -- the number is taken before or after
  obtain ⟨c0, hc0, hkeyed0, hnum0, hacked0, hctx0⟩ : ∃ c0 : GenConn,
      (if v.burst = true then { a.conn with packetNumber := a.conn.packetNumber + 1 } else a.conn) = c0 ∧
      Keyed c0 g a.discarded ∧ c0.packetNumber = (if v.burst = true then a.conn.packetNumber + 1 else a.conn.packetNumber) ∧
      c0.largestAcked = a.conn.largestAcked ∧
      c0.ctx = a.conn.ctx ∧ c0.keyupdatePktThreshold = a.conn.keyupdatePktThreshold := by
    cases v.burst with
    | true => exact ⟨_, rfl, ha.keyed.congr rfl rfl rfl rfl, rfl, rfl, rfl, rfl⟩
    | false => exact ⟨_, rfl, ha.keyed, rfl, rfl, rfl, rfl⟩
  have hdue : c0.initiates v.now = a.conn.initiates v.now := by
    unfold Conn.initiates; rw [hctx0.1, hctx0.2, hacked0]
  obtain ⟨c1, henc, hcase⟩ := encrypt_cases hkeyed0 v.now v.pto
  -- what the update leaves of the numbers
  obtain ⟨g', hnum1, hacked1, hkeyed1, hupd⟩ : ∃ g', c1.packetNumber = c0.packetNumber ∧
      c1.largestAcked = c0.largestAcked ∧ Keyed c1 g' a.discarded ∧
      ((g' = g ∧ c1.ctx.firstSentPktno = a.conn.ctx.firstSentPktno ∧
          c1.ctx.firstRecvPktno = a.conn.ctx.firstRecvPktno) ∨
        (g' = g + 1 ∧ a.conn.initiates v.now = true ∧ c1.ctx.firstSentPktno = c0.packetNumber + 1 ∧
          c1.ctx.firstRecvPktno = u64Max)) := by
    rcases hcase with ⟨hinit, hadv⟩ | hstay
    · exact ⟨g + 1, hadv.packetNumber, hadv.largestAcked, hadv.keyed,
        .inr ⟨rfl, hdue.symm.trans hinit, hadv.firstSent, hadv.firstRecv⟩⟩
    · rw [hstay]
      exact ⟨g, rfl, rfl, hkeyed0.congr rfl rfl rfl rfl, .inl ⟨rfl, by rw [hctx0.1], by rw [hctx0.1]⟩⟩
  have hfirst : a.conn.packetNumber.toNat < (c0.packetNumber + 1).toNat := by
    rw [hnum0]
    cases v.burst with
    | true => rw [if_pos rfl, toNat_succ (by omega), hsucc]; omega
    | false => rw [if_neg (by decide), hsucc]; omega
  have hsend : send v a = { a with
      conn := if (!v.burst && v.sent) = true then { c1 with packetNumber := c1.packetNumber + 1 } else c1
      wire := if v.sent = true then ⟨phaseOf g, g, a.conn.packetNumber, v.ack⟩ :: a.wire else a.wire } := by
    unfold send; rw [hkey]
    dsimp only; rw [hc0, henc, ha.keyed.curOut]
  have hnumbers : (send v a).conn.packetNumber = (if (!v.burst && v.sent) = true then c0.packetNumber + 1 else c0.packetNumber) ∧
      (send v a).conn.largestAcked = c0.largestAcked ∧ Keyed (send v a).conn g' a.discarded ∧
      (send v a).conn.ctx = c1.ctx := by
    rw [hsend]; split
    · exact ⟨by rw [hnum1], hacked1, hkeyed1.congr rfl rfl rfl rfl, rfl⟩
    · exact ⟨hnum1, hacked1, hkeyed1, rfl⟩
  obtain ⟨hnum, hacked, hkeyed, hctx⟩ := hnumbers
  have hafter : (send v a).conn.packetNumber.toNat = a.conn.packetNumber.toNat +
      (if (v.burst || v.sent) = true then 1 else 0) := by
    rw [hnum, hnum0]
    cases v.burst <;> cases v.sent <;> simp [hsucc]
  refine ⟨g', by rw [hsend], by rw [hsend], by rw [hsend], ?_, ?_, hacked.trans hacked0, hkeyed, ?_⟩
  · cases hs : v.sent with
    | true =>
      refine .inr ⟨by rw [hsend, hs]; rfl, ?_⟩
      rw [hafter, hs]
      simp
    | false => exact .inl (by rw [hsend, hs]; rfl)
  · rw [hafter]
    split <;> omega
  · rw [hctx]
    rcases hupd with hstay | ⟨h1, h2, h3, h4⟩
    · exact .inl hstay
    · exact .inr ⟨h1, h2, by rw [h3]; exact hfirst, h4⟩

lemma Sent.mem (h : Sent v a a' g g') (hp : p ∈ a'.wire) :
    p ∈ a.wire ∨ (p = ⟨phaseOf g, g, a.conn.packetNumber, v.ack⟩ ∧
      a.conn.packetNumber.toNat < a'.conn.packetNumber.toNat) := by
  rcases h.wire with heq | ⟨heq, hlt⟩
  · exact .inl (heq ▸ hp)
  · rw [heq] at hp
    rcases mem_cons.mp hp with rfl | hp
    · exact .inr ⟨rfl, hlt⟩
    · exact .inl hp

lemma Sent.mono (h : Sent v a a' g g') (hp : p ∈ a.wire) : p ∈ a'.wire := by
  rcases h.wire with heq | ⟨heq, -⟩ <;> rw [heq]
  · exact hp
  · exact mem_cons_of_mem _ hp

lemma Sent.le (h : Sent v a a' g g') : g ≤ g' := by
  rcases h.update with ⟨rfl, -⟩ | ⟨rfl, -⟩
  · exact Nat.le_refl g'
  · exact Nat.le_succ g

lemma Sent.sound (h : Sent v a a' g g') (ha : Sound a g)
    (hlt : a.conn.packetNumber.toNat < 2 ^ 62) (hack : ∀ n, v.ack = some n → n ∈ a.received) : Sound a' g' := by
  obtain ⟨hlow, hhigh⟩ := h.number
  refine ⟨by rw [h.discarded]; exact h.keyed, h.failed.trans ha.failed, by omega, fun p hp n hn => ?_, ?_⟩
  · rw [h.received]
    rcases h.mem hp with hp | ⟨rfl, -⟩
    · exact ha.acks p hp n hn
    · exact hack n hn
  · rw [h.largestAcked]; exact ha.acked.imp_right fun hlt => by omega

lemma Sent.out (h : Sent v a a' g g') (ha : Sound a g) (hab : Link a b g r)
    (hcare : a.conn.initiates v.now = true → g = 0 ∨ a.conn.largestAcked ≠ u64Max) : Link a' b g' r := by
  have hle := h.le
  have hnum : ∀ p ∈ a'.wire, p.number.toNat ≤ a.conn.packetNumber.toNat := by
    intro p hp
    rcases h.mem hp with hp | ⟨rfl, -⟩
    · exact Nat.le_of_lt (hab.number p hp)
    · exact Nat.le_refl _
  refine ⟨?_, fun p hp => ?_, fun p hp => ?_, fun p hp q hq hpq => ?_, fun p hp hfirst => ?_, fun n hn => ?_,
    fun hpos hnot hfirst => ?_, ?_⟩
  · rcases h.update with ⟨rfl, -⟩ | ⟨rfl, hdue, -⟩
    · exact hab.near
    · exact Nat.succ_le_succ (initiates_behind hab hdue (hcare hdue))
  · rcases h.mem hp with hp | ⟨rfl, hlt⟩
    · exact Nat.lt_of_lt_of_le (hab.number p hp) h.number.1
    · exact hlt
  · rcases h.mem hp with hp | ⟨rfl, -⟩
    · exact ⟨Nat.le_trans (hab.gen p hp).1 hle, (hab.gen p hp).2⟩
    · exact ⟨hle, rfl⟩
  · rcases h.mem hp with hp | ⟨rfl, -⟩
    · rcases h.mem hq with hq | ⟨rfl, -⟩
      · exact hab.order p hp q hq hpq
      · exact hab.number p hp
    · rcases h.mem hq with hq | ⟨rfl, -⟩
      · exact absurd (hab.gen q hq).1 (Nat.not_le.mpr hpq)
      · exact absurd hpq (Nat.lt_irrefl _)
  · rcases h.update with ⟨rfl, hsame, -⟩ | ⟨-, -, hhigh, -⟩
    · rcases h.mem hp with hp | ⟨rfl, -⟩
      · exact hab.sent p hp (hsame ▸ hfirst)
      · rfl
    · have := hnum p hp; omega
  · obtain ⟨p, hp, hpn, hpg⟩ := hab.recv n hn
    exact ⟨p, h.mono hp, hpn, hpg⟩
  · rw [h.largestAcked] at hnot hfirst ⊢
    rcases h.update with ⟨rfl, hsame, -⟩ | ⟨-, -, hhigh, -⟩
    · exact hab.heard hpos hnot (hsame ▸ hfirst)
    · have := ha.acked.resolve_left hnot; rw [le_iff_toNat_le] at hfirst; omega
  · exact hab.first.imp_right (Or.imp_right fun ⟨p, hp, hpg⟩ => ⟨p, h.mono hp, hpg⟩)

lemma Sent.back (h : Sent v a a' g g') (hba : Link b a r g) : Link b a' r g' := by
  have hle := h.le
  refine ⟨Nat.le_trans hba.near (Nat.succ_le_succ hle), hba.number, hba.gen, hba.order, hba.sent, fun n hn => ?_,
    fun hpos hnot hfirst => ?_, ?_⟩
  · rw [h.received] at hn
    obtain ⟨p, hp, hpn, hpg⟩ := hba.recv n hn
    exact ⟨p, hp, hpn, Nat.le_trans hpg hle⟩
  · rw [h.received]; exact hba.heard hpos hnot hfirst
  · rcases h.update with ⟨rfl, -, hsame⟩ | ⟨-, -, -, hmax⟩
    · rw [hsame]; exact hba.first
    · exact .inl hmax

/-- A packet was decrypted; the endpoint is in generation `r'` now. -/
structure Took (p : Sealed) (b : Endpoint) (c : GenConn) (g r r' : Nat) : Prop where
  keyed : Keyed c r' b.discarded
  packetNumber : c.packetNumber = b.conn.packetNumber
  largestAcked : c.largestAcked = b.conn.largestAcked
  le : r ≤ r'
  gen : p.generation ≤ r'
  update : (r' = r ∧ c.ctx.firstSentPktno = b.conn.ctx.firstSentPktno ∧
      (c.ctx.firstRecvPktno = b.conn.ctx.firstRecvPktno ∨ (c.ctx.firstRecvPktno = p.number ∧ p.generation = r))) ∨
    (r' ≤ g ∧ Advanced b.conn c r b.discarded)

lemma decrypt_took (hb : Sound b r) (hab : Link a b g r) (hp : p ∈ a.wire)
    (htimer : b.discarded ≤ p.generation) (hnum : b.conn.pktNum (header p) = p.number) (hnear : r ≤ p.generation + 1)
    (hnext : p.generation = r + 1 → p.number > b.conn.ctx.firstRecvPktno) (now pto : UInt64) :
    ∃ r' c, xqcPacketDecrypt generations now pto p b.conn = (.ok p.number, c) ∧ Took p b c g r r' := by
  obtain ⟨hgen, hphase⟩ := hab.gen p hp
  have hcases : p.generation = r ∨ r = p.generation + 1 ∨ p.generation = r + 1 := by
    have := hab.near; omega
  rcases hcases with heq | hold | hnew
  · refine ⟨r, _, decrypt_current hb.keyed hphase hnum heq now pto, ?_⟩
    split
    · exact ⟨hb.keyed.congr rfl rfl rfl rfl, rfl, rfl, Nat.le_refl r, Nat.le_of_eq heq, .inl ⟨rfl, rfl, .inr ⟨rfl, heq⟩⟩⟩
    · exact ⟨hb.keyed, rfl, rfl, Nat.le_refl r, Nat.le_of_eq heq, .inl ⟨rfl, rfl, .inl rfl⟩⟩
  · have hlow : p.number ≤ b.conn.ctx.firstRecvPktno := by
      rcases hab.first with hmax | hzero | ⟨q, hq, hqg, hqn⟩
      · rw [hmax]; exact toNat_le_u64Max _
      · omega
      · rw [← hqn, le_iff_toNat_le]; exact Nat.le_of_lt (hab.order p hp q hq (by omega))
    refine ⟨r, b.conn, decrypt_old hb.keyed hphase hnum hold htimer hlow now pto, ?_⟩
    exact ⟨hb.keyed, rfl, rfl, Nat.le_refl r, by omega, .inl ⟨rfl, rfl, .inl rfl⟩⟩
  · obtain ⟨c, hdec, hadv⟩ := decrypt_next hb.keyed hphase hnum hnew (hnext hnew) now pto
    exact ⟨r + 1, c, hdec, hadv.keyed, hadv.packetNumber, hadv.largestAcked, Nat.le_succ r, Nat.le_of_eq hnew,
      .inr ⟨hnew ▸ hgen, hadv⟩⟩

lemma note_acked (number : UInt64) (ack : Option UInt64) (c : GenConn) :
    (note number ack c).largestAcked = c.largestAcked ∨ ∃ n, ack = some n ∧ (note number ack c).largestAcked = n := by
  cases ack with
  | none => exact .inl rfl
  | some n =>
    unfold note maxU64
    dsimp only; split
    · exact .inr ⟨n, rfl, rfl⟩
    · split
      · exact .inl rfl
      · exact .inr ⟨n, rfl, rfl⟩

lemma Took.sound (h : Took p b c g r r') (ha : Sound a g) (hb : Sound b r)
    (hba : Link b a r g) (hp : p ∈ a.wire) :
    Sound { b with conn := note p.number p.ack c, received := p.number :: b.received } r' := by
  refine ⟨h.keyed.congr rfl rfl rfl rfl, hb.failed, ?_, fun q hq n hn => ?_, ?_⟩
  · change c.packetNumber.toNat ≤ 2 ^ 62
    rw [h.packetNumber]; exact hb.bound
  · exact mem_cons_of_mem _ (hb.acks q hq n hn)
  · change (note p.number p.ack c).largestAcked = u64Max ∨ (note p.number p.ack c).largestAcked.toNat < c.packetNumber.toNat
    rw [h.packetNumber]
    rcases note_acked p.number p.ack c with hsame | ⟨n, hn, heq⟩
    · rw [hsame, h.largestAcked]; exact hb.acked
    · obtain ⟨q, hq, hqn, -⟩ := hba.recv n (ha.acks p hp n hn)
      rw [heq, ← hqn]; exact .inr (hba.number q hq)

lemma Took.out (h : Took p b c g r r') (ha : Sound a g) (hb : Sound b r)
    (hba : Link b a r g) (hp : p ∈ a.wire) :
    Link { b with conn := note p.number p.ack c, received := p.number :: b.received } a r' g := by
  refine ⟨?_, fun q hq => ?_, fun q hq => ?_, hba.order, fun q hq hfirst => ?_, fun n hn => ?_,
    fun hpos hnot hfirst => ?_, hba.first⟩
  · rcases h.update with ⟨rfl, -⟩ | ⟨hle, -⟩
    · exact hba.near
    · exact Nat.le_succ_of_le hle
  · change q.number.toNat < c.packetNumber.toNat
    rw [h.packetNumber]; exact hba.number q hq
  · exact ⟨Nat.le_trans (hba.gen q hq).1 h.le, (hba.gen q hq).2⟩
  · rcases h.update with ⟨rfl, hsame, -⟩ | ⟨-, hadv⟩
    · exact hba.sent q hq (hsame ▸ hfirst)
    · exact absurd hfirst (advance_sent hb hba hadv q hq)
  · exact hba.recv n hn
  · change (note p.number p.ack c).largestAcked ≠ u64Max at hnot
    rcases note_acked p.number p.ack c with hold | ⟨n, hn, heq⟩
    · rw [hold] at hnot hfirst ⊢
      rcases h.update with ⟨rfl, hsame, -⟩ | ⟨-, hadv⟩
      · rw [h.largestAcked] at hnot hfirst ⊢; exact hba.heard hpos hnot (hsame ▸ hfirst)
      · exact absurd hfirst (advance_heard hb hadv hnot)
    · rw [heq]; exact ha.acks p hp n hn

lemma Took.back (h : Took p b c g r r') (hab : Link a b g r) (hp : p ∈ a.wire) :
    Link a { b with conn := note p.number p.ack c, received := p.number :: b.received } g r' := by
  refine ⟨Nat.le_trans hab.near (Nat.succ_le_succ h.le), hab.number, hab.gen, hab.order, hab.sent, fun n hn => ?_,
    fun hpos hnot hfirst => mem_cons_of_mem _ (hab.heard hpos hnot hfirst), ?_⟩
  · rcases mem_cons.mp hn with rfl | hn
    · exact ⟨p, hp, rfl, h.gen⟩
    · obtain ⟨q, hq, hqn, hqg⟩ := hab.recv n hn
      exact ⟨q, hq, hqn, Nat.le_trans hqg h.le⟩
  · change c.ctx.firstRecvPktno = u64Max ∨ r' = 0 ∨ ∃ q ∈ a.wire, q.generation = r' ∧ q.number = c.ctx.firstRecvPktno
    rcases h.update with ⟨rfl, -, hsame | ⟨hlow, hgen⟩⟩ | ⟨-, hadv⟩
    · rw [hsame]; exact hab.first
    · exact .inr (.inr ⟨p, hp, hgen, hlow.symm⟩)
    · exact .inl hadv.firstRecv

lemma timeout_sound (ha : Sound a g) : Sound (timeout a) g := by
  have hne : phaseOf g ≠ !phaseOf g := by cases phaseOf g <;> decide
  refine ⟨⟨ha.keyed.keyPhase, ha.keyed.curOut, ha.keyed.nextIn, ha.keyed.confirmed, ?_, ?_, fun n hn hd => ?_⟩,
    ha.failed, ha.bound, ha.acks, ha.acked⟩
  · simp only [timeout, xqcCryptoDiscardOldKeys, ha.keyed.keyPhase, update_of_ne hne]
    exact ha.keyed.rx
  · simp only [timeout, xqcCryptoDiscardOldKeys, ha.keyed.keyPhase, update_of_ne hne]
    exact ha.keyed.tx
  · have hgen : (timeout a).discarded = g := ha.keyed.writeGen
    omega

end Steps

/-! ## Runs -/

lemma step_inv {s' : Net} {e : Ev} (h : ∃ g, Inv s g) (hs : Guard Careful Step s e s') : ∃ g, Inv s' g := by
  obtain ⟨g, h⟩ := h
  obtain ⟨hcare, hs⟩ := hs
  have hin : ∀ x, Link (s !x) (s x) (g !x) (g x) := fun x => by
    have hlink := h.link !x
    rwa [Bool.not_not] at hlink
  cases hs with
  | send x v hack =>
    obtain ⟨hlt, hdue⟩ := hcare
    rw [(h.sound x).keyed.writeGen] at hdue
    obtain ⟨g', hsent⟩ := send_spec (v := v) (h.sound x) hlt
    exact ⟨_, h.change (hsent.sound (h.sound x) hlt hack) (hsent.out (h.sound x) (h.link x) hdue) (hsent.back (hin x))⟩
  | deliver x now pto p hp htimer =>
    obtain ⟨hnum, hnear, hnext⟩ := hcare
    rw [(h.sound x).keyed.writeGen] at hnear hnext
    obtain ⟨r', c, hdec, htook⟩ := decrypt_took (h.sound x) (hin x) hp htimer hnum hnear hnext now pto
    unfold deliver; rw [hdec]
    exact ⟨_, h.change (htook.sound (h.sound !x) (h.sound x) (h.link x) hp)
      (htook.out (h.sound !x) (h.sound x) (h.link x) hp) (htook.back (hin x) hp)⟩
  | timeout x now t ht hnow =>
    have hsame := h.change (x := x) (timeout_sound (h.sound x))
      ⟨(h.link x).near, (h.link x).number, (h.link x).gen, (h.link x).order, (h.link x).sent, (h.link x).recv,
        (h.link x).heard, (h.link x).first⟩
      ⟨(hin x).near, (hin x).number, (hin x).gen, (hin x).order, (hin x).sent, (hin x).recv, (hin x).heard, (hin x).first⟩
    exact ⟨_, hsame⟩

lemma fresh_inv (h : ∀ x, (s x).Fresh) : Inv s fun _ => 0 := by
  refine ⟨fun x => ?_, fun x => ?_⟩
  · have hx := h x
    refine ⟨⟨hx.keyPhase, ?_, ?_, hx.confirmed, hx.rx, hx.tx, fun n hn => (by cases hn)⟩, hx.failed, hx.number, ?_, ?_⟩
    · rw [hx.ctx]; rfl
    · rw [hx.ctx]; rfl
    · rw [hx.wire]; exact fun p hp => (by cases hp)
    · exact hx.acked.imp_right lt_iff_toNat_lt.mp
  · have hwire := (h x).wire
    have hnone : ∀ p, p ∉ (s x).wire := fun p hp => by
      rw [hwire] at hp; cases hp
    refine ⟨Nat.zero_le _, fun p hp => absurd hp (hnone p), fun p hp => absurd hp (hnone p),
      fun p hp => absurd hp (hnone p), fun p hp => absurd hp (hnone p), fun n hn => ?_,
      fun hpos => absurd hpos (Nat.lt_irrefl 0), .inr (.inl rfl)⟩
    rw [(h !x).received] at hn; cases hn

/-- In every run whose steps meet the condition no packet that is delivered fails to be
    decrypted, and the generations are at most one apart. -/
theorem generations_agree (s₀ s : Net) (es : List Ev) (h₀ : ∀ x, (s₀ x).Fresh) (h : Run (Guard Careful Step) s₀ es s) :
    ∀ x, (s x).failed = false ∧ writeGen (s x).conn ≤ writeGen (s !x).conn + 1 := by
  obtain ⟨g, hinv⟩ := h.inv (P := fun s => ∃ g, Inv s g) (fun _ _ _ => step_inv) ⟨_, fresh_inv h₀⟩
  intro x; rw [(hinv.sound x).keyed.writeGen, (hinv.sound !x).keyed.writeGen]
  exact ⟨(hinv.sound x).failed, (hinv.link x).near⟩

instance (s : Net) : (e : Ev) → Decidable (Careful s e)
  | .send x v => inferInstanceAs (Decidable ((s x).conn.packetNumber.toNat < 2 ^ 62 ∧
      ((s x).conn.initiates v.now = true → writeGen (s x).conn = 0 ∨ (s x).conn.largestAcked ≠ u64Max)))
  | .deliver x _ _ p => inferInstanceAs (Decidable ((s x).conn.pktNum (header p) = p.number ∧
      writeGen (s x).conn ≤ p.generation + 1 ∧
      (p.generation = writeGen (s x).conn + 1 → p.number > (s x).conn.ctx.firstRecvPktno)))
  | .timeout _ _ => inferInstanceAs (Decidable True)

/-- Two endpoints that update their keys after every second packet. -/
def newNet : Net := fun _ => { conn := newGenConn 1, wire := [], received := [], discarded := 0, failed := false }

lemma newNet_fresh : ∀ x, (newNet x).Fresh := by
  intro x
  refine ⟨rfl, rfl, rfl, rfl, rfl, ?_, .inl rfl, rfl, rfl, rfl, rfl⟩
  change 0 ≤ 2 ^ 62
  decide

def alone (now : UInt64) (ack : Option UInt64) : Sending := ⟨now, 10, false, true, ack⟩

lemma step_alone (s : Net) (x : Bool) (now : UInt64) :
    Step s (.send x (alone now none)) (update s x (send (alone now none) (s x))) :=
  .send s x _ fun a h => (by cases h)

lemma step_answer {x : Bool} {n : UInt64} (now : UInt64) (h : n ∈ (s x).received) :
    Step s (.send x (alone now (some n))) (update s x (send (alone now (some n)) (s x))) :=
  .send s x _ fun a ha => (by cases ha; exact h)

/-- One endpoint updates its keys, the other follows and acknowledges it. -/
def followRun : List Ev :=
  [.send false (alone 100 none), .send false (alone 100 none), .send false (alone 110 none),
    .deliver true 115 10 ⟨true, 1, 2, none⟩, .send true (alone 115 (some 2)), .deliver false 120 10 ⟨true, 1, 0, some 2⟩]

theorem an_update_is_followed : (∀ x, (newNet x).Fresh) ∧ ∃ s, Run (Guard Careful Step) newNet followRun s ∧
    writeGen (s false).conn = 1 ∧ writeGen (s true).conn = 1 ∧
    ∀ x, (s x).failed = false ∧ writeGen (s x).conn ≤ writeGen (s !x).conn + 1 := by
  have hrun : Run (Guard Careful Step) newNet followRun _ :=
    (((((Run.nil.snoc ⟨by decide, step_alone _ _ _⟩).snoc ⟨by decide, step_alone _ _ _⟩).snoc
      ⟨by decide, step_alone _ _ _⟩).snoc
      ⟨by decide, .deliver _ _ _ _ _ (by decide) (by decide)⟩).snoc
      ⟨by decide, step_answer _ (by decide)⟩).snoc
      ⟨by decide, .deliver _ _ _ _ _ (by decide) (by decide)⟩
  exact ⟨newNet_fresh, _, hrun, by decide, by decide, generations_agree _ _ _ newNet_fresh hrun⟩

def driftRun : List Ev :=
  [.send false (alone 100 none), .send false (alone 100 none), .send false (alone 110 none), .timeout false 150,
    .send false (alone 150 none), .send false (alone 160 none), .deliver true 170 10 ⟨false, 2, 4, none⟩]

/-- Without any acknowledgment the sender updates its keys twice. It is two generations
    ahead, and its packets have the bit of the generation the receiver is in. -/
theorem updates_without_an_ack_drift_apart : (∀ x, (newNet x).Fresh) ∧ ∃ s, Run Step newNet driftRun s ∧
    writeGen (s false).conn = 2 ∧ writeGen (s true).conn = 0 ∧ (s true).failed = true := by
  have hrun : Run Step newNet driftRun _ :=
    ((((((Run.nil.snoc (step_alone _ _ _)).snoc (step_alone _ _ _)).snoc (step_alone _ _ _)).snoc
      (.timeout _ _ _ 130 (by decide) (by decide))).snoc (step_alone _ _ _)).snoc (step_alone _ _ _)).snoc
      (.deliver _ _ _ _ _ (by decide) (by decide))
  exact ⟨newNet_fresh, _, hrun, by decide⟩

def missedRun : List Ev :=
  followRun ++ [.send false (alone 150 none), .send false (alone 160 none), .deliver true 170 10 ⟨false, 2, 4, none⟩]

/-- The receiver has got one packet of its generation, the one that made it update, and
    does not note its number: it takes the next update for an old packet. -/
theorem an_acknowledged_update_is_not_enough : ∃ s, Run Step newNet missedRun s ∧ writeGen (s false).conn = 2 ∧
    writeGen (s true).conn = 1 ∧ (s true).conn.ctx.firstRecvPktno = u64Max ∧ (s true).failed = true := by
  have hrun : Run Step newNet missedRun _ :=
    ((((((((Run.nil.snoc (step_alone _ _ _)).snoc (step_alone _ _ _)).snoc (step_alone _ _ _)).snoc
      (.deliver _ _ _ _ _ (by decide) (by decide))).snoc (step_answer _ (by decide))).snoc
      (.deliver _ _ _ _ _ (by decide) (by decide))).snoc (step_alone _ _ _)).snoc (step_alone _ _ _)).snoc
      (.deliver _ _ _ _ _ (by decide) (by decide))
  exact ⟨_, hrun, by decide⟩

end RlccQuic.Transport.KeyAgreement
