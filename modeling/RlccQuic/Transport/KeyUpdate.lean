/-
  RlccQuic.Transport.KeyUpdate — the keys of 1-RTT packets and their update (`xqc_packet_parser.c`: `xqc_packet_encrypt_buf`,
  `xqc_packet_decrypt`; `xqc_conn.c`: `xqc_conn_confirm_key_update`; `tls/xqc_tls.c`, `tls/xqc_crypto.c`).

  There are two places for keys, one for each value of the key phase bit. A packet with the other bit and a number above
  the lowest one received makes the read keys of the next phase, in the place of the old ones, before the packet is
  decrypted; the write keys follow once it is.

  The key schedule, the removal of header protection and the AEAD are parameters and may
  fail. Only short header packets are modelled, and the level of 1-RTT keys.

  Proved: a packet that cannot be decrypted leaves the keys and `key_update_ctx` as they were exactly when it does not
  look like the first one of a new phase (`failed_decrypt_keeps_keys_iff`).
-/

import Mathlib.Logic.Function.Basic

namespace RlccQuic.Transport.KeyUpdate

open Function

/-! ## Keys -/

/-- The header of a short header packet, without its protection. -/
structure Header where
  keyPhase : Bool
  pktnoLen : UInt64
  truncatedPn : UInt64
  deriving DecidableEq, Repr

/-- What is computed elsewhere: secrets `σ`, keys `κ`, initialisation vectors `ι` and protected packets `π`. -/
structure Suite (σ κ ι π : Type) where
  /-- The secret of a place that was freed. -/
  noSecret : σ
  /-- `xqc_hkdf_expand_label` with the label `quic ku`. -/
  expand : σ → Option σ
  /-- `xqc_crypto_derive_packet_protection_key` and `xqc_crypto_derive_packet_protection_iv`. -/
  packetKey : σ → Option κ
  packetIv : σ → Option ι
  /-- `xqc_tls_decrypt_header`. -/
  unmask : π → Option Header
  /-- The AEAD accepts the packet, with this number. -/
  authentic : κ → ι → UInt64 → π → Bool

structure Km (σ κ ι : Type) where
  secret : σ
  key : Option κ
  iv : Option ι
  deriving DecidableEq, Repr

/-- The part of `xqc_crypto_t` that changes; its keys are counted by the key phase bit. -/
structure Crypto (σ κ ι : Type) where
  keyPhase : Bool
  rxCkm : Bool → Km σ κ ι
  txCkm : Bool → Km σ κ ι

structure KeyUpdateCtx where
  curOutKeyPhase : Bool
  nextInKeyPhase : Bool
  keyUpdateCnt : UInt32
  firstSentPktno : UInt64
  firstRecvPktno : UInt64
  encPktCnt : UInt64
  initiateTimeGuard : UInt64
  deriving DecidableEq, Repr

/-- A connection. The numbers are those of the application data space. -/
structure Conn (σ κ ι : Type) where
  crypto : Crypto σ κ ι
  /-- `key_update_confirmed`. -/
  confirmed : Bool
  ctx : KeyUpdateCtx
  keyupdatePktThreshold : UInt64
  packetNumber : UInt64
  largestAcked : UInt64
  largestRecvd : UInt64
  /-- `XQC_TIMER_KEY_UPDATE`, if it is set. -/
  timer : Option UInt64

inductive KeyType where
  | rxRead
  | txWrite
  deriving DecidableEq, Repr

def u64Max : UInt64 := 0xffffffffffffffff

section Functions

variable {σ κ ι π : Type} (S : Suite σ κ ι π)

/-- The steps of `xqc_crypto_derive_updated_keys`; one that fails leaves what was stored before it. -/
def deriveUpdated (current updated : Km σ κ ι) : Bool × Km σ κ ι :=
  match S.expand current.secret with
  | none => (false, updated)
  | some secret =>
    let updated := { updated with secret := secret }
    match S.packetKey secret with
    | none => (false, updated)
    | some key =>
      match S.packetIv secret with
      | none => (false, updated)
      | some iv => (true, { updated with key := some key, iv := some iv })

def xqcCryptoDeriveUpdatedKeys (type : KeyType) (c : Crypto σ κ ι) : Bool × Crypto σ κ ι :=
  let current := c.keyPhase
  match type with
  | .rxRead =>
    let r := deriveUpdated S (c.rxCkm current) (c.rxCkm !current)
    (r.1, { c with rxCkm := update c.rxCkm (!current) r.2 })
  | .txWrite =>
    let r := deriveUpdated S (c.txCkm current) (c.txCkm !current)
    (r.1, { c with txCkm := update c.txCkm (!current) r.2 })

def xqcTlsUpdate1rttKeys (type : KeyType) (c : Conn σ κ ι) : Bool × Conn σ κ ι :=
  match xqcCryptoDeriveUpdatedKeys S type c.crypto with
  | (false, crypto) => (false, { c with crypto := crypto })
  | (true, crypto) => (true, { c with crypto := crypto, confirmed := type = .txWrite })

def freed : Km σ κ ι := ⟨S.noSecret, none, none⟩

/-- `xqc_send_ctl_key_update_timeout`: the keys of the other phase are discarded. -/
def xqcCryptoDiscardOldKeys (c : Conn σ κ ι) : Conn σ κ ι :=
  let old := !c.crypto.keyPhase
  { c with
    timer := none
    crypto := { c.crypto with
      rxCkm := update c.crypto.rxCkm old (freed S)
      txCkm := update c.crypto.txCkm old (freed S) } }

def xqcConnConfirmKeyUpdate (now pto : UInt64) (c : Conn σ κ ι) : Conn σ κ ι :=
  { c with
    ctx := {
      curOutKeyPhase := !c.ctx.curOutKeyPhase
      nextInKeyPhase := !c.ctx.nextInKeyPhase
      keyUpdateCnt := c.ctx.keyUpdateCnt + 1
      firstSentPktno := c.packetNumber + 1
      firstRecvPktno := u64Max
      encPktCnt := 0
      initiateTimeGuard := now + 3 * pto }
    crypto := { c.crypto with keyPhase := !c.ctx.curOutKeyPhase }
    timer := c.timer.or (some (now + 3 * pto)) }

/-! ## Sending -/

def Conn.initiates (now : UInt64) (c : Conn σ κ ι) : Bool :=
  decide (c.ctx.encPktCnt + 1 > c.keyupdatePktThreshold ∧ c.ctx.firstSentPktno ≤ c.largestAcked ∧
    now > c.ctx.initiateTimeGuard)

def xqcPacketEncryptBuf (now pto : UInt64) (c : Conn σ κ ι) : Bool × Conn σ κ ι :=
  if c.keyupdatePktThreshold > 0 then
    let due := c.initiates now
    let c := { c with ctx := { c.ctx with encPktCnt := c.ctx.encPktCnt + 1 } }
    if due then
      match xqcTlsUpdate1rttKeys S .rxRead c with
      | (false, c) => (false, c)
      | (true, c) =>
        match xqcTlsUpdate1rttKeys S .txWrite c with
        | (false, c) => (false, c)
        | (true, c) => (true, xqcConnConfirmKeyUpdate now pto c)
    else (true, c)
  else (true, c)

/-! ## Receiving -/

def xqcPacketDecodePacketNumber (largestPn truncatedPn nbits : UInt64) : UInt64 :=
  let expected := largestPn + 1
  let win := (1 : UInt64) <<< nbits
  let hwin := win >>> 1
  let mask := win - 1
  let candidate := (expected &&& ~~~mask) ||| truncatedPn
  if candidate + hwin ≤ expected then candidate + win
  else if candidate > expected + hwin ∧ candidate > win then candidate - win
  else candidate

inductive DecryptErr where
  | header
  | updateKey
  | decryptData
  | decryptWhenKu
  deriving DecidableEq, Repr

def xqcCryptoDecryptPayload (pktNum : UInt64) (keyPhase : Bool) (pkt : π) (c : Crypto σ κ ι) : Bool :=
  match (c.rxCkm keyPhase).key, (c.rxCkm keyPhase).iv with
  | some key, some iv => S.authentic key iv pktNum pkt
  | _, _ => false

def Conn.pktNum (h : Header) (c : Conn σ κ ι) : UInt64 :=
  xqcPacketDecodePacketNumber c.largestRecvd h.truncatedPn (h.pktnoLen * 8)

def Conn.looksNew (h : Header) (c : Conn σ κ ι) : Prop :=
  h.keyPhase ≠ c.ctx.nextInKeyPhase ∧ c.pktNum h > c.ctx.firstRecvPktno ∧ c.confirmed = true

instance (h : Header) (c : Conn σ κ ι) : Decidable (c.looksNew h) := by
  unfold Conn.looksNew
  infer_instance

/-- The part of `xqc_packet_decrypt` before the payload is decrypted. -/
def updateReadKeys (h : Header) (c : Conn σ κ ι) : Bool × Conn σ κ ι :=
  if c.looksNew h then xqcTlsUpdate1rttKeys S .rxRead c else (true, c)

def applyKeyUpdate (now pto : UInt64) (h : Header) (pktNum : UInt64) (c : Conn σ κ ι) :
    Except DecryptErr UInt64 × Conn σ κ ι :=
  if h.keyPhase ≠ c.ctx.nextInKeyPhase ∧ c.confirmed = false then
    match xqcTlsUpdate1rttKeys S .txWrite c with
    | (false, c) => (.error .updateKey, c)
    | (true, c) => (.ok pktNum, xqcConnConfirmKeyUpdate now pto c)
  else if h.keyPhase = c.ctx.nextInKeyPhase ∧ pktNum < c.ctx.firstRecvPktno then
    (.ok pktNum, { c with ctx := { c.ctx with firstRecvPktno := pktNum } })
  else (.ok pktNum, c)

/-- `xqc_packet_decrypt`, for a short header packet: its packet number. -/
def xqcPacketDecrypt (now pto : UInt64) (pkt : π) (c : Conn σ κ ι) : Except DecryptErr UInt64 × Conn σ κ ι :=
  match S.unmask pkt with
  | none => (.error .header, c)
  | some h =>
    let pktNum := c.pktNum h
    match updateReadKeys S h c with
    | (false, c) => (.error .updateKey, c)
    | (true, c) =>
      if xqcCryptoDecryptPayload S pktNum h.keyPhase pkt c.crypto then applyKeyUpdate S now pto h pktNum c
      else (.error (if c.confirmed then .decryptData else .decryptWhenKu), c)

/-! ## Packets that cannot be decrypted -/

def PayloadFails : Except DecryptErr UInt64 → Prop
  | .error .decryptData | .error .decryptWhenKu => True
  | _ => False

/-- The keys and secrets of both phases, `key_update_confirmed` and `key_update_ctx`. -/
structure SameKeys (c c' : Conn σ κ ι) : Prop where
  crypto : c'.crypto = c.crypto
  confirmed : c'.confirmed = c.confirmed
  ctx : c'.ctx = c.ctx

lemma update_confirmed {type : KeyType} {c c' : Conn σ κ ι} (h : xqcTlsUpdate1rttKeys S type c = (true, c')) :
    c'.confirmed = decide (type = .txWrite) := by
  unfold xqcTlsUpdate1rttKeys at h; split at h
  · cases h
  · obtain rfl := (Prod.mk.inj h).2
    rfl

lemma payloadFails_inv {now pto : UInt64} {pkt : π} {c : Conn σ κ ι} {h : Header} (hh : S.unmask pkt = some h)
    (hfail : PayloadFails (xqcPacketDecrypt S now pto pkt c).1) :
    updateReadKeys S h c = (true, (xqcPacketDecrypt S now pto pkt c).2) := by
  unfold xqcPacketDecrypt at hfail ⊢; rw [hh] at hfail ⊢
  dsimp only at hfail ⊢
  rcases hu : updateReadKeys S h c with ⟨ok, c1⟩
  rw [hu] at hfail
  cases ok with
  | false => exact absurd hfail id
  | true =>
    dsimp only at hfail ⊢; split
    · rename_i hdec; rw [if_pos hdec] at hfail
      unfold applyKeyUpdate at hfail; split at hfail
      · split at hfail
        · exact absurd hfail id
        · exact absurd hfail id
      · split at hfail
        · exact absurd hfail id
        · exact absurd hfail id
    · rfl

/-- For every state, every packet and every behaviour of the key schedule and the AEAD: a
    packet whose payload cannot be decrypted changes nothing exactly when it does not look
    like the first one of a new phase. -/
theorem failed_decrypt_keeps_keys_iff (now pto : UInt64) (pkt : π) (c : Conn σ κ ι) (h : Header)
    (hh : S.unmask pkt = some h) (hfail : PayloadFails (xqcPacketDecrypt S now pto pkt c).1) :
    SameKeys c (xqcPacketDecrypt S now pto pkt c).2 ↔
      ¬ (h.keyPhase ≠ c.ctx.nextInKeyPhase ∧ c.pktNum h > c.ctx.firstRecvPktno ∧ c.confirmed = true) := by
  have hread := payloadFails_inv S hh hfail
  generalize (xqcPacketDecrypt S now pto pkt c).2 = c' at hread ⊢
  unfold updateReadKeys at hread
  constructor
  · -- the update takes back the confirmation of the last one
    intro hsame hnew; rw [if_pos (show c.looksNew h from hnew)] at hread
    have hno := update_confirmed S hread
    rw [hsame.confirmed, hnew.2.2] at hno; exact absurd hno (by decide)
  · intro hold; rw [if_neg (show ¬ c.looksNew h from hold)] at hread
    obtain rfl := (Prod.mk.inj hread).2
    exact ⟨rfl, rfl, rfl⟩

end Functions

/-! ## Keys as generations -/

/-- A packet that was sealed with the keys of a generation, with the largest number it acknowledges. -/
structure Sealed where
  keyPhase : Bool
  generation : Nat
  number : UInt64
  ack : Option UInt64
  deriving DecidableEq, Repr

/-- Each secret is that of a generation, and a key opens the packets of its generation.
    Numbers are sent in four bytes (`XQC_PKTNO_BITS`). -/
def generations : Suite (Option Nat) Nat Nat Sealed where
  noSecret := none
  expand secret := secret.map fun n => some (n + 1)
  packetKey secret := secret
  packetIv secret := secret
  unmask p := some ⟨p.keyPhase, 4, p.number &&& 0xffffffff⟩
  authentic key iv pktNum p := decide (key = p.generation ∧ iv = p.generation ∧ pktNum = p.number)

abbrev GenConn := Conn (Option Nat) Nat Nat

def keysOf (n : Nat) : Km (Option Nat) Nat Nat := ⟨some n, some n, some n⟩

/-- A connection whose handshake is complete, with a threshold for key updates. -/
def newGenConn (threshold : UInt64) : GenConn where
  crypto := { keyPhase := false, rxCkm := fun p => if p then freed generations else keysOf 0,
              txCkm := fun p => if p then freed generations else keysOf 0 }
  confirmed := true
  ctx := { curOutKeyPhase := false, nextInKeyPhase := false, keyUpdateCnt := 0, firstSentPktno := 0, firstRecvPktno := 0,
           encPktCnt := 0, initiateTimeGuard := 0 }
  keyupdatePktThreshold := threshold
  packetNumber := 0
  largestAcked := u64Max
  largestRecvd := 0
  timer := none

/-- A packet with the bit of the current phase and keys that are not known. -/
theorem forged_packet_of_the_phase_is_ignored :
    SameKeys (newGenConn 0) (xqcPacketDecrypt generations 10 1 ⟨false, 77, 1, none⟩ (newGenConn 0)).2 :=
  (failed_decrypt_keeps_keys_iff generations 10 1 ⟨false, 77, 1, none⟩ (newGenConn 0) ⟨false, 4, 1⟩ rfl
    trivial).mpr (by decide)

/-- The same packet with the other bit: it cannot be decrypted, the keys of the next phase
    are made all the same, and the last update is not confirmed any more. -/
theorem forged_packet_makes_new_keys :
    PayloadFails (xqcPacketDecrypt generations 10 1 ⟨true, 77, 1, none⟩ (newGenConn 0)).1 ∧
      ((newGenConn 0).crypto.rxCkm true).key = none ∧
      ((xqcPacketDecrypt generations 10 1 ⟨true, 77, 1, none⟩ (newGenConn 0)).2.crypto.rxCkm true).key = some 1 ∧
      (newGenConn 0).confirmed = true ∧
      (xqcPacketDecrypt generations 10 1 ⟨true, 77, 1, none⟩ (newGenConn 0)).2.confirmed = false ∧
      ¬ SameKeys (newGenConn 0) (xqcPacketDecrypt generations 10 1 ⟨true, 77, 1, none⟩ (newGenConn 0)).2 := by
  refine ⟨trivial, rfl, rfl, rfl, rfl, fun h => ?_⟩
  have hconfirmed := h.confirmed
  cases hconfirmed

end RlccQuic.Transport.KeyUpdate
