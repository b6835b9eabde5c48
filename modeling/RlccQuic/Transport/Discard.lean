/-
  RlccQuic.Transport.Discard — Retry and Version Negotiation packets (`xqc_packet_parser.c`:
  `xqc_packet_parse_long_header`, `xqc_packet_parse_retry`, `xqc_packet_parse_version_negotiation`; `xqc_packet.c`:
  `xqc_packet_parse_single`; `xqc_conn.c`: `xqc_conn_on_pkt_processed`, `xqc_conn_process_packet`).

  A client drops such a packet in two ways: the parser returns an error the
  connection tolerates, or it returns `XQC_OK` with nothing left to read. The second
  way is taken for a packet that was processed: the dispatcher then sets
  `discard_vn_flag`, and the address counts as validated. A Retry's token is stored
  before its integrity tag is looked at, and the list of a Version Negotiation packet
  holds versions as they are on the wire while `c->version` is an enumerator; the
  two agree for version 1 only.
  - `process_eq`: what a datagram with such a packet does.
  - `discarded_changes_nothing_iff`: when a packet that has to be discarded leaves
    token, connection IDs, version and flags alone.
  - `forged_retry_sets_the_token`: a Retry with a wrong tag on a new client.
-/

import RlccQuic.Lib.ByteOrder
import RlccQuic.Transport.Cid

namespace RlccQuic.Transport.Discard

open Lib.ByteOrder (load)

inductive Version
  | initVer
  | v1
  | draft29
  | negotiation
  deriving DecidableEq, Repr

def Version.num : Version → UInt32
  | .initVer => 0
  | .v1 => 1
  | .draft29 => 2
  | .negotiation => 3

def Version.wire : Version → UInt32
  | .initVer => 0xFFFFFFFF
  | .v1 => 0x00000001
  | .draft29 => 0xFF00001D
  | .negotiation => 0x00000000

inductive LongType
  | init
  | zeroRtt
  | hsk
  | retry
  | versionNegotiation
  deriving DecidableEq, Repr

structure Conn where
  connType : ConnType
  connState : ConnState
  version : Version
  originalDcid : Cid
  currentDcid : Cid
  dcidSet : CidSet
  scidSet : CidSet
  connToken : List UInt8
  /-- The flags of `conn_flag`. -/
  retryRecvd : Bool
  initRecvd : Bool
  dcidOk : Bool
  addrValidated : Bool
  versionNegotiation : Bool
  has0rtt : Bool
  discardVn : Bool
  /-- `engine->config->support_version_list`. -/
  supportVersions : List UInt32
  /-- Whether the keys to read 0-RTT and Handshake packets are there. -/
  key0rtt : Bool
  keyHsk : Bool
  deriving DecidableEq

/-- What the functions below call and do not depend on otherwise. -/
structure Env where
  /-- `xqc_tls_cal_retry_integrity_tag`, of a pseudo packet. -/
  tag : List UInt8 → Option (List UInt8)
  /-- `xqc_tls_init`, for a server. -/
  tlsInit : PktRet
  /-- `xqc_tls_reset_initial` and `xqc_conn_resend_packets`, after a valid Retry. -/
  onRetry : PktRet
  /-- A packet with a number: what it returns, the connection after it
      (`xqc_conn_on_pkt_processed` included) and the rest of the datagram. -/
  numbered : Conn → List UInt8 → PktRet × Conn × List UInt8

/-! ## The header -/

structure Header where
  /-- The type bits of the first byte. -/
  bits : LongType
  /-- The type, which the version may override. -/
  type : LongType
  version : UInt32
  dcid : Cid
  scid : Cid
  /-- What follows the header, to the end of the datagram. -/
  rest : List UInt8
  deriving DecidableEq

def typeOf (b : UInt8) : LongType :=
  if (b &&& 0x30) >>> 4 = 0 then .init
  else if (b &&& 0x30) >>> 4 = 1 then .zeroRtt
  else if (b &&& 0x30) >>> 4 = 2 then .hsk
  else .retry

/-- The part of `xqc_packet_parse_long_header` that reads the header; every failure is `-XQC_EILLPKT`. -/
def readHeader : List UInt8 → Option Header
  | b :: v0 :: v1 :: v2 :: v3 :: dlen :: more =>
    if more = [] then none
    else
      let version := load .big [v0, v1, v2, v3]
      let type := if version = 0 then .versionNegotiation else typeOf b
      if type ≠ .versionNegotiation ∧ b &&& 0x40 = 0 then none
      else if more.length < dlen.toNat + 1 ∨ xqcMaxCidLen < dlen.toNat then none
      else match more.drop dlen.toNat with
        | [] => none
        | slen :: more' =>
          if more'.length < slen.toNat ∨ xqcMaxCidLen < slen.toNat then none
          else some
            { bits := typeOf b
              type
              version
              dcid := ⟨more.take dlen.toNat, 0⟩
              scid := ⟨more'.take slen.toNat, 0⟩
              rest := more'.drop slen.toNat }
  | _ => none

lemma readHeader_bits {b : UInt8} {t : List UInt8} {h : Header} (hr : readHeader (b :: t) = some h) :
    h.bits = typeOf b ∧ (h.type = .versionNegotiation ∨ h.type = h.bits) := by
  unfold readHeader at hr; split at hr
  · rename_i heq; cases heq
    dsimp only at hr
    repeat' split at hr
    all_goals cases hr
    · exact ⟨rfl, .inl rfl⟩
    · exact ⟨rfl, .inr rfl⟩
  · cases hr

/-! ## Retry -/

def xqcRetryIntegrityTagLen : Nat := 16

/-- The pseudo packet of `xqc_conn_cal_retry_integrity_tag`. -/
def pseudo (c : Conn) (pkt : List UInt8) : List UInt8 :=
  UInt8.ofNat c.originalDcid.bytes.length :: c.originalDcid.bytes ++
    pkt.take (pkt.length - xqcRetryIntegrityTagLen)

def xqcConnOnRecvRetry (env : Env) (c : Conn) (scid : Cid) : PktRet × Conn :=
  (env.onRetry, { c with retryRecvd := true, currentDcid := scid })

def xqcPacketParseRetry (env : Env) (c : Conn) (pkt : List UInt8) (h : Header) : PktRet × Conn :=
  let tokenLen := h.rest.length - xqcRetryIntegrityTagLen
  if c.connType ≠ .client then (.eproto, c)
  else if xqcCidIsEqual c.originalDcid h.scid then (.eillpkt, c)
  else if c.retryRecvd ∨ c.initRecvd then (.ok, c)
  else if h.rest.length < xqcRetryIntegrityTagLen + 1 then (.eillpkt, c)
  else if xqcMaxTokenLen < tokenLen then (.eillpkt, c)
  else
    let c := { c with connToken := h.rest.take tokenLen }
    match env.tag (pseudo c pkt) with
    | none => (.eillpkt, c)
    | some tag =>
      if tag ≠ h.rest.drop tokenLen then (.ok, c)
      else xqcConnOnRecvRetry env c h.scid

/-! ## Version Negotiation -/

def versionsOf : List UInt8 → List UInt32
  | b0 :: b1 :: b2 :: b3 :: rest => load .big [b0, b1, b2, b3] :: versionsOf rest
  | _ => []

/-- `supported_version_list`: no zero, no version twice, at most 256. -/
def supportedVersions (rest : List UInt8) : List UInt32 :=
  (versionsOf rest).foldl
    (fun list v => if v ≠ 0 ∧ v ∉ list ∧ list.length < 256 then list ++ [v] else list) []

/-- The enumerator of a version on the wire, if it is one that is in use. -/
def versionEnum (wire : UInt32) : Option Version := [Version.v1, .draft29].find? fun v => v.wire = wire

def xqcPacketParseVersionNegotiation (c : Conn) (h : Header) : PktRet × Conn :=
  if ¬ xqcCidIsEqual c.originalDcid h.scid then (.eillpkt, c)
  else if h.rest.length < 4 then (.eillpkt, c)
  else if c.connState ≠ .clientInitialSent then (.estate, c)
  else if c.connType ≠ .client then (.eproto, c)
  else if c.discardVn then (.ok, c)
  else if c.version.num ∈ supportedVersions h.rest then (.ok, c)
  else match (supportedVersions h.rest).find? fun v => v ∈ c.supportVersions with
    | none => (.esys, c)
    | some chosen => (.ok, { c with version := (versionEnum chosen).getD c.version, discardVn := true })

/-! ## A datagram -/

/-- Only a server that has no version yet looks at the packet's. -/
def xqcConnVersionCheck (env : Env) (c : Conn) (version : UInt32) : PktRet × Conn :=
  if c.connType = .server ∧ c.version = .initVer then
    if version ∉ c.supportVersions then (.eproto, c)
    else match versionEnum version with
      | none => (.eproto, c)
      | some v => (env.tlsInit, { c with version := v })
  else (.ok, c)

/-- The rest of `xqc_packet_parse_long_header` for a Retry or Version Negotiation packet. -/
def xqcPacketParseLongHeader (env : Env) (c : Conn) (pkt : List UInt8) (h : Header) : PktRet × Conn :=
  if c.dcidOk ∧ (c.scidSet.xqcCidInCidSet h.dcid = none ∨ c.dcidSet.xqcCidInCidSet h.scid = none) then
    (.eillpkt, c)
  else
    let v := xqcConnVersionCheck env c h.version
    if v.1 ≠ .ok then (.eversion, { v.2 with versionNegotiation := true })
    else
      let r := if h.type = .retry then xqcPacketParseRetry env v.2 pkt h
        else xqcPacketParseVersionNegotiation v.2 h
      if r.1 = .ok ∧ r.2.connType = .client then (r.1, { r.2 with discardVn := true }) else r

/-- `xqc_conn_on_pkt_processed` for a packet without a number. -/
def xqcConnOnPktProcessed (c : Conn) : Conn :=
  if ¬ c.addrValidated ∧ c.connType = .client then { c with addrValidated := true } else c

/-- `xqc_packet_process_single` and what `xqc_conn_process_packet` does when it
    returns `XQC_OK`; with the rest of the datagram. -/
def xqcPacketProcessSingle (env : Env) (c : Conn) (pkt : List UInt8) : PktRet × Conn × List UInt8 :=
  match pkt with
  | [] => (.eillpkt, c, [])
  | b :: _ =>
    if b &&& 0xC0 = 0x40 then env.numbered c pkt
    else if b &&& 0x80 = 0x80 then
      let d := if typeOf b = .zeroRtt then { c with has0rtt := true } else c
      if typeOf b = .zeroRtt ∧ d.key0rtt = false then (.ewaiting, d, [])
      else if typeOf b = .hsk ∧ d.keyHsk = false then (.ewaiting, d, [])
      else match readHeader pkt with
        | none => (.eillpkt, d, [])
        | some h =>
          if h.type = .retry ∨ h.type = .versionNegotiation then
            let r := xqcPacketParseLongHeader env d pkt h
            -- both parsers leave nothing of the datagram when they return XQC_OK
            if r.1 = .ok then (.ok, xqcConnOnPktProcessed r.2, []) else (r.1, r.2, [])
          else
            env.numbered c pkt
    else (.eignorePkt, c, [])

/-- `xqc_conn_process_packet`, with fuel for the packets of the datagram. -/
def xqcConnProcessPacket (env : Env) : Nat → Conn → List UInt8 → PktRet × Conn
  | 0, c, _ => (.ok, c)
  | _, c, [] => (.ok, c)
  | n + 1, c, dgram =>
    let r := xqcPacketProcessSingle env c dgram
    if r.1 = .ok then xqcConnProcessPacket env n r.2.1 r.2.2
    else if xqcConnTolerantError r.1 then (.ok, r.2.1)
    else (r.1, r.2.1)

/-! ## What such a packet does to a client -/

/-- The packet with header `h` is at the start of the datagram. -/
def Arrives (dgram : List UInt8) (h : Header) : Prop :=
  (∃ b t, dgram = b :: t ∧ b &&& 0x80 = 0x80) ∧ readHeader dgram = some h

/-- The packet is kept for later, as its type bits name a type whose keys are missing. -/
def Buffered (c : Conn) (h : Header) : Prop :=
  (h.bits = .zeroRtt ∧ c.key0rtt = false) ∨ (h.bits = .hsk ∧ c.keyHsk = false)

/-- The packet's connection IDs are not those of the connection, once these are settled. -/
def CidsUnknown (c : Conn) (h : Header) : Prop :=
  c.dcidOk ∧ (c.scidSet.xqcCidInCidSet h.dcid = none ∨ c.dcidSet.xqcCidInCidSet h.scid = none)

instance (c : Conn) (h : Header) : Decidable (Buffered c h) := inferInstanceAs (Decidable (_ ∨ _))

instance (c : Conn) (h : Header) : Decidable (CidsUnknown c h) := inferInstanceAs (Decidable (_ ∧ _))

/-- The flags a packet leaves when its parser returned `XQC_OK`. -/
def processed (c : Conn) : Conn := { c with discardVn := true, addrValidated := true }

/-- `XQC_CONN_FLAG_HAS_0RTT` is set by the type bits alone. -/
def flagged (c : Conn) (h : Header) : Conn :=
  if h.bits = .zeroRtt then { c with has0rtt := true } else c

variable {c : Conn}

lemma xqcConnOnPktProcessed_client (hc : c.connType = .client) :
    xqcConnOnPktProcessed c = { c with addrValidated := true } := by
  unfold xqcConnOnPktProcessed
  by_cases ha : c.addrValidated = true
  · obtain ⟨⟩ := c
    simp_all
  · rw [if_pos ⟨ha, hc⟩]

variable (env : Env)

lemma parseRetry_connType (c : Conn) (pkt : List UInt8) (h : Header) :
    (xqcPacketParseRetry env c pkt h).2.connType = c.connType := by
  unfold xqcPacketParseRetry xqcConnOnRecvRetry
  dsimp only
  repeat' split
  all_goals rfl

lemma parseVn_connType (c : Conn) (h : Header) :
    (xqcPacketParseVersionNegotiation c h).2.connType = c.connType := by
  unfold xqcPacketParseVersionNegotiation
  repeat' split
  all_goals rfl

def parsed (env : Env) (c : Conn) (pkt : List UInt8) (h : Header) : PktRet × Conn :=
  if h.type = .retry then xqcPacketParseRetry env c pkt h else xqcPacketParseVersionNegotiation c h

lemma parsed_connType (c : Conn) (pkt : List UInt8) (h : Header) :
    (parsed env c pkt h).2.connType = c.connType := by
  unfold parsed; split
  · exact parseRetry_connType env c pkt h
  · exact parseVn_connType c h

/-- The client after a datagram that starts with such a packet. -/
def after (env : Env) (c : Conn) (pkt : List UInt8) (h : Header) : Conn :=
  if Buffered c h ∨ CidsUnknown c h then c
  else if (parsed env c pkt h).1 = .ok then processed (parsed env c pkt h).2
  else (parsed env c pkt h).2

lemma not_short {b : UInt8} (hb : b &&& 0x80 = 0x80) : b &&& 0xC0 ≠ 0x40 := by
  intro hs
  have h : b &&& 0x80 = (b &&& 0xC0) &&& 0x80 := by
    rw [UInt8.and_assoc]; rfl
  rw [hb, hs] at h; exact absurd h (by decide)

lemma parseLongHeader_client (hc : c.connType = .client) (pkt : List UInt8)
    (h : Header) :
    xqcPacketParseLongHeader env c pkt h =
      if CidsUnknown c h then (.eillpkt, c)
      else if (parsed env c pkt h).1 = .ok then (.ok, { (parsed env c pkt h).2 with discardVn := true })
      else parsed env c pkt h := by
  have hv : xqcConnVersionCheck env c h.version = (.ok, c) := by simp [xqcConnVersionCheck, hc]
  unfold xqcPacketParseLongHeader CidsUnknown
  simp only [hv, ne_eq, not_true_eq_false, if_false]; rw [← parsed, parsed_connType, hc]
  by_cases ho : (parsed env c pkt h).1 = .ok
  · simp [ho]
  · simp [ho]

/-- A Retry or Version Negotiation packet takes the rest of the datagram with it, so
    one round of the loop is the whole of it. -/
theorem process_eq (n : Nat) (hc : c.connType = .client) {dgram : List UInt8}
    {h : Header} (harr : Arrives dgram h) (ht : h.type = .retry ∨ h.type = .versionNegotiation) :
    (xqcConnProcessPacket env (n + 1) c dgram).2 = after env (flagged c h) dgram h := by
  obtain ⟨⟨b, t, rfl, hb⟩, hread⟩ := harr
  have hbits := (readHeader_bits hread).1
  have hd : (flagged c h).connType = .client := by
    unfold flagged
    split <;> exact hc
  have hnil : ∀ (m : Nat) (d : Conn), xqcConnProcessPacket env m d [] = (.ok, d) := by
    intro m d
    cases m <;> rfl
  have hsingle : xqcPacketProcessSingle env c (b :: t) =
      if Buffered (flagged c h) h then (.ewaiting, flagged c h, [])
      else
        let r := xqcPacketParseLongHeader env (flagged c h) (b :: t) h
        if r.1 = .ok then (.ok, xqcConnOnPktProcessed r.2, []) else (r.1, r.2, []) := by
    unfold xqcPacketProcessSingle
    dsimp only; rw [if_neg (not_short hb), if_pos hb, hread, ← hbits, ← flagged]
    dsimp only; rw [if_pos ht]
    by_cases h0 : h.bits = .zeroRtt ∧ (flagged c h).key0rtt = false
    · have hbuf : Buffered (flagged c h) h := .inl h0
      rw [if_pos h0, if_pos hbuf]
    · by_cases h1 : h.bits = .hsk ∧ (flagged c h).keyHsk = false
      · have hbuf : Buffered (flagged c h) h := .inr h1
        rw [if_neg h0, if_pos h1, if_pos hbuf]
      · have hbuf : ¬ Buffered (flagged c h) h := not_or.mpr ⟨h0, h1⟩
        rw [if_neg h0, if_neg h1, if_neg hbuf]
  unfold xqcConnProcessPacket; rw [hsingle, after]
  by_cases hbuf : Buffered (flagged c h) h
  · simp [hbuf, xqcConnTolerantError]
  rw [if_neg hbuf, parseLongHeader_client env hd]
  by_cases hcids : CidsUnknown (flagged c h) h
  · simp [hcids, xqcConnTolerantError]
  simp only [hbuf, hcids, or_self, if_false]
  by_cases hok : (parsed env (flagged c h) (b :: t) h).1 = .ok
  · have hp : ({ (parsed env (flagged c h) (b :: t) h).2 with discardVn := true } : Conn).connType = .client :=
      (parsed_connType ..).trans hd
    simp only [hok, if_true, hnil, xqcConnOnPktProcessed_client hp]
    rfl
  · simp only [hok, if_false]
    split <;> rfl

/-! ## Packets that have to be discarded -/

/-- The last 16 bytes of the Retry are not its integrity tag. -/
def TagInvalid (env : Env) (c : Conn) (pkt : List UInt8) (h : Header) : Prop :=
  ¬ (xqcRetryIntegrityTagLen ≤ h.rest.length ∧
    env.tag (pseudo c pkt) = some (h.rest.drop (h.rest.length - xqcRetryIntegrityTagLen)))

def MustDiscard (env : Env) (c : Conn) (pkt : List UInt8) (h : Header) : Prop :=
  (h.type = .retry ∧ (TagInvalid env c pkt h ∨ c.retryRecvd ∨ c.initRecvd)) ∨
    (h.type = .versionNegotiation ∧ c.version.wire ∈ versionsOf h.rest)

/-- The same token, connection IDs, version, and flags for the address and for version negotiation. -/
structure Same (c d : Conn) : Prop where
  token : d.connToken = c.connToken
  originalDcid : d.originalDcid = c.originalDcid
  currentDcid : d.currentDcid = c.currentDcid
  dcidSet : d.dcidSet = c.dcidSet
  scidSet : d.scidSet = c.scidSet
  version : d.version = c.version
  addrValidated : d.addrValidated = c.addrValidated
  versionNegotiation : d.versionNegotiation = c.versionNegotiation
  discardVn : d.discardVn = c.discardVn

lemma Same.refl (c : Conn) : Same c c := ⟨rfl, rfl, rfl, rfl, rfl, rfl, rfl, rfl, rfl⟩

def Settled (c : Conn) : Prop := c.discardVn = true ∧ c.addrValidated = true

lemma same_processed_iff (c : Conn) : Same c (processed c) ↔ Settled c :=
  ⟨fun h => ⟨h.discardVn.symm, h.addrValidated.symm⟩,
    fun h => ⟨rfl, rfl, rfl, rfl, rfl, rfl, h.2.symm, rfl, h.1.symm⟩⟩

def RetryHarmless (env : Env) (c : Conn) (pkt : List UInt8) (h : Header) : Prop :=
  CidsUnknown c h ∨ c.originalDcid.bytes = h.scid.bytes ∨
    if c.retryRecvd ∨ c.initRecvd then Settled c
    else h.rest.length ≤ xqcRetryIntegrityTagLen ∨
      xqcMaxTokenLen + xqcRetryIntegrityTagLen < h.rest.length ∨
      (c.connToken = h.rest.take (h.rest.length - xqcRetryIntegrityTagLen) ∧
        (env.tag (pseudo c pkt) = none ∨ Settled c))

def VnHarmless (c : Conn) (h : Header) : Prop :=
  Buffered c h ∨ CidsUnknown c h ∨ c.originalDcid.bytes ≠ h.scid.bytes ∨ h.rest.length < 4 ∨
    c.connState ≠ .clientInitialSent ∨
    if c.discardVn then c.addrValidated = true
    else c.version.num ∉ supportedVersions h.rest ∧ ∀ v ∈ supportedVersions h.rest, v ∉ c.supportVersions

def retryToken (h : Header) : List UInt8 := h.rest.take (h.rest.length - xqcRetryIntegrityTagLen)

lemma parseRetry_discarded (hc : c.connType = .client) (pkt : List UInt8)
    {h : Header} (hd : TagInvalid env c pkt h ∨ c.retryRecvd ∨ c.initRecvd) :
    xqcPacketParseRetry env c pkt h =
      if c.originalDcid.bytes = h.scid.bytes then (.eillpkt, c)
      else if c.retryRecvd ∨ c.initRecvd then (.ok, c)
      else if h.rest.length ≤ xqcRetryIntegrityTagLen ∨
        xqcMaxTokenLen + xqcRetryIntegrityTagLen < h.rest.length then (.eillpkt, c)
      else (if env.tag (pseudo c pkt) = none then .eillpkt else .ok, { c with connToken := retryToken h }) := by
  unfold xqcPacketParseRetry; rw [if_neg (not_not_intro hc)]
  refine if_congr (by simp [xqcCidIsEqual]) rfl ?_
  by_cases hrecvd : c.retryRecvd ∨ c.initRecvd
  · rw [if_pos hrecvd, if_pos hrecvd]
  rw [if_neg hrecvd, if_neg hrecvd]
  by_cases hshort : h.rest.length ≤ xqcRetryIntegrityTagLen
  · rw [if_pos (Nat.lt_succ_of_le hshort), if_pos (.inl hshort)]
  rw [if_neg (by omega)]
  by_cases hbig : xqcMaxTokenLen + xqcRetryIntegrityTagLen < h.rest.length
  · rw [if_pos (by omega), if_pos (.inr hbig)]
  rw [if_neg (by omega), if_neg (not_or.mpr ⟨hshort, hbig⟩)]
  have hpseudo : pseudo { c with connToken := retryToken h } pkt = pseudo c pkt := rfl
  change (match env.tag (pseudo { c with connToken := retryToken h } pkt) with
    | none => _
    | some tag => _) = _
  rw [hpseudo]
  cases htag : env.tag (pseudo c pkt) with
  | none => rfl
  | some tag =>
    have hwrong : tag ≠ h.rest.drop (h.rest.length - xqcRetryIntegrityTagLen) := by
      intro he
      rcases hd with hinv | hr
      · exact hinv ⟨by omega, by rw [htag, he]⟩
      · exact hrecvd hr
    dsimp only; rw [if_pos hwrong]
    rfl

lemma retry_same_iff (hc : c.connType = .client) (pkt : List UInt8) {h : Header}
    (ht : h.type = .retry) (hbits : h.bits = .retry)
    (hd : TagInvalid env c pkt h ∨ c.retryRecvd ∨ c.initRecvd) :
    Same c (after env c pkt h) ↔ RetryHarmless env c pkt h := by
  have hbuf : ¬ Buffered c h := by simp [Buffered, hbits]
  have hparsed : parsed env c pkt h = xqcPacketParseRetry env c pkt h := if_pos ht
  unfold after RetryHarmless
  by_cases hcids : CidsUnknown c h
  · simp [hcids, Same.refl]
  rw [if_neg (not_or.mpr ⟨hbuf, hcids⟩), hparsed, parseRetry_discarded env hc pkt hd]
  simp only [hcids, false_or]
  by_cases hscid : c.originalDcid.bytes = h.scid.bytes
  · simp [hscid, Same.refl]
  simp only [hscid, if_false, false_or]
  by_cases hrecvd : c.retryRecvd ∨ c.initRecvd
  · simp only [if_pos hrecvd, if_true]; exact same_processed_iff c
  simp only [if_neg hrecvd]
  by_cases hsize : h.rest.length ≤ xqcRetryIntegrityTagLen ∨
      xqcMaxTokenLen + xqcRetryIntegrityTagLen < h.rest.length
  · simp only [if_pos hsize, reduceCtorEq, if_false, Same.refl, true_iff]
    exact hsize.imp_right .inl
  obtain ⟨hshort, hbig⟩ := not_or.mp hsize
  simp only [hshort, hbig, false_or]
  by_cases htag : env.tag (pseudo c pkt) = none
  · simp only [htag, if_true, reduceCtorEq, if_false, true_or, and_true]
    exact ⟨fun hs => hs.token.symm, fun he => ⟨he.symm, rfl, rfl, rfl, rfl, rfl, rfl, rfl, rfl⟩⟩
  · simp only [htag, if_false, if_true, false_or]
    exact ⟨fun hs => ⟨hs.token.symm, hs.discardVn.symm, hs.addrValidated.symm⟩,
      fun hs => ⟨hs.1.symm, rfl, rfl, rfl, rfl, rfl, hs.2.2.symm, rfl, hs.2.1.symm⟩⟩

lemma vn_same_iff (hc : c.connType = .client) (pkt : List UInt8) {h : Header}
    (ht : h.type = .versionNegotiation) : Same c (after env c pkt h) ↔ VnHarmless c h := by
  have hparsed : parsed env c pkt h = xqcPacketParseVersionNegotiation c h := by simp [parsed, ht]
  unfold after VnHarmless
  by_cases hbuf : Buffered c h
  · simp [hbuf, Same.refl]
  by_cases hcids : CidsUnknown c h
  · simp [hcids, Same.refl]
  rw [if_neg (not_or.mpr ⟨hbuf, hcids⟩), hparsed]
  simp only [hbuf, hcids, false_or]
  unfold xqcPacketParseVersionNegotiation
  by_cases hscid : c.originalDcid.bytes = h.scid.bytes
  swap
  · simp [xqcCidIsEqual, hscid, Same.refl]
  by_cases hshort : h.rest.length < 4
  · simp [xqcCidIsEqual, hscid, hshort, Same.refl]
  by_cases hstate : c.connState = .clientInitialSent
  swap
  · simp [xqcCidIsEqual, hscid, hshort, hstate, Same.refl]
  have hpass : ∀ r : PktRet × Conn, (if ¬ xqcCidIsEqual c.originalDcid h.scid then (.eillpkt, c)
      else if h.rest.length < 4 then (.eillpkt, c)
      else if c.connState ≠ .clientInitialSent then (.estate, c)
      else if c.connType ≠ .client then (.eproto, c)
      else r) = r := by
    intro r
    simp [xqcCidIsEqual, hscid, hshort, hstate, hc]
  rw [hpass]
  simp only [hscid, hshort, hstate, ne_eq, not_true_eq_false, false_or]
  by_cases hvn : c.discardVn = true
  · simp only [if_pos hvn, if_true]; exact (same_processed_iff c).trans (and_iff_right hvn)
  simp only [if_neg hvn]
  -- from here on a parser that returns XQC_OK sets the flag, which is a change
  have hset : ∀ d : Conn, ¬ Same c (processed d) := fun d hs => hvn hs.discardVn.symm
  by_cases hmem : c.version.num ∈ supportedVersions h.rest
  · simp only [if_true, hset, hmem, not_true_eq_false, false_and]
  simp only [hmem, not_false_eq_true, true_and]
  cases hfind : (supportedVersions h.rest).find? fun v => v ∈ c.supportVersions with
  | none => simpa [Same.refl] using hfind
  | some chosen =>
    have hin := List.mem_of_find?_eq_some hfind
    have hsup := List.find?_some hfind
    simp only [if_false, if_true, hset, false_iff]
    intro hnone; exact hnone chosen hin (of_decide_eq_true hsup)

/-- A datagram with a Retry or Version Negotiation packet that the client has to
    discard leaves token, connection IDs, version and flags as they are exactly if
    the packet is one the parser refuses with an error, before the token is stored,
    or there is nothing left to change: the token is stored already and both flags
    are set. -/
theorem discarded_changes_nothing_iff (env : Env) (n : Nat) (c : Conn) (hc : c.connType = .client)
    (dgram : List UInt8) (h : Header) (harr : Arrives dgram h) (hd : MustDiscard env c dgram h) :
    Same c (xqcConnProcessPacket env (n + 1) c dgram).2 ↔
      (h.type = .retry ∧ RetryHarmless env c dgram h) ∨ (h.type = .versionNegotiation ∧ VnHarmless c h) := by
  rcases hd with ⟨ht, hd⟩ | ⟨ht, -⟩
  · have hbits : h.bits = .retry := by
      obtain ⟨⟨b, t, rfl, -⟩, hread⟩ := harr
      simpa [ht, eq_comm] using (readHeader_bits hread).2
    have hflag : flagged c h = c := by simp [flagged, hbits]
    rw [process_eq env n hc harr (.inl ht), hflag, retry_same_iff env hc dgram ht hbits hd]
    simp [ht]
  · rw [process_eq env n hc harr (.inr ht)]
    simp only [ht, reduceCtorEq, false_and, true_and, false_or]
    unfold flagged; split
    · exact ⟨fun hs => (vn_same_iff env (c := { c with has0rtt := true }) hc dgram ht).mp
        ⟨hs.token, hs.originalDcid, hs.currentDcid, hs.dcidSet, hs.scidSet, hs.version, hs.addrValidated,
          hs.versionNegotiation, hs.discardVn⟩,
        fun hv => by
          have hs := (vn_same_iff env (c := { c with has0rtt := true }) hc dgram ht).mpr hv
          exact ⟨hs.token, hs.originalDcid, hs.currentDcid, hs.dcidSet, hs.scidSet, hs.version,
            hs.addrValidated, hs.versionNegotiation, hs.discardVn⟩⟩
    · exact vn_same_iff env hc dgram ht

def newClient : Conn :=
  { connType := .client, connState := .clientInitialSent, version := .v1
    originalDcid := ⟨[1, 2, 3, 4, 5, 6, 7, 8], 0⟩, currentDcid := ⟨[1, 2, 3, 4, 5, 6, 7, 8], 0⟩
    dcidSet := ⟨[⟨⟨[1, 2, 3, 4, 5, 6, 7, 8], 0⟩, .used⟩], 0, 1, 0⟩
    scidSet := ⟨[⟨⟨[9], 0⟩, .used⟩], 0, 1, 0⟩
    connToken := [], retryRecvd := false, initRecvd := false, dcidOk := false, addrValidated := false
    versionNegotiation := false, has0rtt := false, discardVn := false
    supportVersions := [Version.v1.wire, Version.draft29.wire], key0rtt := false, keyHsk := false }

def someEnv : Env :=
  { tag := fun _ => some (.replicate 16 1), tlsInit := .ok, onRetry := .ok, numbered := fun c _ => (.ok, c, []) }

/-- A Retry from connection ID 7 with a token of one byte and a tag of zeros. -/
def forgedRetry : List UInt8 := [0xF0, 0, 0, 0, 1, 1, 9, 1, 7, 0x55] ++ .replicate 16 0

def forgedHeader : Header :=
  { bits := .retry, type := .retry, version := 1, dcid := ⟨[9], 0⟩, scid := ⟨[7], 0⟩
    rest := 0x55 :: .replicate 16 0 }

lemma forgedRetry_arrives : Arrives forgedRetry forgedHeader :=
  ⟨⟨0xF0, _, rfl, by decide⟩, by decide⟩

lemma forgedRetry_mustDiscard (c : Conn) : MustDiscard someEnv c forgedRetry forgedHeader :=
  .inl ⟨rfl, .inl (fun h => absurd h.2 (by simp only [someEnv]; decide))⟩

/-- A forged Retry changes the token of a new client and counts as a proof of the
    server's address. -/
theorem forged_retry_sets_the_token :
    newClient.connType = .client ∧ Arrives forgedRetry forgedHeader ∧
      MustDiscard someEnv newClient forgedRetry forgedHeader ∧
      ¬ Same newClient (xqcConnProcessPacket someEnv 1 newClient forgedRetry).2 ∧
      (xqcConnProcessPacket someEnv 1 newClient forgedRetry).2.connToken = [0x55] ∧
      (xqcConnProcessPacket someEnv 1 newClient forgedRetry).2.addrValidated = true := by
  have htoken : (xqcConnProcessPacket someEnv 1 newClient forgedRetry).2.connToken = [0x55] := by
    decide
  refine ⟨rfl, forgedRetry_arrives, forgedRetry_mustDiscard newClient, ?_, htoken, by decide⟩
  intro hs; exact absurd (htoken.symm.trans hs.token) (by decide)

/-- The same packet does no harm once an Initial packet was processed. -/
theorem forged_retry_comes_too_late :
    let c := { newClient with initRecvd := true, discardVn := true, addrValidated := true }
    Same c (xqcConnProcessPacket someEnv 1 c forgedRetry).2 :=
  (discarded_changes_nothing_iff someEnv 0 _ rfl forgedRetry forgedHeader forgedRetry_arrives
    (forgedRetry_mustDiscard _)).mpr (.inl ⟨rfl, .inr (.inr ⟨rfl, rfl⟩)⟩)

end RlccQuic.Transport.Discard
