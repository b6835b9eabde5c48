/-
  RlccQuic.Transport.TransportParams — decoding transport parameters (`xqc_transport_params.c`:
  `xqc_decode_transport_params`, `xqc_decode_one_transport_param`, the table of decoders).

  The input is a sequence of records: a type, a length, and a value of that many bytes. The loop passes the end of the
  whole input to the decoder of a type, and goes on behind the declared length whatever the decoder read.

  Proved: what is decoded is the sequences of records that fill the input (`decode_iff`), and a record keeps to its own
  bytes if and only if its declared length goes with what is in it (`records_keep_to_themselves`): an integer may be
  longer than declared, and a connection id longer than its buffer.
-/

import RlccQuic.Transport.Cid
import RlccQuic.Transport.FrameBounds

namespace RlccQuic.Transport.TransportParams

open Lib.Cursor FrameParser List Option

/-! ## Parameters -/

inductive ExtType where
  | clientHello
  | encryptedExtensions
  deriving DecidableEq, Repr

/-- The known types; `XQC_TRANSPORT_PARAM_UNKNOWN` is no type. -/
inductive ParamId where
  | originalDestConnectionId
  | maxIdleTimeout
  | statelessResetToken
  | maxUdpPayloadSize
  | initialMaxData
  | initialMaxStreamDataBidiLocal
  | initialMaxStreamDataBidiRemote
  | initialMaxStreamDataUni
  | initialMaxStreamsBidi
  | initialMaxStreamsUni
  | ackDelayExponent
  | maxAckDelay
  | disableActiveMigration
  | preferredAddress
  | activeConnectionIdLimit
  | initialSourceConnectionId
  | retrySourceConnectionId
  | noCrypto
  deriving DecidableEq, Repr

structure PreferredAddr where
  ipv4 : List UInt8
  ipv4Port : Nat
  ipv6 : List UInt8
  ipv6Port : Nat
  cid : Cid
  statelessResetToken : List UInt8
  deriving DecidableEq, Repr

/-- `xqc_transport_params_t`. A flag says that a field is present. -/
structure Params where
  preferredAddress : PreferredAddr
  preferredAddressPresent : Bool
  originalDestConnectionId : Cid
  originalDestConnectionIdPresent : Bool
  maxIdleTimeout : Nat
  statelessResetToken : List UInt8
  statelessResetTokenPresent : Bool
  maxUdpPayloadSize : Nat
  initialMaxData : Nat
  initialMaxStreamDataBidiLocal : Nat
  initialMaxStreamDataBidiRemote : Nat
  initialMaxStreamDataUni : Nat
  initialMaxStreamsBidi : Nat
  initialMaxStreamsUni : Nat
  ackDelayExponent : Nat
  maxAckDelay : Nat
  disableActiveMigration : Bool
  activeConnectionIdLimit : Nat
  initialSourceConnectionId : Cid
  initialSourceConnectionIdPresent : Bool
  retrySourceConnectionId : Cid
  retrySourceConnectionIdPresent : Bool
  noCrypto : Nat
  deriving DecidableEq, Repr

/-- What `xqc_decode_transport_params` sets before the loop. -/
def Params.defaults (p : Params) : Params :=
  { p with
    preferredAddressPresent := false, originalDestConnectionIdPresent := false, maxIdleTimeout := 0
    statelessResetTokenPresent := false, maxUdpPayloadSize := 65527, initialMaxData := 0, initialMaxStreamsBidi := 0
    initialMaxStreamsUni := 0, initialMaxStreamDataBidiLocal := 0, initialMaxStreamDataBidiRemote := 0
    initialMaxStreamDataUni := 0, ackDelayExponent := 3, maxAckDelay := 25, disableActiveMigration := false
    activeConnectionIdLimit := 2, initialSourceConnectionIdPresent := false
    initialSourceConnectionId := { p.initialSourceConnectionId with bytes := [] }
    retrySourceConnectionIdPresent := false
    retrySourceConnectionId := { p.retrySourceConnectionId with bytes := [] }, noCrypto := 0 }

/-! ## Decoders -/

/-- `xqc_trans_param_decode_func`: the value is at `p`, the input ends at `stop`, and `len` is the declared length. -/
abbrev Decoder := ExtType → Mem → (p stop len : Nat) → Params → Option Params

/-- `xqc_cid_set`. The length is cut to 8 bits; the buffer has 20 bytes, and a longer copy runs over it. -/
def xqcCidSet (mem : Mem) (p len : Nat) (c : Cid) : Cid := { c with bytes := slice mem p (len % 256) }

def decodeVintValue (set : Nat → Params → Params) : Decoder := fun _ mem p stop _ params =>
  (xqcVintRead mem stop p).2.map fun v => set v.1 params

def xqcDecodeOriginalDestCid : Decoder := fun ext mem p _ len params =>
  if ext ≠ .encryptedExtensions then none
  else some { params with
    originalDestConnectionId := xqcCidSet mem p len params.originalDestConnectionId
    originalDestConnectionIdPresent := true }

def xqcDecodeMaxIdleTimeout : Decoder := decodeVintValue fun v params => { params with maxIdleTimeout := v }

def tokenLen : Nat := 16

def xqcDecodeStatelessToken : Decoder := fun ext mem p stop len params =>
  if ext ≠ .encryptedExtensions then none
  else if stop - p < tokenLen ∨ len ≠ tokenLen then none
  else some { params with statelessResetToken := slice mem p len, statelessResetTokenPresent := true }

def xqcDecodeMaxUdpPayloadSize : Decoder := decodeVintValue fun v params => { params with maxUdpPayloadSize := v }

def xqcDecodeInitialMaxData : Decoder := decodeVintValue fun v params => { params with initialMaxData := v }

def xqcDecodeInitialMaxStreamDataBidiLocal : Decoder :=
  decodeVintValue fun v params => { params with initialMaxStreamDataBidiLocal := v }

def xqcDecodeInitialMaxStreamDataBidiRemote : Decoder :=
  decodeVintValue fun v params => { params with initialMaxStreamDataBidiRemote := v }

def xqcDecodeInitialMaxStreamDataUni : Decoder :=
  decodeVintValue fun v params => { params with initialMaxStreamDataUni := v }

def xqcDecodeInitialMaxStreamsBidi : Decoder :=
  decodeVintValue fun v params => { params with initialMaxStreamsBidi := v }

def xqcDecodeInitialMaxStreamsUni : Decoder :=
  decodeVintValue fun v params => { params with initialMaxStreamsUni := v }

def maxAckDelayExponent : Nat := 20

def xqcDecodeAckDelayExponent : Decoder := fun _ mem p stop _ params =>
  match (xqcVintRead mem stop p).2 with
  | none => none
  | some (v, _) => if v > maxAckDelayExponent then none else some { params with ackDelayExponent := v }

def xqcDecodeMaxAckDelay : Decoder := decodeVintValue fun v params => { params with maxAckDelay := v }

def xqcDecodeDisableActiveMigration : Decoder := fun _ _ _ _ _ params => some { params with disableActiveMigration := true }

def maxCidLen : Nat := 20

def xqcDecodePreferredAddress : Decoder := fun ext mem p stop len params =>
  if ext ≠ .encryptedExtensions then none
  else if stop - p < len then none
  else if stop - p < 4 + 2 then none
  else
    let ipv4 := slice mem p 4
    let ipv4Port := bigEndian mem (p + 4) 2
    if stop - (p + 6) < 16 + 2 then none
    else
      let ipv6 := slice mem (p + 6) 16
      let ipv6Port := bigEndian mem (p + 22) 2
      if stop - (p + 24) < 1 then none
      else
        let cidLen := (mem (p + 24)).toNat
        if cidLen > maxCidLen ∨ cidLen = 0 ∨ stop - (p + 25) < cidLen then none
        else if stop - (p + 25 + cidLen) < tokenLen then none
        else some { params with
          preferredAddress :=
            { ipv4 := ipv4, ipv4Port := ipv4Port, ipv6 := ipv6, ipv6Port := ipv6Port
              cid := { params.preferredAddress.cid with bytes := slice mem (p + 25) cidLen }
              statelessResetToken := slice mem (p + 25 + cidLen) tokenLen }
          preferredAddressPresent := true }

def xqcDecodeActiveCidLimit : Decoder := decodeVintValue fun v params => { params with activeConnectionIdLimit := v }

def xqcDecodeInitialScid : Decoder := fun _ mem p _ len params =>
  some { params with
    initialSourceConnectionId := xqcCidSet mem p len params.initialSourceConnectionId
    initialSourceConnectionIdPresent := true }

def xqcDecodeRetryScid : Decoder := fun _ mem p _ len params =>
  some { params with
    retrySourceConnectionId := xqcCidSet mem p len params.retrySourceConnectionId
    retrySourceConnectionIdPresent := true }

def xqcDecodeNoCrypto : Decoder := decodeVintValue fun v params => { params with noCrypto := v }

def xqcTransParamDecodeFuncList : ParamId → Decoder
  | .originalDestConnectionId => xqcDecodeOriginalDestCid
  | .maxIdleTimeout => xqcDecodeMaxIdleTimeout
  | .statelessResetToken => xqcDecodeStatelessToken
  | .maxUdpPayloadSize => xqcDecodeMaxUdpPayloadSize
  | .initialMaxData => xqcDecodeInitialMaxData
  | .initialMaxStreamDataBidiLocal => xqcDecodeInitialMaxStreamDataBidiLocal
  | .initialMaxStreamDataBidiRemote => xqcDecodeInitialMaxStreamDataBidiRemote
  | .initialMaxStreamDataUni => xqcDecodeInitialMaxStreamDataUni
  | .initialMaxStreamsBidi => xqcDecodeInitialMaxStreamsBidi
  | .initialMaxStreamsUni => xqcDecodeInitialMaxStreamsUni
  | .ackDelayExponent => xqcDecodeAckDelayExponent
  | .maxAckDelay => xqcDecodeMaxAckDelay
  | .disableActiveMigration => xqcDecodeDisableActiveMigration
  | .preferredAddress => xqcDecodePreferredAddress
  | .activeConnectionIdLimit => xqcDecodeActiveCidLimit
  | .initialSourceConnectionId => xqcDecodeInitialScid
  | .retrySourceConnectionId => xqcDecodeRetryScid
  | .noCrypto => xqcDecodeNoCrypto

def xqcTransParamGetIndex : Nat → Option ParamId
  | 0x00 => some .originalDestConnectionId
  | 0x01 => some .maxIdleTimeout
  | 0x02 => some .statelessResetToken
  | 0x03 => some .maxUdpPayloadSize
  | 0x04 => some .initialMaxData
  | 0x05 => some .initialMaxStreamDataBidiLocal
  | 0x06 => some .initialMaxStreamDataBidiRemote
  | 0x07 => some .initialMaxStreamDataUni
  | 0x08 => some .initialMaxStreamsBidi
  | 0x09 => some .initialMaxStreamsUni
  | 0x0a => some .ackDelayExponent
  | 0x0b => some .maxAckDelay
  | 0x0c => some .disableActiveMigration
  | 0x0d => some .preferredAddress
  | 0x0e => some .activeConnectionIdLimit
  | 0x0f => some .initialSourceConnectionId
  | 0x10 => some .retrySourceConnectionId
  | 0x1000 => some .noCrypto
  | _ => none

/-! ## The loop -/

/-- A record: its type, its declared length, and where its value is. -/
structure Record where
  type : Nat
  len : Nat
  pos : Nat
  deriving DecidableEq, Repr

/-- The type and the length at `p`, if the value is inside the input. -/
def readRecord (mem : Mem) (stop p : Nat) : Option Record :=
  match (xqcVintRead mem stop p).2 with
  | none => none
  | some (type, n) =>
    match (xqcVintRead mem stop (p + n)).2 with
    | none => none
    | some (len, m) => if p + n + m + len > stop then none else some ⟨type, len, p + n + m⟩

def Record.store (ext : ExtType) (mem : Mem) (stop : Nat) (r : Record) (params : Params) : Option Params :=
  match xqcTransParamGetIndex r.type with
  | none => some params
  | some id => xqcTransParamDecodeFuncList id ext mem r.pos stop r.len params

def xqcDecodeOneTransportParam (ext : ExtType) (mem : Mem) (stop p : Nat) (params : Params) : Option (Params × Nat) :=
  match readRecord mem stop p with
  | none => none
  | some r => (r.store ext mem stop params).map fun params => (params, r.pos + r.len)

/-- The loop, for at most that many records; every record takes two bytes or more. -/
def decodeLoop (ext : ExtType) (mem : Mem) (stop : Nat) : Nat → Nat → Params → Option Params
  | 0, p, params => if p = stop then some params else none
  | fuel + 1, p, params =>
    if p < stop then
      match xqcDecodeOneTransportParam ext mem stop p params with
      | none => none
      | some (params, p) => decodeLoop ext mem stop fuel p params
    else if stop ≠ p then none
    else some params

def xqcDecodeTransportParams (ext : ExtType) (mem : Mem) (len : Nat) (params : Params) : Option Params :=
  decodeLoop ext mem len len 0 params.defaults

/-- The records lie one behind the other from `p` to `stop`, with nothing between. -/
def Fills (mem : Mem) (stop : Nat) : Nat → List Record → Prop
  | p, [] => p = stop
  | p, r :: rs => readRecord mem stop p = some r ∧ Fills mem stop (r.pos + r.len) rs

def storeAll (ext : ExtType) (mem : Mem) (stop : Nat) : List Record → Params → Option Params
  | [], params => some params
  | r :: rs, params => (r.store ext mem stop params).bind (storeAll ext mem stop rs)

variable {ext : ExtType} {mem : Mem} {stop : Nat}

lemma readRecord_spec {p : Nat} {r : Record} (h : readRecord mem stop p = some r) : p < r.pos ∧ r.pos + r.len ≤ stop := by
  unfold readRecord at h
  cases htype : (xqcVintRead mem stop p).2 with
  | none => simp [htype] at h
  | some v =>
    obtain ⟨type, n⟩ := v
    cases hlen : (xqcVintRead mem stop (p + n)).2 with
    | none => simp [htype, hlen] at h
    | some w =>
      obtain ⟨len, m⟩ := w
      simp only [htype, hlen] at h; split at h
      · cases h
      · rename_i hin
        obtain rfl := Option.some.inj h
        have hn := (vintRead_inside mem stop p).2 type n htype
        exact ⟨by show p < p + n + m; omega, by show p + n + m + len ≤ stop; omega⟩

lemma decodeLoop_fills (fuel : Nat) : ∀ {p : Nat} {params out : Params}, decodeLoop ext mem stop fuel p params = some out →
    ∃ rs, Fills mem stop p rs ∧ storeAll ext mem stop rs params = some out := by
  induction fuel with
  | zero =>
    intro p params out h; unfold decodeLoop at h
    split at h
    · rename_i hend; exact ⟨[], hend, h⟩
    · cases h
  | succ fuel ih =>
    intro p params out h; unfold decodeLoop at h
    split at h
    · unfold xqcDecodeOneTransportParam at h
      cases hread : readRecord mem stop p with
      | none => simp [hread] at h
      | some r =>
        cases hstore : r.store ext mem stop params with
        | none => simp [hread, hstore] at h
        | some next =>
          simp only [hread, hstore, map_some] at h
          obtain ⟨rs, hfills, hall⟩ := ih h
          refine ⟨r :: rs, ⟨hread, hfills⟩, ?_⟩
          rw [storeAll, hstore]; exact hall
    · split at h
      · cases h
      · rename_i hend; exact ⟨[], (not_not.mp hend).symm, h⟩

/-- Records that fill the input are all read, as every one of them moves the pointer. -/
lemma decodeLoop_reads (fuel : Nat) : ∀ {rs : List Record} {p : Nat} {params : Params}, Fills mem stop p rs →
    stop - p ≤ fuel → decodeLoop ext mem stop fuel p params = storeAll ext mem stop rs params := by
  induction fuel with
  | zero =>
    intro rs p params hfills hfuel
    cases rs with
    | nil =>
      have hend : p = stop := hfills
      rw [decodeLoop, if_pos hend, storeAll]
    | cons r rs => have := readRecord_spec hfills.1; omega
  | succ fuel ih =>
    intro rs p params hfills hfuel; unfold decodeLoop
    cases rs with
    | nil =>
      have hend : p = stop := hfills
      rw [if_neg (by omega), if_neg (not_not.mpr hend.symm), storeAll]
    | cons r rs =>
      have hmoved := readRecord_spec hfills.1
      rw [if_pos (by omega), xqcDecodeOneTransportParam, hfills.1, storeAll]
      dsimp only
      cases hstore : r.store ext mem stop params with
      | none => rfl
      | some next => exact ih hfills.2 (by omega)

/-- What is decoded is the sequences of records that fill the input and can be stored in turn. -/
theorem decode_iff (len : Nat) (params out : Params) : xqcDecodeTransportParams ext mem len params = some out ↔
    ∃ rs, Fills mem len 0 rs ∧ storeAll ext mem len rs params.defaults = some out := by
  constructor
  · exact fun h => decodeLoop_fills len h
  · rintro ⟨rs, hfills, hall⟩
    rw [← hall]; exact decodeLoop_reads len hfills (Nat.sub_le _ _)

/-! ## What a record may do -/

def ParamId.isInteger : ParamId → Bool
  | .originalDestConnectionId | .statelessResetToken | .disableActiveMigration | .preferredAddress
  | .initialSourceConnectionId | .retrySourceConnectionId => false
  | _ => true

def ParamId.cid : ParamId → Params → Option Cid
  | .originalDestConnectionId, params => some params.originalDestConnectionId
  | .preferredAddress, params => some params.preferredAddress.cid
  | .initialSourceConnectionId, params => some params.initialSourceConnectionId
  | .retrySourceConnectionId, params => some params.retrySourceConnectionId
  | _, _ => none

structure Confined (ext : ExtType) (mem : Mem) (stop : Nat) (r : Record) : Prop where
  /-- Another input with these bytes in the same place does the same. -/
  own : ∀ mem' stop' params, (∀ i, r.pos ≤ i → i < r.pos + r.len → mem' i = mem i) → r.pos + r.len ≤ stop' →
    r.store ext mem' stop' params = r.store ext mem stop params
  /-- An integer has the declared length. -/
  filled : ∀ id v n, xqcTransParamGetIndex r.type = some id → id.isInteger = true →
    (xqcVintRead mem stop r.pos).2 = some (v, n) → n = r.len
  /-- A stored connection id fits the buffer and the declared length. -/
  cid : ∀ id params out c, xqcTransParamGetIndex r.type = some id → r.store ext mem stop params = some out →
    id.cid out = some c → c.bytes.length ≤ maxCidLen ∧ c.bytes.length ≤ r.len

/-- The length of the integer at `p`, by its first two bits. -/
def vintLen (mem : Mem) (p : Nat) : Nat := 2 ^ (mem p >>> 6).toNat

/-- What the declared length of a record has to be, next to its first bytes. -/
def Record.WellFormed (mem : Mem) (r : Record) : Prop :=
  match xqcTransParamGetIndex r.type with
  | some .statelessResetToken | some .disableActiveMigration | none => True
  | some .originalDestConnectionId | some .initialSourceConnectionId | some .retrySourceConnectionId =>
    r.len % 256 ≤ maxCidLen
  | some .preferredAddress => 41 + (mem (r.pos + 24)).toNat ≤ r.len
  | some _ => r.len = vintLen mem r.pos

/-! ## What the decoders read -/

lemma slice_local {mem mem' : Mem} {p n : Nat} (h : ∀ i, p ≤ i → i < p + n → mem' i = mem i) :
    slice mem' p n = slice mem p n := by
  refine map_congr_left fun i hi => h (p + i) (Nat.le_add_right _ _) ?_
  have := mem_range.mp hi; omega

def vintVal (mem : Mem) (p : Nat) : Nat := bigEndian mem p (vintLen mem p) % 2 ^ (8 * vintLen mem p - 2)

lemma vintRead_eq (mem : Mem) (stop p : Nat) :
    (xqcVintRead mem stop p).2 = if p + vintLen mem p ≤ stop then some (vintVal mem p, vintLen mem p) else none := by
  have hlt : (mem p >>> 6).toNat < 4 := by
    have := (mem p).toNat_lt
    simp [Nat.shiftRight_eq_div_pow]
    omega
  have wide : ∀ n, 1 ≤ n → p < stop → vintLen mem p = n →
      (vintWide mem stop p n).2 = if p + vintLen mem p ≤ stop then some (vintVal mem p, vintLen mem p) else none := by
    intro n hn hp he; unfold vintWide vintVal
    rw [he]
    by_cases h : p + (n - 1) ≥ stop
    · rw [if_pos h, if_neg (by omega)]
    · rw [if_neg h, if_pos (by omega)]
  have hpos : 1 ≤ vintLen mem p := Nat.one_le_two_pow
  unfold xqcVintRead
  by_cases hp : p ≥ stop
  · rw [if_pos hp, if_neg (by omega)]
  · rw [if_neg hp]; split
    · rename_i h0
      have hlen : vintLen mem p = 1 := by simp [vintLen, h0]
      have hsmall : (mem p).toNat < 64 := by
        have := h0
        simp [Nat.shiftRight_eq_div_pow] at this
        omega
      rw [if_pos (by omega), vintVal, hlen]
      show some ((mem p).toNat, 1) = some ((0 * 256 + (mem p).toNat) % 64, 1)
      rw [Nat.zero_mul, Nat.zero_add, Nat.mod_eq_of_lt hsmall]
    · rename_i h1; exact wide 2 (by decide) (by omega) (by simp [vintLen, h1])
    · rename_i h2; exact wide 4 (by decide) (by omega) (by simp [vintLen, h2])
    · rename_i h0 h1 h2
      have h3 : (mem p >>> 6).toNat = 3 := by
        have n0 : (mem p >>> 6).toNat ≠ 0 := h0
        have n1 : (mem p >>> 6).toNat ≠ 1 := h1
        have n2 : (mem p >>> 6).toNat ≠ 2 := h2
        omega
      exact wide 8 (by decide) (by omega) (by simp [vintLen, h3])

lemma vintRead_local {mem mem' : Mem} {p len stop stop' : Nat} (hlen : len = vintLen mem p)
    (h : ∀ i, p ≤ i → i < p + len → mem' i = mem i) (hstop : p + len ≤ stop) (hstop' : p + len ≤ stop') :
    (xqcVintRead mem' stop' p).2 = (xqcVintRead mem stop p).2 := by
  have hpos : 1 ≤ vintLen mem p := Nat.one_le_two_pow
  have hfirst : vintLen mem' p = vintLen mem p := by rw [vintLen, h p (Nat.le_refl _) (by omega), ← vintLen]
  have hval : vintVal mem' p = vintVal mem p := by
    rw [vintVal, vintVal, hfirst, bigEndian, slice_local (hlen ▸ h), ← bigEndian]
  rw [vintRead_eq, vintRead_eq, hfirst, hval, if_pos (by omega), if_pos (by omega)]

/-- An integer parameter reads an integer, up to the end of the input, and nothing else. -/
lemma integer_decoder {id : ParamId} (hid : id.isInteger = true) : ∃ set : Nat → Params → Option Params,
    ∀ ext mem p stop len params, xqcTransParamDecodeFuncList id ext mem p stop len params =
      (xqcVintRead mem stop p).2.bind fun v => set v.1 params := by
  have plain : ∀ {dec : Decoder} set, dec = decodeVintValue set → ∃ set : Nat → Params → Option Params,
      ∀ ext mem p stop len params, dec ext mem p stop len params =
        (xqcVintRead mem stop p).2.bind fun v => set v.1 params := by
    intro dec set hdec
    refine ⟨fun v params => some (set v params), fun ext mem p stop len params => ?_⟩
    rw [hdec, decodeVintValue]
    cases (xqcVintRead mem stop p).2 <;> rfl
  cases id with
  | ackDelayExponent =>
    refine ⟨fun v params => if v > maxAckDelayExponent then none else some { params with ackDelayExponent := v }, ?_⟩
    intro ext mem p stop len params
    show xqcDecodeAckDelayExponent ext mem p stop len params = _
    unfold xqcDecodeAckDelayExponent
    cases (xqcVintRead mem stop p).2 <;> rfl
  | originalDestConnectionId | statelessResetToken | disableActiveMigration | preferredAddress
  | initialSourceConnectionId | retrySourceConnectionId => cases hid
  | _ => unfold xqcTransParamDecodeFuncList; exact plain _ rfl

def addressAt (mem : Mem) (p : Nat) (cid : Cid) : PreferredAddr where
  ipv4 := slice mem p 4
  ipv4Port := bigEndian mem (p + 4) 2
  ipv6 := slice mem (p + 6) 16
  ipv6Port := bigEndian mem (p + 22) 2
  cid := { cid with bytes := slice mem (p + 25) (mem (p + 24)).toNat }
  statelessResetToken := slice mem (p + 25 + (mem (p + 24)).toNat) tokenLen

lemma preferredAddress_eq (ext : ExtType) (mem : Mem) (p stop len : Nat) (params : Params) :
    xqcDecodePreferredAddress ext mem p stop len params =
      if ext = .encryptedExtensions ∧ len ≤ stop - p ∧ 41 + (mem (p + 24)).toNat ≤ stop - p ∧
        1 ≤ (mem (p + 24)).toNat ∧ (mem (p + 24)).toNat ≤ maxCidLen then
        some { params with
          preferredAddress := addressAt mem p params.preferredAddress.cid
          preferredAddressPresent := true }
      else none := by
  unfold xqcDecodePreferredAddress
  dsimp only
  by_cases hext : ext = .encryptedExtensions
  · rw [if_neg (not_not.mpr hext)]
    generalize hc : (mem (p + 24)).toNat = c
    unfold tokenLen
    by_cases hroom : len ≤ stop - p ∧ 41 + c ≤ stop - p ∧ 1 ≤ c ∧ c ≤ maxCidLen
    · rw [if_neg (by omega), if_neg (by omega), if_neg (by omega), if_neg (by omega), if_neg (by omega),
        if_neg (by omega), if_pos ⟨hext, hroom⟩, ← hc]
      rfl
    · rw [if_neg (c := ext = _ ∧ _) fun h => hroom h.2]
      split_ifs
      all_goals first | rfl | (exfalso; omega)
  · rw [if_pos hext, if_neg fun h => hext h.1]

lemma addressAt_local {mem mem' : Mem} {p len : Nat} (hlen : 41 + (mem (p + 24)).toNat ≤ len)
    (h : ∀ i, p ≤ i → i < p + len → mem' i = mem i) (cid : Cid) : addressAt mem' p cid = addressAt mem p cid := by
  have hcid : mem' (p + 24) = mem (p + 24) := h (p + 24) (by omega) (by omega)
  have part : ∀ d n, d + n ≤ len → slice mem' (p + d) n = slice mem (p + d) n := fun d n hd =>
    slice_local fun i h1 h2 => h i (by omega) (by omega)
  unfold addressAt bigEndian
  rw [hcid, show slice mem' p 4 = slice mem p 4 from part 0 4 (by omega), part 4 2 (by omega), part 6 16 (by omega),
    part 22 2 (by omega), part 25 _ (by omega), Nat.add_assoc p 25, part (25 + _) tokenLen (by unfold tokenLen; omega)]

/-! ## Each record keeps to itself -/

section Kinds

variable {r : Record} {params out : Params} {id : ParamId}

lemma store_eq (hid : xqcTransParamGetIndex r.type = some id) (ext : ExtType) (mem : Mem) (stop : Nat) (params : Params) :
    r.store ext mem stop params = xqcTransParamDecodeFuncList id ext mem r.pos stop r.len params := by
  rw [Record.store, hid]

lemma integer_no_cid (hint : id.isInteger = true) (params : Params) : id.cid params = none := by
  cases id <;> first | rfl | cases hint

lemma integer_confined (hid : xqcTransParamGetIndex r.type = some id) (hint : id.isInteger = true)
    (hin : r.pos + r.len ≤ stop) (hstored : r.store ext mem stop params = some out) :
    Confined ext mem stop r ↔ r.len = vintLen mem r.pos := by
  obtain ⟨set, hset⟩ := integer_decoder hint
  have hstore : ∀ mem stop params, r.store ext mem stop params = (xqcVintRead mem stop r.pos).2.bind fun v => set v.1 params :=
    fun mem stop params => (store_eq hid ext mem stop params).trans (hset ext mem r.pos stop r.len params)
  have hread : ∀ v n, (xqcVintRead mem stop r.pos).2 = some (v, n) → n = vintLen mem r.pos := by
    intro v n h; rw [vintRead_eq] at h
    split at h
    · cases h; rfl
    · cases h
  constructor
  · intro hc; rw [hstore] at hstored
    obtain ⟨⟨v, n⟩, hv, -⟩ := bind_eq_some_iff.mp hstored
    rw [← hc.filled id v n hid hint hv]; exact hread v n hv
  · intro hlen
    refine ⟨fun mem' stop' params hmem hstop => ?_, fun _ v n _ _ hv => ?_, fun id' _ _ c hid' _ hcid => ?_⟩
    · rw [hstore, hstore, vintRead_local hlen hmem hin hstop]
    · rw [hlen]; exact hread v n hv
    · obtain rfl := Option.some.inj (hid.symm.trans hid')
      rw [integer_no_cid hint] at hcid; cases hcid

lemma cid_confined (hid : xqcTransParamGetIndex r.type = some id) (hint : id.isInteger = false)
    (set : List UInt8 → Params → Option Params)
    (hset : ∀ mem p stop len params, xqcTransParamDecodeFuncList id ext mem p stop len params =
      set (slice mem p (len % 256)) params)
    (hcid : ∀ bytes params out, set bytes params = some out → ∃ c, id.cid out = some c ∧ c.bytes = bytes)
    (hstored : r.store ext mem stop params = some out) :
    Confined ext mem stop r ↔ r.len % 256 ≤ maxCidLen := by
  have hstore : ∀ mem stop params, r.store ext mem stop params = set (slice mem r.pos (r.len % 256)) params :=
    fun mem stop params => (store_eq hid ext mem stop params).trans (hset mem r.pos stop r.len params)
  have hlength : ∀ mem : Mem, (slice mem r.pos (r.len % 256)).length = r.len % 256 := by
    intro mem
    simp [slice]
  have hcut : r.len % 256 ≤ r.len := Nat.mod_le _ _
  constructor
  · intro hc
    obtain ⟨c, hc', hbytes⟩ := hcid _ _ _ ((hstore mem stop params).symm.trans hstored)
    have := (hc.cid id params out c hid hstored hc').1
    rwa [hbytes, hlength] at this
  · intro hlen
    refine ⟨fun mem' stop' params hmem _ => ?_, fun id' _ _ hid' hint' _ => ?_, fun id' params out c hid' h hc => ?_⟩
    · rw [hstore, hstore, slice_local fun i h1 h2 => hmem i h1 (by omega)]
    · obtain rfl := Option.some.inj (hid.symm.trans hid')
      rw [hint] at hint'; cases hint'
    · obtain rfl := Option.some.inj (hid.symm.trans hid')
      obtain ⟨c', hc', hbytes⟩ := hcid _ _ _ ((hstore mem stop params).symm.trans h)
      obtain rfl := Option.some.inj (hc.symm.trans hc')
      rw [hbytes, hlength]; exact ⟨hlen, hcut⟩

lemma preferredAddress_confined (hid : xqcTransParamGetIndex r.type = some .preferredAddress)
    (hin : r.pos + r.len ≤ stop) (hstored : r.store ext mem stop params = some out) :
    Confined ext mem stop r ↔ 41 + (mem (r.pos + 24)).toNat ≤ r.len := by
  have hstore := fun mem stop params => (store_eq hid ext mem stop params).trans
    (preferredAddress_eq ext mem r.pos stop r.len params)
  constructor
  · intro hc
    -- the input that ends behind this record
    have hsame := hc.own mem (r.pos + r.len) params (fun _ _ _ => rfl) (Nat.le_refl _)
    rw [hstored, hstore] at hsame; split at hsame
    · omega
    · cases hsame
  · intro hlen
    refine ⟨fun mem' stop' params hmem hstop => ?_, fun id' _ _ hid' hint _ => ?_, fun id' params out c hid' h hc => ?_⟩
    · rw [hstore, hstore, addressAt_local hlen hmem, hmem (r.pos + 24) (by omega) (by omega)]
      refine if_congr (and_congr_right fun _ => ?_) rfl rfl
      omega
    · obtain rfl := Option.some.inj (hid.symm.trans hid')
      cases hint
    · obtain rfl := Option.some.inj (hid.symm.trans hid')
      rw [hstore] at h; split at h
      · obtain rfl := Option.some.inj h
        obtain rfl := Option.some.inj hc
        have hlength : (slice mem (r.pos + 25) (mem (r.pos + 24)).toNat).length = (mem (r.pos + 24)).toNat := by simp [slice]
        show (slice _ _ _).length ≤ _ ∧ (slice _ _ _).length ≤ _
        omega
      · cases h

lemma other_confined (hid : xqcTransParamGetIndex r.type = some id) (hin : r.pos + r.len ≤ stop)
    (hother : id = .statelessResetToken ∨ id = .disableActiveMigration) : Confined ext mem stop r := by
  refine ⟨fun mem' stop' params hmem hstop => ?_, fun id' _ _ hid' hint _ => ?_, fun id' _ _ c hid' _ hc => ?_⟩
  · rw [store_eq hid, store_eq hid]
    rcases hother with rfl | rfl
    · show xqcDecodeStatelessToken _ _ _ _ _ _ = xqcDecodeStatelessToken _ _ _ _ _ _
      unfold xqcDecodeStatelessToken; rw [slice_local hmem]
      refine if_congr Iff.rfl rfl (if_congr ?_ rfl rfl)
      omega
    · rfl
  · obtain rfl := Option.some.inj (hid.symm.trans hid')
    rcases hother with rfl | rfl <;> cases hint
  · obtain rfl := Option.some.inj (hid.symm.trans hid')
    rcases hother with rfl | rfl <;> cases hc

/-- For a record that was stored, the declared length decides whether it kept to itself. -/
lemma confined_iff (hin : r.pos + r.len ≤ stop) (hstored : r.store ext mem stop params = some out) :
    Confined ext mem stop r ↔ r.WellFormed mem := by
  cases hid : xqcTransParamGetIndex r.type with
  | none =>
    have hstore : ∀ mem stop params, r.store ext mem stop params = some params := by
      intro mem stop params; rw [Record.store, hid]
    have hwf : r.WellFormed mem := by
      unfold Record.WellFormed; rw [hid]
      trivial
    refine iff_of_true ⟨fun mem' stop' params _ _ => ?_, fun id _ _ hid' => ?_, fun id _ _ _ hid' => ?_⟩ hwf
    · rw [hstore, hstore]
    · cases hid.symm.trans hid'
    · cases hid.symm.trans hid'
  | some id =>
    unfold Record.WellFormed; rw [hid]
    cases id with
    | statelessResetToken => exact iff_of_true (other_confined hid hin (.inl rfl)) trivial
    | disableActiveMigration => exact iff_of_true (other_confined hid hin (.inr rfl)) trivial
    | preferredAddress => exact preferredAddress_confined hid hin hstored
    | originalDestConnectionId =>
      refine cid_confined hid rfl (fun bytes params =>
        if ext ≠ .encryptedExtensions then none
        else some { params with
          originalDestConnectionId := { params.originalDestConnectionId with bytes := bytes }
          originalDestConnectionIdPresent := true }) (fun _ _ _ _ _ => rfl) (fun bytes params out h => ?_) hstored
      split at h
      · cases h
      · obtain rfl := Option.some.inj h
        exact ⟨_, rfl, rfl⟩
    | initialSourceConnectionId =>
      refine cid_confined hid rfl (fun bytes params => some { params with
        initialSourceConnectionId := { params.initialSourceConnectionId with bytes := bytes }
        initialSourceConnectionIdPresent := true }) (fun _ _ _ _ _ => rfl) (fun bytes params out h => ?_) hstored
      obtain rfl := Option.some.inj h
      exact ⟨_, rfl, rfl⟩
    | retrySourceConnectionId =>
      refine cid_confined hid rfl (fun bytes params => some { params with
        retrySourceConnectionId := { params.retrySourceConnectionId with bytes := bytes }
        retrySourceConnectionIdPresent := true }) (fun _ _ _ _ _ => rfl) (fun bytes params out h => ?_) hstored
      obtain rfl := Option.some.inj h
      exact ⟨_, rfl, rfl⟩
    | _ => exact integer_confined hid rfl hin hstored

end Kinds

lemma storeAll_stores : ∀ {rs : List Record} {params out : Params}, storeAll ext mem stop rs params = some out →
    ∀ r ∈ rs, ∃ params out, r.store ext mem stop params = some out
  | [], _, _, _, r, hr => (not_mem_nil hr).elim
  | r :: rs, params, out, h, q, hq => by
    obtain ⟨next, hnext, hrest⟩ := bind_eq_some_iff.mp h
    rcases mem_cons.mp hq with rfl | hq
    · exact ⟨params, next, hnext⟩
    · exact storeAll_stores hrest q hq

lemma Fills.inside : ∀ {rs : List Record} {p : Nat}, Fills mem stop p rs → ∀ r ∈ rs, r.pos + r.len ≤ stop
  | [], _, _, _, hr => (not_mem_nil hr).elim
  | r :: rs, p, h, q, hq => by
    rcases mem_cons.mp hq with rfl | hq
    · exact (readRecord_spec h.1).2
    · exact Fills.inside h.2 q hq

/-- A decoded input is filled by its records, and they keep to their own bytes as long as
    their declared lengths go with what is in them. -/
theorem records_keep_to_themselves (ext : ExtType) (mem : Mem) (len : Nat) (params out : Params)
    (h : xqcDecodeTransportParams ext mem len params = some out) :
    ∃ rs, Fills mem len 0 rs ∧ storeAll ext mem len rs params.defaults = some out ∧
      ((∀ r ∈ rs, Confined ext mem len r) ↔ ∀ r ∈ rs, r.WellFormed mem) := by
  obtain ⟨rs, hfills, hall⟩ := (decode_iff len params out).mp h
  refine ⟨rs, hfills, hall, forall₂_congr fun r hr => ?_⟩
  obtain ⟨before, after, hstored⟩ := storeAll_stores hall r hr
  exact confined_iff (hfills.inside r hr) hstored

/-! ### Three inputs -/

def bytesAt (bytes : List UInt8) : Mem := fun i => bytes.getD i 0

def noCid : Cid := ⟨[], 0⟩

def noParams : Params :=
  { preferredAddress := ⟨[], 0, [], 0, noCid, []⟩, preferredAddressPresent := false
    originalDestConnectionId := noCid, originalDestConnectionIdPresent := false, maxIdleTimeout := 0
    statelessResetToken := [], statelessResetTokenPresent := false, maxUdpPayloadSize := 0, initialMaxData := 0
    initialMaxStreamDataBidiLocal := 0, initialMaxStreamDataBidiRemote := 0, initialMaxStreamDataUni := 0
    initialMaxStreamsBidi := 0, initialMaxStreamsUni := 0, ackDelayExponent := 0, maxAckDelay := 0
    disableActiveMigration := false, activeConnectionIdLimit := 0, initialSourceConnectionId := noCid
    initialSourceConnectionIdPresent := false, retrySourceConnectionId := noCid
    retrySourceConnectionIdPresent := false, noCrypto := 0 }

def oneRecord : Mem := bytesAt [1, 1, 4]

theorem one_record_keeps_to_itself : ∃ out, xqcDecodeTransportParams .clientHello oneRecord 3 noParams = some out ∧
    out.maxIdleTimeout = 4 ∧ ∃ rs, Fills oneRecord 3 0 rs ∧ ∀ r ∈ rs, Confined .clientHello oneRecord 3 r := by
  refine ⟨_, rfl, rfl, ?_⟩
  obtain ⟨rs, hfills, -, hiff⟩ := records_keep_to_themselves .clientHello oneRecord 3 noParams _ rfl
  refine ⟨rs, hfills, hiff.mpr ?_⟩
  cases rs with
  | nil => cases hfills
  | cons r rs =>
    obtain rfl : (⟨1, 1, 2⟩ : Record) = r := Option.some.inj hfills.1
    cases rs with
    | nil => exact fun r hr => mem_singleton.mp hr ▸ rfl
    | cons q rs => cases hfills.2.1

def emptyTimeout : Mem := bytesAt [1, 0, 4, 1, 5]

def longCid : Mem := bytesAt [15, 21]

/-- The type of the second record is taken for the timeout, and 21 bytes go into a buffer of 20. -/
theorem records_reach_further :
    (∃ out, xqcDecodeTransportParams .clientHello emptyTimeout 5 noParams = some out ∧ out.maxIdleTimeout = 4 ∧
      ∀ rs, Fills emptyTimeout 5 0 rs → ∃ r ∈ rs, ¬ Confined .clientHello emptyTimeout 5 r) ∧
    ∃ out, xqcDecodeTransportParams .clientHello longCid 23 noParams = some out ∧
      out.initialSourceConnectionId.bytes.length = 21 := by
  refine ⟨⟨_, rfl, rfl, fun rs hfills => ?_⟩, ⟨_, rfl, rfl⟩⟩
  cases rs with
  | nil => cases hfills
  | cons r rs =>
    obtain rfl : (⟨1, 0, 2⟩ : Record) = r := Option.some.inj hfills.1
    refine ⟨_, mem_cons_self, fun hc => ?_⟩
    cases hc.filled .maxIdleTimeout 4 1 rfl rfl rfl

end RlccQuic.Transport.TransportParams
