/-
  RlccQuic.Transport.FrameParser — the frame parsers (`xqc_frame_parser.c`) and `xqc_vint_read`.

  A parser starts at `packet_in->pos`, which the dispatcher has found below `packet_in->last`, skips one byte for the
  type and reads the fields. On success `pos` is where it stopped.
-/

import RlccQuic.Lib.Cursor
import RlccQuic.Transport.Defs

namespace RlccQuic.Transport.FrameParser

open Lib.Cursor Transport

/-- `xqc_packet_in_t`, as far as the parsers use it. -/
structure PacketIn where
  mem : Mem
  last : Nat
  pns : Pns

/-! ## Variable-length integers -/

def bigEndian (mem : Mem) (p n : Nat) : Nat := (slice mem p n).foldl (fun v b => v * 256 + b.toNat) 0

/-- An encoding of more than one byte: the other bytes are read once they are
    known to be there, and the two length bits are masked off. -/
def vintWide (mem : Mem) (last p n : Nat) : List Seg × Option (Nat × Nat) :=
  if p + (n - 1) ≥ last then ([⟨p, 1⟩], none)
  else ([⟨p, 1⟩, ⟨p, n⟩], some (bigEndian mem p n % 2 ^ (8 * n - 2), n))

/-- `xqc_vint_read`: the value and its length, or -1. -/
def xqcVintRead (mem : Mem) (last p : Nat) : List Seg × Option (Nat × Nat) :=
  if p ≥ last then ([], none)
  else
    match (mem p >>> 6).toNat with
    | 0 => ([⟨p, 1⟩], some ((mem p).toNat, 1))
    | 1 => vintWide mem last p 2
    | 2 => vintWide mem last p 4
    | _ => vintWide mem last p 8

variable (pkt : PacketIn)

/-- `vlen = xqc_vint_read(p, end, &v); if (vlen < 0) return -XQC_EVINTREAD; p += vlen;` -/
def vint : Cur Err Nat := fun p =>
  match xqcVintRead pkt.mem pkt.last p with
  | (reads, some (v, n)) => ⟨reads, .ok (v, p + n)⟩
  | (reads, none) => ⟨reads, .error .evintread⟩

/-! ## Frames -/

/-- `xqc_stream_frame_t`, for STREAM and CRYPTO frames. -/
structure StreamFrame where
  dataOffset : Nat
  dataLength : UInt32
  data : List UInt8
  fin : Bool
  deriving DecidableEq, Repr

structure PktnoRange where
  high : UInt64
  low : UInt64
  deriving DecidableEq, Repr

structure AckInfo where
  pns : Pns
  ranges : List PktnoRange
  ackDelay : UInt64
  deriving DecidableEq, Repr

inductive Frame where
  | padding (length : UInt32)
  | ping
  | ack (info : AckInfo)
  | resetStream (id errCode finalSize : Nat)
  | stopSending (id errCode : Nat)
  | crypto (frame : StreamFrame)
  | newToken (token : List UInt8)
  | stream (id : Nat) (frame : StreamFrame)
  | maxData (n : Nat)
  | maxStreamData (id n : Nat)
  | maxStreams (bidirectional : Bool) (n : Nat)
  | dataBlocked (limit : Nat)
  | streamDataBlocked (id limit : Nat)
  | streamsBlocked (bidirectional : Bool) (limit : Nat)
  | newConnectionId (seqNum retirePriorTo : Nat) (cid : List UInt8)
  | retireConnectionId (seqNum : Nat)
  | pathChallenge (data : List UInt8)
  | pathResponse (data : List UInt8)
  | connectionClose (errCode : Nat)
  | handshakeDone
  deriving DecidableEq, Repr

/-! ## Parsers -/

/-- The data of a STREAM or CRYPTO frame: `xqc_malloc` and `memcpy`, if there is any. -/
def frameData (malloc : Nat → Bool) (length : UInt32) : Cur Err (List UInt8) := do
  if 0 < length then
    check (malloc length.toNat) .emalloc
    look pkt.mem length.toNat
  else
    pure []

def streamOffset (firstByte : UInt8) : Cur Err Nat := if firstByte &&& 0x04 ≠ 0 then vint pkt else pure 0

/-- The type byte, the stream id and the offset if the type has one. -/
def streamHead : Cur Err (UInt8 × Nat × Nat) := do
  let firstByte ← byte pkt.mem
  let streamId ← vint pkt
  let offset ← streamOffset pkt firstByte
  return (firstByte, streamId, offset)

/-- `data_length`: the length field, or all that is left if the type has none. What
    is left for the data is counted from where the length field starts. -/
def streamLength (firstByte : UInt8) : Cur Err UInt32 := do
  let p ← here
  if firstByte &&& 0x02 ≠ 0 then
    let length ← vint pkt
    check (length ≤ pkt.last - p) .eillegalFrame
    return UInt32.ofNat length
  else
    return UInt32.ofNat (pkt.last - p)

def xqcParseStreamFrame (malloc : Nat → Bool) : Cur Err Frame := do
  let (firstByte, streamId, offset) ← streamHead pkt
  let dataLength ← streamLength pkt firstByte
  let data ← frameData pkt malloc dataLength
  skip dataLength.toNat
  return .stream streamId ⟨offset, dataLength, data, firstByte &&& 0x01 ≠ 0⟩

def cryptoHead : Cur Err Nat := do
  let _firstByte ← byte pkt.mem
  vint pkt

def xqcParseCryptoFrame (malloc : Nat → Bool) : Cur Err Frame := do
  let offset ← cryptoHead pkt
  let length ← vint pkt
  let dataLength := UInt32.ofNat length
  let data ← frameData pkt malloc dataLength
  skip length
  return .crypto ⟨offset, dataLength, data, false⟩

def skipZeros (mem : Mem) : Nat → Cur Err Nat
  | 0 => pure 0
  | n + 1 => do
    let b ← peek mem
    if b = 0 then
      skip 1
      let k ← skipZeros mem n
      return k + 1
    else
      return 0

def xqcParsePaddingFrame : Cur Err Frame := do
  skip 1
  let p ← here
  let k ← skipZeros pkt.mem (pkt.last - p)
  return .padding (UInt32.ofNat (1 + k))

def xqcParsePingFrame : Cur Err Frame := do
  skip 1
  return .ping

/-- The next range is stored if there is room; the newest comes first. -/
def pushRange (stored : List PktnoRange) (gap range : Nat) : List PktnoRange :=
  match stored with
  | [] => []
  | prev :: _ =>
    if stored.length < xqcMaxAckRangeCnt then
      let high := prev.low - UInt64.ofNat gap - 2
      ⟨high, high - UInt64.ofNat range⟩ :: stored
    else stored

/-- The ranges after the first, of which the frame has `n`. -/
def ackRanges : Nat → List PktnoRange → Cur Err (List PktnoRange)
  | 0, stored => pure stored
  | n + 1, stored => do
    let gap ← vint pkt
    let range ← vint pkt
    ackRanges n (pushRange stored gap range)

def xqcParseAckFrame (ackDelayExponent : UInt64) : Cur Err Frame := do
  let _firstByte ← byte pkt.mem
  let largestAcked ← vint pkt
  let ackDelay ← vint pkt
  let ackRangeCount ← vint pkt
  let firstAckRange ← vint pkt
  let high := UInt64.ofNat largestAcked
  let ranges ← ackRanges pkt ackRangeCount [⟨high, high - UInt64.ofNat firstAckRange⟩]
  return .ack ⟨pkt.pns, ranges.reverse, UInt64.ofNat ackDelay <<< ackDelayExponent⟩

/-- The type byte, the error code and, for the transport's own close, the frame type. -/
def connCloseHead : Cur Err Nat := do
  let firstByte ← byte pkt.mem
  let errCode ← vint pkt
  if firstByte = 0x1c then
    let _frameType ← vint pkt
    return errCode
  else
    return errCode

def xqcParseConnCloseFrame : Cur Err Frame := do
  let errCode ← connCloseHead pkt
  let reasonLen ← vint pkt
  skip reasonLen
  return .connectionClose errCode

def oneInt (frame : UInt8 → Nat → Frame) : Cur Err Frame := do
  let firstByte ← byte pkt.mem
  let n ← vint pkt
  return frame firstByte n

def twoInts (frame : Nat → Nat → Frame) : Cur Err Frame := do
  let _firstByte ← byte pkt.mem
  let m ← vint pkt
  let n ← vint pkt
  return frame m n

def xqcParseResetStreamFrame : Cur Err Frame := do
  let _firstByte ← byte pkt.mem
  let streamId ← vint pkt
  let errCode ← vint pkt
  let finalSize ← vint pkt
  return .resetStream streamId errCode finalSize

def xqcParseStopSendingFrame : Cur Err Frame := twoInts pkt .stopSending

def xqcParseDataBlockedFrame : Cur Err Frame := oneInt pkt fun _ n => .dataBlocked n

def xqcParseStreamDataBlockedFrame : Cur Err Frame := twoInts pkt .streamDataBlocked

def xqcParseStreamsBlockedFrame : Cur Err Frame := oneInt pkt fun firstByte n => .streamsBlocked (firstByte = 0x16) n

def xqcParseMaxDataFrame : Cur Err Frame := oneInt pkt fun _ n => .maxData n

def xqcParseMaxStreamDataFrame : Cur Err Frame := twoInts pkt .maxStreamData

def xqcParseMaxStreamsFrame : Cur Err Frame := oneInt pkt fun firstByte n => .maxStreams (firstByte = 0x12) n

def xqcParseRetireConnIdFrame : Cur Err Frame := oneInt pkt fun _ n => .retireConnectionId n

/-- `p + n > end` is an error, and otherwise the bytes are copied. -/
def copyChecked (n : Nat) (e : Err) : Cur Err (List UInt8) := do
  let p ← here
  check (p + n ≤ pkt.last) e
  let data ← look pkt.mem n
  skip n
  return data

def xqcParseNewTokenFrame (tokenLen : Nat) : Cur Err Frame := do
  let _firstByte ← byte pkt.mem
  let recvTokenLen ← vint pkt
  check (recvTokenLen ≠ 0) .eproto
  check (recvTokenLen ≤ tokenLen) .enobuf
  let token ← copyChecked pkt recvTokenLen .eillegalFrame
  return .newToken token

def xqcParseHandshakeDoneFrame : Cur Err Frame := do
  skip 1
  return .handshakeDone

def newConnIdHead : Cur Err (Nat × Nat) := do
  let _firstByte ← byte pkt.mem
  let seqNum ← vint pkt
  let retirePriorTo ← vint pkt
  return (seqNum, retirePriorTo)

def byteChecked (e : Err) : Cur Err UInt8 := do
  let p ← here
  check (p < pkt.last) e
  byte pkt.mem

def xqcParseNewConnIdFrame : Cur Err Frame := do
  let (seqNum, retirePriorTo) ← newConnIdHead pkt
  let cidLen ← byteChecked pkt .eproto
  check (cidLen.toNat ≤ xqcMaxCidLen) .eproto
  let cid ← copyChecked pkt cidLen.toNat .eproto
  let _statelessResetToken ← copyChecked pkt xqcStatelessResetTokenlen .eproto
  return .newConnectionId seqNum retirePriorTo cid

/-- The eight bytes of a path frame, whose room is not tested. -/
def pathFrame (frame : List UInt8 → Frame) : Cur Err Frame := do
  let _firstByte ← byte pkt.mem
  let data ← look pkt.mem xqcPathChallengeDataLen
  skip xqcPathChallengeDataLen
  return frame data

def xqcParsePathChallengeFrame : Cur Err Frame := pathFrame pkt .pathChallenge

def xqcParsePathResponseFrame : Cur Err Frame := pathFrame pkt .pathResponse

structure Room where
  /-- Whether `xqc_malloc` of that many bytes succeeds. -/
  malloc : Nat → Bool
  ackDelayExponent : UInt64

def parse (room : Room) : FrameKind → Cur Err Frame
  | .padding => xqcParsePaddingFrame pkt
  | .ping => xqcParsePingFrame
  | .ack => xqcParseAckFrame pkt room.ackDelayExponent
  | .resetStream => xqcParseResetStreamFrame pkt
  | .stopSending => xqcParseStopSendingFrame pkt
  | .crypto => xqcParseCryptoFrame pkt room.malloc
  | .newToken => xqcParseNewTokenFrame pkt xqcMaxTokenLen
  | .stream => xqcParseStreamFrame pkt room.malloc
  | .maxData => xqcParseMaxDataFrame pkt
  | .maxStreamData => xqcParseMaxStreamDataFrame pkt
  | .maxStreams => xqcParseMaxStreamsFrame pkt
  | .dataBlocked => xqcParseDataBlockedFrame pkt
  | .streamDataBlocked => xqcParseStreamDataBlockedFrame pkt
  | .streamsBlocked => xqcParseStreamsBlockedFrame pkt
  | .newConnectionId => xqcParseNewConnIdFrame pkt
  | .retireConnectionId => xqcParseRetireConnIdFrame pkt
  | .pathChallenge => xqcParsePathChallengeFrame pkt
  | .pathResponse => xqcParsePathResponseFrame pkt
  | .connectionClose => xqcParseConnCloseFrame pkt
  | .handshakeDone => xqcParseHandshakeDoneFrame

end RlccQuic.Transport.FrameParser
