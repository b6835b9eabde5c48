/-
  RlccQuic.Transport.Defs — what the transport's modules share: packet number spaces and types, frame kinds, connection
  states, error codes and sizes, and the limits of flow control a stream starts with.
-/

import Mathlib.Algebra.GroupWithZero.Nat

namespace RlccQuic.Transport

inductive Pns where
  | init
  | hsk
  | appData
  deriving DecidableEq, Repr

/-- `xqc_pkt_type_t`, the types of packets that have a number. -/
inductive PktType where
  | init
  | zeroRtt
  | hsk
  | shortHeader
  deriving DecidableEq, Repr

def PktType.pns : PktType → Pns
  | .init => .init
  | .zeroRtt => .appData
  | .hsk => .hsk
  | .shortHeader => .appData

inductive FrameKind where
  | padding
  | ping
  | ack
  | resetStream
  | stopSending
  | crypto
  | newToken
  | stream
  | maxData
  | maxStreamData
  | maxStreams
  | dataBlocked
  | streamDataBlocked
  | streamsBlocked
  | newConnectionId
  | retireConnectionId
  | pathChallenge
  | pathResponse
  | connectionClose
  | handshakeDone
  deriving DecidableEq, Repr

inductive ConnState where
  | serverInit
  | serverInitialRecvd
  | serverInitialSent
  | serverHandshakeSent
  | serverHandshakeRecvd
  | clientInit
  | clientInitialSent
  | clientInitialRecvd
  | clientHandshakeRecvd
  | clientHandshakeSent
  | estabed
  | closing
  | draining
  | closed
  deriving DecidableEq, Repr

def ConnState.isDraining : ConnState → Bool
  | .draining | .closed => true
  | _ => false

def ConnState.isClosing : ConnState → Bool
  | .closing | .draining | .closed => true
  | _ => false

inductive ConnType where
  | server
  | client
  deriving DecidableEq, Repr

/-- The error codes, as the functions return them negated. -/
inductive Err where
  | enobuf
  | evintread
  | emalloc
  | esys
  | eproto
  | eignorePkt
  | eillegalFrame
  | eagain
  | edupFrame
  | estreamReset
  /-- Any other code, of a function that is not modelled. -/
  | other (code : Int)
  deriving DecidableEq, Repr

/-- What the functions that take a received packet return. -/
inductive PktRet where
  | ok
  | eillpkt
  | eversion
  | ewaiting
  | eignorePkt
  | eproto
  | estate
  | esys
  /-- Any other code, of a function that is not modelled. -/
  | other (code : Int)
  deriving DecidableEq, Repr

/-- The errors a packet is dropped for without harm to the connection. -/
def xqcConnTolerantError : PktRet → Bool
  | .eversion | .eillpkt | .ewaiting | .eignorePkt => true
  | _ => false

def xqcMaxTokenLen : Nat := 256

def xqcMaxCidLen : Nat := 20

def xqcStatelessResetTokenlen : Nat := 16

def xqcPathChallengeDataLen : Nat := 8

def xqcMaxAckRangeCnt : Nat := 64

/-! ## Limits of streams -/

inductive StreamType where
  | cliBid
  | svrBid
  | cliUni
  | svrUni
  deriving DecidableEq, Repr

/-- `xqc_trans_settings_t`, what flow control uses of it. -/
structure TransSettings where
  maxData : UInt64
  maxStreamDataBidiLocal : UInt64
  maxStreamDataBidiRemote : UInt64
  maxStreamDataUni : UInt64
  deriving DecidableEq, Repr

def localDefaults : TransSettings :=
  ⟨1024 * (16 * 1024 * 1024) + 1024 * (16 * 1024 * 1024), 16 * 1024 * 1024, 16 * 1024 * 1024, 16 * 1024 * 1024⟩

structure Limits where
  fcMaxStreamDataCanSend : UInt64
  fcMaxStreamDataCanRecv : UInt64
  fcStreamRecvWindowSize : UInt64
  deriving DecidableEq, Repr

/-- The local settings stand in for the peer's while these have no bit in common. -/
def xqcStreamSetFlowCtl (client : Bool) (type : StreamType) (localSettings remoteSettings : TransSettings) : Limits :=
  let remote :=
    if remoteSettings.maxStreamDataBidiRemote &&& remoteSettings.maxStreamDataBidiLocal &&&
        remoteSettings.maxStreamDataUni = 0 then localSettings
    else remoteSettings
  match client, type with
  | true, .cliBid | false, .svrBid =>
    ⟨remote.maxStreamDataBidiRemote, localSettings.maxStreamDataBidiLocal, localSettings.maxStreamDataBidiLocal⟩
  | true, .svrBid | false, .cliBid =>
    ⟨remote.maxStreamDataBidiLocal, localSettings.maxStreamDataBidiRemote, localSettings.maxStreamDataBidiRemote⟩
  | _, .cliUni | _, .svrUni => ⟨remote.maxStreamDataUni, localSettings.maxStreamDataUni, localSettings.maxStreamDataUni⟩

/-- What `xqc_create_stream_with_conn` makes of a stream's type and limits. -/
structure NewStream where
  type : StreamType
  limits : Limits
  deriving DecidableEq, Repr

/-- The memory of a stream is cleared, so its type is that of a client's bidirectional stream (0) when the limits are
    set; its own type comes after that. -/
def NewStream.xqcCreateStreamWithConn (client : Bool) (type : StreamType) (localSettings remoteSettings : TransSettings) :
    NewStream :=
  let stream : NewStream := ⟨.cliBid, 0, 0, 0⟩
  let stream := { stream with limits := xqcStreamSetFlowCtl client stream.type localSettings remoteSettings }
  { stream with type }

/-- The limit that settings set for a stream. They are those of the client, or of the server,
    and are for what that endpoint receives. -/
def TransSettings.limit (client : Bool) (type : StreamType) (s : TransSettings) : UInt64 :=
  match type with
  | .cliBid => if client then s.maxStreamDataBidiLocal else s.maxStreamDataBidiRemote
  | .svrBid => if client then s.maxStreamDataBidiRemote else s.maxStreamDataBidiLocal
  | .cliUni | .svrUni => s.maxStreamDataUni

lemma canRecv_eq (client : Bool) (type : StreamType) (own peer : TransSettings) :
    (xqcStreamSetFlowCtl client type own peer).fcMaxStreamDataCanRecv = own.limit client type := by
  cases client <;> cases type <;> rfl

lemma canSend_eq (client : Bool) (type : StreamType) (own peer : TransSettings) :
    (xqcStreamSetFlowCtl client type own peer).fcMaxStreamDataCanSend =
      if peer.maxStreamDataBidiRemote &&& peer.maxStreamDataBidiLocal &&& peer.maxStreamDataUni = 0 then
        own.limit (!client) type
      else peer.limit (!client) type := by
  unfold xqcStreamSetFlowCtl
  split <;> cases client <;> cases type <;> rfl

/-- The send limit of a new stream is what the peer's settings say for its type, and the limit that the peer holds
    the stream to, exactly if these are what they say for a client's bidirectional stream, and have a bit in common or
    are as the own ones. Where the limits are set again for a stream with its type, the latter is enough. -/
theorem send_limit_is_the_peers_iff (client : Bool) (type : StreamType) (own peer : TransSettings) :
    ((NewStream.xqcCreateStreamWithConn client type own peer).limits.fcMaxStreamDataCanSend = peer.limit (!client) type ∧
        (NewStream.xqcCreateStreamWithConn client type own peer).limits.fcMaxStreamDataCanSend =
          (NewStream.xqcCreateStreamWithConn (!client) type peer own).limits.fcMaxStreamDataCanRecv ↔
      peer.limit (!client) .cliBid = peer.limit (!client) type ∧
        (peer.maxStreamDataBidiRemote &&& peer.maxStreamDataBidiLocal &&& peer.maxStreamDataUni ≠ 0 ∨
          own.limit (!client) .cliBid = peer.limit (!client) .cliBid)) ∧
    ((xqcStreamSetFlowCtl client type own peer).fcMaxStreamDataCanSend = peer.limit (!client) type ∧
        (xqcStreamSetFlowCtl client type own peer).fcMaxStreamDataCanSend =
          (xqcStreamSetFlowCtl (!client) type peer own).fcMaxStreamDataCanRecv ↔
      peer.maxStreamDataBidiRemote &&& peer.maxStreamDataBidiLocal &&& peer.maxStreamDataUni ≠ 0 ∨
        own.limit (!client) type = peer.limit (!client) type) := by
  simp only [NewStream.xqcCreateStreamWithConn, canRecv_eq, canSend_eq, and_self]
  by_cases hzero : peer.maxStreamDataBidiRemote &&& peer.maxStreamDataBidiLocal &&& peer.maxStreamDataUni = 0
  · simp only [hzero, ne_eq, not_true, false_or, if_true]
    refine ⟨⟨?_, ?_⟩, trivial⟩
    · rintro ⟨htype, hpeer⟩; exact ⟨hpeer.symm.trans htype, hpeer⟩
    · rintro ⟨htype, hpeer⟩; exact ⟨hpeer.trans htype, hpeer⟩
  · simp [hzero]

/-- 64 kB for streams that the peer opens, 128 kB for the others: the client sends up to the 16 MB of its own
    settings. And with a common bit a unidirectional stream gets the limit of a bidirectional one. -/
theorem limits_without_a_common_bit_are_passed_over :
    ((NewStream.xqcCreateStreamWithConn true .cliBid localDefaults
      ⟨1048576, 65536, 131072, 65536⟩).limits.fcMaxStreamDataCanSend =
        16777216 ∧
      (NewStream.xqcCreateStreamWithConn false .cliBid ⟨1048576, 65536, 131072, 65536⟩
        localDefaults).limits.fcMaxStreamDataCanRecv =
        131072) ∧
    (NewStream.xqcCreateStreamWithConn true .cliUni localDefaults ⟨1048576, 65537, 131073, 65537⟩).limits.fcMaxStreamDataCanSend =
      131073 := by
  decide

end RlccQuic.Transport
