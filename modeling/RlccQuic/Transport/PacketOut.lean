/-
  RlccQuic.Transport.PacketOut — outgoing packets (`xqc_packet_out.h`, `xqc_packet.c`: `xqc_packet_type_to_pns`; the
  macros of `xqc_frame.h`; what `xqc_frame_parser.c` and `xqc_conn.c` do to a packet's size and frame types).

  A packet is known by its address. Its frame types are a set; what is not read here (the buffer itself, the sampler's
  snapshot, the user's data, the flags for streams and notifications) is left out. Packets without a number (Version
  Negotiation, Retry) are sent past the send control and are left out, too.
-/

import Mathlib.Data.Finset.Basic
import RlccQuic.Transport.Defs

namespace RlccQuic.Transport

abbrev FrameTypes := Finset FrameKind

namespace FrameTypes

def isAckEliciting (types : FrameTypes) : Prop := (types \ {.ack, .padding, .connectionClose}).Nonempty

def canInFlight (types : FrameTypes) : Prop := (types \ {.ack, .connectionClose}).Nonempty

def needRepair (types : FrameTypes) : Prop := (types \ {.ack, .padding, .ping, .connectionClose}).Nonempty

instance (types : FrameTypes) : Decidable types.isAckEliciting := by unfold isAckEliciting; infer_instance

instance (types : FrameTypes) : Decidable types.canInFlight := by unfold canInFlight; infer_instance

instance (types : FrameTypes) : Decidable types.needRepair := by unfold needRepair; infer_instance

lemma isAckEliciting.canInFlight {types : FrameTypes} (h : types.isAckEliciting) : types.canInFlight := by
  obtain ⟨k, hk⟩ := h
  refine ⟨k, ?_⟩
  simp only [Finset.mem_sdiff, Finset.mem_insert, Finset.mem_singleton] at hk ⊢
  tauto

end FrameTypes

abbrev Id := Nat

/-- `xqc_packet_out_t`; `default` is one that was zeroed. -/
structure PacketOut where
  pktType : PktType
  pktNum : UInt64
  /-- `XQC_POF_IN_FLIGHT`. -/
  inFlight : Bool
  /-- `XQC_POF_LOST`. -/
  lost : Bool
  /-- `XQC_POF_TLP`. -/
  tlp : Bool
  /-- `XQC_POF_RETRANSED`. -/
  retransed : Bool
  /-- `XQC_POF_RESEND`. -/
  resend : Bool
  frameTypes : FrameTypes
  /-- The streams of `po_stream_frames`, the used entries. -/
  streamFrames : List Nat
  usedSize : UInt32
  ackOffset : UInt32
  /-- The packet this one is a copy of. -/
  origin : Option Id
  originRefCnt : Nat
  acked : Bool
  sentTime : UInt64
  largestAck : UInt64
  deriving DecidableEq

instance : Inhabited PacketOut where
  default :=
    { pktType := .init, pktNum := 0, inFlight := false, lost := false, tlp := false, retransed := false,
      resend := false, frameTypes := ∅, streamFrames := [], usedSize := 0, ackOffset := 0, origin := none,
      originRefCnt := 0, acked := false, sentTime := 0, largestAck := 0 }

namespace PacketOut

def pns (p : PacketOut) : Pns := p.pktType.pns

/-- A frame as it is written to a packet: its kind, its bytes, the stream of a
    STREAM or RESET_STREAM frame, the largest number an ACK frame acknowledges. -/
structure NewFrame where
  kind : FrameKind
  len : UInt32
  stream : Option Nat
  largestAck : UInt64

def xqcMaxStreamFrameInPo : Nat := 3

/-- A frame generator (`xqc_gen_*_frame`) and what its caller records. Only an ACK
    frame's place is remembered (`xqc_write_ack_to_one_packet`). -/
def addFrame (f : NewFrame) (p : PacketOut) : PacketOut :=
  { p with
    frameTypes := insert f.kind p.frameTypes
    usedSize := p.usedSize + f.len
    ackOffset := if f.kind = .ack then p.usedSize else p.ackOffset
    largestAck := if f.kind = .ack then f.largestAck else p.largestAck
    streamFrames := (p.streamFrames ++ f.stream.toList).take xqcMaxStreamFrameInPo }

def xqcPacketInitialMinLength : UInt32 := 1200

def genPaddingFrame (p : PacketOut) : PacketOut :=
  if p.usedSize < xqcPacketInitialMinLength then
    { p with usedSize := xqcPacketInitialMinLength, frameTypes := insert .padding p.frameTypes }
  else p

def needPadding (client : Bool) (p : PacketOut) : Bool :=
  if p.pns = .init then client || decide p.frameTypes.isAckEliciting
  else decide (.pathChallenge ∈ p.frameTypes) || decide (.pathResponse ∈ p.frameTypes)

def pad (client : Bool) (p : PacketOut) : PacketOut := if p.needPadding client then p.genPaddingFrame else p

/-- `xqc_convert_pkt_0rtt_2_1rtt`: the long header is replaced by a short one, so that the packet has `size` bytes. -/
def convert0rtt21rtt (size : UInt32) (p : PacketOut) : PacketOut := { p with pktType := .shortHeader, usedSize := size }

def copyOf (o : Id) (p : PacketOut) : PacketOut := { p with origin := some o, originRefCnt := 0 }

def withRefs (refs : Nat) (p : PacketOut) : PacketOut := { p with originRefCnt := refs }

def hasType (type : PktType) (p : PacketOut) : Bool := p.pktType == type

/-- `xqc_send_ctl_stream_frame_can_drop`: the packet has STREAM frames only, all of one stream. -/
def streamFrameCanDrop (stream : Nat) (p : PacketOut) : Bool :=
  decide (p.frameTypes = {.stream}) && !p.streamFrames.isEmpty && p.streamFrames.all (· == stream)

def needReassemble (p : PacketOut) : Bool :=
  (decide (p.pktType = .init) && decide (.crypto ∈ p.frameTypes)) || decide (p.pktType = .zeroRtt)

end PacketOut

end RlccQuic.Transport
