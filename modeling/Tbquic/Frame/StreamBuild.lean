import Tbquic.Frame.Queue
import Tbquic.Frame.Wire
import Tbquic.Stream.Send

/-!
# Building STREAM frames

`QuicStreamFrameBuild` writes the entries of a vector as STREAM frames, split over as many
buffers as they need, and queues the buffers. The offset of a frame is the number of bytes
sent so far, which changes only when a buffer is put into a packet.
-/

namespace Tbquic

/-- `QUIC_FRAME_STREAM_HEADER_MAX_LEN`. -/
def quicFrameStreamHeaderMaxLen : ℕ := 16

/-- The part of a connection that sends stream data. -/
structure QuicConn (Ctx : Type) where
  /-- The streams. -/
  streams : QuicStreams
  /-- The packet number space of 1-RTT packets. -/
  application : QuicCrypto Ctx
  /-- `tx_queue`, the oldest buffer first. -/
  txQueue : List QBuff
  /-- The size of a datagram. -/
  mss : ℕ
  /-- The length of the destination connection id. -/
  dcidLen : ℕ
  /-- The length of a packet number field, minus one. -/
  pktNumLen : ℕ
  /-- `QUIC_CTRL_SET_MSS` refuses larger datagrams. -/
  mss_le : mss ≤ quicDatagramSizeMax
  /-- The length is sent in one byte. -/
  dcidLen_le : dcidLen ≤ 255
  /-- The field has two bits. -/
  pktNumLen_le : pktNumLen ≤ 3

/-- The fields of `QUIC_STREAM_IOVEC` that a sender fills. -/
structure QuicStreamIovec where
  /-- The stream. -/
  handle : ℤ
  /-- The flags. `QuicStreamFrameBuild` does not read them. -/
  fin : Bool
  /-- The data. -/
  data : List UInt8
  deriving DecidableEq, Repr

/-- What the builders work on: the connection, the buffer being filled and the writer over its
bytes. -/
structure FrameBuild (Ctx : Type) where
  /-- The connection. -/
  quic : QuicConn Ctx
  /-- The writer. -/
  pkt : WPacket
  /-- The buffer. -/
  qb : QBuff

/-- The end of `QuicFrameStreamBuild` without a length: as many bytes as fit. The result of
`QUIC_MIN` is converted to `int`. -/
def quicFrameStreamRest (data : List UInt8) : Prog Fail WPacket ℕ := do
  let pkt ← Prog.get
  let dataLen := toInt (quicMin (pkt.space % 2 ^ 64).toNat data.length)
  let len : ℕ := (dataLen % 2 ^ 64).toNat
  Prog.ensure .ub (len ≤ data.length)
  wPacketMemcpy (data.take len)
  Prog.ensure .ret (0 ≤ dataLen)
  pure len

/-- The offset of a frame, when it has one. -/
def quicFrameStreamOffsetWrite (offset : ℕ) : Prog Fail WPacket Unit :=
  if offset ≠ 0 then quicVariableLengthWrite offset else pure ()

/-- The data of a frame, with its length unless the frame is `last`. -/
def quicFrameStreamDataWrite (last : Bool) (data : List UInt8) : Prog Fail WPacket ℕ :=
  if last then quicFrameStreamRest data else quicWPacketSubMemcpyVar data

/-- The part of `QuicFrameStreamBuild` that writes. -/
def quicFrameStreamPut (id offset : ℕ) (fin last : Bool) (data : List UInt8) :
    Prog Fail WPacket ℕ := do
  quicVariableLengthWrite (streamFrameType (offset ≠ 0) (!last) fin)
  quicVariableLengthWrite id
  quicFrameStreamOffsetWrite offset
  quicFrameStreamDataWrite last data

namespace FrameBuild

variable {Ctx : Type}

/-- Run an operation on the writer. -/
def onPkt {α : Type} (m : Prog Fail WPacket α) : Prog Fail (FrameBuild Ctx) α :=
  Prog.zoom FrameBuild.pkt (fun pkt s => { s with pkt }) m

/-- Run an operation on the streams. -/
def onStreams {α : Type} (m : Prog Fail QuicStreams α) : Prog Fail (FrameBuild Ctx) α :=
  Prog.zoom (fun s => s.quic.streams) (fun streams s => { s with quic.streams := streams }) m

/-- Run an operation on the queue and the buffer being filled. -/
def onQueue {α : Type} (m : Prog Fail QBuffFill α) : Prog Fail (FrameBuild Ctx) α :=
  Prog.zoom (fun s => { txQueue := s.quic.txQueue, pkt := s.pkt, qb := s.qb })
    (fun f s => { s with quic.txQueue := f.txQueue, pkt := f.pkt, qb := f.qb }) m

end FrameBuild

section Build

variable {Ctx : Type}

/-- `QuicFrameStreamBuild`. -/
def quicFrameStreamBuild (handle : ℤ) (data : List UInt8) (fin last : Bool) :
    Prog Fail (FrameBuild Ctx) ℕ := do
  let id ← FrameBuild.onStreams (quicStreamGetInstance handle)
  let s ← Prog.get
  Prog.ensure .ret ((s.quic.streams.si id).sendState = .ready ∨
    (s.quic.streams.si id).sendState = .send)
  FrameBuild.onStreams (Prog.modify (·.updateSi id sendStarted))
  let s ← Prog.get
  let offset := (s.quic.streams.si id).statBytes.sent
  FrameBuild.onStreams (Prog.modify (·.updateSi id (sendFin fin)))
  FrameBuild.onPkt (quicFrameStreamPut id offset fin last data)

/-- `nqb->stream_id = id`, with the flag of a final frame. -/
def QBuff.setStream (id : ℤ) (fin : Bool) (qb : QBuff) : QBuff :=
  { qb with
    streamId := id, flags := if fin then qb.flags ||| qbuffFlagsStreamFin else qb.flags }

/-- The loop of `QuicFrameStreamWrite`, on the data that is left. The comparison of the offset
with the length of the data reads their difference. -/
def quicFrameStreamWrite (bufLen : ℕ) (handle : ℤ) (fin last : Bool) :
    ℕ → List UInt8 → Prog Fail (FrameBuild Ctx) Unit
  | 0, _ => Prog.fail .fuel
  | fuel + 1, data =>
    if quicLt 0 data.length then do
      FrameBuild.onQueue
        (quicBuffQueueAndNext quicPktType1Rtt bufLen quicFrameStreamHeaderMaxLen)
      Prog.modify fun s => { s with qb := s.qb.setStream handle fin }
      let wlen ← quicFrameStreamBuild handle data fin last
      Prog.modify fun s => { s with qb.streamLen := s.qb.streamLen + wlen }
      quicFrameStreamWrite bufLen handle fin last fuel (data.drop wlen)
    else pure ()

/-- The loop of `QuicStreamFrameBuild` over the vector. The local `flags` is never set, and all
entries but the last one are written as `last`. -/
def quicStreamFrameEntries (bufLen fuel : ℕ) :
    List QuicStreamIovec → Prog Fail (FrameBuild Ctx) Unit
  | [] => pure ()
  | v :: iov => do
    quicFrameStreamWrite bufLen v.handle false (!iov.isEmpty) fuel v.data
    quicStreamFrameEntries bufLen fuel iov

/-- `QuicFrameAckSendCheck`. -/
def quicFrameAckSendCheck (c : QuicCrypto Ctx) : Bool :=
  c.encrypt.cipherInited && c.largestAck ≠ c.largestPn

/-- `QuicFrameAckGen` at the time `now`. -/
def quicFrameAckGen (now : ℕ) : Prog Fail (FrameBuild Ctx) Unit := do
  let s ← Prog.get
  FrameBuild.onPkt (quicVariableLengthWrite s.quic.application.largestPn)
  let delay : ℕ := (((now : ℤ) - s.quic.application.arrivTime) % 2 ^ 64).toNat
  Prog.ensure .assert (quicGe delay 0)
  FrameBuild.onPkt (quicVariableLengthWrite delay)
  FrameBuild.onPkt (quicVariableLengthWrite 0)
  FrameBuild.onPkt (quicVariableLengthWrite s.quic.application.firstAckRange)
  Prog.modify fun t => { t with quic.application.largestAck := s.quic.application.largestPn }

/-- The ACK frame at the start of `QuicStreamFrameBuild`. -/
def quicStreamFrameAck (now : ℕ) : Prog Fail (FrameBuild Ctx) Unit := do
  let s ← Prog.get
  if quicFrameAckSendCheck s.quic.application then do
    FrameBuild.onPkt (quicVariableLengthWrite quicFrameTypeAck)
    quicFrameAckGen now
  else pure ()

/-- `QuicSPacketGetTotalLen`. -/
def quicSPacketGetTotalLen (quic : QuicConn Ctx) (dataLen : ℕ) : Except Fail ℕ :=
  quicSPacketLen quic.dcidLen quic.pktNumLen quic.application.encrypt.ppCipher.cipher.alg dataLen

/-- `QuicFrameGetBuffLen` for 1-RTT packets. -/
def quicFrameGetBuffLen (quic : QuicConn Ctx) : Except Fail ℕ := do
  let total ← quicSPacketGetTotalLen quic quic.mss
  quicFrameBuffLen quic.mss total

/-- `QuicStreamFrameBuild` behind the choice of the length of the buffers. -/
def quicStreamFrames (now fuel bufLen : ℕ) (iov : List QuicStreamIovec) :
    Prog Fail (FrameBuild Ctx) Unit := do
  quicStreamFrameAck now
  quicStreamFrameEntries bufLen fuel iov
  FrameBuild.onQueue quicFrameFlush

/-- `QuicStreamFrameBuild` at the time `now`. The fuel bounds the rounds of each loop. -/
def quicStreamFrameBuild (now fuel : ℕ) (iov : List QuicStreamIovec) :
    Prog Fail (QuicConn Ctx) Unit := fun quic =>
  match quicFrameGetBuffLen quic with
  | .error e => (.error e, quic)
  | .ok bufLen =>
    let r := quicStreamFrames now fuel bufLen iov
      { quic, pkt := wPacketStaticBufInit bufLen, qb := qBuffNew quicPktType1Rtt bufLen }
    (r.1, r.2.quic)

end Build

end Tbquic
