import Tbquic.Frame.Ack
import Tbquic.Frame.Crypto

/-!
# The parsers of all frames

The part of a connection that the frames of a packet change, and the parser of every frame type
on it. Beside the connection it is noted whether a parser stopped because of the connection and
not because of the bytes of the frame, and whether memory was released that was never allocated.
-/

namespace Tbquic

/-- `QUIC_STATEM_INITIAL` to `QUIC_STATEM_CLOSED`, without those that only name TLS states. -/
inductive QuicStatemState
  | initial
  | handshake
  | handshakeDone
  | closing
  | draining
  | closed
  deriving DecidableEq, Repr

/-- `QuicCid`. -/
structure QuicCid where
  /-- The sequence number. -/
  seq : ℕ
  /-- The connection ID. -/
  id : List UInt8
  /-- The stateless reset token. -/
  statelessResetToken : List UInt8
  deriving DecidableEq, Repr

/-- `QuicCidPool`. -/
structure QuicCidPool where
  /-- The next sequence number to issue. -/
  maxSeq : ℕ
  /-- The number of connection IDs. -/
  num : ℤ
  /-- The connection IDs. -/
  queue : List QuicCid
  deriving DecidableEq, Repr

namespace QuicCidPool

/-- `QuicCidAdd`. -/
def add (p : QuicCidPool) (cid : QuicCid) : QuicCidPool :=
  { p with queue := p.queue ++ [cid], num := p.num + 1 }

/-- Remove the entry that the loop of `QuicCidFind` finds. -/
def unlink (seq : ℕ) : List QuicCid → Option (List QuicCid)
  | [] => none
  | cid :: queue =>
    if quicGt cid.seq seq then none
    else if cid.seq = seq then some queue
    else (unlink seq queue).map (cid :: ·)

/-- `QuicCidRetire`. -/
def retire (p : QuicCidPool) (seq : ℕ) : Option QuicCidPool :=
  if quicGe seq p.maxSeq then none
  else (unlink seq p.queue).map fun queue => { p with queue, num := p.num - 1 }

/-- The entries that `QuicCidRetirePriorTo` removes. -/
def prior (p : QuicCidPool) (priorTo : ℕ) : List QuicCid :=
  p.queue.takeWhile fun cid => ¬ quicGe cid.seq priorTo

/-- `QuicCidRetirePriorTo`. -/
def retirePriorTo (p : QuicCidPool) (priorTo : ℕ) : QuicCidPool :=
  { p with
    queue := p.queue.dropWhile fun cid => ¬ quicGe cid.seq priorTo
    num := p.num - (p.prior priorTo).length }

end QuicCidPool

/-- What the frames of a packet can change in a connection. -/
structure FrameConn where
  /-- Whether the packet has a buffer that received data can refer to. -/
  buf : Bool
  /-- `token`. -/
  token : Option (List UInt8)
  /-- `dcid.len`. -/
  dcidLen : ℕ
  /-- `conn.dcid`. -/
  cidPool : QuicCidPool
  /-- `active_connection_id_limit` of this endpoint. -/
  activeConnIdLimit : ℕ
  /-- The streams, with the parameters of both endpoints. -/
  streams : QuicStreams
  /-- `c->largest_acked`. -/
  largestAcked : ℕ
  /-- `c->sent_queue`, the oldest buffer first. -/
  sentQueue : List QBuff
  /-- The buffer of the handshake. -/
  buffer : QuicBuffer
  /-- `statem.state`. -/
  statem : QuicStatemState

/-- A packet and the connection that reads it. -/
structure FrameState where
  /-- The bytes of the packet. -/
  pkt : RPacket
  /-- The connection. -/
  conn : FrameConn
  /-- Whether a parser stopped because of the connection. -/
  refused : Bool
  /-- Whether memory was released that was never allocated. -/
  badFree : Bool

/-- `QUIC_TRANS_ACTIVE_CONN_ID_LIMIT`. -/
def quicTransActiveConnIdLimit : ℕ := 2

/-- `QUIC_STATELESS_RESET_TOKEN_LEN`. -/
def quicStatelessResetTokenLen : ℕ := 16

namespace FrameConn

/-- `QuicTransParamGetActiveConnIdLimit`. -/
def activeConnLimit (c : FrameConn) : ℕ :=
  if c.activeConnIdLimit < quicTransActiveConnIdLimit then quicTransActiveConnIdLimit
  else c.activeConnIdLimit

/-- Change the streams. -/
def withStreams {α : Type} (m : Prog Fail QuicStreams α) : Prog Fail FrameConn α :=
  Prog.zoom FrameConn.streams (fun streams c => { c with streams }) m

/-- Change the buffer of the handshake. -/
def withBuffer {α : Type} (m : Prog Fail QuicBuffer α) : Prog Fail FrameConn α :=
  Prog.zoom FrameConn.buffer (fun buffer c => { c with buffer }) m

/-- The packets sent, with their streams. -/
def sent (c : FrameConn) : FrameRecv where
  pkt := { past := [], rest := [] }
  streams := c.streams
  largestAcked := c.largestAcked
  sentQueue := c.sentQueue
  reads := []

/-- Change the packets sent. -/
def withSent {α : Type} (m : Prog Fail FrameRecv α) : Prog Fail FrameConn α :=
  Prog.zoom FrameConn.sent
    (fun s c => { c with streams := s.streams, sentQueue := s.sentQueue }) m

end FrameConn

namespace FrameState

/-- Read a number from the packet. -/
def readVar : Prog Fail FrameState ℕ :=
  Prog.zoom FrameState.pkt (fun pkt s => { s with pkt }) quicVariableLengthDecode

/-- Read bytes from the packet. -/
def readBytes (len : ℕ) : Prog Fail FrameState (List UInt8) :=
  Prog.zoom FrameState.pkt (fun pkt s => { s with pkt }) (rPacketGetBytes len)

/-- The number of bytes left in the packet. -/
def readRemaining : Prog Fail FrameState ℕ := do
  let s ← Prog.get
  pure s.pkt.remaining

/-- A step that depends on the connection alone. When it fails, the connection is the reason. -/
def connection {α : Type} (m : Prog Fail FrameConn α) : Prog Fail FrameState α := fun s =>
  match m s.conn with
  | (.ok a, conn) => (.ok a, { s with conn })
  | (.error e, conn) => (.error e, { s with conn, refused := true })

/-- A check of the connection. -/
def check (p : FrameConn → Prop) [DecidablePred p] : Prog Fail FrameState Unit :=
  connection do
    let c ← Prog.get
    Prog.ensure .ret (p c)

/-- Release memory that was never allocated. -/
def invalidFree {α : Type} : Prog Fail FrameState α := fun s =>
  (.error .ub, { s with badFree := true })

section Parsers

/- Whether `malloc` has memory of a size. -/
variable (mem : ℕ → Bool)

/-- `QuicDataParse` behind the release of the old data. When the packet is too short, the source
releases the record in place of the memory that it allocated. -/
def quicDataParse (len : ℕ) : Prog Fail FrameState (List UInt8) := do
  check fun _ => mem len = true
  match ← Prog.attempt (readBytes len) with
  | .ok bytes => pure bytes
  | .error .ret => invalidFree
  | .error e => Prog.fail e

/-- `QuicFramePingParser`. -/
def quicFramePingParser : Prog Fail FrameState Unit := pure ()

/-- `QuicFrameCryptoParser`. -/
def quicFrameCryptoParser : Prog Fail FrameState Unit := do
  let offset ← readVar
  let length ← readVar
  let totalLen : ℕ := (offset + length) % 2 ^ 64
  connection (FrameConn.withBuffer (quicFrameCryptoGrow mem totalLen))
  let bytes ← readBytes length
  connection (FrameConn.withBuffer (quicFrameCryptoCopy offset bytes))
  connection (FrameConn.withBuffer (Prog.modify (quicFrameCryptoEnd totalLen)))

/-- `QuicFrameNewTokenParser`. -/
def quicFrameNewTokenParser : Prog Fail FrameState Unit := do
  check fun c => c.streams.server = false
  let length ← readVar
  connection (Prog.modify fun c => { c with token := none })
  let bytes ← quicDataParse mem length
  connection (Prog.modify fun c => { c with token := some bytes })

/-- The receiving part of a stream that is reset. -/
def recvReset (si : QuicStreamInstance) : QuicStreamInstance :=
  if si.recvState = .recv ∨ si.recvState = .sizeKnown ∨ si.recvState = .dataRecvd then
    { si with recvState := .resetRecvd }
  else si

/-- `QuicFrameResetStreamParser`. -/
def quicFrameResetStreamParser : Prog Fail FrameState Unit := do
  let streamId ← readVar
  let _errorCode ← readVar
  let _finalSize ← readVar
  let id ← connection (FrameConn.withStreams (quicStreamGetInstance streamId))
  connection (FrameConn.withStreams (Prog.modify (·.updateSi id recvReset)))

/-- `QuicFrameStopSendingParser`. -/
def quicFrameStopSendingParser : Prog Fail FrameState Unit := do
  let h ← readVar
  let id ← connection (FrameConn.withStreams (quicStreamGetInstance h))
  check fun c => ¬ ((c.streams.si id).sendState = .start ∨ (c.streams.si id).sendState = .disable)
  connection (FrameConn.withStreams (Prog.modify
    (·.updateSi id fun si => { si with sendState := .disable })))
  let _errCode ← readVar
  connection (FrameConn.withStreams (Prog.modify (·.updateSi id quicStreamInstanceRecvOpen)))

/-- The calls of `QuicFrameAckParser`. -/
def ackHandlers : AckHandlers FrameState where
  setPkt pkt s := { s with pkt }
  readVar := readVar
  raise largest s := if quicGe largest s.conn.largestAcked then
    { s with conn.largestAcked := largest } else s
  ackSentPkt smallest largest start :=
    connection (FrameConn.withSent (qBufAckSentPkt smallest largest start))
  readVar_setPkt _ _ := rfl
  raise_setPkt largest pkt s := by
    dsimp only
    split_ifs <;> rfl
  ackSentPkt_setPkt smallest largest start pkt s := by
    unfold connection
    dsimp only
    split <;> rfl

/-- `QuicFrameAckParser`. -/
def quicFrameAckParser : Prog Fail FrameState Unit := ackHandlers.parser

/-- The offset of a STREAM frame is zero unless its type says that it follows. -/
def readStreamOffset (type : ℕ) : Prog Fail FrameState ℕ :=
  if streamBitOff type then readVar else pure 0

/-- The data of a STREAM frame takes the rest of the packet unless its type says that its length
follows. -/
def readStreamLen (type : ℕ) : Prog Fail FrameState ℕ :=
  if streamBitLen type then readVar else readRemaining

/-- The data of a STREAM frame, at the end of `QuicFrameStreamParser`. -/
def quicFrameStreamStore (id offset : ℕ) (data : List UInt8) : Prog Fail FrameConn Unit := do
  FrameConn.withStreams (Prog.modify (·.updateSi id quicStreamInstanceRecvOpen))
  let c ← Prog.get
  if (c.streams.si id).recvState ≠ .recv ∧ (c.streams.si id).recvState ≠ .sizeKnown then pure ()
  else do
    Prog.ensure .ret (c.buf = true)
    FrameConn.withStreams (Prog.modify (quicStreamDataAdd · id { offset, data }))
    FrameConn.withStreams (Prog.modify (·.notify id))

/-- The part of `QuicFrameStreamParser` behind the numbers of the frame. -/
def quicFrameStreamBody (type h offset len : ℕ) : Prog Fail FrameState Unit := do
  let id ← connection (FrameConn.withStreams (quicStreamGetInstance h))
  check fun c => (c.streams.si id).recvState ≠ .disable
  connection (FrameConn.withStreams (Prog.modify (·.updateSi id sendReady)))
  connection (FrameConn.withStreams (Prog.modify (·.updateSi id (recvFin (streamBitFin type)))))
  let data ← readBytes len
  connection (quicFrameStreamStore id offset data)

/-- `QuicFrameStreamParser`. -/
def quicFrameStreamParser (type : ℕ) : Prog Fail FrameState Unit := do
  let h ← readVar
  let offset ← readStreamOffset type
  let len ← readStreamLen type
  quicFrameStreamBody type h offset len

/-- `QuicFrameDataBlockedParser`. -/
def quicFrameDataBlockedParser : Prog Fail FrameState Unit := do
  let _maxData ← readVar
  pure ()

/-- `QuicFrameStreamDataBlockedParser`. -/
def quicFrameStreamDataBlockedParser : Prog Fail FrameState Unit := do
  let h ← readVar
  let id ← connection (FrameConn.withStreams (quicStreamGetInstance h))
  check fun c => (c.streams.si id).recvState ≠ .disable
  let _maxStreamData ← readVar
  connection (FrameConn.withStreams (Prog.modify (·.updateSi id quicStreamInstanceRecvOpen)))

/-- `QuicFrameStreamParamUpdate`, with the parameter as a field and its update. -/
def quicFrameStreamParamUpdate (get : QuicTransParams → ℕ)
    (set : ℕ → QuicTransParams → QuicTransParams) : Prog Fail FrameState Unit := do
  let maxStreams ← readVar
  connection (FrameConn.withStreams (Prog.modify fun q =>
    if quicGt maxStreams (get q.peerParam) then { q with peerParam := set maxStreams q.peerParam }
    else q))

/-- `QuicFrameMaxDataParser`. -/
def quicFrameMaxDataParser : Prog Fail FrameState Unit :=
  quicFrameStreamParamUpdate QuicTransParams.initialMaxData
    fun value param => { param with initialMaxData := value }

/-- `QuicFrameMaxStreamsBidiParser`. -/
def quicFrameMaxStreamsBidiParser : Prog Fail FrameState Unit :=
  quicFrameStreamParamUpdate QuicTransParams.initialMaxStreamBidi
    fun value param => { param with initialMaxStreamBidi := value }

/-- `QuicFrameMaxStreamsUniParser`. -/
def quicFrameMaxStreamsUniParser : Prog Fail FrameState Unit :=
  quicFrameStreamParamUpdate QuicTransParams.initialMaxStreamUni
    fun value param => { param with initialMaxStreamUni := value }

/-- `QuicFrameMaxStreamDataParser`. -/
def quicFrameMaxStreamDataParser : Prog Fail FrameState Unit := do
  let h ← readVar
  let id ← connection (FrameConn.withStreams (quicStreamGetInstance h))
  check fun c => ¬ ((c.streams.si id).recvState = .disable ∨ (c.streams.si id).recvState = .start)
  let maxStreamData ← readVar
  connection (FrameConn.withStreams (Prog.modify (·.updateSi id fun si =>
    if quicLt si.maxStreamData maxStreamData then { si with maxStreamData } else si)))

/-- `QuicFrameNewConnIdParser`. -/
def quicFrameNewConnIdParser : Prog Fail FrameState Unit := do
  let seq ← readVar
  let retirePriorTo ← readVar
  let len ← readVar
  check fun c => c.dcidLen ≠ 0
  connection (Prog.modify fun c => { c with cidPool := c.cidPool.retirePriorTo retirePriorTo })
  check fun c => ¬ quicGe c.cidPool.num c.activeConnLimit
  let id ← quicDataParse mem len
  let statelessResetToken ← readBytes quicStatelessResetTokenLen
  connection (Prog.modify fun c =>
    { c with cidPool := c.cidPool.add { seq, id, statelessResetToken } })

/-- `QuicFrameRetireConnIdParser`. A connection ID that is not found is no error. -/
def quicFrameRetireConnIdParser : Prog Fail FrameState Unit := do
  let seq ← readVar
  connection (Prog.modify fun c => { c with cidPool := (c.cidPool.retire seq).getD c.cidPool })

/-- `QuicFrameConnCloseParser`. -/
def quicFrameConnCloseParser (type : ℕ) : Prog Fail FrameState Unit := do
  let _errCode ← readVar
  let _frameType ← if type = quicFrameTypeConnectionClose then readVar else pure 0
  let reasonPhraseLen ← readVar
  let _reasonPhrase ← readBytes reasonPhraseLen
  connection (Prog.modify fun c => { c with statem := .draining })

/-- `QuicFrameHandshakeDoneParser`. -/
def quicFrameHandshakeDoneParser : Prog Fail FrameState Unit :=
  connection (Prog.modify fun c => if c.streams.server then c else
    { c with statem := .handshakeDone })

/-- The parsers of `frame_handler`. -/
def frameParser (type : ℕ) : Option (Prog Fail FrameState Unit) :=
  match type with
  | 0x01 => some quicFramePingParser
  | 0x02 => some quicFrameAckParser
  | 0x04 => some quicFrameResetStreamParser
  | 0x05 => some quicFrameStopSendingParser
  | 0x06 => some (quicFrameCryptoParser mem)
  | 0x07 => some (quicFrameNewTokenParser mem)
  | 0x08 | 0x09 | 0x0a | 0x0b | 0x0c | 0x0d | 0x0e | 0x0f => some (quicFrameStreamParser type)
  | 0x10 => some quicFrameMaxDataParser
  | 0x11 => some quicFrameMaxStreamDataParser
  | 0x12 => some quicFrameMaxStreamsBidiParser
  | 0x13 => some quicFrameMaxStreamsUniParser
  | 0x14 => some quicFrameDataBlockedParser
  | 0x15 => some quicFrameStreamDataBlockedParser
  | 0x18 => some (quicFrameNewConnIdParser mem)
  | 0x19 => some quicFrameRetireConnIdParser
  | 0x1c | 0x1d => some (quicFrameConnCloseParser type)
  | 0x1e => some quicFrameHandshakeDoneParser
  | _ => none

/-- The frame loop on a connection. Acknowledging and the handshake come after the loop and are
not modelled here. -/
def frameHandlers : FrameHandlers FrameState where
  pkt := FrameState.pkt
  setPkt pkt s := { s with pkt }
  setPkt_pkt _ := rfl
  parser := frameParser mem
  ackFrameBuild := pure ()
  cryptoFound := pure ()

/-- The frame loop of `QuicFrameDoParser` on a payload. -/
def recvPayload (conn : FrameConn) (payload : List UInt8) : Except Fail FrameFlags × FrameState :=
  quicFrameLoop (frameHandlers mem) (payload.length + 1) ⟨false, false⟩
    ⟨rPacketBufInit payload, conn, false, false⟩

end Parsers

end FrameState

/-- The connection of a server whose client opened some streams. -/
def openedConn : FrameConn where
  buf := true
  token := none
  dcidLen := 8
  cidPool := { maxSeq := 1, num := 0, queue := [] }
  activeConnIdLimit := 2
  streams := openedStreams
  largestAcked := 0
  sentQueue := []
  buffer := quicBufInit 0
  statem := .handshakeDone

end Tbquic
