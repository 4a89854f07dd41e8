import Tbquic.Common
import Tbquic.Lib.Segment

/-!
# Streams

The stream table of a connection: the state of each stream, the opening of streams and the
flow control of received data.
-/

namespace Tbquic

/-- `QUIC_STREAM_STATE_*`. -/
inductive StreamState
  | disable
  | start
  | ready
  | send
  | recv
  | sizeKnown
  | dataSent
  | resetSent
  | dataRecvd
  | resetRecvd
  | dataRead
  | resetRead
  deriving DecidableEq, Repr

/-- `QuicStreamData`: received bytes with their offset. The source stores the length beside
a pointer into the receive buffer. -/
abbrev QuicStreamData := Segment UInt8

/-- `QuicDataStat`. -/
structure QuicDataStat where
  /-- The bytes sent. -/
  sent : ℕ
  /-- The bytes received. -/
  recvd : ℕ
  deriving DecidableEq, Repr

/-- `QuicStreamInstance`. -/
structure QuicStreamInstance where
  /-- The state of the receiving part. -/
  recvState : StreamState
  /-- The state of the sending part. -/
  sendState : StreamState
  /-- Whether the application was told of data. -/
  notified : Bool
  /-- Whether this endpoint opened the stream. -/
  localOpened : Bool
  /-- Whether the stream is unidirectional. -/
  uni : Bool
  /-- The limit of the peer on the bytes sent. -/
  maxStreamData : ℕ
  /-- The bytes counted by flow control. -/
  statBytes : QuicDataStat
  /-- The bytes returned to the application. -/
  offset : ℕ
  /-- The received bytes that wait for a read. -/
  queue : List QuicStreamData
  deriving DecidableEq, Repr

/-- `QuicStreamMsg` of type `QUIC_STREAM_MSG_TYPE_DATA_RECVED`, the only type. -/
structure QuicStreamMsg where
  /-- The stream with data. -/
  id : ℕ
  deriving DecidableEq, Repr

/-- `QuicStreamConf`. -/
structure QuicStreamConf where
  /-- The bytes of all streams. -/
  statAll : QuicDataStat
  /-- The largest stream opened. -/
  maxIdOpened : ℕ
  /-- The size of the table. -/
  maxIdValue : ℕ
  /-- Whether the table is allocated. -/
  inited : Bool
  /-- The table. -/
  stream : ℕ → QuicStreamInstance
  /-- The messages for the application. -/
  msgQueue : List QuicStreamMsg

/-- The fields of `QuicTransParams` that the streams read. -/
structure QuicTransParams where
  /-- `initial_max_data`. -/
  initialMaxData : ℕ
  /-- `initial_max_stream_data_bidi_remote`. -/
  initialMaxStreamDataBidiRemote : ℕ
  /-- `initial_max_stream_data_uni`. -/
  initialMaxStreamDataUni : ℕ
  /-- `initial_max_stream_bidi`. -/
  initialMaxStreamBidi : ℕ
  /-- `initial_max_stream_uni`. -/
  initialMaxStreamUni : ℕ

/-- The fields of `QUIC` that the streams use. -/
structure QuicStreams where
  /-- Whether this endpoint is the server. -/
  server : Bool
  /-- The stream table. -/
  conf : QuicStreamConf
  /-- `tls.ext.trans_param`. -/
  transParam : QuicTransParams
  /-- `peer_param`. -/
  peerParam : QuicTransParams

/-- `QUIC_STREAM_INITIATED_BY_SERVER`. -/
def initiatedByServer (id : ℕ) : Bool := id.testBit 0

/-- `QUIC_STREAM_UNIDIRECTIONAL`. -/
def unidirectional (id : ℕ) : Bool := id.testBit 1

/-- `QuicStreamComputeMaxId`. -/
def quicStreamComputeMaxId (num : ℕ) (uni server : Bool) : ℕ :=
  let base := num % 4
  let top := num / 4 * 4
  let base := if uni then base ||| 2 else base
  let base := if server then base ||| 1 else base
  (top * 2) % 2 ^ 64 ||| base

/-- `QuicStreamPeerOpened`. -/
def quicStreamPeerOpened (id : ℕ) (server : Bool) : Bool :=
  (server && !initiatedByServer id) || (!server && initiatedByServer id)

/-- `QuicStreamInstanceRecvOpen`. -/
def quicStreamInstanceRecvOpen (si : QuicStreamInstance) : QuicStreamInstance :=
  if si.recvState = .start then { si with recvState := .recv } else si

namespace QuicStreams

/-- The entry of a stream. -/
def si (q : QuicStreams) (id : ℕ) : QuicStreamInstance := q.conf.stream id

/-- Replace the entry of a stream. -/
def setSi (q : QuicStreams) (id : ℕ) (si : QuicStreamInstance) : QuicStreams :=
  { q with conf.stream := Function.update q.conf.stream id si }

/-- Change the entry of a stream. -/
def updateSi (q : QuicStreams) (id : ℕ) (f : QuicStreamInstance → QuicStreamInstance) :
    QuicStreams :=
  q.setSi id (f (q.si id))

@[simp] theorem setSi_si (q : QuicStreams) (id : ℕ) (entry : QuicStreamInstance) :
    (q.setSi id entry).si id = entry := by
  simp [setSi, si]

@[simp] theorem updateSi_si (q : QuicStreams) (id : ℕ)
    (f : QuicStreamInstance → QuicStreamInstance) : (q.updateSi id f).si id = f (q.si id) := by
  simp [updateSi]

theorem updateSi_si_of_ne (q : QuicStreams) {id i : ℕ}
    (f : QuicStreamInstance → QuicStreamInstance) (h : i ≠ id) :
    (q.updateSi id f).si i = q.si i := by
  simp [updateSi, setSi, si, h]

/-- `QuicStreamIdCheckPeer`. -/
def idCheckPeer (q : QuicStreams) (id : ℕ) : Bool :=
  quicStreamPeerOpened id q.server ||
    decide (id < if unidirectional id then
      quicStreamComputeMaxId q.transParam.initialMaxStreamUni true q.server
    else quicStreamComputeMaxId q.transParam.initialMaxStreamBidi false q.server)

/-- `QuicStreamIdCheck`. -/
def idCheck (q : QuicStreams) (h : ℤ) : Bool :=
  decide (0 ≤ h) && q.idCheckPeer h.toNat && decide (h.toNat < q.conf.maxIdValue)

/-- Opening a stream opens the receiving parts of all streams below it. -/
def openUpTo (q : QuicStreams) (id : ℕ) : QuicStreams :=
  { q with
    conf.stream := fun i =>
      if q.conf.maxIdOpened < i ∧ i ≤ id then quicStreamInstanceRecvOpen (q.si i) else q.si i
    conf.maxIdOpened := id }

end QuicStreams

/-- `QuicStreamGetInstance`, with the index of the entry in place of a pointer to it. -/
def quicStreamGetInstance (h : ℤ) : Prog Fail QuicStreams ℕ := do
  let q ← Prog.get
  Prog.ensure .ret (q.conf.inited = true)
  Prog.ensure .ret (q.idCheck h = true)
  Prog.ensure .ret (quicStreamPeerOpened h.toNat q.server = true ∨
    (q.si h.toNat).sendState ≠ .start)
  if q.conf.maxIdOpened < h.toNat then do
    Prog.modify (·.openUpTo h.toNat)
    pure h.toNat
  else pure h.toNat

/-- The limit of `QuicStreamRecvFlowCtrl` on the bytes of a stream. A sending stream has
none. The limit of a bidirectional stream of the peer is read from the peer's parameters. -/
def QuicStreams.recvLimit (q : QuicStreams) (si : QuicStreamInstance) : Option ℕ :=
  if si.localOpened then
    if si.uni then none else some q.transParam.initialMaxStreamDataBidiRemote
  else if si.uni then some q.transParam.initialMaxStreamDataUni
  else some q.peerParam.initialMaxStreamDataBidiRemote

/-- The bytes of a stream with `dataLen` more. -/
def QuicStreams.recvd (q : QuicStreams) (id dataLen : ℕ) : ℕ :=
  ((q.si id).statBytes.recvd + dataLen) % 2 ^ 64

/-- The bytes of all streams with `dataLen` more. -/
def QuicStreams.totalRecvd (q : QuicStreams) (dataLen : ℕ) : ℕ :=
  (q.conf.statAll.recvd + dataLen) % 2 ^ 64

/-- The checks of `QuicStreamRecvFlowCtrl`. -/
def QuicStreams.recvAllowed (q : QuicStreams) (id dataLen : ℕ) : Bool :=
  match q.recvLimit (q.si id) with
  | none => false
  | some limit => !decide (quicGt (q.recvd id dataLen) limit) &&
      !decide (quicGt (q.totalRecvd dataLen) q.peerParam.initialMaxData)

/-- `QuicStreamRecvFlowCtrl`: nothing is counted unless the checks pass. -/
def quicStreamRecvFlowCtrl (q : QuicStreams) (id dataLen : ℕ) : Option QuicStreams :=
  if q.recvAllowed id dataLen then
    some { q.updateSi id fun si => { si with statBytes.recvd := q.recvd id dataLen } with
      conf.statAll.recvd := q.totalRecvd dataLen }
  else none

/-- A stream that the peer opened, before any byte of it. -/
def openedStream : QuicStreamInstance where
  recvState := .recv
  sendState := .ready
  notified := false
  localOpened := false
  uni := false
  maxStreamData := 4096
  statBytes := { sent := 0, recvd := 0 }
  offset := 0
  queue := []

/-- The streams of a server whose client opened some bidirectional ones. -/
def openedStreams : QuicStreams where
  server := true
  conf :=
    { statAll := { sent := 0, recvd := 0 }
      maxIdOpened := 8
      maxIdValue := 16
      inited := true
      stream := fun _ => openedStream
      msgQueue := [] }
  transParam := ⟨4096, 4096, 4096, 8, 8⟩
  peerParam := ⟨4096, 4096, 4096, 8, 8⟩

end Tbquic
