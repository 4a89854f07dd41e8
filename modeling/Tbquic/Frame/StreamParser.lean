import Tbquic.VarInt
import Tbquic.Stream.Recv

/-!
# Parsing STREAM frames

`QuicFrameStreamParser` reads the header of a frame, finds its stream and hands the data to
the stream. The states of the stream change before the data is known to be complete.
-/

namespace Tbquic

/-- `QUIC_FRAME_STREAM_BIT_FIN`. -/
def streamBitFin (type : ℕ) : Bool := type.testBit 0

/-- `QUIC_FRAME_STREAM_BIT_LEN`. -/
def streamBitLen (type : ℕ) : Bool := type.testBit 1

/-- `QUIC_FRAME_STREAM_BIT_OFF`. -/
def streamBitOff (type : ℕ) : Bool := type.testBit 2

/-- The fields of a STREAM frame before its data. -/
structure StreamHeader where
  /-- The stream. -/
  id : ℕ
  /-- The offset of the data. -/
  offset : ℕ
  /-- The length of the data. -/
  len : ℕ
  deriving DecidableEq, Repr

/-- The offset of a frame is zero unless its type says that it follows. -/
def quicFrameStreamOffset (type : ℕ) : Prog Fail RPacket ℕ :=
  if streamBitOff type then quicVariableLengthDecode else pure 0

/-- The data of a frame takes the rest of the packet unless its type says that its length
follows. -/
def quicFrameStreamLen (type : ℕ) : Prog Fail RPacket ℕ :=
  if streamBitLen type then quicVariableLengthDecode
  else do
    let pkt ← Prog.get
    pure pkt.remaining

/-- The first part of `QuicFrameStreamParser`. -/
def quicFrameStreamHeader (type : ℕ) : Prog Fail RPacket StreamHeader := do
  let id ← quicVariableLengthDecode
  let offset ← quicFrameStreamOffset type
  let len ← quicFrameStreamLen type
  pure { id, offset, len }

/-- The sending part of a stream that the peer uses becomes ready. -/
def sendReady (si : QuicStreamInstance) : QuicStreamInstance :=
  if si.sendState = .start then { si with sendState := .ready } else si

/-- The FIN bit of a frame makes the size of the stream known, without storing it. -/
def recvFin (fin : Bool) (si : QuicStreamInstance) : QuicStreamInstance :=
  if fin ∧ si.recvState = .recv then { si with recvState := .sizeKnown } else si

/-- Tell the application of data, once until it reads. -/
def QuicStreams.notify (q : QuicStreams) (id : ℕ) : QuicStreams :=
  if (q.si id).notified then q
  else { q.updateSi id fun si => { si with notified := true } with
    conf.msgQueue := q.conf.msgQueue ++ [{ id }] }

/-- `QuicFrameStreamParser`. The flag `buf` says whether the packet has a buffer that the
received data can refer to. -/
def quicFrameStreamParser (type : ℕ) (buf : Bool) : Prog Fail (RPacket × QuicStreams) Unit := do
  let header ← Prog.onFst (quicFrameStreamHeader type)
  let id ← Prog.onSnd (quicStreamGetInstance header.id)
  let s ← Prog.get
  Prog.ensure .ret ((s.2.si id).recvState ≠ .disable)
  Prog.onSnd (Prog.modify (·.updateSi id sendReady))
  Prog.onSnd (Prog.modify (·.updateSi id (recvFin (streamBitFin type))))
  let data ← Prog.onFst (rPacketGetBytes header.len)
  Prog.onSnd (Prog.modify (·.updateSi id quicStreamInstanceRecvOpen))
  let s ← Prog.get
  if (s.2.si id).recvState ≠ .recv ∧ (s.2.si id).recvState ≠ .sizeKnown then pure ()
  else do
    Prog.ensure .ret (buf = true)
    Prog.onSnd (Prog.modify (quicStreamDataAdd · id { offset := header.offset, data }))
    Prog.onSnd (Prog.modify (·.notify id))

/-- The parts of `QuicFrameStreamParser` that read the packet. -/
def readStreamFrame (type : ℕ) : Prog Fail RPacket (ℕ × QuicStreamData) := do
  let header ← quicFrameStreamHeader type
  let data ← rPacketGetBytes header.len
  pure (header.id, { offset := header.offset, data })

/-- What a STREAM frame says: its stream and its data. -/
def decodeStreamFrame (type : ℕ) (rest : List UInt8) : Except Fail (ℕ × QuicStreamData) :=
  (readStreamFrame type (rPacketBufInit rest)).1

section Parse

variable {q : QuicStreams} {type id : ℕ} {fin : Bool} {sd : QuicStreamData} {pkt pkt' : RPacket}

/-- The stream is found: it is within the limits, and opened unless the peer opens it. -/
def QuicStreams.Found (q : QuicStreams) (id : ℕ) : Prop :=
  q.conf.inited = true ∧ q.idCheck id = true ∧
    (quicStreamPeerOpened id q.server = true ∨ (q.si id).sendState ≠ .start)

/-- The stream can receive: it is within the limits, and opened unless the peer opens it. -/
def QuicStreams.Receivable (q : QuicStreams) (id : ℕ) : Prop :=
  q.conf.inited = true ∧ q.idCheck id = true ∧
    (quicStreamPeerOpened id q.server = true ∨ (q.si id).sendState ≠ .start) ∧
    (q.si id).recvState ≠ .disable

instance (q : QuicStreams) (id : ℕ) : Decidable (q.Receivable id) :=
  inferInstanceAs (Decidable (_ ∧ _))

/-- The streams after `QuicStreamGetInstance` found a stream. -/
def QuicStreams.opened (q : QuicStreams) (id : ℕ) : QuicStreams :=
  if q.conf.maxIdOpened < id then q.openUpTo id else q

/-- The streams when a parsed frame has found its stream, before the data is added. -/
def QuicStreams.arrived (q : QuicStreams) (id : ℕ) (fin : Bool) : QuicStreams :=
  (((q.opened id).updateSi id sendReady).updateSi id (recvFin fin)).updateSi id
    quicStreamInstanceRecvOpen

/-- The streams after a frame. Data is added only while some may be missing. -/
def QuicStreams.receive (q : QuicStreams) (id : ℕ) (fin : Bool) (sd : QuicStreamData) :
    QuicStreams :=
  if ((q.arrived id fin).si id).recvState ≠ .recv ∧
      ((q.arrived id fin).si id).recvState ≠ .sizeKnown then
    q.arrived id fin
  else (quicStreamDataAdd (q.arrived id fin) id sd).notify id

/-- A stream within the limits is found. -/
theorem quicStreamGetInstance_of_found (h : q.Found id) :
    quicStreamGetInstance id q = (.ok id, q.opened id) := by
  obtain ⟨hinited, hcheck, hopened⟩ := h
  rw [quicStreamGetInstance, Prog.get_bind, Prog.ensure_of_pos hinited, Prog.pure_bind,
    Prog.ensure_of_pos hcheck, Prog.pure_bind, Prog.ensure_of_pos (by exact hopened),
    Prog.pure_bind, QuicStreams.opened]
  simp only [Int.toNat_natCast]
  split <;> simp

/-- Any other stream is an error and changes nothing. -/
theorem quicStreamGetInstance_of_not_found (h : ¬ q.Found id) :
    quicStreamGetInstance id q = (.error .ret, q) := by
  rw [quicStreamGetInstance, Prog.get_bind]
  by_cases hinited : q.conf.inited = true
  · by_cases hcheck : q.idCheck id = true
    · rw [Prog.ensure_of_pos hinited, Prog.pure_bind, Prog.ensure_of_pos hcheck, Prog.pure_bind,
        Prog.ensure_of_neg (by exact fun hopened => h ⟨hinited, hcheck, hopened⟩), Prog.fail_bind]
      rfl
    · rw [Prog.ensure_of_pos hinited, Prog.pure_bind, Prog.ensure_of_neg hcheck, Prog.fail_bind]
      rfl
  · rw [Prog.ensure_of_neg hinited, Prog.fail_bind]
    rfl

/-- A stream that can receive is found. -/
theorem quicStreamGetInstance_of_receivable (h : q.Receivable id) :
    quicStreamGetInstance id q = (.ok id, q.opened id) :=
  quicStreamGetInstance_of_found ⟨h.1, h.2.1, h.2.2.1⟩

/-- Finding a stream may open its receiving part and changes nothing else of it. -/
theorem opened_si : (q.opened id).si id =
    if q.conf.maxIdOpened < id then quicStreamInstanceRecvOpen (q.si id) else q.si id := by
  unfold QuicStreams.opened
  by_cases h : q.conf.maxIdOpened < id
  · simp [h, QuicStreams.openUpTo, QuicStreams.si]
  · simp [h]

/-- A stream that receives still does after it is found. -/
theorem opened_recvState_ne_disable (h : (q.si id).recvState ≠ .disable) :
    ((q.opened id).si id).recvState ≠ .disable := by
  rw [opened_si, quicStreamInstanceRecvOpen]
  split_ifs <;> simp_all

/-- A frame that is read whole and finds its stream is handed to the stream. -/
theorem quicFrameStreamParser_of_receivable
    (hread : readStreamFrame type pkt = (.ok (id, sd), pkt')) (h : q.Receivable id) :
    quicFrameStreamParser type true (pkt, q) =
      (.ok (), pkt', q.receive id (streamBitFin type) sd) := by
  obtain ⟨header, pkt₁, hheader, hrest⟩ := Prog.bind_eq_ok.mp hread
  obtain ⟨data, pkt₂, hdata, hpure⟩ := Prog.bind_eq_ok.mp hrest
  simp only [Prog.pure_apply, Prod.mk.injEq, Except.ok.injEq] at hpure
  obtain ⟨⟨rfl, rfl⟩, rfl⟩ := hpure
  have hget := quicStreamGetInstance_of_receivable h
  have hdisable := opened_recvState_ne_disable h.2.2.2
  rw [quicFrameStreamParser, Prog.onFst_bind_of_ok hheader, Prog.onSnd_bind_of_ok hget,
    Prog.get_bind, Prog.ensure_of_pos hdisable, Prog.pure_bind, Prog.onSnd_modify_bind,
    Prog.onSnd_modify_bind, Prog.onFst_bind_of_ok hdata, Prog.onSnd_modify_bind, Prog.get_bind,
    QuicStreams.receive, QuicStreams.arrived]
  dsimp only
  split
  · rfl
  · rw [Prog.ensure_of_pos rfl, Prog.pure_bind, Prog.onSnd_modify_bind]
    rfl

end Parse

end Tbquic
