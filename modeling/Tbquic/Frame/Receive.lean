import Tbquic.Frame.Parser
import Tbquic.Frame.StreamParser
import Tbquic.QBuff

/-!
# Receiving a packet of stream data

The handlers of ACK and STREAM frames on the part of a connection that they use. A record of
the STREAM frames as they are read stands beside it.
-/

namespace Tbquic

/-- A STREAM frame as the parser read it. -/
structure StreamRead where
  /-- The FIN bit. -/
  fin : Bool
  /-- The stream. -/
  id : ℕ
  /-- The data with its offset. -/
  sd : QuicStreamData
  deriving DecidableEq, Repr

/-- The part of a connection that receives ACK and STREAM frames. -/
structure FrameRecv where
  /-- The packet. -/
  pkt : RPacket
  /-- The streams. -/
  streams : QuicStreams
  /-- `c->largest_acked`. -/
  largestAcked : ℕ
  /-- `c->sent_queue`, the oldest buffer first. -/
  sentQueue : List QBuff
  /-- The STREAM frames read so far. -/
  reads : List StreamRead

/-- `QBUFF_FLAGS_STREAM_FIN`. -/
def qbuffFlagsStreamFin : ℕ := 1

/-- `QBUFF_FLAGS_STREAM_RESET`. -/
def qbuffFlagsStreamReset : ℕ := 2

/-- The changes of `QBufStreamFlagsProc` to a stream whose buffer was acknowledged. -/
def streamFlagsAcked (flags : ℕ) (si : QuicStreamInstance) : QuicStreamInstance :=
  let si :=
    if flags &&& qbuffFlagsStreamFin ≠ 0 ∧ si.sendState = .dataSent then
      { si with sendState := .dataRecvd }
    else si
  if flags &&& qbuffFlagsStreamReset ≠ 0 ∧ si.sendState = .resetSent then
    { si with sendState := .resetRecvd }
  else si

/-- `QBufStreamFlagsProc`. -/
def qBufStreamFlagsProc (id : ℤ) (flags : ℕ) (q : QuicStreams) : QuicStreams :=
  if id < 0 then q
  else
    match quicStreamGetInstance id q with
    | (.ok i, t) => t.updateSi i (streamFlagsAcked flags)
    | (.error _, t) => t

/-- The loop of `QBufAckSentPkt` over the buffers, the newest first. The result is what is left
of them and whether the loop stopped at one. -/
def qBufAckLoop (smallest largest : ℕ) : List QBuff → QuicStreams → List QBuff × Bool × QuicStreams
  | [], q => ([], false, q)
  | qb :: older, q =>
    if quicGt qb.pktNum largest then
      let r := qBufAckLoop smallest largest older q
      (qb :: r.1, r.2)
    else if quicGt smallest qb.pktNum then (qb :: older, true, q)
    else qBufAckLoop smallest largest older (qBufStreamFlagsProc qb.streamId qb.flags q)

/-- `QBufAckSentPkt`. The source starts at the newest buffer only when `start` is `NULL`, and
follows a pointer that is `NULL` otherwise. The result is whether a buffer was returned. -/
def qBufAckSentPkt (smallest largest : ℕ) (start : Bool) : Prog Fail FrameRecv Bool := do
  Prog.ensure .ub (start = false)
  let s ← Prog.get
  let r := qBufAckLoop smallest largest s.sentQueue.reverse s.streams
  Prog.modify fun s => { s with sentQueue := r.1.reverse, streams := r.2.2 }
  pure r.2.1

/-- Started at the newest buffer, `QBufAckSentPkt` runs its loop. -/
theorem qBufAckSentPkt_false (smallest largest : ℕ) (s : FrameRecv) :
    qBufAckSentPkt smallest largest false s =
      (.ok (qBufAckLoop smallest largest s.sentQueue.reverse s.streams).2.1,
        { s with
          sentQueue := (qBufAckLoop smallest largest s.sentQueue.reverse s.streams).1.reverse
          streams := (qBufAckLoop smallest largest s.sentQueue.reverse s.streams).2.2 }) := by
  rw [qBufAckSentPkt, Prog.ensure_of_pos rfl, Prog.pure_bind, Prog.get_bind, Prog.modify_bind]
  rfl

/-- Started behind another range, `QBufAckSentPkt` follows a null pointer. -/
theorem qBufAckSentPkt_true (smallest largest : ℕ) (s : FrameRecv) :
    qBufAckSentPkt smallest largest true s = (.error .ub, s) := by
  rw [qBufAckSentPkt, Prog.ensure_of_neg (by decide), Prog.fail_bind]
  rfl

/-- Read a number from the packet. -/
def recvVar : Prog Fail FrameRecv ℕ :=
  Prog.zoom FrameRecv.pkt (fun pkt s => { s with pkt }) quicVariableLengthDecode

/-- The loop of `QuicFrameAckParser` over the further ranges. -/
def quicFrameAckRanges (smallest : ℕ) (start : Bool) : ℕ → Prog Fail FrameRecv Unit
  | 0 => pure ()
  | count + 1 => do
    let gap ← recvVar
    let len ← recvVar
    let largest : ℕ := (((smallest : ℤ) - gap - 2) % 2 ^ 64).toNat
    let smallest : ℕ := (((largest : ℤ) - len) % 2 ^ 64).toNat
    Prog.ensure .ret (¬ (quicLt largest 0 ∨ quicLt smallest 0))
    let start ← qBufAckSentPkt smallest largest start
    quicFrameAckRanges smallest start count

/-- `QuicFrameAckParser`. -/
def quicFrameAckParser : Prog Fail FrameRecv Unit := do
  let largest ← recvVar
  Prog.modify fun s =>
    if quicGe largest s.largestAcked then { s with largestAcked := largest } else s
  let _delay ← recvVar
  let count ← recvVar
  let first ← recvVar
  let smallest : ℕ := (((largest : ℤ) - first) % 2 ^ 64).toNat
  Prog.ensure .ret (¬ quicLt smallest 0)
  let start ← qBufAckSentPkt smallest largest false
  quicFrameAckRanges smallest start count

/-- Note the STREAM frame that starts in a packet. -/
def FrameRecv.record (type : ℕ) (pkt : RPacket) (s : FrameRecv) : FrameRecv :=
  match (readStreamFrame type pkt).1 with
  | .ok (id, sd) => { s with reads := s.reads ++ [{ fin := streamBitFin type, id, sd }] }
  | .error _ => s

/-- `QuicFrameStreamParser` on the receiving part of a connection. -/
def recvStreamFrame (type : ℕ) : Prog Fail FrameRecv Unit := do
  let s ← Prog.get
  Prog.zoom (fun s : FrameRecv => (s.pkt, s.streams))
    (fun p s => { s with pkt := p.1, streams := p.2 }) (quicFrameStreamParser type true)
  Prog.modify (FrameRecv.record type s.pkt)

/-- The types `QUIC_FRAME_TYPE_STREAM` to `QUIC_FRAME_TYPE_STREAM_OFF_LEN_FIN`. -/
def isStreamType (type : ℕ) : Bool := 8 ≤ type && type < 16

/-- The handlers of ACK and STREAM frames, with those of all other frames as a parameter.
Acknowledgements are queued by the sending part of the connection, which is not modelled
here. -/
def frameRecvHandlers (other : ℕ → Option (Prog Fail FrameRecv Unit))
    (cryptoFound : Prog Fail FrameRecv Unit) : FrameHandlers FrameRecv where
  pkt := FrameRecv.pkt
  setPkt pkt s := { s with pkt }
  setPkt_pkt _ := rfl
  parser type :=
    if isStreamType type then some (recvStreamFrame type)
    else if type = quicFrameTypeAck then some quicFrameAckParser
    else other type
  ackFrameBuild := pure ()
  cryptoFound := cryptoFound

/-- Parse the payload of a packet. -/
def recvPayload (h : FrameHandlers FrameRecv) (payload : List UInt8) :
    Prog Fail FrameRecv Unit := do
  Prog.modify fun s => { s with pkt := rPacketBufInit payload }
  quicFrameDoParser h

/-- Parse payloads one after the other, with the STREAM frames of each. -/
def recvPayloads (h : FrameHandlers FrameRecv) :
    List (List UInt8) → FrameRecv → Except Fail (List (List StreamRead))
  | [], _ => .ok []
  | payload :: payloads, s =>
    match recvPayload h payload { s with reads := [] } with
    | (.error e, _) => .error e
    | (.ok (), t) => (recvPayloads h payloads t).map (t.reads :: ·)

/-- The streams that can receive still can, and those that were used are still used. -/
structure QuicStreams.Keeps (q t : QuicStreams) : Prop where
  /-- The side of the connection is the same. -/
  server : t.server = q.server
  /-- The table is still allocated. -/
  inited : t.conf.inited = q.conf.inited
  /-- The size of the table is the same. -/
  maxIdValue : t.conf.maxIdValue = q.conf.maxIdValue
  /-- The own parameters are the same. -/
  transParam : t.transParam = q.transParam
  /-- No receiving part was disabled. -/
  recv (id : ℕ) : (q.si id).recvState ≠ .disable → (t.si id).recvState ≠ .disable
  /-- No sending part was reset to the start. -/
  send (id : ℕ) : (q.si id).sendState ≠ .start → (t.si id).sendState ≠ .start

namespace QuicStreams

variable {q t u : QuicStreams} {id id' : ℕ}

theorem Keeps.refl (q : QuicStreams) : q.Keeps q :=
  ⟨rfl, rfl, rfl, rfl, fun _ h => h, fun _ h => h⟩

theorem Keeps.trans (h : q.Keeps t) (h' : t.Keeps u) : q.Keeps u where
  server := h'.server.trans h.server
  inited := h'.inited.trans h.inited
  maxIdValue := h'.maxIdValue.trans h.maxIdValue
  transParam := h'.transParam.trans h.transParam
  recv id hr := h'.recv id (h.recv id hr)
  send id hs := h'.send id (h.send id hs)

/-- A stream that can receive can still receive. -/
theorem Keeps.receivable (h : q.Keeps t) (hq : q.Receivable id) : t.Receivable id := by
  obtain ⟨hinited, hcheck, hopened, hdisable⟩ := hq
  refine ⟨h.inited.trans hinited, ?_, ?_, h.recv id hdisable⟩
  · rwa [idCheck, idCheckPeer, h.server, h.transParam, h.maxIdValue]
  · rw [h.server]
    exact hopened.imp_right (h.send id)

/-- A change of a stream that neither disables its receiving part nor resets its sending part
to the start. -/
def KeepsStates (f : QuicStreamInstance → QuicStreamInstance) : Prop :=
  ∀ si, (si.recvState ≠ .disable → (f si).recvState ≠ .disable) ∧
    (si.sendState ≠ .start → (f si).sendState ≠ .start)

theorem keepsStates_sendReady : KeepsStates sendReady := fun si => by
  unfold sendReady
  split <;> simp_all

theorem keepsStates_recvFin (fin : Bool) : KeepsStates (recvFin fin) := fun si => by
  unfold recvFin
  split <;> simp_all

theorem keepsStates_recvOpen : KeepsStates quicStreamInstanceRecvOpen := fun si => by
  unfold quicStreamInstanceRecvOpen
  split <;> simp_all

theorem keepsStates_recvComplete : KeepsStates recvComplete := fun si => by
  unfold recvComplete
  split <;> simp_all

theorem keepsStates_streamFlagsAcked (flags : ℕ) : KeepsStates (streamFlagsAcked flags) :=
  fun si => by
    unfold streamFlagsAcked
    constructor
    · intro h
      dsimp only
      split_ifs <;> exact h
    · intro h
      dsimp only
      split_ifs <;> simp_all

/-- Changing one stream keeps all when it keeps that one. -/
theorem keeps_updateSi {f : QuicStreamInstance → QuicStreamInstance} (hf : KeepsStates f) :
    q.Keeps (q.updateSi id f) := by
  refine ⟨rfl, rfl, rfl, rfl, fun i h => ?_, fun i h => ?_⟩ <;> by_cases hi : i = id
  · rw [hi, updateSi_si]
    exact (hf _).1 (hi ▸ h)
  · rwa [updateSi_si_of_ne q f hi]
  · rw [hi, updateSi_si]
    exact (hf _).2 (hi ▸ h)
  · rwa [updateSi_si_of_ne q f hi]

/-- Opening streams keeps all. -/
theorem keeps_opened : q.Keeps (q.opened id) := by
  unfold opened
  split
  · have hsi (i : ℕ) : (q.openUpTo id).si i = q.si i ∨
        (q.openUpTo id).si i = quicStreamInstanceRecvOpen (q.si i) := by
      simp only [openUpTo, si]
      split
      · exact .inr rfl
      · exact .inl rfl
    refine ⟨rfl, rfl, rfl, rfl, fun i h => ?_, fun i h => ?_⟩ <;>
      rcases hsi i with hsi | hsi <;> rw [hsi]
    · exact h
    · exact (keepsStates_recvOpen _).1 h
    · exact h
    · exact (keepsStates_recvOpen _).2 h
  · exact .refl q

/-- Flow control of received data keeps all. -/
theorem keeps_recvFlowCtrl {len : ℕ} (h : quicStreamRecvFlowCtrl q id len = some t) :
    q.Keeps t := by
  unfold quicStreamRecvFlowCtrl at h
  split at h
  · rw [← Option.some.inj h]
    have hkeeps : q.Keeps
        (q.updateSi id fun si => { si with statBytes.recvd := q.recvd id len }) :=
      keeps_updateSi fun _ => ⟨fun h => h, fun h => h⟩
    exact ⟨rfl, rfl, rfl, rfl, hkeeps.recv, hkeeps.send⟩
  · cases h

/-- Adding received data keeps all. -/
theorem keeps_dataAdd (sd : QuicStreamData) : q.Keeps (quicStreamDataAdd q id sd) := by
  have hpush (t : QuicStreams) (sd : QuicStreamData) : t.Keeps (t.push id sd) :=
    keeps_updateSi fun _ => ⟨fun h => h, fun h => h⟩
  unfold quicStreamDataAdd quicStreamDataAddOfo
  split
  · exact .refl q
  · split
    · split
      · exact .refl q
      · exact (keeps_recvFlowCtrl ‹_›).trans (hpush _ _)
    · split
      · exact .refl q
      · exact ((keeps_recvFlowCtrl ‹_›).trans (hpush _ _)).trans
          (keeps_updateSi keepsStates_recvComplete)

/-- Telling the application of data keeps all. -/
theorem keeps_notify : q.Keeps (q.notify id) := by
  unfold notify
  split
  · exact .refl q
  · have hkeeps : q.Keeps (q.updateSi id fun si => { si with notified := true }) :=
      keeps_updateSi fun _ => ⟨fun h => h, fun h => h⟩
    exact ⟨rfl, rfl, rfl, rfl, hkeeps.recv, hkeeps.send⟩

/-- A frame for a stream keeps all. -/
theorem keeps_receive (fin : Bool) (sd : QuicStreamData) : q.Keeps (q.receive id fin sd) := by
  have harrived : q.Keeps (q.arrived id fin) :=
    ((keeps_opened.trans (keeps_updateSi keepsStates_sendReady)).trans
      (keeps_updateSi (keepsStates_recvFin fin))).trans (keeps_updateSi keepsStates_recvOpen)
  unfold receive
  split
  · exact harrived
  · exact (harrived.trans (keeps_dataAdd sd)).trans keeps_notify

/-- Finding a stream keeps all, also when it fails. -/
theorem keeps_getInstance (id : ℤ) : q.Keeps (quicStreamGetInstance id q).2 := by
  have hopen : q.conf.maxIdOpened < id.toNat → q.Keeps (q.openUpTo id.toNat) := fun h => by
    have hopened : q.Keeps (q.opened id.toNat) := keeps_opened
    rwa [opened, if_pos h] at hopened
  refine Prog.Post.state ?_
  simp only [quicStreamGetInstance, Prog.post_bind, Prog.post_get, Prog.post_ensure,
    Prog.post_ite, Prog.post_modify, Prog.post_pure]
  exact ⟨fun _ => ⟨fun _ => ⟨fun _ => ⟨hopen, fun _ => .refl q⟩, fun _ => .refl q⟩,
    fun _ => .refl q⟩, fun _ => .refl q⟩

/-- An acknowledged buffer keeps all. -/
theorem keeps_flagsProc (id : ℤ) (flags : ℕ) : q.Keeps (qBufStreamFlagsProc id flags q) := by
  have hget := keeps_getInstance (q := q) id
  unfold qBufStreamFlagsProc
  split
  · exact .refl q
  · split <;> rename_i heq <;> rw [heq] at hget
    · exact hget.trans (keeps_updateSi (keepsStates_streamFlagsAcked flags))
    · exact hget

/-- Acknowledged buffers keep all. -/
theorem keeps_ackLoop (smallest largest : ℕ) (queue : List QBuff) :
    q.Keeps (qBufAckLoop smallest largest queue q).2.2 := by
  induction queue generalizing q with
  | nil => exact .refl q
  | cons qb older ih =>
    unfold qBufAckLoop
    split
    · exact ih
    · split
      · exact .refl q
      · exact (keeps_flagsProc _ _).trans ih

end QuicStreams

end Tbquic
