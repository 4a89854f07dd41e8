import Tbquic.Frame.Received
import Tbquic.Frame.StreamStates
import Tbquic.Lib.Simulation
import Tbquic.Stream.InOrder

/-!
# Notices of readable streams

A STREAM frame queues a message for the application, unless its stream is marked as notified. A read
takes the mark back, through `QuicStreamRecv` as well as through `QuicStreamReadV`, but only the
latter removes the message, and not when it runs out of buffers. So the mark may be lost while the
message stays, and the next frame queues a second message.
-/

namespace Tbquic

/-- A filled entry of `QUIC_STREAM_IOVEC`. -/
structure StreamReport where
  /-- `handle`. -/
  handle : ℕ
  /-- The bytes of `iov_base` that count, `data_len` many. -/
  data : List UInt8
  /-- `QUIC_STREAM_DATA_FLAGS_FIN` of `flags`. -/
  fin : Bool
  /-- `QUIC_STREAM_DATA_FLAGS_RESET` of `flags`. -/
  reset : Bool
  deriving DecidableEq, Repr

/-- What a call of `QuicStreamReadV` has filled in. The flags are never cleared. -/
structure ReadVOut where
  /-- The entries filled. -/
  reports : List StreamReport
  /-- `QUIC_STREAM_DATA_FLAGS_FIN`. -/
  fin : Bool
  /-- `QUIC_STREAM_DATA_FLAGS_RESET`. -/
  reset : Bool

/-- The flags behind a read. -/
def ReadVOut.flag (out : ReadVOut) (r : ReadResult) : ReadVOut :=
  { out with fin := out.fin || r.fin, reset := out.reset || r.reset }

/-- An entry is filled. -/
def ReadVOut.report (out : ReadVOut) (id : ℕ) (r : ReadResult) : ReadVOut :=
  { out with reports := out.reports ++ [⟨id, r.data, out.fin, out.reset⟩] }

/-- The inner loop of `QuicStreamReadV`: the stream of a message is read into the buffers `iov` that
are left, given by their lengths. Without a buffer left the call returns. -/
def readVStream (id : ℕ) : List ℕ → ReadVOut → Prog Fail QuicStreams (Option (List ℕ) × ReadVOut)
  | [], out => pure (none, out)
  | len :: iov, out => do
    match ← Prog.attempt (quicStreamGetInstance id) with
    | .error _ => pure (some (len :: iov), out)
    | .ok id => do
      let q ← Prog.get
      let r ← Prog.ofExcept (quicStreamReadData (q.si id) len)
      Prog.modify (·.setSi id r.2)
      if r.1.data.length = 0 then
        -- a read into a buffer without room is repeated for ever
        if len = 0 then Prog.fail .fuel else pure (some (len :: iov), out.flag r.1)
      else if r.1.data.length < len then pure (some iov, (out.flag r.1).report id r.1)
      else readVStream id iov ((out.flag r.1).report id r.1)

/-- The outer loop of `QuicStreamReadV` over the messages. -/
def readVLoop : List QuicStreamMsg → List ℕ → ReadVOut → Prog Fail QuicStreams (List StreamReport)
  | [], _, out => pure out.reports
  | msg :: msgs, iov, out => do
    match ← readVStream msg.id iov out with
    | (none, out) => pure out.reports
    | (some iov, out) => do
      Prog.modify fun q => { q with conf.msgQueue := msgs }
      readVLoop msgs iov out

/-- `QuicStreamReadV` where it reads what is queued, into buffers of the given lengths. -/
def quicStreamReadV (iov : List ℕ) : Prog Fail QuicStreams (List StreamReport) := do
  let q ← Prog.get
  Prog.ensure .ret (q.conf.inited = true)
  if iov = [] then pure []
  else readVLoop q.conf.msgQueue iov { reports := [], fin := false, reset := false }

/-- An event of the streams, or a read of the streams with messages. -/
inductive NoticeEvent
  /-- An event of the streams. -/
  | stream (e : StreamEvent)
  /-- `QuicStreamReadV` into buffers of the given lengths. -/
  | readV (iov : List ℕ)

/-- The state behind an event. -/
def NoticeEvent.step (mem : ℕ → Bool) (s : Endpoint) : NoticeEvent → Option Endpoint
  | .stream e => s.step mem e
  | .readV iov => s.run (quicStreamReadV iov)

/-- The streams with a message are those marked, each has one message, and every stream that can be
read has one. -/
structure QuicStreams.NoticesProper (q : QuicStreams) : Prop where
  /-- A stream has one message at most. -/
  nodup : q.conf.msgQueue.Nodup
  /-- The streams with a message are those marked. -/
  mark (id : ℕ) : (q.si id).notified = true ↔ ⟨id⟩ ∈ q.conf.msgQueue
  /-- Every stream that can be read has a message. -/
  readable (id : ℕ) : (q.si id).Readable → ⟨id⟩ ∈ q.conf.msgQueue

/-- The notices are proper behind the step of an event, if it returns. -/
def NoticesProper (mem : ℕ → Bool) (s : Endpoint) (e : NoticeEvent) : Prop :=
  ∀ t, NoticeEvent.step mem s e = some t → t.streams.NoticesProper

/-- What reading a stream into buffers leaves of them. -/
inductive BuffersLeft
  /-- These buffers, behind a read that came short. -/
  | left (iov : List ℕ)
  /-- No buffer, behind a read that filled the last one. -/
  | filled
  /-- The call does not return: a buffer has no room, or a read runs into the assertion. -/
  | endless
  deriving DecidableEq

/-- What reading a stream into buffers leaves of them, by the lengths of its entries in order. -/
def buffersLeft : List ℕ → List ℕ → BuffersLeft
  | [], _ => .filled
  | len :: iov, ns =>
    if len = 0 ∨ FillAborts len ns then .endless
    else if ns.sum < len then .left (if ns.sum = 0 then len :: iov else iov)
    else buffersLeft iov (afterFill len ns)

/-- The marks and the messages are the same. -/
structure QuicStreams.SameMarks (q t : QuicStreams) : Prop where
  /-- The marks. -/
  notified (id : ℕ) : (t.si id).notified = (q.si id).notified
  /-- The messages. -/
  messages : t.conf.msgQueue = q.conf.msgQueue

namespace QuicStreams.SameMarks

variable {q t u : QuicStreams} {id : ℕ}

theorem refl (q : QuicStreams) : q.SameMarks q := ⟨fun _ => rfl, rfl⟩

theorem trans (h : q.SameMarks t) (h' : t.SameMarks u) : q.SameMarks u :=
  ⟨fun id => (h'.notified id).trans (h.notified id), h'.messages.trans h.messages⟩

/-- One entry is changed. -/
theorem updateSi {f : QuicStreamInstance → QuicStreamInstance}
    (hf : (f (q.si id)).notified = (q.si id).notified) : q.SameMarks (q.updateSi id f) := by
  refine ⟨fun i => ?_, rfl⟩
  by_cases hi : i = id
  · subst hi
    rw [QuicStreams.updateSi_si, hf]
  · rw [QuicStreams.updateSi_si_of_ne _ _ hi]

/-- The receiving part of an entry is opened. -/
theorem notified_recvOpen (si : QuicStreamInstance) :
    (quicStreamInstanceRecvOpen si).notified = si.notified := by
  unfold quicStreamInstanceRecvOpen
  split <;> rfl

/-- Streams are opened. -/
theorem opened : q.SameMarks (q.opened id) := by
  refine ⟨fun i => ?_, ?_⟩
  · rw [opened_si_eq]
    split
    · exact notified_recvOpen _
    · rfl
  · unfold QuicStreams.opened
    split <;> rfl

/-- An acknowledged buffer leaves the marks. -/
theorem ackEffect (qb : QBuff) : q.SameMarks (ackEffect q qb) := by
  unfold Tbquic.ackEffect qBufStreamFlagsProc
  split
  · exact refl q
  · rename_i hneg
    obtain ⟨id, hid⟩ := Int.eq_ofNat_of_zero_le (not_lt.mp hneg)
    rw [hid]
    by_cases hfound : q.Found id
    · rw [quicStreamGetInstance_of_found hfound]
      refine opened.trans (updateSi ?_)
      unfold streamFlagsAcked
      dsimp only
      split_ifs <;> rfl
    · rw [quicStreamGetInstance_of_not_found hfound]
      exact refl q

/-- Adding data leaves the marks. -/
theorem dataAdd (sd : QuicStreamData) : q.SameMarks (quicStreamDataAdd q id sd) := by
  have hctrl {len : ℕ} {t : QuicStreams} (h : quicStreamRecvFlowCtrl q id len = some t) :
      q.SameMarks t := by
    unfold quicStreamRecvFlowCtrl at h
    split at h
    · cases h
      have hcounted := @updateSi q id (fun si => { si with statBytes.recvd := q.recvd id len }) rfl
      exact ⟨hcounted.notified, rfl⟩
    · cases h
  unfold quicStreamDataAdd quicStreamDataAddOfo
  split
  · exact refl q
  · split <;> split
    · exact refl q
    · rename_i hcount
      exact (hctrl hcount).trans (updateSi rfl)
    · exact refl q
    · rename_i hcount
      refine (hctrl hcount).trans (.trans (updateSi rfl) (updateSi ?_))
      unfold recvComplete
      split <;> rfl

end QuicStreams.SameMarks

/-- The streams with a message are those marked, each has one message, and `QuicStreamGetInstance`
finds it. -/
structure QuicStreams.Marked (q : QuicStreams) : Prop where
  /-- A stream has one message at most. -/
  nodup : q.conf.msgQueue.Nodup
  /-- The streams with a message are those marked. -/
  mark (id : ℕ) : (q.si id).notified = true ↔ ⟨id⟩ ∈ q.conf.msgQueue
  /-- The streams with a message are found. -/
  found : ∀ msg ∈ q.conf.msgQueue, q.Found msg.id

section Frames

variable {type : ℕ} {frame : RPacket} {q t : QuicStreams} {c d : FrameConn} {id : ℕ}

theorem QuicStreams.Marked.same (h : q.Marked) (hsame : q.SameMarks t) (hkeeps : q.Keeps t) :
    t.Marked := by
  refine ⟨hsame.messages ▸ h.nodup, fun id => ?_, fun msg hmsg => ?_⟩
  · rw [hsame.notified, hsame.messages]
    exact h.mark id
  · rw [hsame.messages] at hmsg
    exact (h.found msg hmsg).keeps hkeeps

/-- A found stream gets its message. -/
theorem QuicStreams.Marked.notify (h : q.Marked) (hfound : q.Found id) : (q.notify id).Marked := by
  have hkeeps := @QuicStreams.keeps_notify q id
  unfold QuicStreams.notify at hkeeps ⊢
  by_cases hmark : (q.si id).notified = true
  · rwa [if_pos hmark]
  rw [if_neg hmark] at hkeeps ⊢
  have hnew := mt (h.mark id).mpr hmark
  have hmem (i : ℕ) : (⟨i⟩ : QuicStreamMsg) ∈ q.conf.msgQueue ++ [⟨id⟩] ↔
      ⟨i⟩ ∈ q.conf.msgQueue ∨ i = id := by
    rw [List.mem_append, List.mem_singleton, QuicStreamMsg.mk.injEq]
  refine ⟨List.nodup_append_comm.mp (List.nodup_cons.mpr ⟨hnew, h.nodup⟩), fun i => ?_,
    fun msg hmsg => ?_⟩
  · refine Iff.trans ?_ (hmem i).symm
    change (((q.updateSi id fun si => { si with notified := true }).si i).notified = true) ↔ _
    by_cases hi : i = id
    · subst hi
      rw [QuicStreams.updateSi_si]
      exact iff_of_true rfl (.inr rfl)
    · rw [QuicStreams.updateSi_si_of_ne _ _ hi, h.mark i]
      exact (or_iff_left hi).symm
  · refine QuicStreams.Found.keeps ?_ hkeeps
    rcases (hmem msg.id).mp hmsg with hold | heq
    · exact h.found msg hold
    · rwa [heq]

end Frames

section Events

variable {mem : ℕ → Bool} {s t : Endpoint} {e : StreamEvent}

/-- Looking a stream up leaves the marks. -/
theorem keeps_getInstance (handle : ℤ) :
    Prog.Keeps QuicStreams.SameMarks (quicStreamGetInstance handle) := by
  intro q
  rcases quicStreamGetInstance_cases handle q with ⟨id, rfl, -, hget⟩ | ⟨hget, -⟩
  · rw [hget]
    exact .opened
  · rw [hget]
    exact .refl q

end Events

/-- The notices are proper, and the streams with a message are found. -/
structure QuicStreams.Noticed (q : QuicStreams) : Prop extends q.Marked where
  /-- Every stream that can be read has a message. -/
  readable (id : ℕ) : (q.si id).Readable → ⟨id⟩ ∈ q.conf.msgQueue

theorem QuicStreams.Noticed.proper {q : QuicStreams} (h : q.Noticed) : q.NoticesProper :=
  ⟨h.nodup, h.mark, h.readable⟩

/-- Streams with the same received data can be read the same. -/
theorem KeepsReceived.inOrder {si si' : QuicStreamInstance} (h : KeepsReceived si si') :
    si'.inOrder = si.inOrder := by
  rw [QuicStreamInstance.inOrder, h.offset, h.queue]
  rfl

theorem KeepsReceived.readable {si si' : QuicStreamInstance} (h : KeepsReceived si si') :
    si'.Readable ↔ si.Readable := by
  rw [QuicStreamInstance.readable_iff, QuicStreamInstance.readable_iff, h.inOrder]

section Received

variable {mem : ℕ → Bool} {s t : Endpoint} {e : StreamEvent} {type : ℕ} {frame : RPacket}

end Received

/-- A stream was read, and nothing else changed in the notices. -/
structure QuicStreams.ReadTo (q t : QuicStreams) (id : ℕ) (ns : List ℕ) : Prop where
  /-- The mark is taken back. -/
  notified : (t.si id).notified = false
  /-- What can be read. -/
  inOrder : (t.si id).inOrder = ns
  /-- The other streams. -/
  other (i : ℕ) : i ≠ id → (t.si i).notified = (q.si i).notified ∧
    (t.si i).inOrder = (q.si i).inOrder
  /-- The messages. -/
  messages : t.conf.msgQueue = q.conf.msgQueue
  /-- The streams are kept. -/
  keeps : q.Keeps t

section Read

variable {q t u : QuicStreams} {id len : ℕ} {ns ns' iov : List ℕ} {out : ReadVOut}

theorem QuicStreams.ReadTo.trans (h : q.ReadTo t id ns) (h' : t.ReadTo u id ns') :
    q.ReadTo u id ns' where
  notified := h'.notified
  inOrder := h'.inOrder
  other i hi := ⟨(h'.other i hi).1.trans (h.other i hi).1,
    (h'.other i hi).2.trans (h.other i hi).2⟩
  messages := h'.messages.trans h.messages
  keeps := h.keeps.trans h'.keeps

/-- A read through `QuicStreamGetInstance`. -/
theorem readTo_read {si' : QuicStreamInstance} {res : ReadResult}
    (hread : quicStreamReadData ((q.opened id).si id) len = .ok (res, si')) :
    q.ReadTo ((q.opened id).setSi id si') id (afterFill len (q.si id).inOrder) ∧
      ¬ FillAborts len (q.si id).inOrder ∧ res.data.length = min len (q.si id).inOrder.sum := by
  have hopened := @QuicStreams.SameReceived.opened q id
  have hmarks := @QuicStreams.SameMarks.opened q id
  obtain ⟨haborts, hlength, hrest, hnotified⟩ := quicStreamReadData_ok_inOrder hread
  rw [(hopened.entry id).inOrder] at haborts hlength hrest
  have hother (i : ℕ) (hi : i ≠ id) : ((q.opened id).setSi id si').si i = (q.opened id).si i :=
    (q.opened id).updateSi_si_of_ne (fun _ => si') hi
  obtain ⟨hrecv, -, hsend, -⟩ := quicStreamReadData_states hread
  refine ⟨⟨by rw [QuicStreams.setSi_si, hnotified], by rw [QuicStreams.setSi_si, hrest],
    fun i hi => ?_, hmarks.messages, QuicStreams.keeps_opened.trans ⟨rfl, rfl, rfl, rfl,
      fun i hi => ?_, fun i hi => ?_⟩⟩, haborts, hlength⟩
  · rw [hother i hi]
    exact ⟨hmarks.notified i, (hopened.entry i).inOrder⟩
  · by_cases heq : i = id
    · subst heq
      rw [QuicStreams.setSi_si, hrecv]
      split
      · exact fun h => (by cases h)
      · exact hi
    · rwa [hother i heq]
  · by_cases heq : i = id
    · subst heq
      rwa [QuicStreams.setSi_si, hsend]
    · rwa [hother i heq]

end Read

end Tbquic
