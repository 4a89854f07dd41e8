import Tbquic.Frame.Entries
import Tbquic.Frame.StreamBuild
import Tbquic.Lib.Trace
import Tbquic.Stream.Open

/-!
# The streams of an endpoint

The streams of a connection over whole runs: frames arrive, the application opens streams and
reads, frames are built, buffers are counted by flow control and go into packets. The builders
write into a buffer as well; what they do to the streams does not depend on it.
-/

namespace Tbquic

section Builders

variable {Ctx : Type}

/-- A stream that is reset by this endpoint. -/
def resetSent (si : QuicStreamInstance) : QuicStreamInstance := { si with sendState := .resetSent }

/-- The sending part of a stream can be reset. -/
def Resettable (si : QuicStreamInstance) : Prop :=
  si.sendState = .ready ∨ si.sendState = .send ∨ si.sendState = .dataSent

instance (si : QuicStreamInstance) : Decidable (Resettable si) :=
  inferInstanceAs (Decidable (_ ∨ _))

/-- `QuicFrameStreamDataBlockedBuild`. -/
def quicFrameStreamDataBlockedBuild (handle : ℤ) : Prog Fail (FrameBuild Ctx) Unit := do
  let id ← FrameBuild.onStreams (quicStreamGetInstance handle)
  let s ← Prog.get
  let maxStreamData := (s.quic.streams.si id).statBytes.sent
  FrameBuild.onStreams (Prog.modify (·.updateSi id sendStarted))
  FrameBuild.onPkt (quicVariableLengthWrite id)
  FrameBuild.onPkt (quicVariableLengthWrite maxStreamData)

/-- `QuicFrameResetStreamBuild`. -/
def quicFrameResetStreamBuild (handle : ℤ) (errCode : ℕ) : Prog Fail (FrameBuild Ctx) Unit := do
  let id ← FrameBuild.onStreams (quicStreamGetInstance handle)
  let s ← Prog.get
  Prog.ensure .ret (Resettable (s.quic.streams.si id))
  FrameBuild.onStreams (Prog.modify (·.updateSi id resetSent))
  FrameBuild.onPkt (quicVariableLengthWrite id)
  FrameBuild.onPkt (quicVariableLengthWrite errCode)
  FrameBuild.onPkt (quicVariableLengthWrite (s.quic.streams.si id).statBytes.sent)

/-- What `QuicFrameStreamBuild` does to the streams. -/
def streamBuildStreams (handle : ℤ) (fin : Bool) : Prog Fail QuicStreams Unit := do
  let id ← quicStreamGetInstance handle
  let q ← Prog.get
  Prog.ensure .ret ((q.si id).sendState = .ready ∨ (q.si id).sendState = .send)
  Prog.modify (·.updateSi id sendStarted)
  Prog.modify (·.updateSi id (sendFin fin))

/-- What `QuicFrameStreamDataBlockedBuild` does to the streams. -/
def blockedBuildStreams (handle : ℤ) : Prog Fail QuicStreams Unit := do
  let id ← quicStreamGetInstance handle
  Prog.modify (·.updateSi id sendStarted)

/-- What `QuicFrameResetStreamBuild` does to the streams. -/
def resetBuildStreams (handle : ℤ) : Prog Fail QuicStreams Unit := do
  let id ← quicStreamGetInstance handle
  let q ← Prog.get
  Prog.ensure .ret (Resettable (q.si id))
  Prog.modify (·.updateSi id resetSent)

end Builders

/-- What `QuicStreamGetInstance` does with a handle. -/
theorem quicStreamGetInstance_cases (handle : ℤ) (q : QuicStreams) :
    (∃ id : ℕ, handle = id ∧ q.Found id ∧
      quicStreamGetInstance handle q = (.ok id, q.opened id)) ∨
    (quicStreamGetInstance handle q = (.error .ret, q) ∧ ∀ id : ℕ, handle = id → ¬ q.Found id) := by
  by_cases hneg : handle < 0
  · refine .inr ⟨?_, fun id hid => by omega⟩
    have hcheck : ¬ q.idCheck handle = true := by
      rw [QuicStreams.idCheck, decide_eq_false (not_le.mpr hneg), Bool.false_and, Bool.false_and]
      exact Bool.false_ne_true
    rw [quicStreamGetInstance, Prog.get_bind]
    by_cases hinited : q.conf.inited = true
    · rw [Prog.ensure_of_pos hinited, Prog.pure_bind, Prog.ensure_of_neg hcheck, Prog.fail_bind]
      rfl
    · rw [Prog.ensure_of_neg hinited, Prog.fail_bind]
      rfl
  · obtain ⟨id, rfl⟩ := Int.eq_ofNat_of_zero_le (not_lt.mp hneg)
    by_cases hfound : q.Found id
    · exact .inl ⟨id, rfl, hfound, quicStreamGetInstance_of_found hfound⟩
    · refine .inr ⟨quicStreamGetInstance_of_not_found hfound, fun i hi => ?_⟩
      rwa [← Int.ofNat_inj.mp hi]

/-- `QuicStreamDataBlockedFrameBuild`, as far as the streams go. The flag `built` says whether the
builder of the frame is reached, for which there has to be memory and space. -/
def quicStreamDataBlockedFrameBuild (built : Bool) (handle : ℤ) : Prog Fail QuicStreams Unit := do
  let _id ← quicStreamGetInstance handle
  if built then blockedBuildStreams handle else pure ()

/-- The part of `QuicStreamSendFlowCtrl` behind the search for the stream. -/
def sendFlowCtrlFound (built : Bool) (handle : ℤ) (id len : ℕ) : Prog Fail QuicStreams Unit := do
  let q ← Prog.get
  let streamSend : ℕ := ((q.si id).statBytes.sent + len) % 2 ^ 64
  let totalSend : ℕ := (q.conf.statAll.sent + len) % 2 ^ 64
  if quicGt streamSend (q.si id).maxStreamData then do
    let _ ← Prog.attempt (quicStreamDataBlockedFrameBuild built handle)
    Prog.fail .ret
  else if quicGt totalSend q.peerParam.initialMaxData then Prog.fail .ret
  else Prog.modify fun q => { q.updateSi id fun si => { si with statBytes.sent := streamSend } with
    conf.statAll.sent := totalSend }

/-- `QuicStreamSendFlowCtrl`, as far as the streams go. -/
def quicStreamSendFlowCtrl (built : Bool) (handle : ℤ) (len : ℕ) : Prog Fail QuicStreams Unit :=
  if len = 0 then pure ()
  else do
    match ← Prog.attempt (quicStreamGetInstance handle) with
    | .error _ => pure ()
    | .ok id => sendFlowCtrlFound built handle id len

/-- `QuicStreamRecv` where it reads what is queued. -/
def quicStreamRecv (handle : ℤ) (len : ℕ) : Prog Fail QuicStreams ReadResult := do
  let id ← quicStreamGetInstance handle
  let q ← Prog.get
  let r ← Prog.ofExcept (quicStreamReadData (q.si id) len)
  Prog.modify (·.setSi id r.2)
  pure r.1

/-- A connection with the counters of the streams that it opened. -/
structure Endpoint where
  /-- The connection. -/
  conn : FrameConn
  /-- `bidi_id_alloced`. -/
  bidiIdAlloced : ℕ
  /-- `uni_id_alloced`. -/
  uniIdAlloced : ℕ

/-- What happens to the streams of an endpoint. -/
inductive StreamEvent
  /-- A frame is parsed. -/
  | frame (type : ℕ) (frame : RPacket)
  /-- The application opens a stream. -/
  | streamOpen (uni : Bool)
  /-- The application reads from a stream. -/
  | read (handle : ℤ) (len : ℕ)
  /-- A STREAM frame is built. -/
  | streamBuild (handle : ℤ) (fin : Bool)
  /-- A STREAM_DATA_BLOCKED frame is built. -/
  | blockedBuild (handle : ℤ)
  /-- A RESET_STREAM frame is built. -/
  | resetBuild (handle : ℤ)
  /-- The bytes of a buffer are counted by flow control. -/
  | flowCtrl (handle : ℤ) (len : ℕ) (built : Bool)
  /-- A buffer goes into a packet. -/
  | sent (qb : QBuff)

/-- The state behind a routine that returns, with or without an error. -/
def returned {σ α : Type} : Except Fail α × σ → Option σ
  | (.ok _, s) => some s
  | (.error .ret, s) => some s
  | (.error _, _) => none

namespace Endpoint

variable (mem : ℕ → Bool)

/-- The streams of an endpoint. -/
def streams (s : Endpoint) : QuicStreams := s.conn.streams

/-- The entry of a stream. -/
def si (s : Endpoint) (id : ℕ) : QuicStreamInstance := s.streams.si id

/-- The streams with the counters. -/
def table (s : Endpoint) : QuicStreamTable :=
  ⟨s.streams, s.bidiIdAlloced, s.uniIdAlloced⟩

/-- Replace the streams. -/
def setStreams (s : Endpoint) (streams : QuicStreams) : Endpoint :=
  { s with conn.streams := streams }

/-- Replace the streams and the counters. -/
def setTable (s : Endpoint) (t : QuicStreamTable) : Endpoint :=
  ⟨{ s.conn with streams := t.streams }, t.bidiIdAlloced, t.uniIdAlloced⟩

/-- A routine on the streams. -/
def run {α : Type} (m : Prog Fail QuicStreams α) (s : Endpoint) : Option Endpoint :=
  (returned (m s.streams)).map s.setStreams

/-- The parser of a frame. A type without a parser is refused before it. -/
def recvFrame (type : ℕ) (frame : RPacket) (s : Endpoint) : Option Endpoint :=
  match FrameState.frameParser mem type with
  | none => some s
  | some parser =>
    (returned (parser ⟨frame, s.conn, false, false⟩)).map fun t => { s with conn := t.conn }

/-- The state behind an event. -/
def step (s : Endpoint) : StreamEvent → Option Endpoint
  | .frame type frame => recvFrame mem type frame s
  | .streamOpen uni => (returned (quicStreamOpen uni s.table)).map s.setTable
  | .read handle len => run (quicStreamRecv handle len) s
  | .streamBuild handle fin => run (streamBuildStreams handle fin) s
  | .blockedBuild handle => run (blockedBuildStreams handle) s
  | .resetBuild handle => run (resetBuildStreams handle) s
  | .flowCtrl handle len built => run (quicStreamSendFlowCtrl built handle len) s
  | .sent qb => some { s with conn.sentQueue := s.conn.sentQueue ++ [qb] }

/-- An endpoint behind the exchange of the parameters. -/
def Created (s : Endpoint) : Prop :=
  ∃ own peer, s.streams = createdStreams s.streams.server own peer ∧
    s.bidiIdAlloced = 0 ∧ s.uniIdAlloced = 0

end Endpoint

/-- What an event writes to the entry `si` of the stream `id`. -/
inductive EventWrite (s : Endpoint) (id : ℕ) :
    StreamEvent → QuicStreamInstance → QuicStreamInstance → Prop
  /-- A write of a frame. -/
  | frame {type : ℕ} {frame : RPacket} {si si' : QuicStreamInstance}
      (h : EntryWrite type frame s.streams.server id si si') :
    EventWrite s id (.frame type frame) si si'
  /-- The receiving part is opened with others. -/
  | recvOpen {e : StreamEvent} {si : QuicStreamInstance} :
    EventWrite s id e si (quicStreamInstanceRecvOpen si)
  /-- The stream is opened. -/
  | opened {uni : Bool} {si : QuicStreamInstance} (hid : s.table.nextId uni = id)
      (hopen : s.table.CanOpen uni) (hstart : si.sendState = .start) :
    EventWrite s id (.streamOpen uni) si (openLocal s.streams.peerParam uni si)
  /-- The stream is read. -/
  | read {len : ℕ} {si si' : QuicStreamInstance} {res : ReadResult}
      (hread : quicStreamReadData si len = .ok (res, si')) :
    EventWrite s id (.read id len) si si'
  /-- The first frame of the stream is built. -/
  | started {e : StreamEvent} {si : QuicStreamInstance} (he : e = .blockedBuild id ∨
      (∃ fin, e = .streamBuild id fin) ∨ ∃ len built, e = .flowCtrl id len built) :
    EventWrite s id e si (sendStarted si)
  /-- The last frame of the stream is built. -/
  | fin {fin : Bool} {si : QuicStreamInstance} :
    EventWrite s id (.streamBuild id fin) si (sendFin fin si)
  /-- A RESET_STREAM frame of the stream is built. -/
  | reset {si : QuicStreamInstance} (h : Resettable si) :
    EventWrite s id (.resetBuild id) si (resetSent si)
  /-- Bytes of the stream are counted. -/
  | counted {len : ℕ} {built : Bool} {si : QuicStreamInstance} (sent : ℕ) :
    EventWrite s id (.flowCtrl id len built) si { si with statBytes.sent := sent }

/-- A write of a frame neither disables a receiving part nor resets a sending part to the start. -/
theorem EntryWrite.keepsStates {type : ℕ} {frame : RPacket} {server : Bool} {id : ℕ}
    {si si' : QuicStreamInstance} (h : EntryWrite type frame server id si si') :
    (si.recvState ≠ .disable → si'.recvState ≠ .disable) ∧
      (si.sendState ≠ .start → si'.sendState ≠ .start) := by
  cases h with
  | recvOpen => exact QuicStreams.keepsStates_recvOpen si
  | recvReset => exact keepsStates_recvReset si
  | stopSending => exact keepsStates_sendDisable si
  | sendReady => exact QuicStreams.keepsStates_sendReady si
  | recvFin => exact QuicStreams.keepsStates_recvFin _ si
  | data | notify => exact ⟨fun h => h, fun h => h⟩
  | complete => exact QuicStreams.keepsStates_recvComplete si
  | maxStreamData value => exact keepsStates_maxStreamData value si
  | acked flags => exact QuicStreams.keepsStates_streamFlagsAcked flags si

/-- A read may only mark the receiving part as read. -/
theorem quicStreamReadData_states {si si' : QuicStreamInstance} {len : ℕ} {res : ReadResult}
    (h : quicStreamReadData si len = .ok (res, si')) :
    si'.recvState = (if res.fin = true then .dataRead else si.recvState) ∧
      (res.fin = true → si.recvState = .dataRecvd) ∧ si'.sendState = si.sendState ∧
      si'.maxStreamData = si.maxStreamData ∧ si'.statBytes = si.statBytes := by
  obtain ⟨l, -, hl⟩ := Except.bind_eq_ok.mp h
  cases hl
  exact ⟨rfl, fun hfin => (of_decide_eq_true hfin).2, rfl, rfl, rfl⟩

/-- A write neither disables a receiving part nor resets a sending part to the start. -/
theorem EventWrite.keepsStates {s : Endpoint} {id : ℕ} {e : StreamEvent}
    {si si' : QuicStreamInstance} (h : EventWrite s id e si si') :
    (si.recvState ≠ .disable → si'.recvState ≠ .disable) ∧
      (si.sendState ≠ .start → si'.sendState ≠ .start) := by
  cases h with
  | frame h => exact h.keepsStates
  | recvOpen => exact QuicStreams.keepsStates_recvOpen si
  | @opened uni =>
    cases uni with
    | false =>
      refine ⟨fun h => (QuicStreams.keepsStates_recvOpen _).1 h, fun _ => ?_⟩
      refine (QuicStreams.keepsStates_recvOpen _).2 fun h => ?_
      cases h
    | true =>
      refine ⟨fun h => h, fun _ h => ?_⟩
      cases h
  | read hread =>
    obtain ⟨hrecv, -, hsend, -⟩ := quicStreamReadData_states hread
    rw [hrecv, hsend]
    refine ⟨fun h => ?_, fun h => h⟩
    split
    · exact fun h => by cases h
    · exact h
  | started =>
    unfold sendStarted
    split
    · exact ⟨fun h => h, fun _ h => (by cases h)⟩
    · exact ⟨fun h => h, fun h => h⟩
  | fin =>
    unfold sendFin
    split
    · exact ⟨fun h => h, fun _ h => (by cases h)⟩
    · exact ⟨fun h => h, fun h => h⟩
  | reset => exact ⟨fun h => h, fun _ h => (by cases h)⟩
  | counted => exact ⟨fun h => h, fun h => h⟩

/-- A write does not send a receiving part back to the start. -/
theorem EventWrite.leavesStart {s : Endpoint} {id : ℕ} {e : StreamEvent}
    {si si' : QuicStreamInstance} (h : EventWrite s id e si si') (hsi : si.recvState ≠ .start) :
    si'.recvState ≠ .start := by
  cases h with
  | frame h => exact h.leavesStart hsi
  | recvOpen => exact QuicStreams.Opens.recvOpen_ne_start si
  | @opened uni =>
    cases uni with
    | false => exact QuicStreams.Opens.recvOpen_ne_start _
    | true => exact hsi
  | read hread =>
    obtain ⟨hrecv, -⟩ := quicStreamReadData_states hread
    rw [hrecv]
    split
    · exact fun h => (by cases h)
    · exact hsi
  | started =>
    unfold sendStarted
    split <;> exact hsi
  | fin =>
    unfold sendFin
    split <;> exact hsi
  | reset | counted => exact hsi

/-- What an event writes to a table. -/
structure Written (s : Endpoint) (e : StreamEvent) (q t : QuicStreams) : Prop where
  /-- The entries are written. -/
  entry (id : ℕ) : Relation.ReflTransGen (EventWrite s id e) (q.si id) (t.si id)
  /-- The streams are kept. -/
  keeps : q.Keeps t
  /-- Only flow control counts the bytes sent. -/
  total : (∀ handle len built, e ≠ .flowCtrl handle len built) →
    t.conf.statAll.sent = q.conf.statAll.sent
  /-- Only frames count the bytes received. -/
  received : (∀ type frame, e ≠ .frame type frame) →
    t.conf.statAll.recvd = q.conf.statAll.recvd
  /-- Only frames change the parameters of the peer. -/
  peerParam : (∀ type frame, e ≠ .frame type frame) → t.peerParam = q.peerParam
  /-- Streams are opened. -/
  opens : q.Opens t

namespace Written

variable {s : Endpoint} {e : StreamEvent} {q t u : QuicStreams} {id : ℕ}

theorem refl (q : QuicStreams) : Written s e q q :=
  ⟨fun _ => Relation.ReflTransGen.refl, QuicStreams.Keeps.refl q, fun _ => rfl, fun _ => rfl,
    fun _ => rfl, .refl q⟩

theorem trans (h : Written s e q t) (h' : Written s e t u) : Written s e q u where
  entry id := (h.entry id).trans (h'.entry id)
  keeps := h.keeps.trans h'.keeps
  total he := (h'.total he).trans (h.total he)
  received he := (h'.received he).trans (h.received he)
  peerParam he := (h'.peerParam he).trans (h.peerParam he)
  opens := h.opens.trans h'.opens

/-- Streams are opened. -/
theorem opened : Written s e q (q.opened id) where
  entry i := by
    rw [opened_si_eq]
    split_ifs
    · exact Relation.ReflTransGen.single EventWrite.recvOpen
    · exact Relation.ReflTransGen.refl
  keeps := QuicStreams.keeps_opened
  total _ := by rw [opened_limits.1]
  received _ := by rw [opened_limits.1]
  peerParam _ := opened_limits.2
  opens := .opened

/-- One entry is written. -/
theorem setSi {entry : QuicStreamInstance} (h : EventWrite s id e (q.si id) entry) :
    Written s e q (q.setSi id entry) := by
  have hother (i : ℕ) (hi : i ≠ id) : (q.setSi id entry).si i = q.si i :=
    q.updateSi_si_of_ne (fun _ => entry) hi
  have hstates := h.keepsStates
  refine ⟨fun i => ?_, ⟨rfl, rfl, rfl, rfl, fun i hrecv => ?_, fun i hsend => ?_⟩, fun _ => rfl,
    fun _ => rfl, fun _ => rfl, .updateSi (f := fun _ => entry) h.leavesStart⟩
      <;> by_cases hi : i = id
  · subst hi
    rw [QuicStreams.setSi_si]
    exact Relation.ReflTransGen.single h
  · rw [hother i hi]
  · subst hi
    rw [QuicStreams.setSi_si]
    exact hstates.1 hrecv
  · rwa [hother i hi]
  · subst hi
    rw [QuicStreams.setSi_si]
    exact hstates.2 hsend
  · rwa [hother i hi]

end Written

namespace Endpoint

variable {mem : ℕ → Bool} {s t : Endpoint} {e : StreamEvent} {id : ℕ}

/-- A state behind a routine is that of its run. -/
theorem returned_eq_some {σ α : Type} {r : Except Fail α × σ} {u : σ} (h : returned r = some u) :
    r.2 = u ∧ ((∃ a, r.1 = .ok a) ∨ r.1 = .error .ret) := by
  obtain ⟨r, v⟩ := r
  cases r with
  | ok a =>
    cases h
    exact ⟨rfl, .inl ⟨a, rfl⟩⟩
  | error e =>
    cases e with
    | ret =>
      cases h
      exact ⟨rfl, .inr rfl⟩
    | assert | ub | fuel => cases h

/-- What a routine guarantees holds of the state behind it. -/
theorem returned_of_post {σ α : Type} {m : Prog Fail σ α} {P : σ → Prop} {s u : σ}
    (hpost : Prog.Post m (fun _ t => P t) (fun _ t => P t) s) (h : returned (m s) = some u) :
    P u := by
  obtain ⟨rfl, -⟩ := returned_eq_some h
  exact hpost.state

/-- The streams behind a routine are those of its run. -/
theorem run_eq_some {α : Type} {m : Prog Fail QuicStreams α} (h : run m s = some t) :
    t = s.setStreams (m s.streams).2 ∧
      ((∃ a, (m s.streams).1 = .ok a) ∨ (m s.streams).1 = .error .ret) := by
  obtain ⟨q, hq, rfl⟩ := Option.map_eq_some_iff.mp h
  obtain ⟨rfl, hresult⟩ := returned_eq_some hq
  exact ⟨rfl, hresult⟩

/-- The writes of a frame. -/
theorem recvFrame_written {type : ℕ} {frame : RPacket} (h : recvFrame mem type frame s = some t) :
    FrameMoves type frame s.conn t.conn ∧ t.bidiIdAlloced = s.bidiIdAlloced ∧
      t.uniIdAlloced = s.uniIdAlloced := by
  unfold recvFrame at h
  split at h
  · cases h
    exact ⟨Relation.ReflTransGen.refl, rfl, rfl⟩
  · rename_i parser hparser
    obtain ⟨u, hu, rfl⟩ := Option.map_eq_some_iff.mp h
    rw [← (returned_eq_some hu).1]
    exact ⟨frameParser_moving hparser ⟨frame, s.conn, false, false⟩, rfl, rfl⟩

/-- The state behind a frame with a parser. -/
theorem recvFrame_of_handler {type : ℕ} {frame : RPacket} {parser : Prog Fail FrameState Unit}
    (hparser : FrameState.frameParser mem type = some parser)
    (h : recvFrame mem type frame s = some t) :
    t = { s with conn := (parser ⟨frame, s.conn, false, false⟩).2.conn } := by
  unfold recvFrame at h
  rw [hparser] at h
  obtain ⟨u, hu, rfl⟩ := Option.map_eq_some_iff.mp h
  rw [← (returned_eq_some hu).1]

/-- A frame that is accepted has a state behind it. -/
theorem recvFrame_of_ok {type : ℕ} {frame : RPacket} {parser : Prog Fail FrameState Unit}
    (hparser : FrameState.frameParser mem type = some parser)
    (hok : (parser ⟨frame, s.conn, false, false⟩).1 = .ok ()) :
    recvFrame mem type frame s =
      some { s with conn := (parser ⟨frame, s.conn, false, false⟩).2.conn } := by
  unfold recvFrame
  rw [hparser]
  dsimp only
  rcases hrun : parser ⟨frame, s.conn, false, false⟩ with ⟨r, u⟩
  rw [hrun] at hok
  cases hok
  rfl

/-- What reading a stream writes. -/
theorem quicStreamRecv_written (handle : ℤ) (len : ℕ) :
    Written s (.read handle len) s.streams (quicStreamRecv handle len s.streams).2 := by
  rw [quicStreamRecv]
  rcases quicStreamGetInstance_cases handle s.streams with ⟨id, rfl, hfound, hget⟩ | ⟨hget, -⟩
  · rw [Prog.bind_of_ok hget, Prog.get_bind]
    cases hread : quicStreamReadData ((s.streams.opened id).si id) len with
    | error e =>
      rw [Prog.ofExcept_error, Prog.fail_bind]
      exact Written.opened
    | ok r =>
      obtain ⟨res, si'⟩ := r
      rw [Prog.ofExcept_ok, Prog.pure_bind, Prog.modify_bind]
      exact Written.opened.trans (Written.setSi (EventWrite.read hread))
  · rw [Prog.bind_of_error hget]
    exact Written.refl _

/-- What building a STREAM frame writes. -/
theorem streamBuildStreams_written (handle : ℤ) (fin : Bool) :
    Written s (.streamBuild handle fin) s.streams (streamBuildStreams handle fin s.streams).2 := by
  rw [streamBuildStreams]
  rcases quicStreamGetInstance_cases handle s.streams with ⟨id, rfl, hfound, hget⟩ | ⟨hget, -⟩
  · rw [Prog.bind_of_ok hget, Prog.get_bind]
    by_cases hsend : ((s.streams.opened id).si id).sendState = .ready ∨
        ((s.streams.opened id).si id).sendState = .send
    · rw [Prog.ensure_of_pos hsend, Prog.pure_bind, Prog.modify_bind, Prog.modify_apply]
      have hstarted : Written s (.streamBuild id fin) (s.streams.opened id)
          ((s.streams.opened id).updateSi id sendStarted) :=
        Written.setSi (EventWrite.started (.inr (.inl ⟨fin, rfl⟩)))
      exact (Written.opened.trans hstarted).trans (Written.setSi EventWrite.fin)
    · rw [Prog.ensure_of_neg hsend, Prog.fail_bind]
      exact Written.opened
  · rw [Prog.bind_of_error hget]
    exact Written.refl _

/-- What building a STREAM_DATA_BLOCKED frame writes. -/
theorem blockedBuildStreams_written {q : QuicStreams} (handle : ℤ)
    (he : ∀ id : ℕ, handle = id → e = .blockedBuild id ∨ (∃ fin, e = .streamBuild id fin) ∨
      ∃ len built, e = .flowCtrl id len built) :
    Written s e q (blockedBuildStreams handle q).2 := by
  rw [blockedBuildStreams]
  rcases quicStreamGetInstance_cases handle q with ⟨id, rfl, hfound, hget⟩ | ⟨hget, -⟩
  · rw [Prog.bind_of_ok hget, Prog.modify_apply]
    exact Written.opened.trans (Written.setSi (EventWrite.started (he id rfl)))
  · rw [Prog.bind_of_error hget]
    exact Written.refl _

/-- What announcing a blocked stream writes. -/
theorem quicStreamDataBlockedFrameBuild_written {q : QuicStreams} (handle : ℤ) (built : Bool)
    (he : ∀ id : ℕ, handle = id → e = .blockedBuild id ∨ (∃ fin, e = .streamBuild id fin) ∨
      ∃ len built, e = .flowCtrl id len built) :
    Written s e q (quicStreamDataBlockedFrameBuild built handle q).2 := by
  rw [quicStreamDataBlockedFrameBuild]
  rcases quicStreamGetInstance_cases handle q with ⟨id, hid, hfound, hget⟩ | ⟨hget, -⟩
  · have hopened : Written s e q (q.opened id) := Written.opened
    rw [Prog.bind_of_ok hget]
    cases built with
    | false => exact hopened
    | true => exact hopened.trans (blockedBuildStreams_written handle he)
  · rw [Prog.bind_of_error hget]
    exact Written.refl _

/-- What building a RESET_STREAM frame writes. -/
theorem resetBuildStreams_written (handle : ℤ) :
    Written s (.resetBuild handle) s.streams (resetBuildStreams handle s.streams).2 := by
  rw [resetBuildStreams]
  rcases quicStreamGetInstance_cases handle s.streams with ⟨id, rfl, hfound, hget⟩ | ⟨hget, -⟩
  · rw [Prog.bind_of_ok hget, Prog.get_bind]
    by_cases hsend : Resettable ((s.streams.opened id).si id)
    · rw [Prog.ensure_of_pos hsend, Prog.pure_bind, Prog.modify_apply]
      exact Written.opened.trans (Written.setSi (EventWrite.reset hsend))
    · rw [Prog.ensure_of_neg hsend, Prog.fail_bind]
      exact Written.opened
  · rw [Prog.bind_of_error hget]
    exact Written.refl _

/-- What flow control of sent data writes. -/
theorem quicStreamSendFlowCtrl_written (handle : ℤ) (len : ℕ) (built : Bool) :
    Written s (.flowCtrl handle len built) s.streams
      (quicStreamSendFlowCtrl built handle len s.streams).2 := by
  unfold quicStreamSendFlowCtrl
  split_ifs
  · exact Written.refl _
  rw [Prog.attempt_bind]
  rcases quicStreamGetInstance_cases handle s.streams with ⟨id, rfl, hfound, hget⟩ | ⟨hget, -⟩
  · rw [hget]
    dsimp only
    rw [sendFlowCtrlFound, Prog.get_bind]
    dsimp only
    split_ifs
    · rw [Prog.attempt_bind]
      refine Written.opened.trans (quicStreamDataBlockedFrameBuild_written id built fun j hj => ?_)
      rw [hj]
      exact .inr (.inr ⟨len, built, rfl⟩)
    · exact Written.opened
    · have hcount : Written s (.flowCtrl id len built) (s.streams.opened id)
          ((s.streams.opened id).setSi id _) := Written.setSi (EventWrite.counted
            ((((s.streams.opened id).si id).statBytes.sent + len) % 2 ^ 64))
      exact Written.opened.trans ⟨hcount.entry, ⟨rfl, rfl, rfl, rfl, hcount.keeps.recv,
        hcount.keeps.send⟩, fun he => absurd rfl (he id len built), fun _ => rfl,
        fun _ => rfl, ⟨hcount.opens.recv, hcount.opens.mark, hcount.opens.passed⟩⟩
  · rw [hget]
    exact Written.refl _

/-- What `QuicStreamOpen` does: it opens the next stream, or returns an error or aborts with the
streams as before. -/
theorem quicStreamOpen_cases (s : QuicStreamTable) (uni : Bool) :
    (s.CanOpen uni ∧ (s.streams.si (s.nextId uni)).sendState = .start ∧
      quicStreamOpen uni s = (.ok (s.nextId uni), s.opened uni)) ∨
    ∃ r t, quicStreamOpen uni s = (.error r, t) ∧ t.streams = s.streams := by
  by_cases hopen : s.CanOpen uni
  · obtain ⟨hinited, hlimit, hid⟩ := hopen
    have hgen := QuicStreamTable.quicStreamIdGen_of_lt hlimit hid
    rw [quicStreamOpen, Prog.get_bind, Prog.ensure_of_pos hinited, Prog.pure_bind,
      Prog.bind_of_ok hgen]
    by_cases hsize : s.nextId uni < 2 ^ 63
    · rw [Prog.ensure_of_pos hsize, Prog.pure_bind, Prog.get_bind,
        QuicStreamTable.allocate_streams]
      by_cases hstart : (s.streams.si (s.nextId uni)).sendState = .start
      · rw [Prog.ensure_of_pos hstart, Prog.pure_bind, Prog.modify_bind]
        exact .inl ⟨⟨hinited, hlimit, hid⟩, hstart, by
          rw [QuicStreamTable.allocate_streams]
          rfl⟩
      · rw [Prog.ensure_of_neg hstart, Prog.fail_bind]
        exact .inr ⟨.assert, _, rfl, QuicStreamTable.allocate_streams s uni⟩
    · rw [Prog.ensure_of_neg hsize, Prog.fail_bind]
      exact .inr ⟨.ret, _, rfl, QuicStreamTable.allocate_streams s uni⟩
  · exact .inr ⟨.ret, s, QuicStreamTable.quicStreamOpen_of_not_canOpen hopen, rfl⟩

/-- Every event writes what it may write, and keeps the streams. -/
theorem step_written (h : step mem s e = some t) : Written s e s.streams t.streams := by
  cases e with
  | frame type frame =>
    obtain ⟨hmoves, -⟩ := recvFrame_written h
    obtain ⟨hentries, hkeeps⟩ := hmoves.entriesWritten
    refine ⟨fun id => ?_, hkeeps, fun _ => hmoves.statAll_sent,
      fun he => absurd rfl (he type frame), fun he => absurd rfl (he type frame), hmoves.opens⟩
    exact Relation.ReflTransGen.mono (fun _ _ hwrite => EventWrite.frame hwrite) _ _ (hentries id)
  | streamOpen uni =>
    obtain ⟨u, hu, rfl⟩ := Option.map_eq_some_iff.mp h
    obtain ⟨rfl, -⟩ := returned_eq_some hu
    rcases quicStreamOpen_cases s.table uni with ⟨hopen, hstart, hrun⟩ | ⟨r, v, hrun, hv⟩
    · rw [hrun]
      exact Written.setSi (EventWrite.opened rfl hopen hstart)
    · rw [hrun]
      change Written s _ s.streams v.streams
      rw [hv]
      exact Written.refl _
  | read handle len =>
    obtain ⟨rfl, -⟩ := run_eq_some h
    exact quicStreamRecv_written handle len
  | streamBuild handle fin =>
    obtain ⟨rfl, -⟩ := run_eq_some h
    exact streamBuildStreams_written handle fin
  | blockedBuild handle =>
    obtain ⟨rfl, -⟩ := run_eq_some h
    exact blockedBuildStreams_written handle fun id hid => .inl (by rw [hid])
  | resetBuild handle =>
    obtain ⟨rfl, -⟩ := run_eq_some h
    exact resetBuildStreams_written handle
  | flowCtrl handle len built =>
    obtain ⟨rfl, -⟩ := run_eq_some h
    exact quicStreamSendFlowCtrl_written handle len built
  | sent qb =>
    cases h
    exact Written.refl _

/-- The state behind the opening of a stream. -/
theorem step_open {uni : Bool} (h : step mem s (.streamOpen uni) = some t) :
    (s.table.CanOpen uni ∧ (s.streams.si (s.table.nextId uni)).sendState = .start ∧
      t = s.setTable (s.table.opened uni)) ∨ t.streams = s.streams := by
  obtain ⟨u, hu, rfl⟩ := Option.map_eq_some_iff.mp h
  obtain ⟨rfl, -⟩ := returned_eq_some hu
  rcases quicStreamOpen_cases s.table uni with ⟨hopen, hstart, hrun⟩ | ⟨r, v, hrun, hv⟩
  · rw [hrun]
    exact .inl ⟨hopen, hstart, rfl⟩
  · rw [hrun]
    exact .inr hv

/-- An endpoint without streams in use, with the parameters of both sides. -/
def created (server : Bool) (own peer : QuicTransParams) : Endpoint where
  conn := { openedConn with streams := createdStreams server own peer }
  bidiIdAlloced := 0
  uniIdAlloced := 0

/-- It is one behind the exchange of the parameters. -/
theorem created_created (server : Bool) (own peer : QuicTransParams) :
    (created server own peer).Created := by
  refine ⟨own, peer, ?_, rfl, rfl⟩
  have hserver : (createdStreams server own peer).server = server := by rw [createdStreams_eq]
  change createdStreams server own peer =
    createdStreams (createdStreams server own peer).server own peer
  rw [hserver]

end Endpoint

end Tbquic
