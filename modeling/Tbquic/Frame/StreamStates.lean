import Tbquic.Frame.Endpoint

/-!
# The state machines of a stream

The receiving and the sending part of a stream follow the state machines of RFC 9000 section 3,
as long as no STOP_SENDING frame disables a sending part and no RESET_STREAM frame finds a
receiving part that was not opened.
-/

namespace Tbquic

/-- The edges of the receiving state machine. A part that is not there has none. -/
inductive RecvEdge : StreamState → StreamState → Prop
  /-- The stream is used. -/
  | create : RecvEdge .start .recv
  /-- A FIN arrives. -/
  | size : RecvEdge .recv .sizeKnown
  /-- A reset arrives before the size. -/
  | resetRecv : RecvEdge .recv .resetRecvd
  /-- All data has arrived. -/
  | all : RecvEdge .sizeKnown .dataRecvd
  /-- A reset arrives after the size. -/
  | resetSize : RecvEdge .sizeKnown .resetRecvd
  /-- A reset arrives after all data. -/
  | resetData : RecvEdge .dataRecvd .resetRecvd
  /-- All data arrives after a reset. -/
  | allReset : RecvEdge .resetRecvd .dataRecvd
  /-- The application reads all data. -/
  | read : RecvEdge .dataRecvd .dataRead
  /-- The application is told of the reset. -/
  | readReset : RecvEdge .resetRecvd .resetRead

/-- The edges of the sending state machine. A part that is not there has none. -/
inductive SendEdge : StreamState → StreamState → Prop
  /-- The stream is created. -/
  | create : SendEdge .start .ready
  /-- A frame is sent. -/
  | send : SendEdge .ready .send
  /-- A reset is sent before all frames. -/
  | resetReady : SendEdge .ready .resetSent
  /-- A FIN is sent. -/
  | fin : SendEdge .send .dataSent
  /-- A reset is sent after a frame. -/
  | resetSend : SendEdge .send .resetSent
  /-- All data is acknowledged. -/
  | acked : SendEdge .dataSent .dataRecvd
  /-- A reset is sent after the FIN. -/
  | resetData : SendEdge .dataSent .resetSent
  /-- The reset is acknowledged. -/
  | resetAcked : SendEdge .resetSent .resetRecvd

/-- Changes of a receiving state along edges. -/
def RecvPath : StreamState → StreamState → Prop := Relation.ReflTransGen RecvEdge

/-- Changes of a sending state along edges. -/
def SendPath : StreamState → StreamState → Prop := Relation.ReflTransGen SendEdge

/-- A state without an edge is kept. -/
theorem RecvPath.eq_of_terminal {a b : StreamState} (h : RecvPath a b)
    (ha : a = .dataRead ∨ a = .resetRead ∨ a = .disable) : b = a := by
  rcases Relation.ReflTransGen.cases_head h with rfl | ⟨c, hedge, -⟩
  · rfl
  · rcases ha with rfl | rfl | rfl <;> cases hedge

/-- A state without an edge is kept. -/
theorem SendPath.eq_of_terminal {a b : StreamState} (h : SendPath a b)
    (ha : a = .dataRecvd ∨ a = .resetRecvd ∨ a = .disable) : b = a := by
  rcases Relation.ReflTransGen.cases_head h with rfl | ⟨c, hedge, -⟩
  · rfl
  · rcases ha with rfl | rfl | rfl <;> cases hedge

/-- A sending part is disabled from the start or not at all. -/
theorem SendPath.disable {a : StreamState} (h : SendPath a .disable) : a = .disable := by
  rcases Relation.ReflTransGen.cases_tail h with h | ⟨c, -, hedge⟩
  · exact h.symm
  · cases hedge

/-- The states of one entry lead to those of another. -/
def StatesFollow (si si' : QuicStreamInstance) : Prop :=
  RecvPath si.recvState si'.recvState ∧ SendPath si.sendState si'.sendState

namespace StatesFollow

variable {si si' si'' : QuicStreamInstance}

theorem refl (si : QuicStreamInstance) : StatesFollow si si :=
  ⟨Relation.ReflTransGen.refl, Relation.ReflTransGen.refl⟩

theorem trans (h : StatesFollow si si') (h' : StatesFollow si' si'') : StatesFollow si si'' :=
  ⟨Relation.ReflTransGen.trans h.1 h'.1, Relation.ReflTransGen.trans h.2 h'.2⟩

/-- The receiving state takes an edge. -/
theorem recv {state : StreamState} (h : RecvEdge si.recvState state) :
    StatesFollow si { si with recvState := state } :=
  ⟨Relation.ReflTransGen.single h, Relation.ReflTransGen.refl⟩

/-- The sending state takes an edge. -/
theorem send {state : StreamState} (h : SendEdge si.sendState state) :
    StatesFollow si { si with sendState := state } :=
  ⟨Relation.ReflTransGen.refl, Relation.ReflTransGen.single h⟩

theorem recvOpen : StatesFollow si (quicStreamInstanceRecvOpen si) := by
  unfold quicStreamInstanceRecvOpen
  split
  · rename_i h
    exact recv (h ▸ RecvEdge.create)
  · exact refl si

theorem recvReset : StatesFollow si (FrameState.recvReset si) := by
  unfold FrameState.recvReset
  split
  · rename_i h
    rcases h with h | h | h
    · exact recv (h ▸ RecvEdge.resetRecv)
    · exact recv (h ▸ RecvEdge.resetSize)
    · exact recv (h ▸ RecvEdge.resetData)
  · exact refl si

theorem sendReady : StatesFollow si (sendReady si) := by
  unfold Tbquic.sendReady
  split
  · rename_i h
    exact send (h ▸ SendEdge.create)
  · exact refl si

theorem recvFin {fin : Bool} : StatesFollow si (recvFin fin si) := by
  unfold Tbquic.recvFin
  split
  · rename_i h
    exact recv (h.2 ▸ RecvEdge.size)
  · exact refl si

theorem complete (hrecv : si.recvState = .recv ∨ si.recvState = .sizeKnown) :
    StatesFollow si (recvComplete si) := by
  unfold recvComplete
  split
  · rename_i h
    rcases h.1 with hsize | hreset
    · exact recv (hsize ▸ RecvEdge.all)
    · rcases hrecv with h | h <;> rw [h] at hreset <;> cases hreset
  · exact refl si

theorem acked {flags : ℕ} : StatesFollow si (streamFlagsAcked flags si) := by
  have hfin : StatesFollow si
      (if flags &&& qbuffFlagsStreamFin ≠ 0 ∧ si.sendState = .dataSent then
        { si with sendState := .dataRecvd } else si) := by
    split
    · rename_i h
      exact send (h.2 ▸ SendEdge.acked)
    · exact refl si
  refine hfin.trans ?_
  unfold streamFlagsAcked
  dsimp only
  generalize (if flags &&& qbuffFlagsStreamFin ≠ 0 ∧ si.sendState = .dataSent then
    { si with sendState := .dataRecvd } else si : QuicStreamInstance) = si
  split
  · rename_i h
    exact send (h.2 ▸ SendEdge.resetAcked)
  · exact refl si

theorem sendStarted : StatesFollow si (sendStarted si) := by
  unfold Tbquic.sendStarted
  split
  · rename_i h
    exact send (h ▸ SendEdge.send)
  · exact refl si

theorem sendFin {fin : Bool} : StatesFollow si (sendFin fin si) := by
  unfold Tbquic.sendFin
  split
  · rename_i h
    exact send (h.2 ▸ SendEdge.fin)
  · exact refl si

theorem resetSent (h : Resettable si) : StatesFollow si (resetSent si) := by
  rcases h with h | h | h
  · exact send (h ▸ SendEdge.resetReady)
  · exact send (h ▸ SendEdge.resetSend)
  · exact send (h ▸ SendEdge.resetData)

theorem openLocal {peer : QuicTransParams} {uni : Bool} (h : si.sendState = .start) :
    StatesFollow si (openLocal peer uni si) := by
  have hready : StatesFollow si { si with sendState := .ready } := send (h ▸ SendEdge.create)
  cases uni with
  | false =>
    have hopen := @recvOpen { si with
      sendState := .ready, maxStreamData := peer.initialMaxStreamDataBidiRemote }
    exact hready.trans hopen
  | true => exact hready

theorem read {len : ℕ} {res : ReadResult} (h : quicStreamReadData si len = .ok (res, si')) :
    StatesFollow si si' := by
  obtain ⟨hrecv, hfin, hsend, -⟩ := quicStreamReadData_states h
  refine ⟨?_, ?_⟩
  · rw [hrecv]
    split
    · rename_i hres
      rw [hfin hres]
      exact Relation.ReflTransGen.single RecvEdge.read
    · exact Relation.ReflTransGen.refl
  · rw [hsend]
    exact Relation.ReflTransGen.refl

end StatesFollow

section Writes

variable {type : ℕ} {frame : RPacket} {server : Bool} {id : ℕ} {si si' : QuicStreamInstance}

/-- Every write of a frame but that of STOP_SENDING takes edges. -/
theorem EntryWrite.statesFollow (h : EntryWrite type frame server id si si')
    (htype : type ≠ 0x05) : StatesFollow si si' := by
  cases h with
  | recvOpen => exact StatesFollow.recvOpen
  | recvReset => exact StatesFollow.recvReset
  | stopSending hstop => exact absurd hstop htype
  | sendReady => exact StatesFollow.sendReady
  | recvFin => exact StatesFollow.recvFin
  | data | notify => exact StatesFollow.refl _
  | complete _ hrecv => exact StatesFollow.complete hrecv
  | maxStreamData =>
    split
    · exact StatesFollow.refl _
    · exact StatesFollow.refl _
  | acked => exact StatesFollow.acked

/-- Every write of an event but that of STOP_SENDING takes edges. -/
theorem EventWrite.statesFollow {s : Endpoint} {e : StreamEvent} (h : EventWrite s id e si si')
    (hevent : ∀ frame, e ≠ .frame 0x05 frame) : StatesFollow si si' := by
  cases h with
  | @frame type frame _ _ h => exact h.statesFollow fun htype => hevent frame (by rw [htype])
  | recvOpen => exact StatesFollow.recvOpen
  | opened _ _ hstart => exact StatesFollow.openLocal hstart
  | read hread => exact StatesFollow.read hread
  | started => exact StatesFollow.sendStarted
  | fin => exact StatesFollow.sendFin
  | reset h => exact StatesFollow.resetSent h
  | counted => exact StatesFollow.refl _

end Writes

section Frames

variable {c : FrameConn} {frame : RPacket}

/-- A STOP_SENDING frame disables the sending part of no stream. -/
def StopsNothing (c : FrameConn) (frame : RPacket) : Prop :=
  ∀ id, frameNumbers 1 frame = some [id] → c.streams.Found id →
    (c.streams.si id).sendState = .start ∨ (c.streams.si id).sendState = .disable

/-- A RESET_STREAM frame finds no receiving part that was not opened. -/
def ResetsOpened (c : FrameConn) (frame : RPacket) : Prop :=
  ∀ id code size, frameNumbers 3 frame = some [id, code, size] → c.streams.Found id →
    ((c.streams.opened id).si id).recvState ≠ .start

/-- A STOP_SENDING frame that disables no sending part only opens streams. -/
theorem stopSending_streams (h : StopsNothing c frame) :
    (FrameState.quicFrameStopSendingParser ⟨frame, c, false, false⟩).2.conn.streams = c.streams ∨
    ∃ id, (FrameState.quicFrameStopSendingParser ⟨frame, c, false, false⟩).2.conn.streams =
      c.streams.opened id := by
  rw [FrameState.quicFrameStopSendingParser]
  rcases hread : quicVariableLengthDecode frame with ⟨r, pkt⟩
  cases r with
  | error e =>
    rw [FrameState.readVar, Prog.bind_of_error (Prog.zoom_of_error hread)]
    exact .inl rfl
  | ok id =>
    rw [FrameState.readVar, Prog.bind_of_ok (Prog.zoom_of_ok hread)]
    by_cases hfound : c.streams.Found id
    · refine .inr ⟨id, ?_⟩
      have hstate := h id (frameNumbers_one hread) hfound
      have hopened : ((c.streams.opened id).si id).sendState = (c.streams.si id).sendState := by
        rw [opened_si]
        split_ifs
        · exact (QuicStreams.recvOpen_send _).1
        · rfl
      rw [← hopened] at hstate
      rw [Prog.bind_of_ok (FrameState.getInstance_of_found hfound),
        Prog.bind_of_error (FrameState.check_of_neg (not_not.mpr hstate))]
    · rw [Prog.bind_of_error (FrameState.getInstance_of_not_found hfound)]
      exact .inl rfl

/-- An accepted RESET_STREAM frame resets the receiving part of the stream that it names. -/
theorem resetStream_of_ok
    (h : (FrameState.quicFrameResetStreamParser ⟨frame, c, false, false⟩).1 = .ok ()) :
    ∃ id code size, frameNumbers 3 frame = some [id, code, size] ∧ c.streams.Found id ∧
      (FrameState.quicFrameResetStreamParser ⟨frame, c, false, false⟩).2.conn.streams =
        (c.streams.opened id).updateSi id FrameState.recvReset := by
  rw [FrameState.quicFrameResetStreamParser] at h ⊢
  obtain ⟨id, pkt₁, hid, hrun₁⟩ := FrameState.readVar_bind_of_ok h
  rw [hrun₁] at h ⊢
  obtain ⟨code, pkt₂, hcode, hrun₂⟩ := FrameState.readVar_bind_of_ok h
  rw [hrun₂] at h ⊢
  obtain ⟨size, pkt₃, hsize, hrun₃⟩ := FrameState.readVar_bind_of_ok h
  rw [hrun₃] at h ⊢
  refine ⟨id, code, size, frameNumbers_three hid hcode hsize, ?_⟩
  by_cases hfound : c.streams.Found id
  · rw [Prog.bind_of_ok (FrameState.getInstance_of_found hfound)]
    exact ⟨hfound, rfl⟩
  · rw [Prog.bind_of_error (FrameState.getInstance_of_not_found hfound)] at h
    cases h

end Frames

/-- The states of a receiving part. -/
def RecvState (state : StreamState) : Prop :=
  state = .disable ∨ state = .start ∨ state = .recv ∨ state = .sizeKnown ∨ state = .dataRecvd ∨
    state = .resetRecvd ∨ state = .dataRead ∨ state = .resetRead

/-- The states of a receiving part that was reset or ended before. -/
def Ended (state : StreamState) : Prop :=
  state = .disable ∨ state = .resetRecvd ∨ state = .dataRead ∨ state = .resetRead

/-- Edges lead to states of a receiving part. -/
theorem RecvPath.recvState {a b : StreamState} (h : RecvPath a b) (ha : RecvState a) :
    RecvState b := by
  rcases Relation.ReflTransGen.cases_tail h with rfl | ⟨c, -, hedge⟩
  · exact ha
  · unfold RecvState
    cases hedge <;> simp

/-- A reset of a part that was opened ends it. -/
theorem recvReset_ended {si : QuicStreamInstance} (hstate : RecvState si.recvState)
    (hopened : si.recvState ≠ .start) : Ended (FrameState.recvReset si).recvState := by
  unfold FrameState.recvReset Ended
  rcases hstate with h | h | h | h | h | h | h | h <;> simp_all

/-- Opening the receiving part changes nothing behind a reset. -/
theorem Ended.recvOpen {si : QuicStreamInstance} (hended : Ended si.recvState) :
    Ended (quicStreamInstanceRecvOpen si).recvState := by
  have hne : si.recvState ≠ .start := by
    rcases hended with h | h | h | h <;> rw [h] <;> decide
  rw [quicStreamInstanceRecvOpen, if_neg hne]
  exact hended

/-- What is reset stays so whatever a frame writes. -/
theorem EntryWrite.ended {type : ℕ} {frame : RPacket} {server : Bool} {id : ℕ}
    {si si' : QuicStreamInstance} (h : EntryWrite type frame server id si si')
    (hended : Ended si.recvState) : Ended si'.recvState := by
  have hne : ¬ (si.recvState = .recv ∨ si.recvState = .sizeKnown) := by
    rcases hended with h | h | h | h <;> rw [h] <;> decide
  cases h with
  | recvOpen => exact hended.recvOpen
  | recvReset =>
    unfold FrameState.recvReset
    split
    · exact .inr (.inl rfl)
    · exact hended
  | sendReady =>
    unfold Tbquic.sendReady
    split <;> exact hended
  | recvFin =>
    unfold Tbquic.recvFin
    split
    · rename_i hfin
      exact absurd (.inl hfin.2) hne
    · exact hended
  | data _ _ _ hrecv | complete _ hrecv => exact absurd hrecv hne
  | stopSending | notify => exact hended
  | maxStreamData => split <;> exact hended
  | acked =>
    unfold streamFlagsAcked
    dsimp only
    split_ifs <;> exact hended

/-- What is reset stays so whatever an event writes. -/
theorem EventWrite.ended {s : Endpoint} {id : ℕ} {e : StreamEvent} {si si' : QuicStreamInstance}
    (h : EventWrite s id e si si') (hended : Ended si.recvState) : Ended si'.recvState := by
  cases h with
  | frame h => exact h.ended hended
  | recvOpen => exact hended.recvOpen
  | @opened uni =>
    cases uni with
    | false =>
      exact @Ended.recvOpen { si with
        sendState := .ready, maxStreamData := s.streams.peerParam.initialMaxStreamDataBidiRemote }
        hended
    | true => exact hended
  | read hread =>
    obtain ⟨hrecv, hfin, -⟩ := quicStreamReadData_states hread
    rw [hrecv]
    split
    · exact .inr (.inr (.inl rfl))
    · exact hended
  | started =>
    unfold sendStarted
    split <;> exact hended
  | fin =>
    unfold sendFin
    split <;> exact hended
  | reset | counted => exact hended

namespace Endpoint

variable {mem : ℕ → Bool} {s t u : Endpoint} {e : StreamEvent} {es : List StreamEvent} {id : ℕ}

/-- An event is a RESET_STREAM frame for a stream that is accepted. -/
def ResetBy (id : ℕ) (s : Endpoint) (e : StreamEvent) : Prop :=
  ∃ frame code size, e = .frame 0x04 frame ∧ frameNumbers 3 frame = some [id, code, size] ∧
    (FrameState.quicFrameResetStreamParser ⟨frame, s.conn, false, false⟩).1 = .ok ()

/-- An event is a read of a stream that reports its end. -/
def EndsClean (id : ℕ) (s : Endpoint) (e : StreamEvent) : Prop :=
  ∃ len res q, e = .read id len ∧ quicStreamRecv id len s.streams = (.ok res, q) ∧ res.fin = true

/-- An event is a STOP_SENDING frame that is accepted for a stream that sends. -/
def StoppedBy (id : ℕ) (s : Endpoint) (e : StreamEvent) : Prop :=
  ∃ frame, e = .frame 0x05 frame ∧ frameNumbers 1 frame = some [id] ∧
    ((s.si id).sendState = .ready ∨ (s.si id).sendState = .send) ∧
    (FrameState.quicFrameStopSendingParser ⟨frame, s.conn, false, false⟩).1 = .ok ()

/-- The states of all streams change along edges, terminal states are kept, and STOP_SENDING
resets the sending part. -/
def StatesProper (mem : ℕ → Bool) (s : Endpoint) (e : StreamEvent) : Prop :=
  ∀ t, step mem s e = some t → ∀ id, StatesFollow (s.si id) (t.si id) ∧
    ((s.si id).recvState = .dataRead ∨ (s.si id).recvState = .resetRead →
      (t.si id).recvState = (s.si id).recvState) ∧
    ((s.si id).sendState = .dataRecvd ∨ (s.si id).sendState = .resetRecvd →
      (t.si id).sendState = (s.si id).sendState) ∧
    (StoppedBy id s e → (t.si id).sendState = .resetSent)

/-- Behind an accepted RESET_STREAM frame, the stream does not end cleanly any more. -/
def ResetsFinal (mem : ℕ → Bool) (s : Endpoint) (es : List StreamEvent) : Prop :=
  ∀ pre e post u t id, es = pre ++ e :: post → Trace.run (step mem) s pre = some u →
    ResetBy id u e → step mem u e = some t →
    Trace.Along (step mem) (fun v e => ¬ EndsClean id v e) t post

/-- A STOP_SENDING frame disables no sending part, and a RESET_STREAM frame finds no receiving
part that was not opened. -/
def KeepsMachines (s : Endpoint) : StreamEvent → Prop
  | .frame type frame => (type = 0x05 → StopsNothing s.conn frame) ∧
    (type = 0x04 → ResetsOpened s.conn frame)
  | _ => True

/-- The states of the streams behind an event. -/
theorem step_statesFollow (h : step mem s e = some t) (hok : s.KeepsMachines e) (id : ℕ) :
    StatesFollow (s.si id) (t.si id) := by
  by_cases hevent : ∀ frame, e ≠ .frame 0x05 frame
  · have hchain := (step_written h).entry id
    change StatesFollow (s.streams.si id) (t.streams.si id)
    generalize t.streams.si id = si at hchain
    induction hchain with
    | refl => exact StatesFollow.refl _
    | tail _ hwrite ih => exact ih.trans (hwrite.statesFollow hevent)
  · push Not at hevent
    obtain ⟨frame, rfl⟩ := hevent
    obtain ⟨u, hu, rfl⟩ := Option.map_eq_some_iff.mp h
    obtain ⟨rfl, -⟩ := returned_eq_some hu
    have hstreams := stopSending_streams (hok.1 rfl)
    change StatesFollow (s.streams.si id) ((FrameState.quicFrameStopSendingParser
      ⟨frame, s.conn, false, false⟩).2.conn.streams.si id)
    rcases hstreams with hstreams | ⟨i, hstreams⟩
    · rw [hstreams]
      exact StatesFollow.refl _
    · rw [hstreams, opened_si_eq]
      split_ifs
      · exact StatesFollow.recvOpen
      · exact StatesFollow.refl _

/-- A stream that is reset stays so. -/
theorem step_ended (h : step mem s e = some t) (hended : Ended (s.si id).recvState) :
    Ended (t.si id).recvState := by
  have hchain := (step_written h).entry id
  change Ended (s.streams.si id).recvState at hended
  change Ended (t.streams.si id).recvState
  generalize t.streams.si id = si at hchain
  induction hchain with
  | refl => exact hended
  | tail _ hwrite ih => exact hwrite.ended ih

/-- A stream that is reset does not end cleanly. -/
theorem not_endsClean (hended : Ended (s.si id).recvState) : ¬ EndsClean id s e := by
  rintro ⟨len, res, q, -, hread, hfin⟩
  rw [quicStreamRecv] at hread
  rcases quicStreamGetInstance_cases id s.streams with ⟨i, hi, hfound, hget⟩ | ⟨hget, -⟩
  · obtain rfl := Int.ofNat_inj.mp hi
    rw [Prog.bind_of_ok hget, Prog.get_bind] at hread
    cases hdata : quicStreamReadData ((s.streams.opened id).si id) len with
    | error e =>
      rw [hdata, Prog.ofExcept_error, Prog.fail_bind] at hread
      cases hread
    | ok r =>
      rw [hdata, Prog.ofExcept_ok, Prog.pure_bind, Prog.modify_bind] at hread
      cases hread
      have hstate := (quicStreamReadData_states hdata).2.1 hfin
      have hopened : Ended ((s.streams.opened id).si id).recvState := by
        rw [opened_si]
        split_ifs
        · exact hended.recvOpen
        · exact hended
      rw [hstate] at hopened
      exact absurd hopened (by unfold Ended; decide)
  · rw [Prog.bind_of_error hget] at hread
    cases hread

/-- An accepted STOP_SENDING frame found its stream. -/
theorem stopSending_found {frame : RPacket} {c : FrameConn}
    (h : (FrameState.quicFrameStopSendingParser ⟨frame, c, false, false⟩).1 = .ok ()) :
    ∃ id, frameNumbers 1 frame = some [id] ∧ c.streams.Found id := by
  rw [FrameState.quicFrameStopSendingParser] at h
  obtain ⟨id, pkt, hid, hrun⟩ := FrameState.readVar_bind_of_ok h
  refine ⟨id, frameNumbers_one hid, ?_⟩
  by_contra hfound
  rw [hrun, Prog.bind_of_error (FrameState.getInstance_of_not_found hfound)] at h
  cases h

/-- An event that keeps the machines takes proper steps. -/
theorem statesProper_of_keeps (hok : s.KeepsMachines e) : StatesProper mem s e := by
  intro t ht id
  have hfollow := step_statesFollow ht hok id
  refine ⟨hfollow, fun hstate => ?_, fun hstate => ?_, ?_⟩
  · exact hfollow.1.eq_of_terminal (hstate.imp_right .inl)
  · exact hfollow.2.eq_of_terminal (hstate.imp_right .inl)
  · rintro ⟨frame, rfl, hframe, hsend, haccepted⟩
    obtain ⟨i, hi, hfound⟩ := stopSending_found haccepted
    rw [hframe] at hi
    cases hi
    have hstop := hok.1 rfl id hframe hfound
    change (s.si id).sendState = .start ∨ (s.si id).sendState = .disable at hstop
    rcases hsend with hsend | hsend <;> rw [hsend] at hstop <;> rcases hstop with h | h <;> cases h

/-- Every part of a new endpoint is in one of its states. -/
theorem Created.recvState (hs : s.Created) (id : ℕ) : RecvState (s.si id).recvState := by
  obtain ⟨own, peer, hstreams, -⟩ := hs
  have hsi : s.si id = quicStreamInstanceInit id s.streams.server := by
    rw [si, hstreams, createdStreams_eq]
    rfl
  rw [hsi, quicStreamInstanceInit]
  dsimp only
  split_ifs
  · exact .inl rfl
  · exact .inr (.inl rfl)

/-- A RESET_STREAM frame that finds an opened part ends it. -/
theorem resetBy_ended (hreset : ResetBy id s e) (hok : s.KeepsMachines e)
    (hstate : RecvState (s.si id).recvState) (h : step mem s e = some t) :
    Ended (t.si id).recvState := by
  obtain ⟨frame, code, size, rfl, hframe, haccepted⟩ := hreset
  obtain ⟨i, code', size', hframe', hfound, hstreams⟩ := resetStream_of_ok haccepted
  rw [hframe] at hframe'
  cases hframe'
  obtain ⟨u, hu, rfl⟩ := Option.map_eq_some_iff.mp h
  obtain ⟨rfl, -⟩ := returned_eq_some hu
  change Ended ((FrameState.quicFrameResetStreamParser
    ⟨frame, s.conn, false, false⟩).2.conn.streams.si id).recvState
  rw [hstreams, QuicStreams.updateSi_si]
  refine recvReset_ended ?_ (hok.2 rfl id code size hframe hfound)
  rw [opened_si]
  split_ifs
  · exact (StatesFollow.recvOpen).1.recvState hstate
  · exact hstate

/-- The streams follow their state machines in every run without a STOP_SENDING frame that
disables a sending part and without a RESET_STREAM frame that finds an unopened part. -/
theorem statesProper_along (mem : ℕ → Bool) (s : Endpoint) (es : List StreamEvent) (hs : s.Created)
    (hok : Trace.Along (step mem) KeepsMachines s es) :
    Trace.Along (step mem) (StatesProper mem) s es ∧ ResetsFinal mem s es := by
  refine ⟨hok.mono fun _ _ => statesProper_of_keeps, ?_⟩
  rintro pre e post u t id rfl hrun hreset ht
  have hstate : ∀ id, RecvState (u.si id).recvState := by
    refine Trace.run_invariant_along (fun s => ∀ id, RecvState (s.si id).recvState)
      (fun v e w hv hok hw id => ?_) hs.recvState hok.append_left hrun
    exact (step_statesFollow hw hok id).1.recvState (hv id)
  have hu := hok.of_append hrun
  refine Trace.along_of_invariant (fun v => Ended (v.si id).recvState)
    (fun v e w hv hw => step_ended hw hv) (fun v e hv => not_endsClean hv) ?_
  exact resetBy_ended hreset hu.1 (hstate id) ht

/-- Parameters of an ordinary endpoint. -/
def ordinaryParams : QuicTransParams := ⟨4096, 4096, 4096, 8, 8⟩

/-- A stream with a byte that is reset follows its state machines. -/
theorem statesProper_along_reset :
    Trace.Along (step fun _ => true) (StatesProper fun _ => true)
        (created true ordinaryParams ordinaryParams)
        [.frame 0x08 (rPacketBufInit [0x04, 0x61]),
          .frame 0x04 (rPacketBufInit [0x04, 0x00, 0x01])] ∧
      ResetsFinal (fun _ => true) (created true ordinaryParams ordinaryParams)
        [.frame 0x08 (rPacketBufInit [0x04, 0x61]),
          .frame 0x04 (rPacketBufInit [0x04, 0x00, 0x01])] := by
  refine statesProper_along _ _ _ (created_created _ _ _)
    ⟨⟨fun h => absurd h (by decide), fun h => absurd h (by decide)⟩, fun t ht => ⟨?_, ?_⟩⟩
  · refine ⟨fun h => absurd h (by decide), fun _ id code size hframe _ => ?_⟩
    have hnumbers : frameNumbers 3 (rPacketBufInit [0x04, 0x00, 0x01]) = some [4, 0, 1] := by
      decide +kernel
    rw [hnumbers] at hframe
    cases hframe
    have hopened : (step (fun _ => true) (created true ordinaryParams ordinaryParams)
        (.frame 0x08 (rPacketBufInit [0x04, 0x61]))).map
          (fun t => ((t.streams.opened 4).si 4).recvState) = some .recv := by
      decide +kernel
    rw [ht] at hopened
    rw [show ((t.conn.streams.opened 4).si 4).recvState = .recv from Option.some.inj hopened]
    decide
  · exact fun _ _ => trivial

/-- A STOP_SENDING frame for a stream that the peer opened disables its sending part. -/
theorem stopSending_disables :
    ¬ (Trace.Along (step fun _ => true) (StatesProper fun _ => true)
        (created true ordinaryParams ordinaryParams)
        [.frame 0x08 (rPacketBufInit [0x04, 0x61]), .frame 0x05 (rPacketBufInit [0x04, 0x00])] ∧
      ResetsFinal (fun _ => true) (created true ordinaryParams ordinaryParams)
        [.frame 0x08 (rPacketBufInit [0x04, 0x61]),
          .frame 0x05 (rPacketBufInit [0x04, 0x00])]) := by
  rintro ⟨⟨-, halong⟩, -⟩
  have hrun : (step (fun _ => true) (created true ordinaryParams ordinaryParams)
      (.frame 0x08 (rPacketBufInit [0x04, 0x61]))).map (fun t => ((t.si 4).sendState,
        (step (fun _ => true) t (.frame 0x05 (rPacketBufInit [0x04, 0x00]))).map
          fun u => (u.si 4).sendState)) = some (.ready, some .disable) := by
    decide +kernel
  obtain ⟨t, ht, hready⟩ := Option.map_eq_some_iff.mp hrun
  rw [Prod.mk.injEq] at hready
  obtain ⟨u, hu, hdisable⟩ := Option.map_eq_some_iff.mp hready.2
  have hfollow := ((halong t ht).1 u hu 4).1.2
  rw [hdisable] at hfollow
  rw [hfollow.disable] at hready
  cases hready.1

end Endpoint

end Tbquic
