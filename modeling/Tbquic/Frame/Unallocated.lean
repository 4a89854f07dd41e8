import Tbquic.Frame.LocalStreams
import Tbquic.Frame.Notices

/-!
# Streams that were not opened yet

`QuicStreamGetInstance` refuses the streams of this endpoint that it has not opened, and every
routine that works on a stream looks it up there. So a stream that is not found is left alone,
except that its receiving part may be opened together with those of others.
-/

namespace Tbquic

/-- Streams that are not found are left alone, up to the opening of their receiving parts. -/
structure QuicStreams.LeavesUnfound (q t : QuicStreams) : Prop where
  /-- The streams are kept. -/
  keeps : q.Keeps t
  /-- Only the state of the receiving part changes. -/
  entry (id : ℕ) : ¬ q.Found id → t.si id = { q.si id with recvState := (t.si id).recvState }
  /-- No message is queued. -/
  message (id : ℕ) : ¬ q.Found id → ⟨id⟩ ∈ t.conf.msgQueue → ⟨id⟩ ∈ q.conf.msgQueue

namespace QuicStreams.LeavesUnfound

variable {q t u : QuicStreams} {id : ℕ}

/-- A stream that is left alone is not found afterwards. -/
theorem not_found (h : q.LeavesUnfound t) (hid : ¬ q.Found id) : ¬ t.Found id := by
  rintro ⟨hinited, hcheck, hopened⟩
  refine hid ⟨h.keeps.inited.symm.trans hinited, ?_, ?_⟩
  · rwa [QuicStreams.idCheck, QuicStreams.idCheckPeer, h.keeps.server, h.keeps.transParam,
      h.keeps.maxIdValue] at hcheck
  · rwa [h.entry id hid, h.keeps.server] at hopened

theorem refl (q : QuicStreams) : q.LeavesUnfound q := ⟨.refl q, fun _ _ => rfl, fun _ _ h => h⟩

theorem trans (h : q.LeavesUnfound t) (h' : t.LeavesUnfound u) : q.LeavesUnfound u where
  keeps := h.keeps.trans h'.keeps
  entry id hid := by
    rw [h'.entry id (h.not_found hid), h.entry id hid]
  message id hid hmem := h.message id hid (h'.message id (h.not_found hid) hmem)

/-- Streams are opened. -/
theorem opened : q.LeavesUnfound (q.opened id) where
  keeps := keeps_opened
  entry i _ := by
    rw [opened_si_eq]
    split
    · unfold quicStreamInstanceRecvOpen
      split <;> rfl
    · rfl
  message i _ hmem := by rwa [SameMarks.opened.messages] at hmem

/-- A stream that is found is changed. -/
theorem setSi {entry : QuicStreamInstance} (hfound : q.Found id)
    (hkeeps : q.Keeps (q.setSi id entry)) : q.LeavesUnfound (q.setSi id entry) where
  keeps := hkeeps
  entry i hi := by
    have hne : i ≠ id := fun heq => hi (heq ▸ hfound)
    rw [show (q.setSi id entry).si i = q.si i from q.updateSi_si_of_ne (fun _ => entry) hne]
  message _ _ hmem := hmem

/-- A stream that is found is changed by a function that keeps the states. -/
theorem updateSi {f : QuicStreamInstance → QuicStreamInstance} (hfound : q.Found id)
    (hf : KeepsStates f) : q.LeavesUnfound (q.updateSi id f) :=
  setSi hfound (keeps_updateSi hf)

/-- Data is added to a stream that is found. -/
theorem dataAdd (hfound : q.Found id) (sd : QuicStreamData) :
    q.LeavesUnfound (quicStreamDataAdd q id sd) where
  keeps := keeps_dataAdd sd
  entry i hi := by
    rw [(quicStreamDataAdd_entries q id sd).1 i fun heq => hi (heq ▸ hfound)]
  message _ _ hmem := by rwa [(SameMarks.dataAdd sd).messages] at hmem

/-- The application is told of a stream that is found. -/
theorem notify (hfound : q.Found id) : q.LeavesUnfound (q.notify id) where
  keeps := keeps_notify
  entry i hi := by
    have hne : i ≠ id := fun heq => hi (heq ▸ hfound)
    have hsi : (q.notify id).si i = q.si i := by
      unfold QuicStreams.notify
      split
      · rfl
      · exact q.updateSi_si_of_ne (fun si => { si with notified := true }) hne
    rw [hsi]
  message i hi hmem := by
    unfold QuicStreams.notify at hmem
    split at hmem
    · exact hmem
    · rcases List.mem_append.mp hmem with hold | hnew
      · exact hold
      · cases List.mem_singleton.mp hnew
        exact absurd hfound hi

/-- A buffer is acknowledged. -/
theorem ackEffect (qb : QBuff) : q.LeavesUnfound (Tbquic.ackEffect q qb) := by
  unfold Tbquic.ackEffect qBufStreamFlagsProc
  split
  · exact .refl q
  · rename_i hneg
    obtain ⟨id, hid⟩ := Int.eq_ofNat_of_zero_le (not_lt.mp hneg)
    rw [hid]
    by_cases hfound : q.Found id
    · rw [quicStreamGetInstance_of_found hfound]
      exact opened.trans (updateSi (hfound.keeps keeps_opened) (keepsStates_streamFlagsAcked _))
    · rw [quicStreamGetInstance_of_not_found hfound]
      exact .refl q

/-- Buffers are acknowledged. -/
theorem acked (qbs : List QBuff) (q : QuicStreams) :
    q.LeavesUnfound (qbs.foldl Tbquic.ackEffect q) := by
  induction qbs generalizing q with
  | nil => exact .refl q
  | cons qb qbs ih => exact (ackEffect qb).trans (ih _)

end QuicStreams.LeavesUnfound

section Frames

variable {type : ℕ} {frame : RPacket} {c d : FrameConn}

/-- A write of a frame leaves the streams alone that are not found. -/
theorem FrameMove.leavesUnfound (h : FrameMove type frame c d) :
    c.streams.LeavesUnfound d.streams := by
  have hkeeps := h.keeps
  cases h with
  | find => exact .opened
  | recvReset id code size found => exact .setSi found hkeeps
  | stopSending id found => exact .setSi found hkeeps
  | recvOpen id found => exact .setSi found hkeeps
  | sendReady id found => exact .setSi found hkeeps
  | recvFin id found => exact .setSi found hkeeps
  | dataAdd id sd found => exact .dataAdd found sd
  | notify id found => exact .notify found
  | limit => exact ⟨hkeeps, fun _ _ => rfl, fun _ _ hmem => hmem⟩
  | maxStreamData id value found => exact .setSi found hkeeps
  | raise | aside | draining | handshakeDone => exact .refl _
  | acked p => exact .acked _ _

/-- The writes of a frame leave the streams alone that are not found. -/
theorem FrameMoves.leavesUnfound (h : FrameMoves type frame c d) :
    c.streams.LeavesUnfound d.streams :=
  h.preserves (R := fun c d => c.streams.LeavesUnfound d.streams) (fun _ => .refl _)
    (fun _ _ _ h h' => h.trans h') fun _ _ hmove => hmove.leavesUnfound

end Frames

section Routines

variable {mem : ℕ → Bool} {q : QuicStreams} {s t : Endpoint} {e : StreamEvent}

/-- A stream that was looked up is found. -/
theorem QuicStreams.Found.opened {id : ℕ} (h : q.Found id) : (q.opened id).Found id :=
  h.keeps QuicStreams.keeps_opened

/-- Building the first frame of a stream keeps the states. -/
theorem keepsStates_sendStarted : QuicStreams.KeepsStates sendStarted := by
  intro si
  unfold sendStarted
  split
  · exact ⟨fun h => h, fun _ h => (by cases h)⟩
  · exact ⟨fun h => h, fun h => h⟩

/-- Building the last frame of a stream keeps the states. -/
theorem keepsStates_sendFin (fin : Bool) : QuicStreams.KeepsStates (sendFin fin) := by
  intro si
  unfold sendFin
  split
  · exact ⟨fun h => h, fun _ h => (by cases h)⟩
  · exact ⟨fun h => h, fun h => h⟩

/-- Resetting the sending part keeps the states. -/
theorem keepsStates_resetSent : QuicStreams.KeepsStates resetSent :=
  fun _ => ⟨fun h => h, fun _ h => (by cases h)⟩

/-- Building a STREAM frame leaves the streams alone that are not found. -/
theorem streamBuildStreams_leavesUnfound (handle : ℤ) (fin : Bool) :
    q.LeavesUnfound (streamBuildStreams handle fin q).2 := by
  rw [streamBuildStreams]
  rcases quicStreamGetInstance_cases handle q with ⟨id, rfl, hfound, hget⟩ | ⟨hget, -⟩
  · rw [Prog.bind_of_ok hget, Prog.get_bind]
    have hopened : q.LeavesUnfound (q.opened id) := .opened
    by_cases hsend : ((q.opened id).si id).sendState = .ready ∨
        ((q.opened id).si id).sendState = .send
    · rw [Prog.ensure_of_pos hsend, Prog.pure_bind, Prog.modify_bind, Prog.modify_apply]
      have hstarted : (q.opened id).LeavesUnfound ((q.opened id).updateSi id sendStarted) :=
        .updateSi hfound.opened keepsStates_sendStarted
      exact (hopened.trans hstarted).trans
        (.updateSi (hfound.opened.keeps hstarted.keeps) (keepsStates_sendFin fin))
    · rw [Prog.ensure_of_neg hsend, Prog.fail_bind]
      exact hopened
  · rw [Prog.bind_of_error hget]
    exact .refl q

/-- Building a STREAM_DATA_BLOCKED frame leaves the streams alone that are not found. -/
theorem blockedBuildStreams_leavesUnfound (handle : ℤ) :
    q.LeavesUnfound (blockedBuildStreams handle q).2 := by
  rw [blockedBuildStreams]
  rcases quicStreamGetInstance_cases handle q with ⟨id, rfl, hfound, hget⟩ | ⟨hget, -⟩
  · rw [Prog.bind_of_ok hget, Prog.modify_apply]
    exact QuicStreams.LeavesUnfound.opened.trans (.updateSi hfound.opened keepsStates_sendStarted)
  · rw [Prog.bind_of_error hget]
    exact .refl q

/-- Building a RESET_STREAM frame leaves the streams alone that are not found. -/
theorem resetBuildStreams_leavesUnfound (handle : ℤ) :
    q.LeavesUnfound (resetBuildStreams handle q).2 := by
  rw [resetBuildStreams]
  rcases quicStreamGetInstance_cases handle q with ⟨id, rfl, hfound, hget⟩ | ⟨hget, -⟩
  · rw [Prog.bind_of_ok hget, Prog.get_bind]
    have hopened : q.LeavesUnfound (q.opened id) := .opened
    by_cases hsend : Resettable ((q.opened id).si id)
    · rw [Prog.ensure_of_pos hsend, Prog.pure_bind, Prog.modify_apply]
      exact hopened.trans (.updateSi hfound.opened keepsStates_resetSent)
    · rw [Prog.ensure_of_neg hsend, Prog.fail_bind]
      exact hopened
  · rw [Prog.bind_of_error hget]
    exact .refl q

/-- Flow control of sent data leaves the streams alone that are not found. -/
theorem quicStreamSendFlowCtrl_leavesUnfound (handle : ℤ) (len : ℕ) (built : Bool) :
    q.LeavesUnfound (quicStreamSendFlowCtrl built handle len q).2 := by
  unfold quicStreamSendFlowCtrl
  split_ifs
  · exact .refl q
  rw [Prog.attempt_bind]
  rcases quicStreamGetInstance_cases handle q with ⟨id, rfl, hfound, hget⟩ | ⟨hget, -⟩
  swap
  · rw [hget]
    exact .refl q
  rw [hget]
  dsimp only
  rw [sendFlowCtrlFound, Prog.get_bind]
  dsimp only
  have hopened : q.LeavesUnfound (q.opened id) := .opened
  split_ifs
  · rw [Prog.attempt_bind, quicStreamDataBlockedFrameBuild]
    rcases quicStreamGetInstance_cases id (q.opened id) with ⟨j, hj, -, hagain⟩ | ⟨hagain, -⟩
    · rw [Prog.bind_of_ok hagain]
      have hagain' : q.LeavesUnfound ((q.opened id).opened j) := hopened.trans .opened
      cases built with
      | false => exact hagain'
      | true => exact hagain'.trans (blockedBuildStreams_leavesUnfound id)
    · rw [Prog.bind_of_error hagain]
      exact hopened
  · exact hopened
  · have hcounted : (q.opened id).LeavesUnfound ((q.opened id).updateSi id fun si =>
        { si with statBytes.sent := (((q.opened id).si id).statBytes.sent + len) % 2 ^ 64 }) :=
      .updateSi hfound.opened fun _ => ⟨fun h => h, fun h => h⟩
    exact hopened.trans ⟨⟨rfl, rfl, rfl, rfl, hcounted.keeps.recv, hcounted.keeps.send⟩,
      hcounted.entry, fun _ _ hmem => hmem⟩

/-- Reading a stream that is found leaves those alone that are not. -/
theorem leavesUnfound_read {id len : ℕ} {si' : QuicStreamInstance} {res : ReadResult}
    (hfound : q.Found id) (hread : quicStreamReadData ((q.opened id).si id) len = .ok (res, si')) :
    q.LeavesUnfound ((q.opened id).setSi id si') := by
  have hopened : q.LeavesUnfound (q.opened id) := .opened
  refine ⟨(readTo_read hread).1.keeps, fun i hi => ?_, hopened.message⟩
  have hne : i ≠ id := fun heq => hi (heq ▸ hfound)
  have hsi : ((q.opened id).setSi id si').si i = (q.opened id).si i :=
    (q.opened id).updateSi_si_of_ne (fun _ => si') hne
  rw [hsi, hopened.entry i hi]

/-- Reading a stream leaves those alone that are not found. -/
theorem quicStreamRecv_leavesUnfound (handle : ℤ) (len : ℕ) :
    q.LeavesUnfound (quicStreamRecv handle len q).2 := by
  rw [quicStreamRecv]
  rcases quicStreamGetInstance_cases handle q with ⟨id, rfl, hfound, hget⟩ | ⟨hget, -⟩
  · rw [Prog.bind_of_ok hget, Prog.get_bind]
    cases hread : quicStreamReadData ((q.opened id).si id) len with
    | error e =>
      rw [Prog.ofExcept_error, Prog.fail_bind]
      exact .opened
    | ok r =>
      obtain ⟨res, si'⟩ := r
      rw [Prog.ofExcept_ok, Prog.pure_bind, Prog.modify_bind]
      exact leavesUnfound_read hfound hread
  · rw [Prog.bind_of_error hget]
    exact .refl q

/-- Reading the stream of a message leaves those alone that are not found. -/
theorem readVStream_leavesUnfound (id : ℕ) (iov : List ℕ) (out : ReadVOut) :
    q.LeavesUnfound (readVStream id iov out q).2 ∧
      (readVStream id iov out q).2.conf.msgQueue = q.conf.msgQueue := by
  induction iov generalizing q out with
  | nil => exact ⟨.refl q, rfl⟩
  | cons len iov ih =>
    rw [readVStream, Prog.attempt_bind]
    by_cases hfound : q.Found id
    · rw [quicStreamGetInstance_of_found hfound]
      dsimp only
      rw [Prog.get_bind]
      cases hread : quicStreamReadData ((q.opened id).si id) len with
      | error e =>
        rw [Prog.ofExcept_error, Prog.fail_bind]
        exact ⟨.opened, QuicStreams.SameMarks.opened.messages⟩
      | ok r =>
        obtain ⟨res, si'⟩ := r
        rw [Prog.ofExcept_ok, Prog.pure_bind, Prog.modify_bind]
        have hleft := leavesUnfound_read hfound hread
        have hmessages : ((q.opened id).setSi id si').conf.msgQueue = q.conf.msgQueue :=
          (@QuicStreams.SameMarks.opened q id).messages
        dsimp only
        split_ifs
        · exact ⟨hleft, hmessages⟩
        · exact ⟨hleft, hmessages⟩
        · exact ⟨hleft, hmessages⟩
        · have hrest := @ih ((q.opened id).setSi id si') ((out.flag res).report id res)
          exact ⟨hleft.trans hrest.1, hrest.2.trans hmessages⟩
    · rw [quicStreamGetInstance_of_not_found hfound]
      exact ⟨.refl q, rfl⟩

/-- Reading the streams with messages leaves those alone that are not found. -/
theorem readVLoop_leavesUnfound (msgs : List QuicStreamMsg) (hmsgs : q.conf.msgQueue = msgs)
    (iov : List ℕ) (out : ReadVOut) : q.LeavesUnfound (readVLoop msgs iov out q).2 := by
  induction msgs generalizing q iov out with
  | nil => exact .refl q
  | cons msg msgs ih =>
    obtain ⟨hleft, hmessages⟩ := @readVStream_leavesUnfound q msg.id iov out
    rw [readVLoop]
    rcases hrun : readVStream msg.id iov out q with ⟨r, t⟩
    rw [hrun] at hleft hmessages
    cases r with
    | error e =>
      rw [Prog.bind_of_error hrun]
      exact hleft
    | ok r =>
      rw [Prog.bind_of_ok hrun]
      obtain ⟨iov', out'⟩ := r
      cases iov' with
      | none => exact hleft
      | some iov' =>
        dsimp only
        rw [Prog.modify_bind]
        have hdequeued : t.LeavesUnfound { t with conf.msgQueue := msgs } := by
          refine ⟨⟨rfl, rfl, rfl, rfl, fun _ h => h, fun _ h => h⟩, fun _ _ => rfl,
            fun i _ hi => ?_⟩
          rw [hmessages, hmsgs]
          exact List.mem_cons_of_mem msg hi
        exact (hleft.trans hdequeued).trans (ih rfl iov' out')

/-- `QuicStreamReadV` leaves the streams alone that are not found. -/
theorem quicStreamReadV_leavesUnfound (iov : List ℕ) :
    q.LeavesUnfound (quicStreamReadV iov q).2 := by
  rw [quicStreamReadV, Prog.get_bind]
  by_cases hinited : q.conf.inited = true
  · rw [Prog.ensure_of_pos hinited, Prog.pure_bind]
    by_cases hiov : iov = []
    · rw [if_pos hiov]
      exact .refl q
    · rw [if_neg hiov]
      exact readVLoop_leavesUnfound _ rfl iov _
  · rw [Prog.ensure_of_neg hinited, Prog.fail_bind]
    exact .refl q

/-- Every event but the opening of a stream leaves the streams alone that are not found. -/
theorem step_leavesUnfound (h : Endpoint.step mem s e = some t)
    (hopen : ∀ uni, e ≠ .streamOpen uni) : s.streams.LeavesUnfound t.streams := by
  cases e with
  | frame type frame => exact (Endpoint.recvFrame_written h).1.leavesUnfound
  | streamOpen uni => exact absurd rfl (hopen uni)
  | read handle len =>
    obtain ⟨rfl, -⟩ := Endpoint.run_eq_some h
    exact quicStreamRecv_leavesUnfound handle len
  | streamBuild handle fin =>
    obtain ⟨rfl, -⟩ := Endpoint.run_eq_some h
    exact streamBuildStreams_leavesUnfound handle fin
  | blockedBuild handle =>
    obtain ⟨rfl, -⟩ := Endpoint.run_eq_some h
    exact blockedBuildStreams_leavesUnfound handle
  | resetBuild handle =>
    obtain ⟨rfl, -⟩ := Endpoint.run_eq_some h
    exact resetBuildStreams_leavesUnfound handle
  | flowCtrl handle len built =>
    obtain ⟨rfl, -⟩ := Endpoint.run_eq_some h
    exact quicStreamSendFlowCtrl_leavesUnfound handle len built
  | sent qb =>
    cases h
    exact .refl _

end Routines

/-- A stream that nothing was done with, except that its receiving part may be open. -/
structure QuicStreams.Untouched (q : QuicStreams) (id : ℕ) : Prop where
  /-- The sending part is at the start. -/
  sendState : (q.si id).sendState = .start
  /-- It has no limit from the peer. -/
  maxStreamData : (q.si id).maxStreamData = 0
  /-- No bytes were counted. -/
  statBytes : (q.si id).statBytes = { sent := 0, recvd := 0 }
  /-- No data was received. -/
  queue : (q.si id).queue = []
  /-- No data was read. -/
  offset : (q.si id).offset = 0
  /-- The application was not told of data. -/
  notified : (q.si id).notified = false
  /-- No message is queued. -/
  message : ⟨id⟩ ∉ q.conf.msgQueue

/-- A stream of this endpoint that was not opened is not found. -/
theorem QuicStreams.Untouched.not_found {q : QuicStreams} {id : ℕ} (h : q.Untouched id)
    (hlocal : quicStreamPeerOpened id q.server = false) : ¬ q.Found id := by
  rintro ⟨-, -, hpeer | hsend⟩
  · rw [hlocal] at hpeer
    cases hpeer
  · exact hsend h.sendState

/-- A stream that is not found and left alone stays untouched. -/
theorem QuicStreams.LeavesUnfound.untouched {q t : QuicStreams} {id : ℕ} (h : q.LeavesUnfound t)
    (hfound : ¬ q.Found id) (hid : q.Untouched id) : t.Untouched id := by
  have hentry := h.entry id hfound
  refine ⟨?_, ?_, ?_, ?_, ?_, ?_, fun hmem => hid.message (h.message id hfound hmem)⟩
  · rw [hentry]
    exact hid.sendState
  · rw [hentry]
    exact hid.maxStreamData
  · rw [hentry]
    exact hid.statBytes
  · rw [hentry]
    exact hid.queue
  · rw [hentry]
    exact hid.offset
  · rw [hentry]
    exact hid.notified

namespace Opener

variable {mem : ℕ → Bool} {g g' : Opener} {uni : Bool}

/-- The state behind an event or a read of the streams with messages. -/
def noticeStep (mem : ℕ → Bool) (g : Opener) : NoticeEvent → Option Opener
  | .stream e => g.step mem e
  | .readV iov => (g.endpoint.run (quicStreamReadV iov)).map fun t => ⟨t, g.ids⟩

/-- The streams of this endpoint that `QuicStreamOpen` has not returned are untouched, and its
assertion holds. -/
structure LocalProper (g : Opener) : Prop where
  /-- They are untouched. -/
  untouched (id : ℕ) : quicStreamPeerOpened id g.endpoint.streams.server = false → id ∉ g.ids →
    g.endpoint.streams.Untouched id
  /-- The assertion holds. -/
  opens (uni : Bool) : (quicStreamOpen uni g.endpoint.table).1 ≠ .error .assert

/-- The streams were opened in order, and those that come next are untouched. -/
structure LocalInv (g : Opener) : Prop where
  /-- The table is small. -/
  size : g.endpoint.streams.conf.maxIdValue < 2 ^ 34
  /-- The counters are small. -/
  small (uni : Bool) : g.endpoint.table.alloced uni ≤ 2 ^ 32
  /-- The streams were numbered in order. -/
  given (id : ℕ) : id ∈ g.ids →
    ∃ uni k, k < g.endpoint.table.alloced uni ∧ id = g.numbered uni k
  /-- The others are untouched. -/
  untouched (id : ℕ) : quicStreamPeerOpened id g.endpoint.streams.server = false → id ∉ g.ids →
    g.endpoint.streams.Untouched id

namespace LocalInv

/-- The number that comes next. -/
theorem nextId_eq (hs : LocalInv g) (uni : Bool) :
    g.endpoint.table.nextId uni = g.numbered uni (g.endpoint.table.alloced uni) := by
  have hsmall := hs.small uni
  rw [QuicStreamTable.nextId, quicStreamId_eq, Nat.mod_eq_of_lt (by omega)]
  rfl

/-- The number that comes next was not returned. -/
theorem next_not_mem (hs : LocalInv g) (uni : Bool) : g.endpoint.table.nextId uni ∉ g.ids := by
  intro hmem
  obtain ⟨kind, k, hk, hid⟩ := hs.given _ hmem
  rw [hs.nextId_eq] at hid
  obtain ⟨rfl, rfl⟩ := numbered_inj hid
  exact lt_irrefl _ hk

/-- The stream that comes next is untouched. -/
theorem next_untouched (hs : LocalInv g) (uni : Bool) :
    g.endpoint.streams.Untouched (g.endpoint.table.nextId uni) :=
  hs.untouched _ (g.endpoint.table.nextId_local uni).1 (hs.next_not_mem uni)

/-- The next stream is opened when it can be. -/
theorem quicStreamOpen_eq (hs : LocalInv g) (hopen : g.endpoint.table.CanOpen uni) :
    quicStreamOpen uni g.endpoint.table =
      (.ok (g.endpoint.table.nextId uni), g.endpoint.table.opened uni) :=
  QuicStreamTable.quicStreamOpen_of_canOpen hopen (hs.size.le.trans (by decide))
    (hs.next_untouched uni).sendState

/-- The assertion holds. -/
theorem proper (hs : LocalInv g) : LocalProper g := by
  refine ⟨hs.untouched, fun uni => ?_⟩
  by_cases hopen : g.endpoint.table.CanOpen uni
  · rw [hs.quicStreamOpen_eq hopen]
    exact fun h => (by cases h)
  · rw [QuicStreamTable.quicStreamOpen_of_not_canOpen hopen]
    exact fun h => (by cases h)

/-- What leaves the streams alone that are not found keeps the streams untouched. -/
theorem of_leavesUnfound {t : Endpoint} (hs : LocalInv g)
    (hleft : g.endpoint.streams.LeavesUnfound t.streams)
    (halloced : ∀ uni, t.table.alloced uni = g.endpoint.table.alloced uni) :
    LocalInv ⟨t, g.ids⟩ := by
  have hserver : t.streams.server = g.endpoint.streams.server := hleft.keeps.server
  refine ⟨hleft.keeps.maxIdValue.trans_lt hs.size, fun uni => ?_, fun id hid => ?_,
    fun id hlocal hid => ?_⟩
  · exact (halloced uni).trans_le (hs.small uni)
  · obtain ⟨uni, k, hk, rfl⟩ := hs.given id hid
    refine ⟨uni, k, (halloced uni).symm ▸ hk, ?_⟩
    rw [numbered, numbered, hserver]
  · change quicStreamPeerOpened id t.streams.server = false at hlocal
    rw [hserver] at hlocal
    have huntouched := hs.untouched id hlocal hid
    exact hleft.untouched (huntouched.not_found hlocal) huntouched

/-- The opening of a stream keeps the others untouched. -/
theorem of_opened (hs : LocalInv g) (hopen : g.endpoint.table.CanOpen uni) :
    LocalInv ⟨g.endpoint.setTable (g.endpoint.table.opened uni),
      g.ids ++ [g.endpoint.table.nextId uni]⟩ := by
  have hnext := hs.nextId_eq uni
  have hbound := hopen.2.2
  have hsize := hs.size
  have halloced (kind : Bool) : (g.endpoint.setTable (g.endpoint.table.opened uni)).table.alloced
      kind = g.endpoint.table.alloced kind + if kind = uni then 1 else 0 :=
    alloced_opened g.endpoint.table kind
  refine ⟨hsize, fun kind => ?_, fun id hid => ?_, fun id hlocal hid => ?_⟩
  · have hsmall := hs.small kind
    change g.endpoint.table.nextId uni < g.endpoint.streams.conf.maxIdValue at hbound
    rw [hnext, numbered] at hbound
    rw [halloced]
    split
    · rename_i hkind
      subst hkind
      omega
    · exact hsmall
  · rcases List.mem_append.mp hid with hold | hnew
    · obtain ⟨kind, k, hk, rfl⟩ := hs.given id hold
      refine ⟨kind, k, ?_, rfl⟩
      rw [halloced]
      omega
    · refine ⟨uni, g.endpoint.table.alloced uni, ?_, ?_⟩
      · rw [halloced, if_pos rfl]
        exact Nat.lt_succ_self _
      · exact (List.mem_singleton.mp hnew).trans hnext
  · have hold : id ∉ g.ids := fun hmem => hid (List.mem_append_left _ hmem)
    have hne : id ≠ g.endpoint.table.nextId uni := fun heq =>
      hid (heq ▸ List.mem_append_right _ (List.mem_singleton_self _))
    have hsi : (g.endpoint.setTable (g.endpoint.table.opened uni)).streams.si id =
        g.endpoint.streams.si id := QuicStreams.updateSi_si_of_ne _ _ hne
    obtain ⟨h₁, h₂, h₃, h₄, h₅, h₆, hmessage⟩ := hs.untouched id hlocal hold
    rw [← hsi] at h₁ h₂ h₃ h₄ h₅ h₆
    exact ⟨h₁, h₂, h₃, h₄, h₅, h₆, hmessage⟩

/-- Every event keeps the streams untouched that were not opened. -/
theorem step {e : NoticeEvent} (hs : LocalInv g) (h : noticeStep mem g e = some g') :
    LocalInv g' := by
  cases e with
  | readV iov =>
    obtain ⟨t, ht, rfl⟩ := Option.map_eq_some_iff.mp h
    obtain ⟨rfl, -⟩ := Endpoint.run_eq_some ht
    exact hs.of_leavesUnfound (quicStreamReadV_leavesUnfound iov) fun _ => rfl
  | stream e =>
    change Opener.step mem g e = some g' at h
    by_cases hevent : ∃ uni, e = .streamOpen uni
    · obtain ⟨uni, rfl⟩ := hevent
      by_cases hopen : g.endpoint.table.CanOpen uni
      · obtain ⟨t, ht, rfl⟩ := Option.map_eq_some_iff.mp h
        have hrun := hs.quicStreamOpen_eq hopen
        rw [Endpoint.step, hrun] at ht
        cases ht
        rw [openedId, hrun]
        exact hs.of_opened hopen
      · rw [step_of_not_canOpen h hopen]
        exact hs
    · push Not at hevent
      obtain ⟨t, ht, rfl⟩ := Option.map_eq_some_iff.mp h
      have hids : g.ids ++ openedId g.endpoint e = g.ids := by
        cases e with
        | streamOpen uni => exact absurd rfl (hevent uni)
        | frame | read | streamBuild | blockedBuild | resetBuild | flowCtrl | sent =>
          exact List.append_nil _
      rw [hids]
      exact hs.of_leavesUnfound (step_leavesUnfound ht hevent) (step_alloced ht hevent)

/-- Nothing was done with any stream when the parameters were exchanged. -/
theorem of_created {s : Endpoint} (hs : s.Created) : LocalInv ⟨s, []⟩ := by
  obtain ⟨own, peer, hstreams, hbidi, huni⟩ := hs
  have hsize := createdStreams_maxIdValue_lt s.streams.server own peer
  rw [← hstreams] at hsize
  have hconf := createdStreams_eq s.streams.server own peer
  rw [← hstreams] at hconf
  refine ⟨hsize, fun uni => ?_, fun id hid => absurd hid List.not_mem_nil, fun id hlocal _ => ?_⟩
  · cases uni with
    | false => exact hbidi.trans_le (Nat.zero_le _)
    | true => exact huni.trans_le (Nat.zero_le _)
  · have hsi : s.streams.si id = quicStreamInstanceInit id s.streams.server := by
      rw [hconf]
      rfl
    have hmessages : s.streams.conf.msgQueue = [] := by
      rw [hconf]
      rfl
    change quicStreamPeerOpened id s.streams.server = false at hlocal
    change s.streams.Untouched id
    refine ⟨?_, by rw [hsi]; rfl, by rw [hsi]; rfl, by rw [hsi]; rfl, by rw [hsi]; rfl,
      by rw [hsi]; rfl, ?_⟩
    · rw [hsi, quicStreamInstanceInit, hlocal]
      rfl
    · rw [hmessages]
      exact List.not_mem_nil

end LocalInv

/-- In every run of either side, whatever streams the frames of the peer and the calls of the
application name, a stream of this endpoint that `QuicStreamOpen` has not returned is untouched, and
the assertion of `QuicStreamOpen` holds. -/
theorem localProper_of_run {s : Endpoint} {es : List NoticeEvent} (hs : s.Created)
    (hrun : Trace.run (noticeStep mem) ⟨s, []⟩ es = some g) : LocalProper g :=
  (Trace.run_invariant LocalInv (fun _ _ _ hg h => hg.step h) (.of_created hs) hrun).proper

/-- A server refuses a STREAM frame for its stream 1 before it opens this stream. -/
theorem localProper_stream : ∃ g, Trace.run (noticeStep fun _ => true)
    ⟨Endpoint.created true Endpoint.ordinaryParams Endpoint.ordinaryParams, []⟩
      [.stream (.frame 0x08 (rPacketBufInit [0x01, 0x61])), .stream (.streamOpen false)] = some g ∧
    g.ids = [1] ∧ LocalProper g := by
  have hids : (Trace.run (noticeStep fun _ => true)
      ⟨Endpoint.created true Endpoint.ordinaryParams Endpoint.ordinaryParams, []⟩
        [.stream (.frame 0x08 (rPacketBufInit [0x01, 0x61])), .stream (.streamOpen false)]).map
      Opener.ids = some [1] := by
    decide +kernel
  obtain ⟨g, hrun, hg⟩ := Option.map_eq_some_iff.mp hids
  exact ⟨g, hrun, hg, localProper_of_run (Endpoint.created_created _ _ _) hrun⟩

end Opener

end Tbquic
