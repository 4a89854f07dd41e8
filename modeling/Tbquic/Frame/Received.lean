import Tbquic.Frame.Atomic
import Tbquic.Frame.Endpoint
import Tbquic.Stream.Fin

/-!
# What events do to received data

The data of a stream changes when a STREAM frame is taken and when the application reads. All other
events leave its queue, its offset and the counts of flow control.
-/

namespace Tbquic

/-- The kind of a stream is the same, and its receiving part stays disabled. -/
structure SameKind (si si' : QuicStreamInstance) : Prop where
  /-- The same side opened it. -/
  localOpened : si'.localOpened = si.localOpened
  /-- It has the same direction. -/
  uni : si'.uni = si.uni
  /-- A disabled receiving part stays so. -/
  disabled : si.recvState = .disable → si'.recvState = .disable

/-- The received data of a stream is the same. -/
structure KeepsReceived (si si' : QuicStreamInstance) : Prop extends SameKind si si' where
  /-- The bytes returned. -/
  offset : si'.offset = si.offset
  /-- The bytes that wait. -/
  queue : si'.queue = si.queue
  /-- The bytes counted. -/
  recvd : si'.statBytes.recvd = si.statBytes.recvd

theorem SameKind.refl (si : QuicStreamInstance) : SameKind si si := ⟨rfl, rfl, fun h => h⟩

theorem SameKind.trans {a b c : QuicStreamInstance} (h : SameKind a b) (h' : SameKind b c) :
    SameKind a c :=
  ⟨h'.localOpened.trans h.localOpened, h'.uni.trans h.uni, fun ha => h'.disabled (h.disabled ha)⟩

namespace KeepsReceived

variable {si si' si'' : QuicStreamInstance}

theorem refl (si : QuicStreamInstance) : KeepsReceived si si :=
  ⟨.refl si, rfl, rfl, rfl⟩

theorem trans (h : KeepsReceived si si') (h' : KeepsReceived si' si'') : KeepsReceived si si'' :=
  ⟨h.toSameKind.trans h'.toSameKind, h'.offset.trans h.offset, h'.queue.trans h.queue,
    h'.recvd.trans h.recvd⟩

/-- The state of an enabled receiving part changes. -/
theorem recvState {state : StreamState} (h : si.recvState ≠ .disable) :
    KeepsReceived si { si with recvState := state } :=
  ⟨⟨rfl, rfl, fun hdisable => absurd hdisable h⟩, rfl, rfl, rfl⟩

/-- The state of the sending part changes. -/
theorem sendState {state : StreamState} : KeepsReceived si { si with sendState := state } :=
  ⟨⟨rfl, rfl, fun h => h⟩, rfl, rfl, rfl⟩

/-- The receiving part is opened. -/
theorem recvOpen : KeepsReceived si (quicStreamInstanceRecvOpen si) := by
  unfold quicStreamInstanceRecvOpen
  split
  · rename_i hstart
    exact .recvState fun h => by
      rw [hstart] at h
      cases h
  · exact .refl si

/-- The receiving part is reset. -/
theorem recvReset : KeepsReceived si (FrameState.recvReset si) := by
  unfold FrameState.recvReset
  split
  · rename_i hstate
    exact .recvState fun h => by
      rw [h] at hstate
      simp at hstate
  · exact .refl si

/-- The sending part becomes ready. -/
theorem sendReady : KeepsReceived si (sendReady si) := by
  unfold Tbquic.sendReady
  split
  · exact .sendState
  · exact .refl si

/-- The size becomes known. -/
theorem recvFin {fin : Bool} : KeepsReceived si (recvFin fin si) := by
  unfold Tbquic.recvFin
  split
  · rename_i hstate
    exact .recvState fun h => by
      rw [h] at hstate
      simp at hstate
  · exact .refl si

/-- All data has been received. -/
theorem complete : KeepsReceived si (recvComplete si) := by
  unfold recvComplete
  split
  · rename_i hstate
    exact .recvState fun h => by
      rw [h] at hstate
      simp at hstate
  · exact .refl si

/-- A buffer is acknowledged. -/
theorem acked {flags : ℕ} : KeepsReceived si (streamFlagsAcked flags si) := by
  have hstate := streamFlagsAcked_recvState flags si
  refine ⟨⟨?_, ?_, fun h => hstate.trans h⟩, ?_, ?_, ?_⟩ <;> unfold streamFlagsAcked <;>
    dsimp only <;> split_ifs <;> rfl

/-- The first frame is built. -/
theorem sendStarted : KeepsReceived si (sendStarted si) := by
  unfold Tbquic.sendStarted
  split
  · exact .sendState
  · exact .refl si

/-- The last frame is built. -/
theorem sendFin {fin : Bool} : KeepsReceived si (sendFin fin si) := by
  unfold Tbquic.sendFin
  split
  · exact .sendState
  · exact .refl si

/-- The stream is opened by this endpoint. -/
theorem openLocal {peer : QuicTransParams} {uni : Bool} :
    KeepsReceived si (openLocal peer uni si) := by
  cases uni with
  | false =>
    have hlimit : KeepsReceived si { si with
        sendState := .ready, maxStreamData := peer.initialMaxStreamDataBidiRemote } :=
      ⟨⟨rfl, rfl, fun h => h⟩, rfl, rfl, rfl⟩
    exact hlimit.trans recvOpen
  | true => exact ⟨⟨rfl, rfl, fun h => h⟩, rfl, rfl, rfl⟩

end KeepsReceived

section Entries

variable {type : ℕ} {frame : RPacket} {server : Bool} {id len : ℕ} {si si' : QuicStreamInstance}
  {s : Endpoint} {e : StreamEvent} {res : ReadResult}

/-- A read keeps the kind of the stream, and what was counted. -/
theorem quicStreamReadData_sameKind (h : quicStreamReadData si len = .ok (res, si')) :
    SameKind si si' ∧ si'.statBytes = si.statBytes := by
  obtain ⟨hstate, hfin, -, -, hstat⟩ := quicStreamReadData_states h
  obtain ⟨l, -, hl⟩ := Except.bind_eq_ok.mp h
  cases hl
  refine ⟨⟨rfl, rfl, fun hdisable => ?_⟩, hstat⟩
  rw [hstate]
  split_ifs with hend
  · have hrecvd := hfin hend
    rw [hdisable] at hrecvd
    cases hrecvd
  · exact hdisable

/-- The loop of a read passes places of the queue, and leaves places of it. -/
theorem readLoop_places {offset : ℕ} {queue : List QuicStreamData} {out : List UInt8}
    {l : ReadLoop} (h : readLoop len queue offset out = .ok l) (hlen : out.length ≤ len) :
    Segment.placesOf l.queue ⊆ Segment.placesOf queue ∧ offset ≤ l.offset ∧
      Finset.Ico offset l.offset ⊆ Segment.placesOf queue := by
  induction queue generalizing offset out l with
  | nil =>
    cases h
    refine ⟨le_refl _, le_refl _, ?_⟩
    rw [Finset.Ico_self]
    exact Finset.empty_subset _
  | cons sd queue ih =>
    rcases readLoop_cons_eq_ok h with ⟨-, rfl⟩ | ⟨hhead, -, l', rfl, hrest⟩
    · refine ⟨le_refl _, le_refl _, ?_⟩
      rw [Finset.Ico_self]
      exact Finset.empty_subset _
    have hcopy : copyBytes len out.length sd ≤ sd.len := copyBytes_le hlen
    have hlen' := copied_length_le sd hlen
    generalize copyBytes len out.length sd = copied at *
    have htail : Segment.placesOf l'.queue ⊆ Segment.placesOf queue ∧
        offset + copied ≤ l'.offset ∧
        Finset.Ico (offset + copied) l'.offset ⊆ Segment.placesOf queue := by
      rcases hrest with ⟨-, rfl⟩ | ⟨-, hrest⟩
      · refine ⟨le_refl _, le_refl _, ?_⟩
        rw [Finset.Ico_self]
        exact Finset.empty_subset _
      · exact ih hrest hlen'
    obtain ⟨hqueue, hle, hpassed⟩ := htail
    have hleft : Segment.placesOf (afterCopy sd copied) ⊆ sd.places := by
      unfold afterCopy
      split_ifs
      · exact Finset.empty_subset _
      · intro i hi
        simp only [Segment.placesOf_cons, Segment.placesOf_nil, Finset.union_empty,
          Segment.mem_places, Segment.Covers, Segment.stop, Segment.len, List.length_drop] at hi ⊢
        omega
    refine ⟨?_, (Nat.le_add_right _ _).trans hle, fun i hi => ?_⟩
    · rw [Segment.placesOf_append, Segment.placesOf_cons]
      exact Finset.union_subset_union hleft hqueue
    · rw [Finset.mem_Ico] at hi
      rw [Segment.placesOf_cons, Finset.mem_union]
      by_cases hfirst : i < offset + copied
      · left
        rw [Segment.mem_places, Segment.Covers, Segment.stop]
        omega
      · exact .inr (hpassed (Finset.mem_Ico.mpr ⟨not_lt.mp hfirst, hi.2⟩))

/-- A read returns bytes of the queue, and leaves bytes of it. -/
theorem quicStreamReadData_places (h : quicStreamReadData si len = .ok (res, si')) :
    Segment.placesOf si'.queue ⊆ Segment.placesOf si.queue ∧
      Finset.range si'.offset ⊆ Finset.range si.offset ∪ Segment.placesOf si.queue := by
  obtain ⟨l, hloop, hl⟩ := Except.bind_eq_ok.mp h
  obtain ⟨hqueue, -, hpassed⟩ := readLoop_places hloop (Nat.zero_le len)
  cases hl
  refine ⟨hqueue, fun i hi => ?_⟩
  rw [Finset.mem_union, Finset.mem_range]
  by_cases hbefore : i < si.offset
  · exact .inl hbefore
  · exact .inr (hpassed (Finset.mem_Ico.mpr ⟨not_lt.mp hbefore, Finset.mem_range.mp hi⟩))

/-- A write of a frame keeps the received data, unless it is that of a readable STREAM frame. -/
theorem EntryWrite.received (h : EntryWrite type frame server id si si') :
    KeepsReceived si si' ∨ SameKind si si' ∧ StreamType type ∧
      ∃ sd, (readStreamFrame type frame).1 = .ok (id, sd) := by
  cases h with
  | recvOpen => exact .inl .recvOpen
  | recvReset => exact .inl .recvReset
  | stopSending => exact .inl .sendState
  | sendReady => exact .inl .sendReady
  | recvFin => exact .inl .recvFin
  | data _ _ htype _ sd hframe => exact .inr ⟨⟨rfl, rfl, fun h => h⟩, htype, sd, hframe⟩
  | complete => exact .inl .complete
  | notify => exact .inl ⟨⟨rfl, rfl, fun h => h⟩, rfl, rfl, rfl⟩
  | maxStreamData =>
    left
    split
    · exact ⟨⟨rfl, rfl, fun h => h⟩, rfl, rfl, rfl⟩
    · exact .refl si
  | acked => exact .inl .acked

/-- A write of an event keeps the received data, unless it is a read or has stream data. -/
theorem EventWrite.received (h : EventWrite s id e si si') :
    KeepsReceived si si' ∨ SameKind si si' ∧ ((∃ len, e = .read id len) ∨
      ∃ type frame, e = .frame type frame ∧ StreamType type ∧
        ∃ sd, (readStreamFrame type frame).1 = .ok (id, sd)) := by
  cases h with
  | @frame type frame _ _ h =>
    exact h.received.imp_right fun ⟨hkind, hdata⟩ => ⟨hkind, .inr ⟨type, frame, rfl, hdata⟩⟩
  | recvOpen => exact .inl .recvOpen
  | opened => exact .inl .openLocal
  | @read len _ _ _ hread =>
    exact .inr ⟨(quicStreamReadData_sameKind hread).1, .inl ⟨len, rfl⟩⟩
  | started => exact .inl .sendStarted
  | fin => exact .inl .sendFin
  | reset => exact .inl .sendState
  | counted => exact .inl ⟨⟨rfl, rfl, fun h => h⟩, rfl, rfl, rfl⟩

/-- A write of an event keeps the kind of the stream. -/
theorem EventWrite.sameKind (h : EventWrite s id e si si') : SameKind si si' :=
  h.received.elim KeepsReceived.toSameKind And.left

end Entries

/-- The received data of all streams is the same. -/
structure QuicStreams.SameReceived (q t : QuicStreams) : Prop where
  /-- The data of each stream. -/
  entry (id : ℕ) : KeepsReceived (q.si id) (t.si id)
  /-- The bytes counted for the connection. -/
  total : t.conf.statAll.recvd = q.conf.statAll.recvd

namespace QuicStreams.SameReceived

variable {q t u : QuicStreams} {id : ℕ}

theorem refl (q : QuicStreams) : q.SameReceived q := ⟨fun _ => .refl _, rfl⟩

theorem trans (h : q.SameReceived t) (h' : t.SameReceived u) : q.SameReceived u :=
  ⟨fun id => (h.entry id).trans (h'.entry id), h'.total.trans h.total⟩

/-- Streams are opened. -/
theorem opened : q.SameReceived (q.opened id) := by
  refine ⟨fun i => ?_, by rw [opened_limits.1]⟩
  rw [opened_si_eq]
  split_ifs
  · exact .recvOpen
  · exact .refl _

/-- One entry is changed. -/
theorem updateSi {f : QuicStreamInstance → QuicStreamInstance}
    (hf : KeepsReceived (q.si id) (f (q.si id))) : q.SameReceived (q.updateSi id f) := by
  refine ⟨fun i => ?_, rfl⟩
  by_cases hi : i = id
  · subst hi
    rwa [QuicStreams.updateSi_si]
  · rw [QuicStreams.updateSi_si_of_ne _ _ hi]
    exact .refl _

/-- A frame finds its stream. -/
theorem arrived {fin : Bool} : q.SameReceived (q.arrived id fin) :=
  opened.trans ((updateSi .sendReady).trans ((updateSi .recvFin).trans (updateSi .recvOpen)))

/-- The application is told of data. -/
theorem notify : q.SameReceived (q.notify id) := by
  unfold QuicStreams.notify
  split
  · exact refl q
  · have hentry := @updateSi q id (fun si => { si with notified := true })
      ⟨⟨rfl, rfl, fun h => h⟩, rfl, rfl, rfl⟩
    exact ⟨hentry.entry, rfl⟩

end QuicStreams.SameReceived

/-- Data was counted and queued, and nothing else changed in the received data. -/
structure QuicStreams.Added (q t : QuicStreams) (id : ℕ) (sd : QuicStreamData) : Prop where
  /-- The data waits behind what waited before. -/
  queue : (t.si id).queue = (q.si id).queue ++ [sd]
  /-- Nothing was returned. -/
  offset : (t.si id).offset = (q.si id).offset
  /-- The stream counts the data. -/
  recvd : (t.si id).statBytes.recvd = q.recvd id sd.len
  /-- The connection counts the data. -/
  total : t.conf.statAll.recvd = q.totalRecvd sd.len
  /-- The other streams keep their data. -/
  other (i : ℕ) : i ≠ id → KeepsReceived (q.si i) (t.si i)

section Add

variable {q t u : QuicStreams} {id : ℕ} {sd : QuicStreamData}

/-- What comes before an addition and behind it keeps the received data. -/
theorem QuicStreams.Added.within {q' : QuicStreams} (hbefore : q.SameReceived q')
    (h : q'.Added t id sd) (hafter : t.SameReceived u) : q.Added u id sd where
  queue := by rw [(hafter.entry id).queue, h.queue, (hbefore.entry id).queue]
  offset := by rw [(hafter.entry id).offset, h.offset, (hbefore.entry id).offset]
  recvd := by
    rw [(hafter.entry id).recvd, h.recvd, QuicStreams.recvd, (hbefore.entry id).recvd]
    rfl
  total := by
    rw [hafter.total, h.total, QuicStreams.totalRecvd, hbefore.total]
    rfl
  other i hi := ((hbefore.entry i).trans (h.other i hi)).trans (hafter.entry i)

/-- Data that flow control counts is queued. -/
theorem added_push {len : ℕ} (h : quicStreamRecvFlowCtrl q id len = some t) (hlen : sd.len = len) :
    q.Added (t.push id sd) id sd := by
  obtain ⟨hid, hother⟩ := quicStreamRecvFlowCtrl_si h
  have htotal : t.conf.statAll.recvd = q.totalRecvd len := by
    unfold quicStreamRecvFlowCtrl at h
    split at h
    · cases h
      rfl
    · cases h
  refine ⟨?_, ?_, ?_, by rw [hlen]; exact htotal, fun i hi => ?_⟩
  · rw [QuicStreams.push_si, hid]
  · rw [QuicStreams.push_si, hid]
  · rw [QuicStreams.push_si, hid, hlen]
  · rw [QuicStreams.push, QuicStreams.updateSi_si_of_ne _ _ hi, hother i hi]
    exact .refl _

/-- Adding data counts and queues what goes beyond the offset, if flow control allows it. -/
theorem quicStreamDataAdd_cases (q : QuicStreams) (id : ℕ) (sd : QuicStreamData) :
    ((q.si id).offset < sd.stop ∧ q.recvAllowed id (q.trimmed id sd).len = true ∧
        q.Added (quicStreamDataAdd q id sd) id (q.trimmed id sd)) ∨
      (¬ ((q.si id).offset < sd.stop ∧ q.recvAllowed id (q.trimmed id sd).len = true) ∧
        quicStreamDataAdd q id sd = q) := by
  have hflow := quicStreamRecvFlowCtrl_cases q id (q.trimmed id sd).len
  unfold quicStreamDataAdd
  by_cases hold : sd.stop ≤ (q.si id).offset
  · rw [if_pos hold]
    exact .inr ⟨fun h => absurd h.1 (not_lt.mpr hold), rfl⟩
  rw [if_neg hold]
  by_cases hlater : (q.si id).offset < sd.offset
  · rw [if_pos hlater, quicStreamDataAddOfo]
    rw [trimmed_of_le hlater.le] at hflow ⊢
    rcases hflow with ⟨hallowed, hnone⟩ | ⟨hallowed, t, hsome, -⟩
    · rw [hnone, hallowed]
      exact .inr ⟨fun h => Bool.false_ne_true h.2, rfl⟩
    · rw [hsome]
      exact .inl ⟨not_le.mp hold, hallowed, added_push hsome rfl⟩
  · rw [if_neg hlater]
    rcases hflow with ⟨hallowed, hnone⟩ | ⟨hallowed, t, hsome, -⟩
    · rw [hnone, hallowed]
      exact .inr ⟨fun h => Bool.false_ne_true h.2, rfl⟩
    · rw [hsome]
      exact .inl ⟨not_le.mp hold, hallowed,
        (added_push hsome rfl).within (.refl q) (.updateSi .complete)⟩

/-- A stream waits for data behind the flags of a frame when it did before. -/
theorem arrived_waits {fin : Bool} : (((q.arrived id fin).si id).recvState = .recv ∨
      ((q.arrived id fin).si id).recvState = .sizeKnown) ↔
    (q.si id).recvState ∈ [StreamState.start, .recv, .sizeKnown] := by
  rw [QuicStreams.arrived, QuicStreams.updateSi_si, QuicStreams.updateSi_si,
    QuicStreams.updateSi_si]
  exact FrameState.recvState_arrived

/-- The data of a frame that its stream waits for is counted and queued, if flow control allows
it. -/
theorem receive_cases {fin : Bool}
    (hstate : (q.si id).recvState ∈ [StreamState.start, .recv, .sizeKnown]) :
    ((q.si id).offset < sd.stop ∧ q.recvAllowed id (q.trimmed id sd).len = true ∧
        q.Added (q.receive id fin sd) id (q.trimmed id sd)) ∨
      (¬ ((q.si id).offset < sd.stop ∧ q.recvAllowed id (q.trimmed id sd).len = true) ∧
        q.SameReceived (q.receive id fin sd)) := by
  have hwaits := (@arrived_waits q id fin).mpr hstate
  have harrived := @QuicStreams.SameReceived.arrived q id fin
  rw [QuicStreams.receive, if_neg (by tauto)]
  have hcases := quicStreamDataAdd_cases (q.arrived id fin) id sd
  rw [arrived_trimmed, arrived_recvAllowed, (harrived.entry id).offset] at hcases
  rcases hcases with ⟨hnew, hallowed, hadded⟩ | ⟨hnot, hsame⟩
  · exact .inl ⟨hnew, hallowed, hadded.within harrived .notify⟩
  · refine .inr ⟨hnot, ?_⟩
    rw [hsame]
    exact harrived.trans .notify

end Add

/-- A stream waits for the data of frames. -/
def FrameConn.Takes (c : FrameConn) (id : ℕ) : Prop :=
  c.streams.Receivable id ∧
    (c.streams.si id).recvState ∈ [StreamState.start, .recv, .sizeKnown] ∧ c.buf = true

instance (c : FrameConn) (id : ℕ) : Decidable (c.Takes id) := inferInstanceAs (Decidable (_ ∧ _))

section StreamFrame

variable {type id : ℕ} {sd : QuicStreamData} {pkt : RPacket} {s : FrameState}

/-- A change of the streams. -/
theorem modifyStreams_bind {β : Type} {f : QuicStreams → QuicStreams}
    {k : Unit → Prog Fail FrameState β} :
    (FrameState.connection (FrameConn.withStreams (Prog.modify f)) >>= k) s =
      k () { s with conn.streams := f s.conn.streams } := by
  have hstep : FrameState.connection (FrameConn.withStreams (Prog.modify f)) s =
      (.ok (), { s with conn.streams := f s.conn.streams }) := rfl
  rw [Prog.bind_of_ok hstep]

/-- The data of a STREAM frame at the end of its parser. -/
theorem streamStore_eq (c : FrameConn) : FrameState.quicFrameStreamStore id sd.offset sd.data c =
    let q := c.streams.updateSi id quicStreamInstanceRecvOpen
    if (q.si id).recvState = .recv ∨ (q.si id).recvState = .sizeKnown then
      if c.buf = true then (.ok (), { c with streams := (quicStreamDataAdd q id sd).notify id })
      else (.error .ret, { c with streams := q })
    else (.ok (), { c with streams := q }) := by
  have hopen : FrameConn.withStreams (Prog.modify (·.updateSi id quicStreamInstanceRecvOpen)) c =
      (.ok (), { c with streams := c.streams.updateSi id quicStreamInstanceRecvOpen }) := rfl
  rw [FrameState.quicFrameStreamStore, Prog.bind_of_ok hopen, Prog.get_bind]
  dsimp only
  by_cases hstate : ((c.streams.updateSi id quicStreamInstanceRecvOpen).si id).recvState = .recv ∨
      ((c.streams.updateSi id quicStreamInstanceRecvOpen).si id).recvState = .sizeKnown
  · rw [if_neg (by tauto), if_pos hstate]
    by_cases hbuf : c.buf = true
    · rw [Prog.ensure_of_pos hbuf, Prog.pure_bind, if_pos hbuf, FrameConn.withStreams,
        Prog.bind_of_ok (Prog.zoom_of_ok (Prog.modify_apply _ _))]
      rfl
    · rw [Prog.ensure_of_neg hbuf, Prog.fail_bind, if_neg hbuf]
      rfl
  · rw [if_pos (by tauto), if_neg hstate]
    rfl

/-- The parser of a STREAM frame that can be read, behind its numbers. -/
theorem streamParser_of_read (hread : readStreamFrame type s.pkt = (.ok (id, sd), pkt)) :
    ∃ (len : ℕ) (pkt' : RPacket), rPacketGetBytes len pkt' = (.ok sd.data, pkt) ∧
      FrameState.quicFrameStreamParser type s =
        FrameState.quicFrameStreamBody type id sd.offset len { s with pkt := pkt' } := by
  obtain ⟨header, pkt', hheader, hrest⟩ := Prog.bind_eq_ok.mp hread
  obtain ⟨data, pkt'', hdata, hpure⟩ := Prog.bind_eq_ok.mp hrest
  obtain ⟨h, pkt₁, hid, hrest₁⟩ := Prog.bind_eq_ok.mp hheader
  obtain ⟨offset, pkt₂, hoffset, hrest₂⟩ := Prog.bind_eq_ok.mp hrest₁
  obtain ⟨len, pkt₃, hlen, hheader⟩ := Prog.bind_eq_ok.mp hrest₂
  cases hheader
  cases hpure
  refine ⟨len, pkt', hdata, ?_⟩
  rw [FrameState.quicFrameStreamParser, FrameState.readVar,
    Prog.bind_of_ok (Prog.zoom_of_ok hid), FrameState.readStreamOffset_eq,
    Prog.bind_of_ok (Prog.zoom_of_ok hoffset), FrameState.readStreamLen_eq,
    Prog.bind_of_ok (Prog.zoom_of_ok hlen)]

/-- A STREAM frame that can be read is taken by a stream that waits for data, and no other stream
changes its received data. -/
theorem streamParser_cases (hread : readStreamFrame type s.pkt = (.ok (id, sd), pkt)) :
    (s.conn.Takes id ∧ FrameState.quicFrameStreamParser type s = (.ok (), { s with
        pkt, conn.streams := s.conn.streams.receive id (streamBitFin type) sd })) ∨
      (¬ s.conn.Takes id ∧
        s.conn.streams.SameReceived (FrameState.quicFrameStreamParser type s).2.conn.streams) := by
  obtain ⟨len, pkt', hdata, hrun⟩ := streamParser_of_read hread
  rw [hrun, FrameState.quicFrameStreamBody]
  by_cases hfound : s.conn.streams.Found id
  swap
  · rw [Prog.bind_of_error (FrameState.getInstance_of_not_found (by exact hfound))]
    exact .inr ⟨fun htakes => hfound ⟨htakes.1.1, htakes.1.2.1, htakes.1.2.2.1⟩, .refl _⟩
  rw [Prog.bind_of_ok (FrameState.getInstance_of_found (by exact hfound))]
  by_cases hdisable : (s.conn.streams.si id).recvState = .disable
  · rw [Prog.bind_of_error (FrameState.check_of_neg
      (not_not.mpr (by exact FrameState.opened_recvState_eq_disable.mpr hdisable)))]
    exact .inr ⟨fun htakes => htakes.1.2.2.2 hdisable, .opened⟩
  have hrecv : s.conn.streams.Receivable id := ⟨hfound.1, hfound.2.1, hfound.2.2, hdisable⟩
  rw [Prog.bind_of_ok (FrameState.check_of_pos
    (by exact fun h => hdisable (FrameState.opened_recvState_eq_disable.mp h))), modifyStreams_bind,
    modifyStreams_bind, FrameState.readBytes, Prog.bind_of_ok (Prog.zoom_of_ok hdata)]
  have hwaits := @arrived_waits s.conn.streams id (streamBitFin type)
  have hstore := @streamStore_eq id sd { s.conn with
    streams := ((s.conn.streams.opened id).updateSi id sendReady).updateSi id
      (recvFin (streamBitFin type)) }
  dsimp only at hstore
  change _ = if ((s.conn.streams.arrived id (streamBitFin type)).si id).recvState = .recv ∨
    ((s.conn.streams.arrived id (streamBitFin type)).si id).recvState = .sizeKnown then _
    else _ at hstore
  unfold FrameState.connection
  by_cases hstate : (s.conn.streams.si id).recvState ∈ [StreamState.start, .recv, .sizeKnown]
  · rw [if_pos (hwaits.mpr hstate)] at hstore
    by_cases hbuf : s.conn.buf = true
    · rw [if_pos hbuf] at hstore
      refine .inl ⟨⟨hrecv, hstate, hbuf⟩, ?_⟩
      rw [hstore, QuicStreams.receive, if_neg (by have := hwaits.mpr hstate; tauto)]
      rfl
    · rw [if_neg hbuf] at hstore
      refine .inr ⟨fun htakes => hbuf htakes.2.2, ?_⟩
      rw [hstore]
      exact .arrived
  · rw [if_neg fun h => hstate (hwaits.mp h)] at hstore
    refine .inr ⟨fun htakes => hstate htakes.2.1, ?_⟩
    rw [hstore]
    exact .arrived

/-- The parser of STREAM frames. -/
theorem frameParser_stream (mem : ℕ → Bool) (htype : StreamType type) :
    FrameState.frameParser mem type = some (FrameState.quicFrameStreamParser type) := by
  obtain ⟨hlow, hhigh⟩ := htype
  interval_cases type <;> rfl

end StreamFrame

namespace Endpoint

variable {mem : ℕ → Bool} {s t : Endpoint} {e : StreamEvent} {id : ℕ}

/-- Every event keeps the kinds of the streams. -/
theorem step_sameKind (h : step mem s e = some t) (id : ℕ) : SameKind (s.si id) (t.si id) := by
  have hchain := (step_written h).entry id
  change SameKind (s.streams.si id) (t.streams.si id)
  generalize t.streams.si id = si at hchain
  induction hchain with
  | refl => exact .refl _
  | tail _ hlast ih => exact ih.trans hlast.sameKind

/-- An event that is no read and no readable STREAM frame keeps the received data. -/
theorem step_sameReceived (h : step mem s e = some t)
    (hframe : ∀ type frame, e = .frame type frame → StreamType type →
      ∀ id sd, (readStreamFrame type frame).1 ≠ .ok (id, sd))
    (hread : ∀ handle len, e ≠ .read handle len) : s.streams.SameReceived t.streams := by
  refine ⟨fun id => ?_, ?_⟩
  · have hchain := (step_written h).entry id
    generalize t.streams.si id = si at hchain
    induction hchain with
    | refl => exact .refl _
    | tail _ hlast ih =>
      refine ih.trans (hlast.received.resolve_right ?_)
      rintro ⟨-, ⟨len, he⟩ | ⟨type, frame, he, htype, sd, hsd⟩⟩
      · exact hread id len he
      · exact hframe type frame he htype id sd hsd
  · by_cases harrives : ∀ type frame, e ≠ .frame type frame
    · exact (step_written h).received harrives
    · push Not at harrives
      obtain ⟨type, frame, rfl⟩ := harrives
      exact (recvFrame_written h).1.statAll_recvd (hframe type frame rfl)

/-- A read continues one stream and keeps the received data of the others. -/
theorem step_read {handle : ℤ} {len : ℕ} (h : step mem s (.read handle len) = some t) :
    t.streams.conf.statAll.recvd = s.streams.conf.statAll.recvd ∧
      ∀ i, KeepsReceived (s.si i) (t.si i) ∨ ∃ si res, KeepsReceived (s.si i) si ∧
        quicStreamReadData si len = .ok (res, t.si i) := by
  obtain ⟨rfl, -⟩ := run_eq_some h
  rw [quicStreamRecv]
  rcases quicStreamGetInstance_cases handle s.streams with ⟨id, rfl, hfound, hget⟩ | ⟨hget, -⟩
  · have hopened := @QuicStreams.SameReceived.opened s.streams id
    rw [Prog.bind_of_ok hget, Prog.get_bind]
    cases hread : quicStreamReadData ((s.streams.opened id).si id) len with
    | error e =>
      rw [Prog.ofExcept_error, Prog.fail_bind]
      exact ⟨hopened.total, fun i => .inl (hopened.entry i)⟩
    | ok r =>
      obtain ⟨res, si'⟩ := r
      rw [Prog.ofExcept_ok, Prog.pure_bind, Prog.modify_bind]
      refine ⟨hopened.total, fun i => ?_⟩
      change KeepsReceived _ (((s.streams.opened id).setSi id si').si i) ∨ ∃ si res, _ ∧
        quicStreamReadData si len = .ok (res, ((s.streams.opened id).setSi id si').si i)
      by_cases hi : i = id
      · subst hi
        rw [QuicStreams.setSi_si]
        exact .inr ⟨_, res, hopened.entry i, hread⟩
      · have hother := (s.streams.opened id).updateSi_si_of_ne (fun _ => si') hi
        change ((s.streams.opened id).setSi id si').si i = _ at hother
        rw [hother]
        exact .inl (hopened.entry i)
  · rw [Prog.bind_of_error hget]
    exact ⟨rfl, fun i => .inl (.refl _)⟩

/-- A STREAM frame that can be read, for a stream that waits for data. -/
theorem step_takes {type : ℕ} {frame : RPacket} {sd : QuicStreamData} (htype : StreamType type)
    (hread : (readStreamFrame type frame).1 = .ok (id, sd)) (htakes : s.conn.Takes id) :
    ∃ t, step mem s (.frame type frame) = some t ∧
      t.streams = s.streams.receive id (streamBitFin type) sd := by
  rcases hrun : readStreamFrame type frame with ⟨r, pkt⟩
  rw [hrun] at hread
  cases hread
  have hparser := frameParser_stream mem htype
  rcases streamParser_cases (s := ⟨frame, s.conn, false, false⟩) hrun with ⟨-, hstream⟩ | ⟨hnot, -⟩
  · refine ⟨_, recvFrame_of_ok hparser (by rw [hstream]), ?_⟩
    rw [hstream]
    rfl
  · exact absurd htakes hnot

/-- A STREAM frame that can be read, for a stream that does not wait for data. -/
theorem step_not_takes {type : ℕ} {frame : RPacket} {sd : QuicStreamData}
    (htype : StreamType type) (hread : (readStreamFrame type frame).1 = .ok (id, sd))
    (htakes : ¬ s.conn.Takes id) (h : step mem s (.frame type frame) = some t) :
    s.streams.SameReceived t.streams := by
  rcases hrun : readStreamFrame type frame with ⟨r, pkt⟩
  rw [hrun] at hread
  cases hread
  have hparser := frameParser_stream mem htype
  rw [recvFrame_of_handler hparser h]
  rcases streamParser_cases (s := ⟨frame, s.conn, false, false⟩) hrun with ⟨hyes, -⟩ | ⟨-, hsame⟩
  · exact absurd hyes htakes
  · exact hsame

end Endpoint

end Tbquic
