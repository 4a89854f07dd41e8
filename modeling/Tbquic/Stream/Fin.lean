import Tbquic.Frame.StreamParser
import Tbquic.Stream.Completeness

/-!
# The end of a stream

The final size of a stream is never stored. A frame with the FIN bit sets a state, the
branch of `QuicStreamDataAdd` for data in order turns it into another when the queue has no
gap, and a read that empties the queue reports the end. The report is right when the final
frame itself takes that branch, onto a queue without bytes.
-/

namespace Tbquic

section Add

variable {q : QuicStreams} {id : ℕ} {fin : Bool} {sd : QuicStreamData}
  {queue : List QuicStreamData} {start : ℕ}

/-- The loop of `QuicStreamOrdered` decides whether the queue is linked. -/
theorem orderedFrom_iff : orderedFrom start queue = true ↔ Segment.Linked start queue := by
  induction queue generalizing start with
  | nil => simp [orderedFrom, Segment.Linked]
  | cons sd queue ih =>
    rw [orderedFrom, Bool.and_eq_true, decide_eq_true_iff, ih, Segment.Linked, eq_comm]

/-- The state of a stream with all data changes unless its queue has a gap. -/
theorem recvComplete_recvState (si : QuicStreamInstance) :
    (recvComplete si).recvState =
      if (si.recvState = .sizeKnown ∨ si.recvState = .resetRecvd) ∧ quicStreamOrdered si then
        .dataRecvd
      else si.recvState := by
  unfold recvComplete
  split <;> rfl

/-- Adding data changes the state of the stream only in the branch for data in order. -/
theorem quicStreamDataAdd_recvState (q : QuicStreams) (id : ℕ) (sd : QuicStreamData) :
    ((quicStreamDataAdd q id sd).si id).recvState =
      if ((q.si id).offset < sd.stop ∧ q.recvAllowed id (q.trimmed id sd).len) ∧
          sd.offset ≤ (q.si id).offset ∧
          ((q.si id).recvState = .sizeKnown ∨ (q.si id).recvState = .resetRecvd) ∧
          orderedFrom (q.si id).offset ((q.si id).queue ++ [q.trimmed id sd]) then .dataRecvd
      else (q.si id).recvState := by
  have hflow := quicStreamRecvFlowCtrl_cases q id (q.trimmed id sd).len
  unfold quicStreamDataAdd
  by_cases hold : sd.stop ≤ (q.si id).offset
  · simp [hold, Nat.not_lt.mpr hold]
  by_cases hlater : (q.si id).offset < sd.offset
  · rw [trimmed_of_le hlater.le] at hflow ⊢
    rcases hflow with ⟨-, hnone⟩ | ⟨-, t, hsome, ht⟩
    · simp [hold, hlater, Nat.not_le.mpr hlater, quicStreamDataAddOfo, hnone]
    · simp [hold, hlater, Nat.not_le.mpr hlater, quicStreamDataAddOfo, hsome, ht]
  · rcases hflow with ⟨hallowed, hnone⟩ | ⟨hallowed, t, hsome, ht⟩
    · simp [hold, hlater, hallowed, hnone]
    · by_cases hdone : ((q.si id).recvState = .sizeKnown ∨ (q.si id).recvState = .resetRecvd) ∧
          orderedFrom (q.si id).offset ((q.si id).queue ++ [q.trimmed id sd])
      all_goals simp [hold, hlater, hallowed, hsome, ht, recvComplete_recvState,
        quicStreamOrdered, Nat.lt_of_not_le hold, Nat.le_of_not_lt hlater, hdone]

/-- The state of the receiving part of a stream after a frame has found it. -/
def QuicStreams.openedState (q : QuicStreams) (id : ℕ) : StreamState :=
  if q.conf.maxIdOpened < id ∧ (q.si id).recvState = .start then .recv else (q.si id).recvState

/-- The state of the receiving part of a stream before the data of a frame is added. -/
def QuicStreams.arrivedState (q : QuicStreams) (id : ℕ) (fin : Bool) : StreamState :=
  if fin ∧ q.openedState id = .recv then .sizeKnown
  else if q.openedState id = .start then .recv else q.openedState id

/-- The entry of a stream before the data of a frame is added. -/
theorem arrived_si (q : QuicStreams) (id : ℕ) (fin : Bool) : ∃ state, (q.arrived id fin).si id =
    { q.si id with sendState := state, recvState := q.arrivedState id fin } := by
  have hopened : (q.opened id).si id = { q.si id with recvState := q.openedState id } := by
    rw [opened_si, QuicStreams.openedState, quicStreamInstanceRecvOpen]
    by_cases hid : q.conf.maxIdOpened < id
    · by_cases hstart : (q.si id).recvState = .start
      · rw [if_pos hid, if_pos hstart, if_pos ⟨hid, hstart⟩]
      · rw [if_pos hid, if_neg hstart, if_neg (hstart ·.2)]
    · rw [if_neg hid, if_neg (hid ·.1)]
  have hready : ∃ state, sendReady ((q.opened id).si id) =
      { q.si id with sendState := state, recvState := q.openedState id } := by
    rw [hopened, sendReady]
    split
    · exact ⟨_, rfl⟩
    · exact ⟨_, rfl⟩
  obtain ⟨state, hstate⟩ := hready
  refine ⟨state, ?_⟩
  rw [QuicStreams.arrived, QuicStreams.updateSi_si, QuicStreams.updateSi_si,
    QuicStreams.updateSi_si, hstate, QuicStreams.arrivedState, recvFin,
    quicStreamInstanceRecvOpen]
  by_cases hrecv : fin = true ∧ q.openedState id = .recv
  · simp [hrecv]
  · by_cases hstart : q.openedState id = .start <;> simp [hrecv, hstart]

/-- A frame that finds its stream counts against the same limits. -/
theorem arrived_recvAllowed {len : ℕ} :
    (q.arrived id fin).recvAllowed id len = q.recvAllowed id len := by
  obtain ⟨state, hstate⟩ := arrived_si q id fin
  have hconf : (q.arrived id fin).conf.statAll = q.conf.statAll ∧
      (q.arrived id fin).transParam = q.transParam ∧
      (q.arrived id fin).peerParam = q.peerParam := by
    unfold QuicStreams.arrived QuicStreams.opened
    split <;> exact ⟨rfl, rfl, rfl⟩
  obtain ⟨hall, htrans, hpeer⟩ := hconf
  unfold QuicStreams.recvAllowed QuicStreams.recvLimit QuicStreams.recvd QuicStreams.totalRecvd
  rw [hstate, hall, htrans, hpeer]

/-- The data of a frame is trimmed against the offset that the stream had before. -/
theorem arrived_trimmed : (q.arrived id fin).trimmed id sd = q.trimmed id sd := by
  obtain ⟨state, hstate⟩ := arrived_si q id fin
  rw [QuicStreams.trimmed, QuicStreams.trimmed, hstate]

/-- A message for the application changes nothing that is read of the stream. -/
theorem notify_si (q : QuicStreams) (id : ℕ) :
    ((q.notify id).si id).offset = (q.si id).offset ∧
      ((q.notify id).si id).queue = (q.si id).queue ∧
      ((q.notify id).si id).recvState = (q.si id).recvState := by
  unfold QuicStreams.notify
  split
  · exact ⟨rfl, rfl, rfl⟩
  · simp [QuicStreams.si, QuicStreams.updateSi, QuicStreams.setSi]

end Add

/-- A reader of a stream, and whether its final frame has arrived. -/
structure FinReader extends Reader where
  /-- Whether a frame with the FIN bit has arrived. -/
  fin : Bool

/-- What can happen to a stream until its end. -/
inductive FinEvent
  /-- A STREAM frame of a type, with the bytes that follow the type in its packet. -/
  | frame (type : ℕ) (rest : List UInt8)
  /-- `QuicStreamReadData` into a buffer of `len` bytes. -/
  | read (len : ℕ)
  /-- What happens to other streams. It may open this one. -/
  | other (q : QuicStreams)

namespace FinReader

variable {whole : List UInt8} {id : ℕ} {r t : FinReader} {q : QuicStreams} {e : FinEvent}
  {es : List FinEvent}

/-- One event on a stream. A frame that cannot be parsed leaves what the parser changed. -/
def step (id : ℕ) (r : FinReader) : FinEvent → Option FinReader
  | .frame type rest =>
    match decodeStreamFrame type rest,
      quicFrameStreamParser type true (rPacketBufInit rest, r.q) with
    | .ok (_, sd), (.ok _, _, q) =>
      some { q, delivered := r.delivered ++ [sd], out := r.out, fin := r.fin || streamBitFin type }
    | _, (.error .ret, _, q) => some { r with q }
    | _, _ => none
  | .read len => (r.toReader.step id (.read len)).map fun t => { t with fin := r.fin }
  | .other q => some { r with q }

/-- A reader of a stream of which nothing has arrived. -/
def start (q : QuicStreams) : FinReader := { Reader.start q with fin := false }

/-- A frame that can be parsed, is of the stream, agrees with it and ends with it when it has
the FIN bit. -/
def FrameConsistent (whole : List UInt8) (id : ℕ) (fin : Bool) :
    Except Fail (ℕ × QuicStreamData) → Prop
  | .ok (id', sd) =>
    id' = id ∧ sd.Agrees whole ∧ sd.stop ≤ whole.length ∧ (fin → sd.stop = whole.length)
  | .error _ => False

instance (whole : List UInt8) (id : ℕ) (fin : Bool) : DecidablePred (FrameConsistent whole id fin)
  | .ok (_, _) => inferInstanceAs (Decidable (_ ∧ _ ∧ _ ∧ _))
  | .error _ => .isFalse fun h => h

/-- Frames that are consistent with the stream, and reads with room for a positive `int` number
of bytes. -/
def Consistent (whole : List UInt8) (id : ℕ) (r : FinReader) : FinEvent → Prop
  | .frame type rest => r.q.Receivable id ∧
      FrameConsistent whole id (streamBitFin type) (decodeStreamFrame type rest)
  | .read len => 1 ≤ len ∧ len < 2 ^ 31
  | .other q => q.si id = r.q.si id ∨ q.si id = quicStreamInstanceRecvOpen (r.q.si id)

instance (whole : List UInt8) (id : ℕ) (r : FinReader) : DecidablePred (r.Consistent whole id)
  | .frame _ _ => inferInstanceAs (Decidable (_ ∧ _))
  | .read _ => inferInstanceAs (Decidable (_ ∧ _))
  | .other _ => inferInstanceAs (Decidable (_ ∨ _))

/-- The final frame is handled in order: the receiving part of the stream is open, flow control
accepts the frame, the queue holds no byte, and the frame covers the current offset. -/
def KeepsFin (id : ℕ) (r : FinReader) (sd : QuicStreamData) : Prop :=
  r.q.openedState id = .recv ∧ r.q.recvAllowed id (r.q.trimmed id sd).len ∧
    r.queueEnd id = (r.si id).offset ∧ sd.offset ≤ (r.si id).offset ∧ (r.si id).offset < sd.stop

instance (id : ℕ) (r : FinReader) (sd : QuicStreamData) : Decidable (r.KeepsFin id sd) :=
  inferInstanceAs (Decidable (_ ∧ _))

/-- A frame keeps the order of the queue, and the final frame is handled in order. -/
def FrameKeepsOrder (id : ℕ) (r : FinReader) (fin : Bool) :
    Except Fail (ℕ × QuicStreamData) → Prop
  | .ok (_, sd) => if fin then r.KeepsFin id sd else r.toReader.KeepsOrder id (.add sd)
  | .error _ => True

instance (id : ℕ) (r : FinReader) (fin : Bool) : DecidablePred (r.FrameKeepsOrder id fin)
  | .ok (_, sd) => inferInstanceAs (Decidable
      (if fin then r.KeepsFin id sd else r.toReader.KeepsOrder id (.add sd)))
  | .error _ => .isTrue trivial

/-- Frames keep the order until the final frame has been handled. Reads end between two
entries. -/
def KeepsOrder (id : ℕ) (r : FinReader) : FinEvent → Prop
  | .frame type rest => (r.si id).recvState = .dataRecvd ∨ (r.si id).recvState = .dataRead ∨
      r.FrameKeepsOrder id (streamBitFin type) (decodeStreamFrame type rest)
  | .read len => Aligned len (r.si id).queue
  | .other _ => True

instance (id : ℕ) (r : FinReader) : DecidablePred (r.KeepsOrder id)
  | .frame _ _ => inferInstanceAs (Decidable (_ ∨ _))
  | .read _ => inferInstanceAs (Decidable (Aligned _ _))
  | .other _ => .isTrue trivial

/-- The state of the stream before and after its final frame, and after its last byte was
read. -/
inductive Phase (whole : List UInt8) (id : ℕ) (r : FinReader) : Prop
  /-- The final frame has not arrived. -/
  | receiving (hfin : r.fin = false)
    (hstate : (r.si id).recvState = .start ∨ (r.si id).recvState = .recv)
  /-- The final frame is in the queue. -/
  | received (hfin : r.fin = true) (hstate : (r.si id).recvState = .dataRecvd)
    (hend : r.queueEnd id = whole.length)
    (hlast : ∃ queue last, (r.si id).queue = queue ++ [last] ∧ 0 < last.len)
  /-- All bytes have been returned. -/
  | read (hfin : r.fin = true) (hstate : (r.si id).recvState = .dataRead)
    (hend : r.out.length = whole.length) (hqueue : (r.si id).queue = [])

/-- What holds of a reader in every run: nothing is missing, and the state of the stream tells
whether its end has arrived and been read. -/
structure Ends (whole : List UInt8) (id : ℕ) (r : FinReader) : Prop where
  /-- Nothing is missing. -/
  gapless : r.toReader.Gapless whole id
  /-- The state tells how far the stream is. -/
  phase : r.Phase whole id

/-- A consistent frame is parsed and handed to its stream. -/
theorem Consistent.frame {type : ℕ} {rest : List UInt8}
    (h : r.Consistent whole id (.frame type rest)) :
    ∃ sd, decodeStreamFrame type rest = .ok (id, sd) ∧ sd.Agrees whole ∧
      sd.stop ≤ whole.length ∧ (streamBitFin type → sd.stop = whole.length) ∧
      step id r (.frame type rest) = some
        { q := r.q.receive id (streamBitFin type) sd, delivered := r.delivered ++ [sd],
          out := r.out, fin := r.fin || streamBitFin type } := by
  obtain ⟨hreceivable, hframe⟩ := h
  rcases hread : readStreamFrame type (rPacketBufInit rest) with ⟨res, pkt⟩
  cases res with
  | error e => simp [decodeStreamFrame, hread, FrameConsistent] at hframe
  | ok frame =>
    obtain ⟨id', sd⟩ := frame
    have hdecode : decodeStreamFrame type rest = .ok (id', sd) := by rw [decodeStreamFrame, hread]
    rw [hdecode] at hframe
    obtain ⟨rfl, hagrees, hstop, hfin⟩ := hframe
    refine ⟨sd, hdecode, hagrees, hstop, hfin, ?_⟩
    rw [step, hdecode, quicFrameStreamParser_of_receivable hread hreceivable]

/-- Frames that arrive after the last byte has arrived leave the data of the stream alone. -/
theorem receive_of_done (fin : Bool) (sd : QuicStreamData)
    (h : (q.si id).recvState = .dataRecvd ∨ (q.si id).recvState = .dataRead) :
    ((q.receive id fin sd).si id).recvState = (q.si id).recvState ∧
      ((q.receive id fin sd).si id).offset = (q.si id).offset ∧
      ((q.receive id fin sd).si id).queue = (q.si id).queue := by
  have hstate : q.arrivedState id fin = (q.si id).recvState := by
    rcases h with h | h <;> simp [QuicStreams.arrivedState, QuicStreams.openedState, h]
  obtain ⟨state, harrived⟩ := arrived_si q id fin
  have hreceive : q.receive id fin sd = q.arrived id fin := by
    rw [QuicStreams.receive, harrived]
    rcases h with h | h <;> simp [hstate, h]
  rw [hreceive, harrived]
  exact ⟨hstate, rfl, rfl⟩

/-- The order of the queue does not depend on the states of the stream. -/
theorem keepsOrder_arrived {reader : Reader} {fin : Bool} {sd : QuicStreamData} :
    Reader.KeepsOrder id { reader with q := reader.q.arrived id fin } (.add sd) ↔
      reader.KeepsOrder id (.add sd) := by
  obtain ⟨state, harrived⟩ := arrived_si reader.q id fin
  simp only [Reader.KeepsOrder, Reader.queueEnd, Reader.si, harrived, arrived_trimmed,
    arrived_recvAllowed]

/-- Frames that keep the order keep the queue without gaps. -/
theorem gapless_receive {reader : Reader} {fin : Bool} {sd : QuicStreamData}
    (h : reader.Gapless whole id) (hsd : sd.Agrees whole)
    (hkeep : reader.KeepsOrder id (.add sd)) :
    Reader.Gapless whole id
      { q := (quicStreamDataAdd (reader.q.arrived id fin) id sd).notify id,
        delivered := reader.delivered ++ [sd], out := reader.out } := by
  obtain ⟨state, harrived⟩ := arrived_si reader.q id fin
  have harrived' : Reader.Gapless whole id { reader with q := reader.q.arrived id fin } :=
    h.of_si_eq rfl (by rw [Reader.si, harrived]; rfl) (by rw [Reader.si, harrived]; rfl)
      fun sd hsd => .inl hsd
  have hadd := harrived'.add hsd (keepsOrder_arrived.mpr hkeep)
  obtain ⟨hoffset, hqueue, -⟩ := notify_si (quicStreamDataAdd (reader.q.arrived id fin) id sd) id
  exact hadd.of_si_eq rfl hoffset hqueue fun sd hsd => .inl hsd

/-- Before the end is known a frame without the FIN bit leaves the stream receiving. -/
theorem receive_data (sd : QuicStreamData)
    (h : (q.si id).recvState = .start ∨ (q.si id).recvState = .recv) :
    q.receive id false sd = (quicStreamDataAdd (q.arrived id false) id sd).notify id ∧
      ((q.receive id false sd).si id).recvState = .recv := by
  have hstate : q.arrivedState id false = .recv := by
    rcases h with h | h <;> simp [QuicStreams.arrivedState, QuicStreams.openedState, h]
  obtain ⟨state, harrived⟩ := arrived_si q id false
  have hreceive : q.receive id false sd =
      (quicStreamDataAdd (q.arrived id false) id sd).notify id := by
    rw [QuicStreams.receive, harrived]
    simp [hstate]
  refine ⟨hreceive, ?_⟩
  rw [hreceive, (notify_si _ id).2.2, quicStreamDataAdd_recvState, harrived]
  simp [hstate]

/-- The final frame, handled in order, is the last entry of the queue and completes the
stream. -/
theorem receive_fin {sd : QuicStreamData} (h : r.toReader.Gapless whole id)
    (hkeep : r.KeepsFin id sd) :
    r.q.receive id true sd = (quicStreamDataAdd (r.q.arrived id true) id sd).notify id ∧
      ((r.q.receive id true sd).si id).recvState = .dataRecvd ∧
      ((r.q.receive id true sd).si id).offset = (r.si id).offset ∧
      ((r.q.receive id true sd).si id).queue = (r.si id).queue ++ [r.q.trimmed id sd] := by
  obtain ⟨hopened, hallowed, hend, hle, hlt⟩ := hkeep
  have hstate : r.q.arrivedState id true = .sizeKnown := by
    simp [QuicStreams.arrivedState, hopened]
  obtain ⟨state, harrived⟩ := arrived_si r.q id true
  have hreceive : r.q.receive id true sd =
      (quicStreamDataAdd (r.q.arrived id true) id sd).notify id := by
    rw [QuicStreams.receive, harrived]
    simp [hstate]
  have hlinked : Segment.Linked (r.q.si id).offset ((r.q.si id).queue ++ [r.q.trimmed id sd]) := by
    refine h.linked.concat ?_
    rw [trimmed_offset]
    exact (Nat.max_eq_right hle).trans hend.symm
  obtain ⟨hoffset, hqueue, hrecv⟩ := notify_si (quicStreamDataAdd (r.q.arrived id true) id sd) id
  obtain ⟨hoff, hadd⟩ := quicStreamDataAdd_si (r.q.arrived id true) id sd
  refine ⟨hreceive, ?_, ?_, ?_⟩
  · rw [hreceive, hrecv, quicStreamDataAdd_recvState, arrived_trimmed, arrived_recvAllowed,
      harrived]
    exact if_pos ⟨⟨hlt, hallowed⟩, hle, .inl hstate, orderedFrom_iff.mpr hlinked⟩
  · rw [hreceive, hoffset, hoff, harrived]
    rfl
  · rw [hreceive, hqueue, hadd, arrived_trimmed, arrived_recvAllowed, harrived]
    exact if_pos ⟨hlt, hallowed⟩

/-- Data behind which nothing is missing may be delivered again. -/
theorem delivered_concat {delivered : List QuicStreamData} {sd : QuicStreamData} {stop : ℕ}
    (h : sd.stop ≤ stop) :
    ∀ sd' ∈ delivered ++ [sd], sd' ∈ delivered ∨ sd'.stop ≤ stop := fun sd' hsd' => by
  rcases List.mem_append.mp hsd' with hold | hnew
  · exact .inl hold
  · rw [List.mem_singleton.mp hnew]
    exact .inr h

/-- Frames that keep the order keep the invariant. -/
theorem Ends.frame (h : r.Ends whole id) {type : ℕ} {rest : List UInt8}
    (hconsistent : r.Consistent whole id (.frame type rest))
    (hkeep : r.KeepsOrder id (.frame type rest)) :
    ∃ t, step id r (.frame type rest) = some t ∧ t.Ends whole id := by
  obtain ⟨sd, hdecode, hagrees, hstop, hfinal, hstep⟩ := hconsistent.frame
  refine ⟨_, hstep, ?_⟩
  simp only [KeepsOrder, hdecode, FrameKeepsOrder] at hkeep
  obtain ⟨hgapless, hphase⟩ := h
  cases hphase with
  | receiving hfin hstate =>
    have hopen : if streamBitFin type then r.KeepsFin id sd
        else r.toReader.KeepsOrder id (.add sd) := by
      rcases hkeep with hdone | hdone | hopen
      · rcases hstate with hstate | hstate <;> simp [hstate] at hdone
      · rcases hstate with hstate | hstate <;> simp [hstate] at hdone
      · exact hopen
    cases hbit : streamBitFin type with
    | false =>
      rw [hbit, if_neg Bool.false_ne_true] at hopen
      obtain ⟨hreceive, hrecv⟩ := receive_data sd hstate
      refine ⟨?_, .receiving (by simp [hfin]) (.inr hrecv)⟩
      rw [hreceive]
      exact gapless_receive hgapless hagrees hopen
    | true =>
      rw [hbit, if_pos rfl] at hopen
      obtain ⟨hreceive, hrecv, hoffset, hqueue⟩ := receive_fin hgapless hopen
      have hadd : r.toReader.KeepsOrder id (.add sd) := by
        rw [Reader.KeepsOrder, if_pos hopen.2.1]
        exact .inr (.inr ⟨hopen.2.2.2.1, hopen.2.2.1⟩)
      have htrimmed : (r.q.trimmed id sd).offset = (r.si id).offset := by
        rw [trimmed_offset]
        exact Nat.max_eq_right hopen.2.2.2.1
      have hlast := trimmed_stop hopen.2.2.2.2
      rw [Segment.stop, htrimmed, hfinal hbit] at hlast
      have hpos := hopen.2.2.2.2
      rw [hfinal hbit] at hpos
      refine ⟨?_, .received (by simp) hrecv ?_ ⟨_, _, hqueue, by omega⟩⟩
      · rw [hreceive]
        exact gapless_receive hgapless hagrees hadd
      · have htotal : r.queueEnd id = (r.si id).offset := hopen.2.2.1
        rw [Reader.queueEnd] at htotal
        change ((r.q.receive id true sd).si id).offset +
          Segment.total ((r.q.receive id true sd).si id).queue = whole.length
        rw [hoffset, hqueue, Segment.total_append, Segment.total_cons, Segment.total_nil]
        omega
  | received hfin hstate hend hlast =>
    obtain ⟨hrecv, hoffset, hqueue⟩ := receive_of_done (streamBitFin type) sd (.inl hstate)
    refine ⟨hgapless.of_si_eq rfl hoffset hqueue (delivered_concat (hstop.trans_eq hend.symm)),
      .received (by simp [hfin]) (hrecv.trans hstate) ?_ ?_⟩
    · change ((r.q.receive id _ sd).si id).offset +
        Segment.total ((r.q.receive id _ sd).si id).queue = whole.length
      rw [hoffset, hqueue]
      exact hend
    · change ∃ queue last, ((r.q.receive id _ sd).si id).queue = queue ++ [last] ∧ 0 < last.len
      rw [hqueue]
      exact hlast
  | read hfin hstate hend hqueue =>
    obtain ⟨hrecv, hoffset, hqueue'⟩ := receive_of_done (streamBitFin type) sd (.inr hstate)
    have hread : whole.length ≤ r.queueEnd id := by
      rw [← hend, ← hgapless.reassembled.2.1]
      exact Nat.le_add_right _ _
    exact ⟨hgapless.of_si_eq rfl hoffset hqueue' (delivered_concat (hstop.trans hread)),
      .read (by simp [hfin]) (hrecv.trans hstate) hend (hqueue'.trans hqueue)⟩

/-- Dropping entries of a queue drops its last entry or keeps it the last one. -/
theorem drop_concat_cases (queue : List QuicStreamData) (last : QuicStreamData) (k : ℕ) :
    (queue ++ [last]).drop k = [] ∨ (queue ++ [last]).drop k = queue.drop k ++ [last] := by
  rcases Nat.lt_or_ge queue.length k with hlt | hle
  · refine .inl (List.drop_eq_nil_of_le ?_)
    rw [List.length_append, List.length_singleton]
    exact hlt
  · exact .inr (List.drop_append_of_le_length hle)

/-- What a read does before and after the end of the stream: it reports the end when it
returns the last byte. -/
theorem Ends.read (h : r.Ends whole id) {len : ℕ} (hlen : 1 ≤ len) (hmax : len < 2 ^ 31)
    (hkeep : Aligned len (r.si id).queue) :
    ∃ res si, quicStreamReadData (r.si id) len = .ok (res, si) ∧
      (res.fin = true ↔ r.fin = true ∧ r.out.length < whole.length ∧
        r.out.length + res.data.length = whole.length) ∧
      ∃ t, step id r (.read len) = some t ∧ t.Ends whole id := by
  obtain ⟨hgapless, hphase⟩ := h
  have hempty : ([] : List UInt8).length < len := hlen
  obtain ⟨l, hl⟩ := readLoop_ok (r.si id).queue (r.si id).offset hempty hmax
  obtain ⟨res, si', hread, hdata, hres, hoffset, hqueue, hstate'⟩ := quicStreamReadData_of_loop hl
  have hstep : r.toReader.step id (.read len) =
      some { r.toReader with q := r.q.setSi id si', out := r.out ++ res.data } := by
    rw [Reader.step, hread]
  have hconsistent : r.toReader.Consistent whole id (.read len) := ⟨hlen, hmax⟩
  obtain ⟨hgapless', hstays, -⟩ := hgapless.read hlen hkeep hstep
    (hgapless.reassembled.of_step hconsistent hstep)
  have hsi : (r.q.setSi id si').si id = si' := QuicStreams.setSi_si _ _ si'
  have hlength : si'.offset = r.out.length + res.data.length := by
    have h := hgapless'.reassembled.2.1
    rwa [Reader.si, hsi, List.length_append] at h
  rw [Reader.queueEnd, Reader.si, hsi] at hstays
  change _ = (r.si id).offset + Segment.total (r.si id).queue at hstays
  have haligned : Aligned (len - ([] : List UInt8).length) (r.si id).queue := hkeep
  obtain ⟨k, hleft, -, -⟩ := readLoop_aligned hgapless.linked hempty haligned hl
  have hstep' : step id r (.read len) =
      some { q := r.q.setSi id si', delivered := r.delivered, out := r.out ++ res.data,
             fin := r.fin } := by
    rw [step, hstep]
    rfl
  refine ⟨res, si', hread, ?_⟩
  cases hphase with
  | receiving hfin hstate =>
    have hnot : ¬ res.fin = true := by
      rcases hstate with hstate | hstate <;> simp [hres, hstate]
    refine ⟨iff_of_false hnot (by simp [hfin]), _, hstep', hgapless', .receiving hfin ?_⟩
    rw [Reader.si, hsi, hstate', if_neg hnot]
    exact hstate
  | received hfin hstate hend hlast =>
    obtain ⟨queue, last, hlast, hpos⟩ := hlast
    rw [Reader.queueEnd] at hend
    rw [hlast] at hleft
    have hbefore : r.out.length < whole.length := by
      rw [← hgapless.reassembled.2.1, ← hend, hlast, Segment.total_append, Segment.total_cons]
      omega
    rcases drop_concat_cases queue last k with hnil | hcons
    · have hres' : res.fin = true := hres.mpr ⟨hleft.trans hnil, hstate⟩
      have hall : r.out.length + res.data.length = whole.length := by
        rw [hqueue, hleft, hnil, Segment.total_nil] at hstays
        omega
      refine ⟨iff_of_true hres' ⟨hfin, hbefore, hall⟩, _, hstep', hgapless', .read hfin ?_ ?_ ?_⟩
      · rw [Reader.si, hsi, hstate', if_pos hres']
      · rw [List.length_append, hall]
      · rw [Reader.si, hsi, hqueue, hleft, hnil]
    · have hnot : ¬ res.fin = true := fun hres' => by
        have hempty := (hres.mp hres').1
        rw [hleft, hcons] at hempty
        simp at hempty
      have hmore : r.out.length + res.data.length < whole.length := by
        rw [hqueue, hleft, hcons, Segment.total_append, Segment.total_cons] at hstays
        omega
      refine ⟨iff_of_false hnot fun hall => by omega, _, hstep', hgapless',
        .received hfin ?_ ?_ ⟨queue.drop k, last, ?_, hpos⟩⟩
      · rw [Reader.si, hsi, hstate', if_neg hnot]
        exact hstate
      · rw [Reader.queueEnd, Reader.si, hsi]
        omega
      · rw [Reader.si, hsi, hqueue, hleft, hcons]
  | read hfin hstate hend hqueue' =>
    have hnot : ¬ res.fin = true := by simp [hres, hstate]
    have hnil : l.queue = [] := by rw [hleft, hqueue', List.drop_nil]
    refine ⟨iff_of_false hnot fun hall => by omega, _, hstep', hgapless', .read hfin ?_ ?_ ?_⟩
    · rw [Reader.si, hsi, hstate', if_neg hnot]
      exact hstate
    · have hsame := hgapless.reassembled.2.1
      rw [hqueue', hqueue, hnil, Segment.total_nil] at hstays
      rw [List.length_append]
      omega
    · rw [Reader.si, hsi, hqueue, hnil]

/-- Every event that keeps the order goes through and keeps the invariant. -/
theorem Ends.step (h : r.Ends whole id) (he : r.Consistent whole id e ∧ r.KeepsOrder id e) :
    ∃ t, FinReader.step id r e = some t ∧ t.Ends whole id := by
  obtain ⟨hconsistent, hkeep⟩ := he
  cases e with
  | frame type rest => exact h.frame hconsistent hkeep
  | read len =>
    obtain ⟨-, -, -, -, hstep⟩ := h.read hconsistent.1 hconsistent.2 hkeep
    exact hstep
  | other q =>
    refine ⟨_, rfl, ?_⟩
    obtain ⟨hgapless, hphase⟩ := h
    have hsi : (q.si id).offset = (r.si id).offset ∧ (q.si id).queue = (r.si id).queue ∧
        ((q.si id).recvState = (r.si id).recvState ∨
          (r.si id).recvState = .start ∧ (q.si id).recvState = .recv) := by
      rcases hconsistent with hsame | hopened
      · rw [hsame]
        exact ⟨rfl, rfl, .inl rfl⟩
      · rw [hopened, quicStreamInstanceRecvOpen]
        split
        · exact ⟨rfl, rfl, .inr ⟨‹_›, rfl⟩⟩
        · exact ⟨rfl, rfl, .inl rfl⟩
    obtain ⟨hoffset, hqueue, hstate'⟩ := hsi
    refine ⟨hgapless.of_si_eq rfl hoffset hqueue fun sd hsd => .inl hsd, ?_⟩
    cases hphase with
    | receiving hfin hstate =>
      exact .receiving hfin (hstate'.elim (fun h => by rwa [Reader.si, h]) fun h => .inr h.2)
    | received hfin hstate hend hlast =>
      have hkept := hstate'.resolve_right (by simp [hstate])
      refine .received hfin (hkept.trans hstate) ?_ ?_
      · rwa [Reader.queueEnd, Reader.si, hoffset, hqueue]
      · rwa [Reader.si, hqueue]
    | read hfin hstate hend hqueue' =>
      have hkept := hstate'.resolve_right (by simp [hstate])
      exact .read hfin (hkept.trans hstate) hend (hqueue.trans hqueue')

/-- Nothing has arrived before the first frame. -/
theorem ends_start (hoffset : (q.si id).offset = 0) (hqueue : (q.si id).queue = [])
    (hstate : (q.si id).recvState = .start ∨ (q.si id).recvState = .recv) :
    (start q).Ends whole id :=
  ⟨Reader.gapless_start hoffset hqueue, .receiving rfl hstate⟩

/-- In a run in which the final frame is handled in order, a read reports the end of the
stream exactly when the final frame has arrived and the read returns the last byte. -/
theorem fin_iff (hoffset : (q.si id).offset = 0) (hqueue : (q.si id).queue = [])
    (hstate : (q.si id).recvState = .start ∨ (q.si id).recvState = .recv)
    (hes : Trace.Along (FinReader.step id)
      (fun r e => r.Consistent whole id e ∧ r.KeepsOrder id e) (start q) es) :
    ∃ r, Trace.run (FinReader.step id) (start q) es = some r ∧
      ∀ len, 1 ≤ len → len < 2 ^ 31 → Aligned len (r.si id).queue →
        ∃ res si, quicStreamReadData (r.si id) len = .ok (res, si) ∧
          (res.fin = true ↔ r.fin = true ∧ r.out.length < whole.length ∧
            r.out.length + res.data.length = whole.length) := by
  obtain ⟨r, hr, hends⟩ := Trace.run_total_along (Ends whole id) (fun _ _ h he => h.step he)
    (ends_start hoffset hqueue hstate) hes
  refine ⟨r, hr, fun len hlen hmax haligned => ?_⟩
  obtain ⟨res, si, hread, hfin, -⟩ := hends.read hlen hmax haligned
  exact ⟨res, si, hread, hfin⟩

/-- Two bytes arrive and are read before the final frame with a third byte arrives. -/
theorem fin_iff_ordered :
    ∃ r, Trace.run (FinReader.step 0) (start openedStreams)
        [.frame 0x0a [0, 2, 1, 2], .read 2, .frame 0x0f [0, 2, 1, 3]] = some r ∧
      ∀ len, 1 ≤ len → len < 2 ^ 31 → Aligned len (r.si 0).queue →
        ∃ res si, quicStreamReadData (r.si 0) len = .ok (res, si) ∧
          (res.fin = true ↔ r.fin = true ∧ r.out.length < 3 ∧
            r.out.length + res.data.length = 3) := by
  have hes : Trace.Along (FinReader.step 0)
      (fun r e => r.Consistent [1, 2, 3] 0 e ∧ r.KeepsOrder 0 e) (start openedStreams)
      [.frame 0x0a [0, 2, 1, 2], .read 2, .frame 0x0f [0, 2, 1, 3]] := by decide +kernel
  exact fin_iff rfl rfl (.inr rfl) hes

/-- The final frame arrives before the bytes ahead of it are read. A read returns the whole
stream and does not report its end. -/
theorem fin_omitted_unread :
    (Trace.run (FinReader.step 0) (start openedStreams)
        [.frame 0x0a [0, 2, 1, 2], .frame 0x0f [0, 2, 1, 3]]).map
      (fun r => (r.fin, (quicStreamReadData (r.si 0) 3).map Prod.fst)) =
      some (true, .ok { data := [1, 2, 3], fin := false, reset := false }) := by
  decide +kernel

end FinReader

end Tbquic
