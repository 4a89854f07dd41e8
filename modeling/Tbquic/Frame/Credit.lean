import Tbquic.Frame.Endpoint

/-!
# Frames that move limits

MAX_DATA, MAX_STREAMS and MAX_STREAM_DATA frames move the limits on what this endpoint may send.
Their parsers are run here in one step each.
-/

namespace Tbquic

/-- `QuicFrameMaxStreamDataParser` behind its checks. -/
def raiseMaxStreamData (value : ℕ) (si : QuicStreamInstance) : QuicStreamInstance :=
  if quicLt si.maxStreamData value then { si with maxStreamData := value } else si

/-- The checks of `QuicFrameMaxStreamDataParser`: the stream is found, and its receiving part is
there and opened. -/
def TakesCredit (c : FrameConn) (id : ℕ) : Prop :=
  c.streams.Found id ∧ ¬ (((c.streams.opened id).si id).recvState = .disable ∨
    ((c.streams.opened id).si id).recvState = .start)

section Runs

variable {c : FrameConn} {frame : RPacket}

/-- The run of `QuicFrameMaxStreamDataParser`. -/
theorem maxStreamData_run (c : FrameConn) (frame : RPacket) :
    (∃ id value, frameNumbers 2 frame = some [id, value] ∧ TakesCredit c id ∧
      (FrameState.quicFrameMaxStreamDataParser ⟨frame, c, false, false⟩).1 = .ok () ∧
      (FrameState.quicFrameMaxStreamDataParser ⟨frame, c, false, false⟩).2.conn =
        { c with streams := (c.streams.opened id).updateSi id (raiseMaxStreamData value) }) ∨
    ((FrameState.quicFrameMaxStreamDataParser ⟨frame, c, false, false⟩).1 ≠ .ok () ∧
      (∀ id value, frameNumbers 2 frame = some [id, value] → ¬ TakesCredit c id) ∧
      ((FrameState.quicFrameMaxStreamDataParser ⟨frame, c, false, false⟩).2.conn = c ∨
        ∃ id, (FrameState.quicFrameMaxStreamDataParser ⟨frame, c, false, false⟩).2.conn =
          { c with streams := c.streams.opened id })) := by
  rw [FrameState.quicFrameMaxStreamDataParser, FrameState.readVar]
  rcases hread : quicVariableLengthDecode frame with ⟨r, pkt⟩
  have hfirst {id value : ℕ} (h : frameNumbers 2 frame = some [id, value]) :
      r = .ok id ∧ frameNumbers 1 pkt = some [value] := by
    obtain ⟨pkt', hread', hrest⟩ := frameNumbers_cons h
    rw [hread] at hread'
    cases hread'
    exact ⟨rfl, hrest⟩
  cases r with
  | error e =>
    rw [Prog.bind_of_error (Prog.zoom_of_error hread)]
    refine .inr ⟨fun h => (by cases h), fun id value h => ?_, .inl rfl⟩
    cases (hfirst h).1
  | ok id =>
    rw [Prog.bind_of_ok (Prog.zoom_of_ok hread)]
    by_cases hfound : c.streams.Found id
    · rw [Prog.bind_of_ok (FrameState.getInstance_of_found hfound)]
      by_cases hstate : ((c.streams.opened id).si id).recvState = .disable ∨
          ((c.streams.opened id).si id).recvState = .start
      · rw [Prog.bind_of_error (FrameState.check_of_neg (not_not.mpr hstate))]
        refine .inr ⟨fun h => (by cases h), fun i value h => ?_, .inr ⟨id, rfl⟩⟩
        cases (hfirst h).1
        exact fun htakes => htakes.2 hstate
      · rw [Prog.bind_of_ok (FrameState.check_of_pos hstate)]
        rcases hvalue : quicVariableLengthDecode pkt with ⟨r, pkt'⟩
        cases r with
        | error e =>
          rw [Prog.bind_of_error (Prog.zoom_of_error hvalue)]
          refine .inr ⟨fun h => (by cases h), fun i value h => ?_, .inr ⟨id, rfl⟩⟩
          obtain ⟨pkt'', hread', -⟩ := frameNumbers_cons (hfirst h).2
          rw [hvalue] at hread'
          cases hread'
        | ok value =>
          rw [Prog.bind_of_ok (Prog.zoom_of_ok hvalue)]
          exact .inl ⟨id, value, frameNumbers_two hread hvalue, ⟨hfound, hstate⟩, rfl, rfl⟩
    · rw [Prog.bind_of_error (FrameState.getInstance_of_not_found hfound)]
      refine .inr ⟨fun h => (by cases h), fun i value h => ?_, .inl rfl⟩
      cases (hfirst h).1
      exact fun htakes => hfound htakes.1

/-- The run of `QuicFrameStreamParamUpdate`. -/
theorem streamParamUpdate_run (k : LimitKind) (c : FrameConn) (frame : RPacket) :
    (FrameState.quicFrameStreamParamUpdate k.get k.set ⟨frame, c, false, false⟩).2.conn = c ∨
    ∃ value, frameNumbers 1 frame = some [value] ∧ quicGt value (k.get c.streams.peerParam) ∧
      (FrameState.quicFrameStreamParamUpdate k.get k.set ⟨frame, c, false, false⟩).2.conn =
        { c with streams.peerParam := k.set value c.streams.peerParam } := by
  rw [FrameState.quicFrameStreamParamUpdate, FrameState.readVar]
  rcases hread : quicVariableLengthDecode frame with ⟨r, pkt⟩
  cases r with
  | error e =>
    rw [Prog.bind_of_error (Prog.zoom_of_error hread)]
    exact .inl rfl
  | ok value =>
    rw [Prog.bind_of_ok (Prog.zoom_of_ok hread)]
    by_cases hgt : quicGt value (k.get c.streams.peerParam)
    · refine .inr ⟨value, frameNumbers_one hread, hgt, ?_⟩
      change { c with streams := if quicGt value (k.get c.streams.peerParam) then _ else _ } = _
      rw [if_pos hgt]
    · refine .inl ?_
      change { c with streams := if quicGt value (k.get c.streams.peerParam) then _ else _ } = _
      rw [if_neg hgt]

/-- A greater value is stored. -/
theorem streamParamUpdate_of_gt {k : LimitKind} {value : ℕ}
    (hframe : frameNumbers 1 frame = some [value])
    (hgt : quicGt value (k.get c.streams.peerParam)) :
    (FrameState.quicFrameStreamParamUpdate k.get k.set ⟨frame, c, false, false⟩).1 = .ok () ∧
      (FrameState.quicFrameStreamParamUpdate k.get k.set ⟨frame, c, false, false⟩).2.conn =
        { c with streams.peerParam := k.set value c.streams.peerParam } := by
  obtain ⟨pkt, hread, -⟩ := frameNumbers_cons hframe
  rw [FrameState.quicFrameStreamParamUpdate, FrameState.readVar,
    Prog.bind_of_ok (Prog.zoom_of_ok hread)]
  refine ⟨rfl, ?_⟩
  change { c with streams := if quicGt value (k.get c.streams.peerParam) then _ else _ } = _
  rw [if_pos hgt]

end Runs

namespace Endpoint

variable {mem : ℕ → Bool} {s t : Endpoint} {frame : RPacket}

/-- The state behind a frame that moves a limit of the connection. -/
theorem step_limit {k : LimitKind} (h : step mem s (.frame k.frameType frame) = some t) :
    t = s ∨ ∃ value, frameNumbers 1 frame = some [value] ∧
      quicGt value (k.get s.streams.peerParam) ∧
      t = s.setStreams { s.streams with peerParam := k.set value s.streams.peerParam } := by
  have hparser : FrameState.frameParser mem k.frameType =
      some (FrameState.quicFrameStreamParamUpdate k.get k.set) := by
    cases k <;> rfl
  have ht := recvFrame_of_handler hparser h
  rcases streamParamUpdate_run k s.conn frame with hrun | ⟨value, hframe, hgt, hrun⟩
  · left
    rw [ht, hrun]
  · right
    refine ⟨value, hframe, hgt, ?_⟩
    rw [ht, hrun]
    rfl

/-- A frame that raises a limit is accepted. -/
theorem step_limit_of_gt {k : LimitKind} {value : ℕ} (hframe : frameNumbers 1 frame = some [value])
    (hgt : quicGt value (k.get s.streams.peerParam)) :
    step mem s (.frame k.frameType frame) =
      some (s.setStreams { s.streams with peerParam := k.set value s.streams.peerParam }) := by
  have hparser : FrameState.frameParser mem k.frameType =
      some (FrameState.quicFrameStreamParamUpdate k.get k.set) := by
    cases k <;> rfl
  obtain ⟨hok, hconn⟩ := streamParamUpdate_of_gt (c := s.conn) hframe hgt
  have hstep := recvFrame_of_ok hparser hok
  rwa [hconn] at hstep

/-- A MAX_STREAM_DATA frame for a stream that takes it is accepted. -/
theorem step_maxStreamData_of_takes {id value : ℕ}
    (hframe : frameNumbers 2 frame = some [id, value]) (htakes : TakesCredit s.conn id) :
    ∃ t, step mem s (.frame 0x11 frame) = some t ∧
      t.streams = (s.streams.opened id).updateSi id (raiseMaxStreamData value) := by
  rcases maxStreamData_run s.conn frame with ⟨i, v, hframe', -, hok, hrun⟩ | ⟨-, hnot, -⟩
  · rw [hframe] at hframe'
    cases hframe'
    refine ⟨_, recvFrame_of_ok (show FrameState.frameParser mem 0x11 = some _ from rfl) hok, ?_⟩
    change (FrameState.quicFrameMaxStreamDataParser
      ⟨frame, s.conn, false, false⟩).2.conn.streams = _
    rw [hrun]
    rfl
  · exact absurd htakes (hnot id value hframe)

/-- The streams behind a MAX_STREAM_DATA frame. -/
theorem step_maxStreamData (h : step mem s (.frame 0x11 frame) = some t) :
    (∃ id value, frameNumbers 2 frame = some [id, value] ∧ TakesCredit s.conn id ∧
      t.streams = (s.streams.opened id).updateSi id (raiseMaxStreamData value)) ∨
    ((∀ id value, frameNumbers 2 frame = some [id, value] → ¬ TakesCredit s.conn id) ∧
      (t.streams = s.streams ∨ ∃ id, t.streams = s.streams.opened id)) := by
  have ht := recvFrame_of_handler (show FrameState.frameParser mem 0x11 = some _ from rfl) h
  rcases maxStreamData_run s.conn frame with ⟨id, value, hframe, htakes, -, hrun⟩ |
    ⟨-, hnot, hrun | ⟨id, hrun⟩⟩
  · refine .inl ⟨id, value, hframe, htakes, ?_⟩
    rw [ht, hrun]
    rfl
  · refine .inr ⟨hnot, .inl ?_⟩
    rw [ht, hrun]
  · refine .inr ⟨hnot, .inr ⟨id, ?_⟩⟩
    rw [ht, hrun]
    rfl

end Endpoint

end Tbquic
