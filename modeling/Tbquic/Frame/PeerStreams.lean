import Tbquic.Frame.StreamStates

/-!
# Streams of the peer

Finding a stream of the peer opens it. The source keeps one mark for the streams of all types, so
the streams of other types between the mark and the stream are opened with it.
-/

namespace Tbquic

/-- A stream is accepted when it is found. -/
theorem quicStreamGetInstance_ok_iff {q : QuicStreams} {id : ℕ} :
    (quicStreamGetInstance id q).1 = .ok id ↔ q.Found id := by
  by_cases hfound : q.Found id
  · rw [quicStreamGetInstance_of_found hfound]
    exact iff_of_true rfl hfound
  · rw [quicStreamGetInstance_of_not_found hfound]
    exact iff_of_false (fun h => (by cases h)) hfound

namespace Endpoint

variable {mem : ℕ → Bool} {s t : Endpoint} {e : StreamEvent} {es : List StreamEvent} {id i : ℕ}

/-- The streams of a type that this endpoint allows the peer. -/
def advertised (s : Endpoint) (id : ℕ) : ℕ :=
  s.streams.transParam.maxStreams (unidirectional id)

/-- A stream of the peer is found exactly within the limit, and then it and the lower ones of its
type are open and the others as before. -/
structure FindsRight (s : Endpoint) (id : ℕ) : Prop where
  /-- It is found within the limit of its type. -/
  accepts : (quicStreamGetInstance id s.streams).1 = .ok id ↔ id / 4 < s.advertised id
  /-- It and the lower streams of its type are open. -/
  opens (h : (quicStreamGetInstance id s.streams).1 = .ok id) (i : ℕ) (htype : i % 4 = id % 4)
    (hle : i ≤ id) : ((quicStreamGetInstance id s.streams).2.si i).recvState ≠ .start
  /-- The others are as before. -/
  keeps (h : (quicStreamGetInstance id s.streams).1 = .ok id) (i : ℕ)
    (hother : i % 4 = id % 4 → id < i) : (quicStreamGetInstance id s.streams).2.si i = s.si i

/-- The table ends where the limit does, stream 0 is open if it is of the same type, and no stream
of another type waits between the mark and the stream. -/
def MarkFits (s : Endpoint) (id : ℕ) : Prop :=
  (id < s.streams.conf.maxIdValue ↔ id / 4 < s.advertised id) ∧
  (id < s.streams.conf.maxIdValue → (id % 4 = 0 → (s.si 0).recvState ≠ .start) ∧
    ∀ i, s.streams.conf.maxIdOpened < i → i < id → i % 4 ≠ id % 4 → (s.si i).recvState ≠ .start)

/-- The table is there, and the streams up to the mark are open. -/
structure Marked (s : Endpoint) : Prop where
  /-- The table is there. -/
  inited : s.streams.conf.inited = true
  /-- The streams up to the mark are open. -/
  opened (id : ℕ) : 0 < id → id ≤ s.streams.conf.maxIdOpened → (s.si id).recvState ≠ .start

/-- Every event opens the streams that the mark passes. -/
theorem Marked.step (hs : s.Marked) (h : step mem s e = some t) : t.Marked := by
  have hwritten := step_written h
  refine ⟨hwritten.keeps.inited.trans hs.inited, fun id hpos hle => ?_⟩
  by_cases hmark : id ≤ s.streams.conf.maxIdOpened
  · exact hwritten.opens.recv id (hs.opened id hpos hmark)
  · exact hwritten.opens.passed id (not_le.mp hmark) hle

/-- No stream is marked when the parameters were exchanged. -/
theorem Created.marked (hs : s.Created) : s.Marked := by
  obtain ⟨own, peer, hstreams, -⟩ := hs
  rw [createdStreams_eq] at hstreams
  refine ⟨?_, fun id hpos hle => ?_⟩
  · rw [hstreams]
  · rw [hstreams] at hle
    exact absurd hle (not_le.mpr hpos)

/-- A stream of the peer is found within the table. -/
theorem found_iff (hs : s.Marked) (hpeer : quicStreamPeerOpened id s.streams.server = true) :
    s.streams.Found id ↔ id < s.streams.conf.maxIdValue := by
  rw [QuicStreams.Found, QuicStreams.idCheck, QuicStreams.idCheckPeer]
  simp [hs.inited, hpeer]

/-- A stream of the peer is accepted within the table. -/
theorem getInstance_ok_iff (hs : s.Marked)
    (hpeer : quicStreamPeerOpened id s.streams.server = true) :
    (quicStreamGetInstance id s.streams).1 = .ok id ↔ id < s.streams.conf.maxIdValue :=
  quicStreamGetInstance_ok_iff.trans (found_iff hs hpeer)

/-- Opening an open part changes nothing. -/
theorem recvOpen_eq {si : QuicStreamInstance} :
    quicStreamInstanceRecvOpen si = si ↔ si.recvState ≠ .start := by
  unfold quicStreamInstanceRecvOpen
  split
  · rename_i hstart
    refine iff_of_false (fun h => ?_) (not_not.mpr hstart)
    have hrecv := congrArg QuicStreamInstance.recvState h
    rw [hstart] at hrecv
    cases hrecv
  · exact iff_of_true rfl ‹_›

/-- What is found opens the right streams exactly when the mark fits. -/
theorem findsRight_iff_markFits (hs : s.Marked)
    (hpeer : quicStreamPeerOpened id s.streams.server = true) :
    FindsRight s id ↔ MarkFits s id := by
  have haccepts := getInstance_ok_iff hs hpeer
  have hstreams (hlt : id < s.streams.conf.maxIdValue) :
      (quicStreamGetInstance id s.streams).2 = s.streams.opened id := by
    rw [quicStreamGetInstance_of_found ((found_iff hs hpeer).mpr hlt)]
  constructor
  · intro h
    refine ⟨haccepts.symm.trans h.accepts, fun hlt => ⟨fun htype => ?_, fun i hmark hi htype => ?_⟩⟩
    · have hopen := h.opens (haccepts.mpr hlt) 0 htype.symm (Nat.zero_le id)
      rwa [hstreams hlt, opened_si_eq, if_neg fun h => absurd h.1 (Nat.not_lt_zero _)] at hopen
    · have hkeeps := h.keeps (haccepts.mpr hlt) i fun heq => absurd heq htype
      rw [hstreams hlt, opened_si_eq, if_pos ⟨hmark, hi.le⟩] at hkeeps
      exact recvOpen_eq.mp hkeeps
  · rintro ⟨hlimit, hmark⟩
    refine ⟨haccepts.trans hlimit, fun hok i htype hle => ?_, fun hok i hother => ?_⟩
    · have hlt := haccepts.mp hok
      rw [hstreams hlt, opened_si_eq]
      split
      · exact QuicStreams.Opens.recvOpen_ne_start _
      · rename_i hbelow
        rcases Nat.eq_zero_or_pos i with rfl | hpos
        · exact (hmark hlt).1 htype.symm
        · exact hs.opened i hpos (not_lt.mp fun h => hbelow ⟨h, hle⟩)
    · have hlt := haccepts.mp hok
      rw [hstreams hlt, opened_si_eq]
      split
      · rename_i hbetween
        have htype : i % 4 ≠ id % 4 := fun heq => absurd hbetween.2 (not_le.mpr (hother heq))
        have hi : i < id := lt_of_le_of_ne hbetween.2 fun heq => htype (by rw [heq])
        exact recvOpen_eq.mpr ((hmark hlt).2 i hbetween.1 hi htype)
      · rfl

/-- In every state of a run, a stream of the peer is found and opened as it should exactly when the
table ends with the limit and the mark fits. -/
theorem findsRight_iff (mem : ℕ → Bool) (s t : Endpoint) (es : List StreamEvent) (hs : s.Created)
    (hrun : Trace.run (step mem) s es = some t) (id : ℕ)
    (hpeer : quicStreamPeerOpened id t.streams.server = true) :
    FindsRight t id ↔ MarkFits t id :=
  findsRight_iff_markFits
    (Trace.run_invariant Marked (fun _ _ _ hs h => hs.step h) hs.marked hrun) hpeer

/-- Stream 4 of a client is found as it should be once streams 0 and 4 have received a byte. -/
theorem findsRight_received : ∃ t, Trace.run (step fun _ => true)
    (created true ordinaryParams ordinaryParams)
    [.frame 0x08 (rPacketBufInit [0x00, 0x61]), .frame 0x08 (rPacketBufInit [0x04, 0x61])] =
      some t ∧ FindsRight t 4 := by
  have hfacts : (Trace.run (step fun _ => true) (created true ordinaryParams ordinaryParams)
      [.frame 0x08 (rPacketBufInit [0x00, 0x61]),
        .frame 0x08 (rPacketBufInit [0x04, 0x61])]).any (fun t =>
        decide (quicStreamPeerOpened 4 t.streams.server = true ∧
          (4 < t.streams.conf.maxIdValue ↔ 4 / 4 < t.advertised 4) ∧
          (t.si 0).recvState ≠ .start ∧ t.streams.conf.maxIdOpened = 4)) = true := by
    decide +kernel
  obtain ⟨t, hrun, hend⟩ := (Option.any_eq_true _ _).mp hfacts
  obtain ⟨hpeer, hlimit, hzero, hmark⟩ := of_decide_eq_true hend
  refine ⟨t, hrun, (findsRight_iff _ _ t _ (created_created _ _ _) hrun 4 hpeer).mpr
    ⟨hlimit, fun _ => ⟨fun _ => hzero, fun i hlt hle => ?_⟩⟩⟩
  omega

/-- Finding stream 4 opens stream 2, which is of another type. -/
theorem getInstance_opens_other : ¬ FindsRight (created true ordinaryParams ordinaryParams) 4 := by
  intro h
  have hok : (quicStreamGetInstance (4 : ℕ)
      (created true ordinaryParams ordinaryParams).streams).1 = .ok 4 :=
    (getInstance_ok_iff (created_created _ _ _).marked (by decide +kernel)).mpr (by decide +kernel)
  have hkeeps := congrArg QuicStreamInstance.recvState (h.keeps hok 2 fun h => (by cases h))
  have hrun : ((quicStreamGetInstance (4 : ℕ)
      (created true ordinaryParams ordinaryParams).streams).2.si 2).recvState = .recv ∧
      ((created true ordinaryParams ordinaryParams).si 2).recvState = .start := by
    decide +kernel
  rw [hrun.1, hrun.2] at hkeeps
  cases hkeeps

end Endpoint

end Tbquic
