import Tbquic.Stream.State

/-!
# Streams that send

The sending part of a stream while its frames are built. Building a frame neither counts the
bytes as sent nor stops another stream from sending.
-/

namespace Tbquic

/-- A stream that sends its first frame. -/
def sendStarted (si : QuicStreamInstance) : QuicStreamInstance :=
  if si.sendState = .ready then { si with sendState := .send } else si

/-- A stream that sends its last frame. -/
def sendFin (fin : Bool) (si : QuicStreamInstance) : QuicStreamInstance :=
  if fin ∧ si.sendState = .send then { si with sendState := .dataSent } else si

/-- The streams that can send still can, from the same offsets. -/
structure QuicStreams.SendKeeps (q t : QuicStreams) : Prop where
  /-- The side of the connection is the same. -/
  server : t.server = q.server
  /-- The table is still allocated. -/
  inited : t.conf.inited = q.conf.inited
  /-- The size of the table is the same. -/
  maxIdValue : t.conf.maxIdValue = q.conf.maxIdValue
  /-- The own parameters are the same. -/
  transParam : t.transParam = q.transParam
  /-- A stream that can send still can. -/
  send (id : ℕ) : (q.si id).sendState = .ready ∨ (q.si id).sendState = .send →
    (t.si id).sendState = .ready ∨ (t.si id).sendState = .send
  /-- The numbers of bytes sent are the same. -/
  sent (id : ℕ) : (t.si id).statBytes.sent = (q.si id).statBytes.sent

namespace QuicStreams

variable {q t u : QuicStreams} {id : ℕ} {handle : ℤ}

/-- The number of bytes sent on a stream. -/
def sent (q : QuicStreams) (id : ℕ) : ℕ := (q.si id).statBytes.sent

/-- A stream is one of the connection and can send. -/
def Sendable (q : QuicStreams) (handle : ℤ) : Prop :=
  q.conf.inited = true ∧ q.idCheck handle = true ∧
    ((q.si handle.toNat).sendState = .ready ∨ (q.si handle.toNat).sendState = .send)

instance (q : QuicStreams) (handle : ℤ) : Decidable (q.Sendable handle) :=
  inferInstanceAs (Decidable (_ ∧ _ ∧ _))

theorem SendKeeps.refl (q : QuicStreams) : q.SendKeeps q :=
  ⟨rfl, rfl, rfl, rfl, fun _ h => h, fun _ => rfl⟩

theorem SendKeeps.trans (h : q.SendKeeps t) (h' : t.SendKeeps u) : q.SendKeeps u where
  server := h'.server.trans h.server
  inited := h'.inited.trans h.inited
  maxIdValue := h'.maxIdValue.trans h.maxIdValue
  transParam := h'.transParam.trans h.transParam
  send id hs := h'.send id (h.send id hs)
  sent id := (h'.sent id).trans (h.sent id)

/-- Opening the receiving part of a stream leaves its sending part. -/
theorem recvOpen_send (si : QuicStreamInstance) :
    (quicStreamInstanceRecvOpen si).sendState = si.sendState ∧
      (quicStreamInstanceRecvOpen si).statBytes = si.statBytes := by
  unfold quicStreamInstanceRecvOpen
  split <;> exact ⟨rfl, rfl⟩

/-- Opening streams keeps those that send. -/
theorem sendKeeps_openUpTo : q.SendKeeps (q.openUpTo id) := by
  have hsi (i : ℕ) : ((q.openUpTo id).si i).sendState = (q.si i).sendState ∧
      ((q.openUpTo id).si i).statBytes = (q.si i).statBytes := by
    simp only [openUpTo, si]
    split
    · exact recvOpen_send _
    · exact ⟨rfl, rfl⟩
  refine ⟨rfl, rfl, rfl, rfl, fun i h => ?_, fun i => ?_⟩
  · rwa [(hsi i).1]
  · rw [(hsi i).2]

/-- A stream that can send is found. -/
theorem quicStreamGetInstance_of_sendable (h : q.Sendable handle) :
    ∃ t, quicStreamGetInstance handle q = (.ok handle.toNat, t) ∧ q.SendKeeps t := by
  obtain ⟨hinited, hcheck, hstate⟩ := h
  have hopen : quicStreamPeerOpened handle.toNat q.server = true ∨
      (q.si handle.toNat).sendState ≠ .start := by
    rcases hstate with hstate | hstate <;> exact .inr (by simp [hstate])
  rw [quicStreamGetInstance, Prog.get_bind, Prog.ensure_of_pos hinited, Prog.pure_bind,
    Prog.ensure_of_pos hcheck, Prog.pure_bind, Prog.ensure_of_pos hopen, Prog.pure_bind]
  by_cases hmax : q.conf.maxIdOpened < handle.toNat
  · rw [if_pos hmax, Prog.modify_bind]
    exact ⟨_, rfl, sendKeeps_openUpTo⟩
  · rw [if_neg hmax]
    exact ⟨q, rfl, .refl q⟩

end QuicStreams

end Tbquic
