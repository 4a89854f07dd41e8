import Tbquic.Lib.Simulation
import Tbquic.Tls.Tables

/-!
# The position of the messages

`TlsHandshakeStatem` does not use the offset of the buffer and the bytes that it has read. So it
does the same with messages at the start of a call and with messages that follow others.
-/

namespace Tbquic

variable {τ : Type}

/-- More bytes were read by earlier calls. -/
def TlsConn.shift (count : ℕ) (c : TlsConn τ) : TlsConn τ :=
  { c with buffer.offset := c.buffer.offset + count }

/-- More bytes were read before. -/
def TlsInput.shift (before : List UInt8) (i : TlsInput) : TlsInput :=
  { i with past := before ++ i.past }

/-- The same step with more bytes read by earlier calls and in the call. -/
def TlsStep.shift (count : ℕ) (before : List UInt8) (s : TlsStep τ) : TlsStep τ :=
  { s with conn := s.conn.shift count, input := s.input.shift before }

section Image

variable {m : TlsMethod τ} {count : ℕ} {before : List UInt8}

/-- Bytes are read alike. -/
theorem TlsInput.image_get (len : ℕ) :
    Prog.Image (TlsInput.shift before) (TlsInput.get len) (TlsInput.get len) := by
  intro i
  have hremaining : (i.shift before).remaining = i.remaining := rfl
  have hrest : (i.shift before).rest = i.rest := rfl
  unfold TlsInput.get
  rw [hremaining, hrest]
  split
  · rfl
  split
  · rfl
  · simp only [TlsInput.forward, TlsInput.shift, List.append_assoc]

/-- Bytes are skipped alike. -/
theorem TlsInput.image_pull (len : ℕ) :
    Prog.Image (TlsInput.shift before) (TlsInput.pull len) (TlsInput.pull len) := by
  intro i
  have hremaining : (i.shift before).remaining = i.remaining := rfl
  unfold TlsInput.pull
  rw [hremaining]
  split
  · rfl
  · simp only [TlsInput.forward, TlsInput.shift, List.append_assoc]

/-- A message is read alike. -/
theorem TlsInput.image_message :
    Prog.Image (TlsInput.shift before) TlsInput.message TlsInput.message := by
  apply (TlsInput.image_get 3).bind
  intro len
  apply (TlsInput.image_get _).bind
  intro _
  exact Prog.image_pure _

/-- A message is dropped alike. -/
theorem tlsHandshakeDrop_image (retrans : Bool) :
    Prog.Image (TlsInput.shift before) (tlsHandshakeDrop retrans) (tlsHandshakeDrop retrans) := by
  unfold tlsHandshakeDrop
  split
  · apply (TlsInput.image_get 3).bind
    intro len
    apply (TlsInput.image_pull _).bind
    intro _
    exact Prog.image_pure _
  · exact Prog.image_fail _

/-- The next state does not depend on the offset. -/
theorem TlsConn.flowFinish_shift (prevState nextState : TlsState) (c : TlsConn τ) :
    (c.shift count).flowFinish prevState nextState =
      (c.flowFinish prevState nextState).shift count := by
  have hstate : (c.shift count).handshakeState = c.handshakeState := rfl
  unfold TlsConn.flowFinish
  rw [hstate]
  split <;> rfl

/-- Routines behind the state machine do not see the offset. -/
theorem TlsConn.image_onHost {α : Type} (p : Prog Fail τ α) :
    Prog.Image (TlsConn.shift count) (TlsConn.onHost p) (TlsConn.onHost p) :=
  Prog.image_zoom (fun _ => rfl) fun _ _ => rfl

/-- The search for the state of a message does not see the offset. -/
theorem tlsHandshakeMatch_image (type : ℕ) :
    Prog.Image (TlsConn.shift count) (tlsHandshakeMatch m.proc type)
      (tlsHandshakeMatch m.proc type) := by
  apply Prog.Image.get_bind
  intro c
  apply (Prog.image_ofExcept _).bind
  intro found
  apply Prog.Image.bind (Prog.image_modify (fun _ => by rfl))
  intro _
  exact Prog.image_pure _

/-- The handlers do not see the offset. -/
theorem tlsHandshakeProc_image (type : ℕ) (q : TlsState) (bytes : List UInt8) :
    Prog.Image (TlsConn.shift count) (tlsHandshakeProc m type q bytes)
      (tlsHandshakeProc m type q bytes) := by
  apply (TlsConn.image_onHost _).bind
  intro _
  apply (TlsConn.image_onHost _).bind
  intro _
  cases (m.proc q).flow with
  | reading handler =>
    apply Prog.Image.get_bind
    intro c
    apply Prog.Image.bind (Prog.image_modify (fun _ => by rfl))
    intro _
    apply Prog.Image.bind
    · exact Prog.image_zoom (fun _ => rfl) fun _ _ => rfl
    · intro _
      exact Prog.image_modify (TlsConn.flowFinish_shift _ _)
  | nothing | writing | finished => exact Prog.image_fail _

/-- The routines of a step that work on the connection. -/
theorem TlsStep.image_onConn {α : Type} {p : Prog Fail (TlsConn τ) α}
    (hp : Prog.Image (TlsConn.shift count) p p) :
    Prog.Image (TlsStep.shift count before) (TlsStep.onConn p) (TlsStep.onConn p) :=
  hp.zoom (fun _ => rfl) fun _ _ => rfl

/-- The routines of a step that work on the messages. -/
theorem TlsStep.image_onInput {α : Type} {p : Prog Fail TlsInput α}
    (hp : Prog.Image (TlsInput.shift before) p p) :
    Prog.Image (TlsStep.shift (τ := τ) count before) (TlsStep.onInput p) (TlsStep.onInput p) :=
  hp.zoom (fun _ => rfl) fun _ _ => rfl

/-- The routines of a step that work on the writer. -/
theorem TlsStep.image_onPkt {α : Type} (p : Prog Fail WPacket α) :
    Prog.Image (TlsStep.shift (τ := τ) count before) (TlsStep.onPkt p) (TlsStep.onPkt p) :=
  Prog.image_zoom (fun _ => rfl) fun _ _ => rfl

/-- A message for the state is read alike. -/
theorem tlsHandshakeMsg_image (start : TlsInput) (type : ℕ) (q : TlsState) :
    Prog.Image (TlsStep.shift count before) (tlsHandshakeMsg m start type q)
      (tlsHandshakeMsg m (start.shift before) type q) := by
  apply (TlsStep.image_onInput TlsInput.image_message).attempt.bind
  intro r
  cases r with
  | error e =>
    cases e with
    | ret =>
      apply Prog.Image.bind (Prog.image_modify (fun _ => by rfl))
      intro _
      exact Prog.image_pure _
    | assert | ub | fuel => exact Prog.image_fail _
  | ok len =>
    apply (TlsStep.image_onConn (tlsHandshakeProc_image _ _ _)).bind
    intro _
    exact Prog.image_pure _

/-- The messages of the peer are read alike. -/
theorem tlsHandshakeRead_image :
    Prog.Image (TlsStep.shift count before) (tlsHandshakeRead m) (tlsHandshakeRead m) := by
  apply Prog.Image.get_bind
  intro s
  apply (TlsStep.image_onInput (TlsInput.image_get 1)).attempt.bind
  intro r
  cases r with
  | error e =>
    cases e with
    | ret => exact Prog.image_pure _
    | assert | ub | fuel => exact Prog.image_fail _
  | ok type =>
    apply (TlsStep.image_onConn (tlsHandshakeMatch_image _)).bind
    intro found
    dsimp only
    split
    · exact tlsHandshakeMsg_image _ _ _
    · exact TlsStep.image_onInput (tlsHandshakeDrop_image _)

/-- A message is written alike. -/
theorem tlsHandshakeWrite_image (p : TlsProcess τ) (handler : Prog Fail (TlsWrite τ) Unit) :
    Prog.Image (TlsStep.shift count before) (tlsHandshakeWrite m p handler)
      (tlsHandshakeWrite m p handler) := by
  apply Prog.Image.get_bind
  intro s
  apply (TlsStep.image_onPkt _).bind
  intro _
  apply (TlsStep.image_onPkt _).bind
  intro _
  apply Prog.Image.bind
  · exact Prog.image_zoom (fun _ => rfl) fun _ _ => rfl
  intro _
  apply (TlsStep.image_onPkt _).bind
  intro _
  apply Prog.Image.get_bind
  intro t
  apply (Prog.image_ensure _ _).bind
  intro _
  apply (TlsStep.image_onConn (TlsConn.image_onHost _)).bind
  intro _
  exact TlsStep.image_onConn (Prog.image_modify (TlsConn.flowFinish_shift _ _))

/-- What happens in a state is the same. -/
theorem tlsHandshakeFlow_image (p : TlsProcess τ) :
    Prog.Image (TlsStep.shift count before) (tlsHandshakeFlow m p) (tlsHandshakeFlow m p) := by
  unfold tlsHandshakeFlow
  cases p.flow with
  | nothing =>
    apply Prog.Image.bind (TlsStep.image_onConn (Prog.image_modify fun _ => by rfl))
    intro _
    exact Prog.image_pure _
  | reading handler =>
    apply Prog.Image.get_bind
    intro s
    have hremaining : (s.shift count before).input.remaining = s.input.remaining := rfl
    rw [hremaining]
    split
    · exact Prog.image_pure _
    · exact tlsHandshakeRead_image
  | writing handler ret =>
    apply (tlsHandshakeWrite_image _ _).bind
    intro _
    exact Prog.image_pure _
  | finished => exact Prog.image_pure _

/-- A round does the same. -/
theorem tlsHandshakeRound_image :
    Prog.Image (TlsStep.shift count before) (tlsHandshakeRound m) (tlsHandshakeRound m) := by
  apply Prog.Image.get_bind
  intro s
  apply Prog.Image.bind (Prog.image_modify fun _ => by rfl)
  intro _
  apply (tlsHandshakeFlow_image _).bind
  intro ret
  split
  · exact Prog.image_pure _
  · apply (TlsStep.image_onConn (TlsConn.image_onHost _)).bind
    intro _
    exact Prog.image_pure _

/-- The loop does the same. -/
theorem tlsHandshakeStatem_image (fuel : ℕ) :
    Prog.Image (TlsStep.shift count before) (tlsHandshakeStatem m fuel)
      (tlsHandshakeStatem m fuel) := by
  induction fuel with
  | zero => exact Prog.image_fail _
  | succ fuel ih =>
    apply tlsHandshakeRound_image.bind
    intro o
    cases o with
    | none => exact ih
    | some ret => exact Prog.image_pure _

/-- The loop has the same outcome. -/
theorem TlsStep.Ends.shift {s : TlsStep τ} {r : Except Fail QuicFlowReturn × TlsStep τ}
    (h : s.Ends m r) (count : ℕ) (before : List UInt8) :
    (s.shift count before).Ends m (r.1, r.2.shift count before) := by
  obtain ⟨hr, fuel, hrun⟩ := h
  refine ⟨hr, fuel, ?_⟩
  rw [tlsHandshakeStatem_image fuel s, hrun]

/-- The outcome of the loop comes from that with nothing read before. -/
theorem TlsStep.Ends.of_shift {s : TlsStep τ} {r : Except Fail QuicFlowReturn × TlsStep τ}
    (h : (s.shift count before).Ends m r) :
    ∃ t, s.Ends m (r.1, t) ∧ r.2 = t.shift count before := by
  obtain ⟨hr, fuel, hrun⟩ := h
  rw [tlsHandshakeStatem_image fuel s] at hrun
  subst hrun
  exact ⟨(tlsHandshakeStatem m fuel s).2, ⟨hr, fuel, rfl⟩, rfl⟩

end Image

section Finish

variable {m : TlsMethod τ} {s t : TlsStep τ} {c c' : TlsConn τ} {r : QuicFlowReturn}

/-- Replace the messages to read. -/
def TlsStep.setInput (i : TlsInput) (s : TlsStep τ) : TlsStep τ := { s with input := i }

/-- The bytes written are sent whatever is left to read. -/
theorem tlsHandshakeSend_image (i : TlsInput) :
    Prog.Image (TlsStep.setInput i) (tlsHandshakeSend m) (tlsHandshakeSend m) := by
  apply Prog.Image.get_bind
  intro s
  apply Prog.Image.bind (Prog.image_modify fun _ => by rfl)
  intro _
  have hpkt : (s.setInput i).pkt = s.pkt := rfl
  have htype : (s.setInput i).pktType = s.pktType := rfl
  rw [hpkt, htype]
  split
  · exact Prog.image_zoom (fun _ => rfl) fun _ _ => rfl
  · exact Prog.image_pure _

/-- The handshake ends whatever is left to read. -/
theorem tlsHandshakeDone_image (i : TlsInput) :
    Prog.Image (TlsStep.setInput i) (tlsHandshakeDone m) (tlsHandshakeDone m) := by
  apply Prog.Image.get_bind
  intro s
  have hconn : (s.setInput i).conn = s.conn := rfl
  have htype : (s.setInput i).pktType = s.pktType := rfl
  rw [hconn, htype]
  split
  · apply Prog.Image.bind
    · exact Prog.image_zoom (fun _ => rfl) fun _ _ => rfl
    intro _
    exact Prog.image_zoom (fun _ => rfl) fun _ _ => rfl
  · exact Prog.image_pure _

/-- The read position after a call is the same for messages read by earlier calls and in the
call. -/
theorem tlsHandshakeOffset_shift {ret : Except Fail QuicFlowReturn} {before : List UInt8} {a : Unit}
    (h : tlsHandshakeOffset ret (s.shift 0 before) = (.ok a, t)) :
    tlsHandshakeOffset ret (s.shift before.length []) =
      (.ok a, t.setInput (s.shift before.length []).input) := by
  have hremaining (count : ℕ) (bytes : List UInt8) :
      (s.shift count bytes).input.remaining = s.input.remaining := rfl
  have hbuffer : (s.shift before.length []).conn.buffer.addOffset s.input.past.length =
      (s.shift 0 before).conn.buffer.addOffset (before ++ s.input.past).length := by
    simp only [QuicBuffer.addOffset, QuicBuffer.length, TlsStep.shift, TlsConn.shift,
      List.length_append, Nat.add_zero, Nat.add_assoc]
  rw [tlsHandshakeOffset, Prog.get_bind, hremaining] at h ⊢
  by_cases hcond : (ret = .ok .wantRead ∨ ret = .ok .next) ∧ s.input.remaining ≠ 0
  · rw [if_pos hcond] at h ⊢
    have hpast : (s.shift before.length []).input.past.length = s.input.past.length := rfl
    have hpast' : (s.shift 0 before).input.past.length = (before ++ s.input.past).length := rfl
    rw [hpast, hbuffer]
    rw [hpast'] at h
    cases hadd : (s.shift 0 before).conn.buffer.addOffset (before ++ s.input.past).length with
    | none =>
      rw [hadd, Prog.ofOption_none, Prog.fail_bind] at h
      cases h
    | some buffer =>
      rw [hadd, Prog.ofOption_some, Prog.pure_bind] at h
      rw [Prog.ofOption_some, Prog.pure_bind]
      cases h
      rfl
  · rw [if_neg hcond] at h ⊢
    cases h
    rfl

/-- The end of a call is the same for messages read by earlier calls and in the call. -/
theorem tlsHandshakeFinish_shift {ret : Except Fail QuicFlowReturn} {before : List UInt8}
    (h : tlsHandshakeFinish m ret (s.shift 0 before) = (.ok r, t)) :
    ∃ i, tlsHandshakeFinish m ret (s.shift before.length []) = (.ok r, t.setInput i) := by
  rw [tlsHandshakeFinish, Prog.get_bind, Prog.modify_bind] at h ⊢
  obtain ⟨_, t₁, hoffset, h⟩ := Prog.bind_eq_ok.mp h
  have hwrite (count : ℕ) (bytes : List UInt8) :
      TlsStep.setBuffer ((s.shift count bytes).conn.buffer.writeHead (s.shift count bytes).pkt.buf)
        (s.shift count bytes) =
      (TlsStep.setBuffer (s.conn.buffer.writeHead s.pkt.buf) s).shift count bytes := rfl
  rw [hwrite] at hoffset ⊢
  have hoffset' := tlsHandshakeOffset_shift hoffset
  rw [Prog.bind_of_ok hoffset']
  generalize (TlsStep.shift before.length []
    (TlsStep.setBuffer (s.conn.buffer.writeHead s.pkt.buf) s)).input = i
  have himage : Prog.Image (TlsStep.setInput i)
      (tlsHandshakeSend m >>= fun _ => tlsHandshakeDone m >>= fun _ => Prog.ofExcept ret)
      (tlsHandshakeSend m >>= fun _ => tlsHandshakeDone m >>= fun _ => Prog.ofExcept ret) := by
    apply (tlsHandshakeSend_image i).bind
    intro _
    apply (tlsHandshakeDone_image i).bind
    intro _
    exact Prog.image_ofExcept _
  refine ⟨i, ?_⟩
  rw [himage t₁, h]

/-- A call that ends well had a loop that ended well. -/
theorem tlsHandshakeFinish_eq_ok {ret : Except Fail QuicFlowReturn}
    (h : tlsHandshakeFinish m ret s = (.ok r, t)) : ret = .ok r := by
  rw [tlsHandshakeFinish, Prog.get_bind, Prog.modify_bind] at h
  obtain ⟨_, _, _, h⟩ := Prog.bind_eq_ok.mp h
  obtain ⟨_, _, _, h⟩ := Prog.bind_eq_ok.mp h
  obtain ⟨_, _, _, h⟩ := Prog.bind_eq_ok.mp h
  cases ret with
  | error e => cases h
  | ok ret =>
    cases h
    rfl

/-- A call succeeds with the outcome of the loop. -/
theorem tlsHandshake_iff
    (hassert : quicGe (((c.buffer.dataLen : ℤ) - c.buffer.offset) % 2 ^ 64) 0) :
    (∃ fuel, tlsHandshake m fuel c = (.ok r, c')) ↔
      ∃ s t, c.start.Ends m (.ok r, s) ∧ tlsHandshakeFinish m (.ok r) s = (.ok r, t) ∧
        c' = t.conn := by
  constructor
  · rintro ⟨fuel, hrun⟩
    rw [tlsHandshake, Prog.get_bind, Prog.ensure_of_pos hassert, Prog.pure_bind,
      Prog.zoom_apply, tlsHandshakeBody, Prog.attempt_bind] at hrun
    rcases hstatem : tlsHandshakeStatem m fuel c.start with ⟨ret, s⟩
    rw [hstatem] at hrun
    cases ret with
    | error e =>
      cases e with
      | ret =>
        dsimp only at hrun
        rcases hfinish : tlsHandshakeFinish m (.error .ret) s with ⟨o, t⟩
        rw [hfinish] at hrun
        cases hrun
        exact nomatch tlsHandshakeFinish_eq_ok hfinish
      | assert | ub | fuel => cases hrun
    | ok ret =>
      dsimp only at hrun
      rcases hfinish : tlsHandshakeFinish m (.ok ret) s with ⟨o, t⟩
      rw [hfinish] at hrun
      cases hrun
      cases tlsHandshakeFinish_eq_ok hfinish
      exact ⟨s, t, ⟨nofun, fuel, hstatem⟩, hfinish, rfl⟩
  · rintro ⟨s, t, ⟨_, fuel, hstatem⟩, hfinish, rfl⟩
    refine ⟨fuel, ?_⟩
    rw [tlsHandshake, Prog.get_bind, Prog.ensure_of_pos hassert, Prog.pure_bind,
      Prog.zoom_apply, tlsHandshakeBody, Prog.attempt_bind, hstatem]
    dsimp only
    rw [hfinish]

/-- Nothing was written and the connection reads on. -/
def TlsStep.Waits (m : TlsMethod τ) (s : TlsStep τ) : Prop :=
  s.pkt.buf = [] ∧ (m.proc s.conn.handshakeState).isReading = true

/-- The end of a call without anything to send. -/
theorem tlsHandshakeFinish_of_waits (hm : m.Regular) {buffer : QuicBuffer} (hs : s.Waits m)
    (hoffset : tlsHandshakeOffset (.ok r) s = (.ok (), s.setBuffer buffer)) :
    tlsHandshakeFinish m (.ok r) s = (.ok r, s.setBuffer { buffer with dataLen := 0 }) := by
  obtain ⟨hpkt, hreading⟩ := hs
  have hwrite : TlsStep.setBuffer (s.conn.buffer.writeHead s.pkt.buf) s = s := by
    rw [hpkt]
    rfl
  have hstate : s.conn.handshakeState ≠ .swHandshakeDone := by
    intro h
    rw [h, hm.done.1] at hreading
    cases hreading
  have hwritten : s.pkt.written = 0 := by rw [WPacket.written, hpkt]; rfl
  have hsend : tlsHandshakeSend m (s.setBuffer buffer) =
      (.ok (), s.setBuffer { buffer with dataLen := 0 }) := by
    rw [tlsHandshakeSend, Prog.get_bind, Prog.modify_bind, if_neg]
    · rw [TlsStep.setBuffer, TlsStep.setBuffer, QuicBuffer.setDataLength, hwritten]
      rfl
    · exact not_not.mpr hwritten
  rw [tlsHandshakeFinish, Prog.get_bind, Prog.modify_bind, hwrite, Prog.bind_of_ok hoffset,
    Prog.bind_of_ok hsend, tlsHandshakeDone]
  rw [Prog.bind_apply, Prog.get_bind, if_neg (by exact hstate)]
  rfl

/-- A call that waits for the rest of a message moves the read position. -/
theorem tlsHandshakeFinish_wait (hm : m.Regular) (hs : s.Waits m) (hne : s.input.remaining ≠ 0)
    (hlen : s.conn.buffer.offset + s.input.past.length ≤ s.conn.buffer.length)
    (hlimit : s.conn.buffer.length ≤ bufMemLimit) :
    tlsHandshakeFinish m (.ok .wantRead) s = (.ok .wantRead, s.setBuffer
      { s.conn.buffer with
        offset := s.conn.buffer.offset + s.input.past.length
        dataLen := 0 }) := by
  unfold bufMemLimit at hlimit
  have hadd : s.conn.buffer.addOffset s.input.past.length =
      some { s.conn.buffer with offset := s.conn.buffer.offset + s.input.past.length } := by
    rw [QuicBuffer.addOffset, if_neg]
    rw [quicLt_iff] <;> omega
  have hoffset : tlsHandshakeOffset (.ok .wantRead) s = (.ok (), s.setBuffer
      { s.conn.buffer with offset := s.conn.buffer.offset + s.input.past.length }) := by
    rw [tlsHandshakeOffset, Prog.get_bind, if_pos ⟨.inl rfl, hne⟩, hadd, Prog.ofOption_some,
      Prog.pure_bind]
    rfl
  exact tlsHandshakeFinish_of_waits hm hs hoffset

/-- A call that read everything or dropped a message starts over. -/
theorem tlsHandshakeFinish_reset (hm : m.Regular) (hs : s.Waits m)
    (hreset : r = .drop ∨ s.input.remaining = 0) :
    tlsHandshakeFinish m (.ok r) s =
      (.ok r, s.setBuffer { s.conn.buffer with offset := 0, dataLen := 0 }) := by
  have hoffset : tlsHandshakeOffset (.ok r) s =
      (.ok (), s.setBuffer s.conn.buffer.resetOffset) := by
    rw [tlsHandshakeOffset, Prog.get_bind, if_neg]
    · rfl
    · rintro ⟨hret, hne⟩
      rcases hreset with rfl | hzero
      · rcases hret with h | h <;> cases h
      · exact hne hzero
  exact tlsHandshakeFinish_of_waits hm hs hoffset

end Finish

end Tbquic
