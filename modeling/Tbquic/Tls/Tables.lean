import Tbquic.Tls.Reading

/-!
# The shape of the tables

What the tables of the client and of the server have in common. Each message type is read in one
state, the states that read follow their order, and after a message was written no other one is
read in the same call.
-/

namespace Tbquic

/-- The type of the packets that carry the messages of a type. -/
def tlsMessageLevel (type : ℕ) : ℕ :=
  if type = TlsMessageType.clientHello.code ∨ type = TlsMessageType.serverHello.code then
    quicPktTypeInitial
  else if type = TlsMessageType.newSessionTicket.code then quicPktType1Rtt
  else quicPktTypeHandshake

/-- A message is written in the state, or nothing happens there any more. -/
def TlsProcess.isQuiet {τ : Type} (p : TlsProcess τ) : Bool :=
  match p.flow with
  | .writing _ _ | .finished => true
  | _ => false

/-- A state where something happens and nothing is read is quiet. -/
theorem TlsProcess.isQuiet_of_flow {τ : Type} {p : TlsProcess τ} (hflow : p.flow ≠ .nothing)
    (hreading : ¬ p.isReading = true) : p.isQuiet = true := by
  unfold TlsProcess.isReading at hreading
  unfold TlsProcess.isQuiet
  cases h : p.flow with
  | nothing => exact absurd h hflow
  | reading =>
    rw [h] at hreading
    exact absurd rfl hreading
  | writing | finished => rfl

/-- The state that reads messages of a type. -/
def tlsReader {τ : Type} (proc : TlsState → TlsProcess τ) (type : ℕ) : Option TlsState :=
  TlsState.all.find? fun i => (proc i).isReading && (proc i).msgType.code = type

/-- The shape of a table. -/
structure TlsMethod.Regular {τ : Type} (m : TlsMethod τ) : Prop where
  /-- Each message type is read in one state. -/
  reader : ∀ {q}, (m.proc q).isReading = true → tlsReader m.proc (m.proc q).msgType.code = some q
  /-- What can be skipped is followed by a later state that reads. -/
  skip : ∀ {q host}, (m.proc q).skipCheck host = true →
    (m.proc (m.proc q).nextState).isReading = true ∧ q.index < (m.proc q).nextState.index
  /-- Skipping does not change what follows a message. -/
  skip_same : ∀ {q host}, (m.proc q).skipCheck host = true →
    (m.proc (m.proc q).nextState).postWork = (m.proc q).postWork ∧
      (m.proc (m.proc q).nextState).pktType = (m.proc q).pktType
  /-- The states that read follow their order, apart from one that repeats itself. -/
  next : ∀ {q}, (m.proc q).isReading = true → (m.proc (m.proc q).nextState).isReading = true →
    q.index < (m.proc q).nextState.index ∨
      (m.proc q).nextState = q ∧ ∀ host, (m.proc q).skipCheck host = false
  /-- Something happens after a message was read. -/
  next_flow : ∀ {q}, (m.proc q).isReading = true → (m.proc (m.proc q).nextState).flow ≠ .nothing
  /-- The handlers of messages other than a ServerHello leave the buffer alone. -/
  keeps : ∀ {q handler}, (m.proc q).flow = .reading handler → (m.proc q).msgType ≠ .serverHello →
    ∀ {msg r r'}, handler msg r = (.ok (), r') → r'.reserved = r.reserved
  /-- A message of another level follows a ServerHello. -/
  hello : ∀ {q}, (m.proc q).isReading = true → (m.proc q).msgType = .serverHello →
    (∀ host, (m.proc (m.proc q).nextState).skipCheck host = false) ∧
      tlsMessageLevel (m.proc (m.proc q).nextState).msgType.code ≠ quicPktTypeInitial
  /-- Nothing is written or read in two states in succession only. -/
  nothing : ∀ {q}, (m.proc q).flow = .nothing → (m.proc q).pktType = quicPktTypeInitial ∧
    (m.proc q).postWork = pure () ∧ ((m.proc (m.proc q).nextState).flow = .nothing →
      (m.proc (m.proc (m.proc q).nextState).nextState).flow ≠ .nothing)
  /-- Nothing is read when the handshake is over. -/
  done : (m.proc .swHandshakeDone).isReading = false ∧ (m.proc .handshakeDone).isReading = false
  /-- Messages that are written in one call are followed by messages to write. -/
  quiet : ∀ {q handler ret}, (m.proc q).flow = .writing handler ret → ret ≠ .next →
    (m.proc (m.proc q).nextState).isQuiet = true ∧ (m.proc (m.proc q).jumpState).isQuiet = true

section Instances

variable {τ : Type} {m : TlsMethod τ}

/-- A handler on the connection leaves the buffer alone. -/
theorem TlsFlow.readingHost_keeps {f : TlsMessage → Prog Fail τ Unit}
    {handler : TlsMessage → Prog Fail (TlsRead τ) Unit}
    (h : TlsFlow.readingHost f = .reading handler)
    {msg : TlsMessage} {r r' : TlsRead τ} (hrun : handler msg r = (.ok (), r')) :
    r'.reserved = r.reserved := by
  cases h
  dsimp only at hrun
  rw [Prog.zoom_apply, Prod.mk.injEq] at hrun
  rw [← hrun.2]

/-- The table of the client is regular. -/
theorem clientProc_regular (h : ClientHandlers τ) (hproc : m.proc = clientProc h) : m.Regular := by
  constructor <;> rw [hproc]
  · intro q hq
    cases q <;> first | rfl | cases hq
  · intro q host hq
    cases q <;> first | exact ⟨rfl, Nat.lt_succ_self _⟩ | cases hq
  · intro q host hq
    cases q <;> first | exact ⟨rfl, rfl⟩ | cases hq
  · intro q hq hnext
    cases q <;> first
      | exact .inl (Nat.lt_succ_self _)
      | exact .inr ⟨rfl, fun _ => rfl⟩
      | (cases hq; done)
      | cases hnext
  · intro q hq
    cases q <;> first | (intro hflow; cases hflow; done) | cases hq
  · intro q handler hq htype msg r r' hrun
    cases q <;> first
      | exact TlsFlow.readingHost_keeps hq hrun
      | exact absurd rfl htype
      | cases hq
  · intro q hq htype
    cases q <;> first | exact ⟨fun _ => rfl, Nat.two_pos.ne'⟩ | (cases hq; done) | cases htype
  · intro q hq
    cases q <;> first | (cases hq; done) | exact ⟨rfl, rfl, fun _ hflow => by cases hflow⟩
  · exact ⟨rfl, rfl⟩
  · intro q handler ret hq hret
    cases q <;> cases hq <;> exact absurd rfl hret

/-- The table of the server is regular. -/
theorem serverProc_regular (h : ServerHandlers τ) (hproc : m.proc = serverProc h) : m.Regular := by
  constructor <;> rw [hproc]
  · intro q hq
    cases q <;> first | rfl | cases hq
  · intro q host hq
    cases q <;> cases hq
  · intro q host hq
    cases q <;> cases hq
  · intro q hq hnext
    cases q <;> first
      | exact .inl (Nat.lt_succ_self _)
      | (cases hq; done)
      | cases hnext
  · intro q hq
    cases q <;> first | (intro hflow; cases hflow; done) | cases hq
  · intro q handler hq htype msg r r' hrun
    cases q <;> first
      | exact TlsFlow.readingHost_keeps hq hrun
      | cases hq
  · intro q hq htype
    cases q <;> first | (cases htype; done) | cases hq
  · intro q hq
    cases q <;> first | (cases hq; done) | exact ⟨rfl, rfl, fun _ hflow => by cases hflow⟩
  · exact ⟨rfl, rfl⟩
  · intro q handler ret hq hret
    cases q <;> first | exact ⟨rfl, rfl⟩ | cases hq <;> exact absurd rfl hret

end Instances

section Skip

variable {τ : Type} {m : TlsMethod τ} {q q' : TlsState} {host : τ} {type : ℕ} {found : Bool}
  {c : TlsConn τ} {w : WPacket} {t : ℕ}

/-- Two states that read messages of one type are the same. -/
theorem TlsMethod.Regular.reads_inj (hm : m.Regular) (hq : (m.proc q).isReading = true)
    (hq' : (m.proc q').isReading = true)
    (htype : (m.proc q).msgType.code = (m.proc q').msgType.code) : q = q' := by
  have h := hm.reader hq
  rw [htype, hm.reader hq'] at h
  exact (Option.some.inj h).symm

/-- What is known of the state that is reached from a state by skipping. -/
structure Skipped (m : TlsMethod τ) (host : τ) (type : ℕ) (q q' : TlsState) (found : Bool) :
    Prop where
  /-- The state reads. -/
  reading : (m.proc q').isReading = true
  /-- The state comes later. -/
  le : q.index ≤ q'.index
  /-- The work behind the message is the same. -/
  postWork : (m.proc q').postWork = (m.proc q).postWork
  /-- The type of the packets is the same. -/
  pktType : (m.proc q').pktType = (m.proc q).pktType
  /-- The type was found in the state. -/
  found_eq : found = decide (type = (m.proc q').msgType.code)
  /-- Another state cannot be skipped. -/
  skipCheck : found = false → (m.proc q').skipCheck host = false

/-- Skipping reaches a later state. -/
theorem TlsMethod.Regular.skipped (hm : m.Regular) {fuel : ℕ} (hq : (m.proc q).isReading = true)
    (h : tlsSkip m.proc host type fuel q = .ok (q', found)) : Skipped m host type q q' found := by
  induction fuel generalizing q with
  | zero => cases h
  | succ fuel ih =>
    rw [tlsSkip] at h
    by_cases htype : type = (m.proc q).msgType.code
    · rw [if_pos htype] at h
      cases h
      exact ⟨hq, Nat.le_refl _, rfl, rfl, (decide_eq_true htype).symm, nofun⟩
    · rw [if_neg htype] at h
      by_cases hskip : (m.proc q).skipCheck host = true
      · rw [if_pos hskip] at h
        obtain ⟨hreading, hlt⟩ := hm.skip hskip
        obtain ⟨hpost, hpkt⟩ := hm.skip_same hskip
        have hnext := ih hreading h
        exact { hnext with
          le := hlt.le.trans hnext.le
          postWork := hnext.postWork.trans hpost
          pktType := hnext.pktType.trans hpkt }
      · rw [if_neg hskip] at h
        cases h
        exact ⟨hq, Nat.le_refl _, rfl, rfl, (decide_eq_false htype).symm,
          fun _ => Bool.eq_false_iff.mpr hskip⟩

/-- Nothing is skipped from the state reached. -/
theorem Skipped.tlsSkip_eq (h : Skipped m host type q q' found) (fuel : ℕ) :
    tlsSkip m.proc host type (fuel + 1) q' = .ok (q', found) := by
  rw [tlsSkip]
  have hfound := h.found_eq
  by_cases htype : type = (m.proc q').msgType.code
  · rw [if_pos htype, hfound, decide_eq_true htype]
  · rw [decide_eq_false htype] at hfound
    rw [if_neg htype, h.skipCheck hfound, if_neg Bool.false_ne_true, hfound]

/-- A round does what it does in the state that is reached by skipping. -/
theorem tlsHandshakeRound_skip (hm : m.Regular) (past : List UInt8) {b : UInt8}
    {rest : List UInt8} (hrest : rest.length < 2 ^ 31)
    (hreading : (m.proc c.handshakeState).isReading = true)
    (hskip : tlsSkip m.proc c.host b.toNat TlsState.all.length c.handshakeState = .ok (q, found)) :
    tlsHandshakeRound m ⟨c, ⟨past, b :: rest, 0⟩, w, t⟩ =
      tlsHandshakeRound m ⟨c.setState q, ⟨past, b :: rest, 0⟩, w, t⟩ := by
  have hskipped := hm.skipped hreading hskip
  have hne : (⟨past, b :: rest, 0⟩ : TlsInput).remaining ≠ 0 := by
    simp [TlsInput.remaining]
  have hmatch : tlsHandshakeMatch m.proc b.toNat c =
      tlsHandshakeMatch m.proc b.toNat (c.setState q) := by
    have hstay : tlsSkip m.proc c.host b.toNat TlsState.all.length q = .ok (q, found) :=
      hskipped.tlsSkip_eq _
    rw [tlsHandshakeMatch_eq_ok.mpr ⟨hskip, rfl⟩]
    exact (tlsHandshakeMatch_eq_ok (c := c.setState q).mpr ⟨hstay, rfl⟩).symm
  rw [tlsHandshakeRound_reading hreading hne,
    tlsHandshakeRound_reading (c := c.setState q) hskipped.reading hne, Prog.bind_apply,
    Prog.bind_apply, tlsHandshakeRead_cons past hrest, tlsHandshakeRead_cons past hrest,
    Prog.bind_apply, Prog.bind_apply, TlsStep.onConn, Prog.zoom_apply, Prog.zoom_apply, hmatch,
    TlsConn.setState, hskipped.pktType, hskipped.postWork]

/-- A state where nothing happens leads to one where something does. -/
theorem TlsMethod.Regular.settle (hm : m.Regular) (q : TlsState) :
    ∃ q', (m.proc q').flow ≠ .nothing ∧ ∀ {c : TlsConn τ} {i w r}, c.handshakeState = q →
      (TlsStep.Ends m ⟨c, i, w, quicPktTypeInitial⟩ r ↔
        TlsStep.Ends m ⟨c.setState q', i, w, quicPktTypeInitial⟩ r) := by
  have hstep {q : TlsState} (hq : (m.proc q).flow = .nothing) {c : TlsConn τ} {i w r}
      (hc : c.handshakeState = q) : TlsStep.Ends m ⟨c, i, w, quicPktTypeInitial⟩ r ↔
        TlsStep.Ends m ⟨c.setState (m.proc q).nextState, i, w, quicPktTypeInitial⟩ r := by
    obtain ⟨hpkt, hpost, _⟩ := hm.nothing hq
    apply TlsStep.ends_iff_of_none
    have hflow : tlsHandshakeFlow m (m.proc q) ⟨c, i, w, quicPktTypeInitial⟩ =
        (.ok .goOn, ⟨c.setState (m.proc q).nextState, i, w, quicPktTypeInitial⟩) := by
      rw [tlsHandshakeFlow, hq]
      dsimp only
      rw [TlsStep.onConn_bind_of_ok (Prog.modify_apply _ _)]
      rfl
    rw [tlsHandshakeRound, Prog.get_bind, Prog.modify_bind, TlsStep.setPktType, hc, hq, hpkt]
    dsimp only
    rw [Prog.bind_of_ok hflow, if_neg (by decide), hpost]
    exact TlsStep.onConn_bind_of_ok rfl
  by_cases hq : (m.proc q).flow = .nothing
  · by_cases hnext : (m.proc (m.proc q).nextState).flow = .nothing
    · refine ⟨_, (hm.nothing hq).2.2 hnext, fun hc => (hstep hq hc).trans ?_⟩
      exact hstep hnext rfl
    · exact ⟨_, hnext, fun hc => hstep hq hc⟩
  · refine ⟨q, hq, fun hc => ?_⟩
    subst hc
    exact Iff.rfl

end Skip

section Quiet

variable {τ α : Type} {m : TlsMethod τ} {s t : TlsStep τ} {Q : α → TlsStep τ → Prop}

/-- What holds for all writers holds after an operation on the writer. -/
theorem TlsStep.post_onPkt {p : Prog Fail WPacket α} (h : ∀ a w, Q a { s with pkt := w }) :
    Prog.Post (TlsStep.onPkt p) Q (fun _ _ => True) s := by
  rw [TlsStep.onPkt, Prog.post_zoom]
  exact Prog.Post.of_forall (fun a w => h a w) fun _ _ => trivial

/-- What holds for all connections holds after a routine on the connection. -/
theorem TlsStep.post_onHost {p : Prog Fail τ α} (h : ∀ a host, Q a { s with conn.host := host }) :
    Prog.Post (TlsStep.onConn (TlsConn.onHost p)) Q (fun _ _ => True) s := by
  rw [TlsStep.onConn, TlsConn.onHost, Prog.post_zoom, Prog.post_zoom]
  exact Prog.Post.of_forall (fun a host => h a host) fun _ _ => trivial

/-- Writing a message leads to one of two states. -/
theorem tlsHandshakeWrite_post (p : TlsProcess τ) (handler : Prog Fail (TlsWrite τ) Unit) :
    Prog.Post (tlsHandshakeWrite m p handler)
      (fun _ t => t.conn.handled = s.conn.handled ∧
        (t.conn.handshakeState = p.nextState ∨ t.conn.handshakeState = p.jumpState))
      (fun _ _ => True) s := by
  rw [tlsHandshakeWrite, Prog.post_bind, Prog.post_get, Prog.post_bind]
  apply TlsStep.post_onPkt
  intro _ w₁
  rw [Prog.post_bind]
  apply TlsStep.post_onPkt
  intro _ w₂
  rw [Prog.post_bind, TlsStep.onWrite, Prog.post_zoom]
  apply Prog.Post.of_forall _ fun _ _ => trivial
  intro _ write
  rw [Prog.post_bind]
  apply TlsStep.post_onPkt
  intro _ w₃
  rw [Prog.post_bind, Prog.post_get, Prog.post_bind, Prog.post_ensure]
  refine ⟨fun _ => ?_, fun _ => trivial⟩
  rw [Prog.post_bind]
  apply TlsStep.post_onHost
  intro _ host
  rw [TlsStep.onConn, Prog.post_zoom, Prog.post_modify, TlsConn.flowFinish]
  dsimp only
  by_cases hjump : write.jump = true
  · rw [if_pos hjump]
    split
    · exact ⟨rfl, .inl rfl⟩
    · exact ⟨rfl, .inr rfl⟩
  · rw [if_neg hjump, if_pos rfl]
    exact ⟨rfl, .inl rfl⟩

/-- A round in a quiet state handles no message, and the next state is quiet. -/
theorem tlsHandshakeRound_quiet (hm : m.Regular)
    (hs : (m.proc s.conn.handshakeState).isQuiet = true) :
    Prog.Post (tlsHandshakeRound m)
      (fun o t => t.conn.handled = s.conn.handled ∧
        (o = none → (m.proc t.conn.handshakeState).isQuiet = true))
      (fun _ _ => True) s := by
  rw [tlsHandshakeRound, Prog.post_bind, Prog.post_get, Prog.post_bind, Prog.post_modify,
    Prog.post_bind, tlsHandshakeFlow]
  cases hflow : (m.proc s.conn.handshakeState).flow with
  | nothing | reading =>
    rw [TlsProcess.isQuiet, hflow] at hs
    cases hs
  | finished =>
    dsimp only
    rw [Prog.post_pure, if_pos (by decide), Prog.post_pure]
    exact ⟨rfl, fun h => absurd h (Option.some_ne_none _)⟩
  | writing handler ret =>
    dsimp only
    rw [Prog.post_bind]
    refine (tlsHandshakeWrite_post (s := TlsStep.setPktType _ s) _ handler).mono ?_
      fun _ _ h => h
    rintro _ t ⟨hhandled, hstate⟩
    rw [Prog.post_pure]
    split
    · rw [Prog.post_pure]
      exact ⟨hhandled, fun h => absurd h (Option.some_ne_none _)⟩
    · rw [Prog.post_bind]
      apply TlsStep.post_onHost
      intro _ host
      rw [Prog.post_pure]
      refine ⟨hhandled, fun hnone => ?_⟩
      have hret : ret ≠ .next := by
        rintro rfl
        rw [if_pos rfl] at hnone
        cases hnone
      obtain ⟨hnext, hjump⟩ := hm.quiet hflow hret
      rcases hstate with hstate | hstate
      · change (m.proc t.conn.handshakeState).isQuiet = true
        rw [hstate]
        exact hnext
      · change (m.proc t.conn.handshakeState).isQuiet = true
        rw [hstate]
        exact hjump

/-- No message is handled from a quiet state on. -/
theorem TlsStep.Ends.handled_of_quiet (hm : m.Regular) {ret : QuicFlowReturn}
    (hs : (m.proc s.conn.handshakeState).isQuiet = true) (h : s.Ends m (.ok ret, t)) :
    t.conn.handled = s.conn.handled := by
  obtain ⟨_, fuel, hrun⟩ := h
  induction fuel generalizing s with
  | zero => cases hrun
  | succ fuel ih =>
    rw [tlsHandshakeStatem] at hrun
    obtain ⟨o, u, hround, hrun⟩ := Prog.bind_eq_ok.mp hrun
    obtain ⟨hhandled, hquiet⟩ := (tlsHandshakeRound_quiet hm hs).of_ok hround
    cases o with
    | some ret =>
      cases hrun
      exact hhandled
    | none => exact (ih (hquiet rfl) hrun).trans hhandled

end Quiet

end Tbquic
