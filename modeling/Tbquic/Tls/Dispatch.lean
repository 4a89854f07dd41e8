import Mathlib.Logic.Relation
import Tbquic.Tls.Tables

/-!
# Which message goes to which handler

`TlsHandshakeRead` skips optional states until one reads messages of the type at hand. It stores
each state that it reaches, also when no state fits and the message is dropped or refused.
-/

namespace Tbquic

section Expected

variable {τ : Type}

/-- Optional states lead from one state to another. -/
def SkipsTo (proc : TlsState → TlsProcess τ) (host : τ) : TlsState → TlsState → Prop :=
  Relation.ReflTransGen fun q q' => (proc q).skipCheck host = true ∧ q' = (proc q).nextState

/-- Messages of the type are read in a state behind optional ones. -/
def Expected (m : TlsMethod τ) (c : TlsConn τ) (type : ℕ) (q : TlsState) : Prop :=
  SkipsTo m.proc c.host c.handshakeState q ∧ (m.proc q).isReading = true ∧
    (m.proc q).msgType.code = type

/-- A message of the type was given to its handler. -/
def Processed (m : TlsMethod τ) (c : TlsConn τ) (type : ℕ) : Prop :=
  ∃ e ∈ c.handled, (m.proc e.1).msgType.code = type

/-- The bytes start with a complete message. -/
def Complete (bytes : List UInt8) : Prop := ∃ (msg : WireMessage) (rest : List UInt8),
  bytes = msg.bytes ++ rest

/-- What is required of `TlsHandshakeRead` with some bytes, the first of which is the type of a
message. -/
structure Dispatches (m : TlsMethod τ) (s : TlsStep τ) (type : ℕ) : Prop where
  /-- A handler gets only a message that is expected. -/
  handler : (tlsHandshakeRead m s).2.conn.handled = s.conn.handled ∨
    ∃ q bytes, Expected m s.conn type q ∧ bytes.head?.map UInt8.toNat = some type ∧
      (tlsHandshakeRead m s).2.conn.handled = s.conn.handled ++ [(q, bytes)]
  /-- A message of a type that was processed is dropped when it is complete, and no error before. -/
  retrans : (¬ ∃ q, Expected m s.conn type q) → Processed m s.conn type →
    ((tlsHandshakeRead m s).1 = .ok .drop ∨
      (tlsHandshakeRead m s).1 = .ok .wantRead ∧ ¬ Complete s.input.rest) ∧
    (tlsHandshakeRead m s).2.conn.handshakeState = s.conn.handshakeState
  /-- Another message is an error. -/
  unexpected : (¬ ∃ q, Expected m s.conn type q) → ¬ Processed m s.conn type →
    (tlsHandshakeRead m s).1 = .error .ret ∧
    (tlsHandshakeRead m s).2.conn.handshakeState = s.conn.handshakeState

/-- Where the loop of `TlsHandshake` can come to. Between two rounds everything can change but the
state, which the end of a call can finish, and the messages that were given to handlers. -/
inductive Reaches (m : TlsMethod τ) : TlsStep τ → Prop
  /-- A new connection. -/
  | start {s : TlsStep τ} (hstate : s.conn.handshakeState = .ok) (hhandled : s.conn.handled = []) :
    Reaches m s
  /-- A round of the loop. -/
  | round {s t : TlsStep τ} {r : Except Fail (Option QuicFlowReturn)} (hs : Reaches m s)
    (hround : tlsHandshakeRound m s = (r, t)) : Reaches m t
  /-- What happens between two rounds. -/
  | other {s t : TlsStep τ} (hs : Reaches m s)
    (hstate : t.conn.handshakeState = s.conn.handshakeState ∨
      s.conn.handshakeState = .swHandshakeDone ∧ t.conn.handshakeState = .handshakeDone)
    (hhandled : t.conn.handled = s.conn.handled) : Reaches m t

variable {m : TlsMethod τ} {host : τ} {type fuel : ℕ} {q q' : TlsState} {found : Bool}
  {c : TlsConn τ}

/-- The loop follows optional states. -/
theorem skipsTo_of_tlsSkip (h : tlsSkip m.proc host type fuel q = .ok (q', found)) :
    SkipsTo m.proc host q q' := by
  induction fuel generalizing q with
  | zero => cases h
  | succ fuel ih =>
    rw [tlsSkip] at h
    split_ifs at h with htype hskip
    · cases h
      exact .refl
    · exact .head ⟨hskip, rfl⟩ (ih h)
    · cases h
      exact .refl

/-- The loop finds a state behind optional ones. -/
theorem found_of_skipsTo (h : SkipsTo m.proc host q q') (htype : (m.proc q').msgType.code = type)
    {r : TlsState} (hrun : tlsSkip m.proc host type fuel q = .ok (r, found)) : found = true := by
  induction h using Relation.ReflTransGen.head_induction_on generalizing fuel with
  | refl =>
    cases fuel with
    | zero => cases hrun
    | succ fuel =>
      rw [tlsSkip, if_pos htype.symm] at hrun
      cases hrun
      rfl
  | head hstep _ ih =>
    obtain ⟨hskip, rfl⟩ := hstep
    cases fuel with
    | zero => cases hrun
    | succ fuel =>
      rw [tlsSkip] at hrun
      split_ifs at hrun with hmatch
      · cases hrun
        rfl
      · exact ih hrun

/-- The loop ends, for each state that can be skipped comes before the next one. -/
theorem TlsMethod.Regular.exists_tlsSkip (hm : m.Regular) (host : τ) (type : ℕ) (q : TlsState) :
    ∃ r, tlsSkip m.proc host type TlsState.all.length q = .ok r := by
  have hbound (q : TlsState) : q.index < TlsState.all.length := by
    cases q <;> decide
  have hrun (fuel : ℕ) : ∀ q : TlsState, TlsState.all.length ≤ fuel + q.index →
      ∃ r, tlsSkip m.proc host type fuel q = .ok r := by
    induction fuel with
    | zero =>
      intro q hq
      have := hbound q
      omega
    | succ fuel ih =>
      intro q hq
      rw [tlsSkip]
      split_ifs with htype hskip
      · exact ⟨_, rfl⟩
      · have hlt := (hm.skip hskip).2
        exact ih _ (by omega)
      · exact ⟨_, rfl⟩
  exact hrun _ q (Nat.le_add_right _ _)

/-- What the loop finds in a state that reads. A message is expected exactly when the loop finds a
state for it. -/
theorem TlsMethod.Regular.tlsHandshakeMatch_eq (hm : m.Regular) (type : ℕ)
    (hreading : (m.proc c.handshakeState).isReading = true) :
    ∃ q found, tlsHandshakeMatch m.proc type c = (.ok (q, found), c.setState q) ∧
      Skipped m c.host type c.handshakeState q found ∧
      (found = true → Expected m c type q) ∧
      (found = false → ¬ ∃ q', Expected m c type q') ∧
      (found = false →
        (q = c.handshakeState ↔ (m.proc c.handshakeState).skipCheck c.host = false)) := by
  obtain ⟨⟨q, found⟩, hrun⟩ := hm.exists_tlsSkip c.host type c.handshakeState
  have hskipped := hm.skipped hreading hrun
  refine ⟨q, found, tlsHandshakeMatch_eq_ok.mpr ⟨hrun, rfl⟩, hskipped, ?_, ?_, ?_⟩
  · rintro rfl
    have htype := of_decide_eq_true hskipped.found_eq.symm
    exact ⟨skipsTo_of_tlsSkip hrun, hskipped.reading, htype.symm⟩
  · rintro rfl ⟨q', hskips, _, htype⟩
    exact Bool.false_ne_true (found_of_skipsTo hskips htype hrun)
  · rintro rfl
    constructor
    · intro heq
      rw [← heq]
      exact hskipped.skipCheck rfl
    · intro hskip
      rw [show TlsState.all.length = 24 + 1 from rfl, tlsSkip, hskip, if_neg Bool.false_ne_true]
        at hrun
      split_ifs at hrun
      · exact (congrArg Prod.fst (Except.ok.inj hrun)).symm
      · exact (congrArg Prod.fst (Except.ok.inj hrun)).symm

end Expected

section Steps

variable {τ : Type} {m : TlsMethod τ} {q : TlsState} {bytes : List UInt8}

/-- The end of `TlsHandshakeRead` for a state: the state is left at most for the next one, and at
most its handler gets the message. -/
structure HandsOver (m : TlsMethod τ) (q : TlsState) (bytes : List UInt8) (c d : TlsConn τ) :
    Prop where
  /-- The state. -/
  state : d.handshakeState = q ∨ d.handshakeState = (m.proc q).nextState
  /-- The messages given to handlers. -/
  handled : d.handled = c.handled ∨ d.handled = c.handled ++ [(q, bytes)]

/-- The end of a handler changes at most the state. -/
theorem TlsConn.flowFinish_moves (c : TlsConn τ) (q q' : TlsState) :
    (c.flowFinish q q').handled = c.handled ∧
      ((c.flowFinish q q').handshakeState = q' ∨
        (c.flowFinish q q').handshakeState = c.handshakeState) := by
  unfold TlsConn.flowFinish
  split
  · exact ⟨rfl, .inl rfl⟩
  · exact ⟨rfl, .inr rfl⟩

/-- A complete message is handed over. -/
theorem tlsHandshakeProc_handsOver (type : ℕ) {c : TlsConn τ} (hc : c.handshakeState = q) :
    Prog.Post (tlsHandshakeProc m type q bytes) (fun _ d => HandsOver m q bytes c d)
      (fun _ d => HandsOver m q bytes c d) c := by
  have hsame (host : τ) : HandsOver m q bytes c { c with host } := ⟨.inl hc, .inl rfl⟩
  rw [tlsHandshakeProc, Prog.post_bind, TlsConn.onHost, Prog.post_zoom]
  refine Prog.Post.of_forall (fun _ host => ?_) fun _ host => hsame host
  rw [Prog.post_bind, TlsConn.onHost, Prog.post_zoom]
  refine Prog.Post.of_forall (fun _ host' => ?_) fun _ host' => hsame host'
  cases (m.proc q).flow with
  | reading handler =>
    dsimp only
    rw [Prog.post_bind, Prog.post_get, Prog.post_bind, Prog.post_modify, Prog.post_bind,
      TlsConn.onRead, Prog.post_zoom]
    refine Prog.Post.of_forall (fun _ r => ?_) fun _ r => ⟨.inl hc, .inr rfl⟩
    rw [Prog.post_modify, TlsConn.flowFinish]
    split_ifs
    · exact ⟨.inr rfl, .inr rfl⟩
    · exact ⟨.inl hc, .inr rfl⟩
  | nothing | writing | finished => exact hsame host'

/-- A message of the right type is handed over or waits. -/
theorem tlsHandshakeMsg_handsOver (start : TlsInput) (type : ℕ) {s : TlsStep τ}
    (hs : s.conn.handshakeState = q) :
    Prog.Post (tlsHandshakeMsg m start type q)
      (fun _ t => ∃ len, HandsOver m q (start.rest.take (4 + len)) s.conn t.conn)
      (fun _ t => ∃ len, HandsOver m q (start.rest.take (4 + len)) s.conn t.conn) s := by
  have hsame : ∃ len, HandsOver m q (start.rest.take (4 + len)) s.conn s.conn :=
    ⟨0, .inl hs, .inl rfl⟩
  rw [tlsHandshakeMsg, Prog.post_bind, Prog.post_attempt, TlsStep.onInput, Prog.zoom_apply]
  rcases (TlsInput.message s.input).1 with e | len
  · cases e with
    | ret =>
      dsimp only
      rw [Prog.post_bind, Prog.post_modify]
      exact hsame
    | assert | ub | fuel => exact hsame
  · dsimp only
    rw [Prog.post_bind, TlsStep.onConn, Prog.post_zoom]
    refine (tlsHandshakeProc_handsOver type hs).mono ?_ ?_
    · intro _ d hd
      exact ⟨len, hd⟩
    · intro _ d hd
      exact ⟨len, hd⟩

/-- A message is read in the state, or behind optional ones. -/
theorem TlsMethod.Regular.tlsHandshakeRead_handsOver (hm : m.Regular) {s : TlsStep τ}
    (hs : (m.proc s.conn.handshakeState).isReading = true) :
    Prog.Post (tlsHandshakeRead m)
      (fun _ t => ∃ q bytes, SkipsTo m.proc s.conn.host s.conn.handshakeState q ∧
        (m.proc q).isReading = true ∧ HandsOver m q bytes s.conn t.conn)
      (fun _ t => ∃ q bytes, SkipsTo m.proc s.conn.host s.conn.handshakeState q ∧
        (m.proc q).isReading = true ∧ HandsOver m q bytes s.conn t.conn) s := by
  have hsame : ∃ q bytes, SkipsTo m.proc s.conn.host s.conn.handshakeState q ∧
      (m.proc q).isReading = true ∧ HandsOver m q bytes s.conn s.conn :=
    ⟨_, [], .refl, hs, .inl rfl, .inl rfl⟩
  rw [tlsHandshakeRead, Prog.post_bind, Prog.post_get, Prog.post_bind, Prog.post_attempt,
    TlsStep.onInput, Prog.zoom_apply]
  rcases (TlsInput.get 1 s.input).1 with e | type
  · cases e <;> exact hsame
  · obtain ⟨⟨q, found⟩, hrun⟩ := hm.exists_tlsSkip s.conn.host (Bytes.toNat type)
      s.conn.handshakeState
    have hskips := skipsTo_of_tlsSkip hrun
    have hreads := (hm.skipped hs hrun).reading
    dsimp only
    rw [Prog.post_bind, TlsStep.onConn, Prog.post_zoom]
    refine (Prog.post_of_eq (tlsHandshakeMatch_eq_ok.mpr ⟨hrun, rfl⟩)).mpr ?_
    dsimp only
    split
    · have hmsg := @tlsHandshakeMsg_handsOver τ m q s.input (Bytes.toNat type)
        { s with conn := s.conn.setState q, input := (TlsInput.get 1 s.input).2 } rfl
      refine hmsg.mono ?_ ?_
      · rintro _ t ⟨len, ht⟩
        exact ⟨q, _, hskips, hreads, ht.state, ht.handled⟩
      · rintro _ t ⟨len, ht⟩
        exact ⟨q, _, hskips, hreads, ht.state, ht.handled⟩
    · rw [TlsStep.onInput, Prog.post_zoom]
      exact Prog.Post.of_forall (fun _ _ => ⟨q, [], hskips, hreads, .inl rfl, .inl rfl⟩)
        fun _ _ => ⟨q, [], hskips, hreads, .inl rfl, .inl rfl⟩

/-- Writing leaves the state for the next one or for the one that the writer chooses. -/
theorem tlsHandshakeWrite_moves (p : TlsProcess τ) (handler : Prog Fail (TlsWrite τ) Unit)
    (s : TlsStep τ) :
    Prog.Post (tlsHandshakeWrite m p handler)
      (fun _ t => t.conn.handled = s.conn.handled ∧
        (t.conn.handshakeState = s.conn.handshakeState ∨ t.conn.handshakeState = p.nextState ∨
          t.conn.handshakeState = p.jumpState))
      (fun _ t => t.conn.handled = s.conn.handled ∧
        (t.conn.handshakeState = s.conn.handshakeState ∨ t.conn.handshakeState = p.nextState ∨
          t.conn.handshakeState = p.jumpState)) s := by
  rw [tlsHandshakeWrite, Prog.post_bind, Prog.post_get, Prog.post_bind, TlsStep.onPkt,
    Prog.post_zoom]
  refine Prog.Post.of_forall (fun _ w => ?_) fun _ w => ⟨rfl, .inl rfl⟩
  rw [Prog.post_bind, TlsStep.onPkt, Prog.post_zoom]
  refine Prog.Post.of_forall (fun _ w => ?_) fun _ w => ⟨rfl, .inl rfl⟩
  have hjump (write : TlsWrite τ) : (if write.jump = true then p.jumpState
      else s.conn.handshakeState) = s.conn.handshakeState ∨
      (if write.jump = true then p.jumpState else s.conn.handshakeState) = p.nextState ∨
      (if write.jump = true then p.jumpState else s.conn.handshakeState) = p.jumpState := by
    split_ifs
    · exact .inr (.inr rfl)
    · exact .inl rfl
  rw [Prog.post_bind, TlsStep.onWrite, Prog.post_zoom]
  refine Prog.Post.of_forall (fun _ write => ?_) fun _ write => ⟨rfl, hjump write⟩
  rw [Prog.post_bind, TlsStep.onPkt, Prog.post_zoom]
  refine Prog.Post.of_forall (fun _ w => ?_) fun _ w => ⟨rfl, hjump write⟩
  rw [Prog.post_bind, Prog.post_get, Prog.post_bind, Prog.post_ensure]
  refine ⟨fun _ => ?_, fun _ => ⟨rfl, hjump write⟩⟩
  rw [Prog.post_bind, TlsStep.onConn, TlsConn.onHost, Prog.post_zoom, Prog.post_zoom]
  refine Prog.Post.of_forall (fun _ host => ?_) fun _ host => ⟨rfl, hjump write⟩
  rw [TlsStep.onConn, Prog.post_zoom, Prog.post_modify]
  obtain ⟨hhandled, hnext | hstate⟩ := TlsConn.flowFinish_moves
    { s.conn with
      host, handshakeState := if write.jump = true then p.jumpState else s.conn.handshakeState }
    s.conn.handshakeState p.nextState
  · exact ⟨hhandled, .inr (.inl hnext)⟩
  · refine ⟨hhandled, ?_⟩
    rcases hjump write with hsame | hnext | hchosen
    · exact .inl (hstate.trans hsame)
    · exact .inr (.inl (hstate.trans hnext))
    · exact .inr (.inr (hstate.trans hchosen))

end Steps

section Order

variable {τ : Type} {m : TlsMethod τ}

/-- The order of the states in a handshake. -/
def TlsState.rank : TlsState → ℕ
  | .ok => 0
  | .cwClientHello | .srClientHello => 1
  | .crServerHello | .swServerHello => 2
  | .crEncryptedExtensions | .swEncryptedExtensions => 3
  | .crCertRequest | .swCertRequest => 4
  | .crServerCertificate | .swServerCertificate => 5
  | .crCertVerify | .swCertVerify => 6
  | .crFinished | .swFinished => 7
  | .cwClientCertificate | .srClientCertificate => 8
  | .cwCertVerify | .srCertVerify => 9
  | .cwFinished | .srFinished => 10
  | .crNewSessionTicket | .swNewSessionTicket => 11
  | .swHandshakeDone => 12
  | .handshakeDone => 13

/-- The state is in the table. -/
def TlsMethod.Has (m : TlsMethod τ) (q : TlsState) : Prop :=
  q = .ok ∨ (m.proc q).flow ≠ .nothing

/-- The states of a table follow the order. -/
structure TlsMethod.Ordered (m : TlsMethod τ) : Prop where
  /-- The next state is a later one, or the same one. -/
  next : ∀ {q}, m.Has q → m.Has (m.proc q).nextState ∧
    ((m.proc q).nextState = q ∨ q.rank < (m.proc q).nextState.rank)
  /-- A writer chooses a later state. -/
  jump : ∀ {q handler ret}, (m.proc q).flow = .writing handler ret → m.Has (m.proc q).jumpState ∧
    q.rank < (m.proc q).jumpState.rank
  /-- The handshake ends in the table. -/
  done : m.Has .handshakeDone
  /-- The states that read are numbered in their order. -/
  index : ∀ {q q'}, (m.proc q).isReading = true → (m.proc q').isReading = true →
    q.rank < q'.rank → q.index < q'.index

/-- The table of the client is ordered. -/
theorem clientProc_ordered (h : ClientHandlers τ) (hproc : m.proc = clientProc h) : m.Ordered := by
  constructor <;> simp only [TlsMethod.Has, hproc]
  · intro q hq
    cases q <;> first
      | exact ⟨.inr (by intro hflow; cases hflow), .inr (of_decide_eq_true rfl)⟩
      | exact ⟨.inr (by intro hflow; cases hflow), .inl rfl⟩
      | (rcases hq with hq | hq; cases hq; exact absurd rfl hq)
  · intro q handler ret hq
    cases q <;> first
      | exact ⟨.inr (by intro hflow; cases hflow), of_decide_eq_true rfl⟩
      | cases hq
  · exact .inr (by intro hflow; cases hflow)
  · intro q q' hq hq' hlt
    cases q <;> first
      | (cases hq; done)
      | cases q' <;> first
        | exact of_decide_eq_true rfl
        | exact absurd hlt (of_decide_eq_true rfl)
        | cases hq'

/-- The table of the server is ordered. -/
theorem serverProc_ordered (h : ServerHandlers τ) (hproc : m.proc = serverProc h) : m.Ordered := by
  constructor <;> simp only [TlsMethod.Has, hproc]
  · intro q hq
    cases q <;> first
      | exact ⟨.inr (by intro hflow; cases hflow), .inr (of_decide_eq_true rfl)⟩
      | exact ⟨.inr (by intro hflow; cases hflow), .inl rfl⟩
      | (rcases hq with hq | hq; cases hq; exact absurd rfl hq)
  · intro q handler ret hq
    cases q <;> first
      | exact ⟨.inr (by intro hflow; cases hflow), of_decide_eq_true rfl⟩
      | cases hq
  · exact .inr (by intro hflow; cases hflow)
  · intro q q' hq hq' hlt
    cases q <;> first
      | (cases hq; done)
      | cases q' <;> first
        | exact of_decide_eq_true rfl
        | exact absurd hlt (of_decide_eq_true rfl)
        | cases hq'

/-- What is known of the messages that were given to handlers: their states read, and the state of
the connection is none of the earlier ones. -/
structure TlsConn.Passed (m : TlsMethod τ) (c : TlsConn τ) : Prop where
  /-- The state is in the table. -/
  has : m.Has c.handshakeState
  /-- The states of the handlers. -/
  handled : ∀ e ∈ c.handled, (m.proc e.1).isReading = true ∧
    (e.1 = c.handshakeState ∨ e.1.rank < c.handshakeState.rank)

namespace TlsConn.Passed

variable {c d : TlsConn τ}

/-- The state moves to the same or to a later one, and no message is given to a handler. -/
theorem moves (h : c.Passed m) (hhas : m.Has d.handshakeState)
    (hlater : d.handshakeState = c.handshakeState ∨
      c.handshakeState.rank < d.handshakeState.rank)
    (hhandled : d.handled = c.handled) : d.Passed m := by
  refine ⟨hhas, ?_⟩
  rw [hhandled]
  intro e he
  obtain ⟨hreads, hrank⟩ := h.handled e he
  refine ⟨hreads, ?_⟩
  rcases hlater with heq | hlt
  · rw [heq]
    exact hrank
  · rcases hrank with heq | hrank
    · rw [heq]
      exact .inr hlt
    · exact .inr (hrank.trans hlt)

/-- A state behind optional ones is the same or a later one. -/
theorem skipsTo (hm : m.Regular) (ho : m.Ordered) {host : τ} {q q' : TlsState} (hq : m.Has q)
    (h : SkipsTo m.proc host q q') : m.Has q' ∧ (q' = q ∨ q.rank < q'.rank) := by
  induction h with
  | refl => exact ⟨hq, .inl rfl⟩
  | tail _ hstep ih =>
    obtain ⟨hskip, rfl⟩ := hstep
    obtain ⟨hhas, hlater⟩ := ih
    obtain ⟨hnext, hrank⟩ := ho.next hhas
    refine ⟨hnext, ?_⟩
    rcases hrank with hsame | hlt
    · have hindex := (hm.skip hskip).2
      rw [hsame] at hindex
      exact absurd hindex (lt_irrefl _)
    · rcases hlater with rfl | hbefore
      · exact .inr hlt
      · exact .inr (hbefore.trans hlt)

/-- A message is given to the handler of a state behind optional ones. -/
theorem handsOver (hm : m.Regular) (ho : m.Ordered) (h : c.Passed m) {q : TlsState}
    {bytes : List UInt8} (hskips : SkipsTo m.proc c.host c.handshakeState q)
    (hreads : (m.proc q).isReading = true) (hover : HandsOver m q bytes c d) : d.Passed m := by
  obtain ⟨hhas, hlater⟩ := skipsTo hm ho h.has hskips
  obtain ⟨hnext, hrank⟩ := ho.next hhas
  -- The connection in the state of the handler, with the message.
  have hgiven : ∀ e ∈ d.handled, (m.proc e.1).isReading = true ∧ (e.1 = q ∨ e.1.rank < q.rank) := by
    have hbefore := (h.moves (d := c.setState q) hhas hlater rfl).handled
    rcases hover.handled with heq | heq
    · rw [heq]
      exact hbefore
    · rw [heq]
      intro e he
      rcases List.mem_append.mp he with he | he
      · exact hbefore e he
      · rw [List.mem_singleton.mp he]
        exact ⟨hreads, .inl rfl⟩
  rcases hover.state with hstate | hstate
  · exact ⟨hstate ▸ hhas, hstate ▸ hgiven⟩
  · have hin : (d.setState q).Passed m := ⟨hhas, hgiven⟩
    refine hin.moves (hstate ▸ hnext) ?_ rfl
    rw [hstate]
    exact hrank

/-- A round keeps it. -/
theorem round (hm : m.Regular) (ho : m.Ordered) {s : TlsStep τ} (h : s.conn.Passed m) :
    (tlsHandshakeRound m s).2.conn.Passed m := by
  refine Prog.Post.state (P := fun t : TlsStep τ => t.conn.Passed m) ?_
  rw [tlsHandshakeRound, Prog.post_bind, Prog.post_get, Prog.post_bind, Prog.post_modify,
    Prog.post_bind]
  refine (?_ : Prog.Post (tlsHandshakeFlow m (m.proc s.conn.handshakeState))
    (fun _ t => t.conn.Passed m) (fun _ t => t.conn.Passed m) _).mono ?_ fun _ _ ht => ht
  · obtain ⟨hnext, hrank⟩ := ho.next h.has
    unfold tlsHandshakeFlow
    cases hflow : (m.proc s.conn.handshakeState).flow with
    | nothing =>
      dsimp only
      rw [Prog.post_bind, TlsStep.onConn, Prog.post_zoom, Prog.post_modify, Prog.post_pure]
      exact h.moves hnext hrank rfl
    | reading handler =>
      have hreading : (m.proc s.conn.handshakeState).isReading = true := by
        rw [TlsProcess.isReading, hflow]
      dsimp only
      rw [Prog.post_bind, Prog.post_get]
      split
      · exact h
      · refine (hm.tlsHandshakeRead_handsOver (s := TlsStep.setPktType _ s) hreading).mono ?_ ?_
        · rintro _ t ⟨q, bytes, hskips, hreads, hover⟩
          exact h.handsOver hm ho hskips hreads hover
        · rintro _ t ⟨q, bytes, hskips, hreads, hover⟩
          exact h.handsOver hm ho hskips hreads hover
    | writing handler ret =>
      obtain ⟨hjump, hjumpRank⟩ := ho.jump hflow
      have hmoves {t : TlsStep τ} (ht : t.conn.handled = s.conn.handled ∧
          (t.conn.handshakeState = s.conn.handshakeState ∨
            t.conn.handshakeState = (m.proc s.conn.handshakeState).nextState ∨
            t.conn.handshakeState = (m.proc s.conn.handshakeState).jumpState)) :
          t.conn.Passed m := by
        obtain ⟨hhandled, hstate | hstate | hstate⟩ := ht
        · exact h.moves (hstate ▸ h.has) (.inl hstate) hhandled
        · exact h.moves (hstate ▸ hnext) (hstate ▸ hrank) hhandled
        · exact h.moves (hstate ▸ hjump) (.inr (hstate ▸ hjumpRank)) hhandled
      dsimp only
      rw [Prog.post_bind]
      refine (tlsHandshakeWrite_moves _ handler (TlsStep.setPktType _ s)).mono ?_ ?_
      · intro _ t ht
        exact hmoves ht
      · intro _ t ht
        exact hmoves ht
    | finished => exact h
  · intro ret t ht
    split
    · exact ht
    · rw [Prog.post_bind, TlsStep.onConn, TlsConn.onHost, Prog.post_zoom, Prog.post_zoom]
      refine Prog.Post.of_forall (fun _ host => ?_) fun _ host => ?_
      · exact ht.moves ht.has (.inl rfl) rfl
      · exact ht.moves ht.has (.inl rfl) rfl

/-- It holds wherever the loop can come to. -/
theorem of_reaches (hm : m.Regular) (ho : m.Ordered) {s : TlsStep τ} (h : Reaches m s) :
    s.conn.Passed m := by
  induction h with
  | start hstate hhandled =>
    refine ⟨.inl hstate, ?_⟩
    rw [hhandled]
    exact nofun
  | round _ hround ih =>
    have hnext := ih.round hm ho
    rw [hround] at hnext
    exact hnext
  | other _ hstate hhandled ih =>
    rcases hstate with hstate | ⟨hbefore, hstate⟩
    · exact ih.moves (hstate ▸ ih.has) (.inl hstate) hhandled
    · refine ih.moves (hstate ▸ ho.done) (.inr ?_) hhandled
      rw [hbefore, hstate]
      decide

end TlsConn.Passed

end Order

section Dispatch

variable {τ : Type} {m : TlsMethod τ} {s : TlsStep τ} {b : UInt8} {rest : List UInt8}

/-- A message that was processed belongs to an earlier state, unless it is expected again. -/
theorem tlsHandshakeMsgRetrans_of_processed (hm : m.Regular) (ho : m.Ordered) {c : TlsConn τ}
    (hc : c.Passed m) (hreading : (m.proc c.handshakeState).isReading = true) {type : ℕ}
    (h : Processed m c type) (hnone : ¬ ∃ q, Expected m c type q) :
    tlsHandshakeMsgRetrans m.proc type c.handshakeState = true := by
  obtain ⟨e, he, rfl⟩ := h
  obtain ⟨hreads, heq | hrank⟩ := hc.handled e he
  · exact absurd ⟨c.handshakeState, .refl, hreading, by rw [heq]⟩ hnone
  · have hreader := hm.reader hreads
    unfold tlsReader at hreader
    rw [tlsHandshakeMsgRetrans, hreader]
    exact decide_eq_true (ho.index hreads hreading hrank)

/-- The rest of an incomplete message is not there to be dropped. -/
theorem tlsHandshakeDrop_of_incomplete (past : List UInt8) (hlen : rest.length < 2 ^ 31)
    (h : ¬ Complete (b :: rest)) :
    ∃ i, tlsHandshakeDrop true ⟨past, rest, 0⟩ = (.error .ret, i) := by
  rw [tlsHandshakeDrop, if_pos rfl]
  rcases Nat.lt_or_ge rest.length 3 with hshort | hlong
  · exact ⟨_, Prog.bind_of_error (TlsInput.get_of_lt (i := ⟨past, rest, 0⟩) hshort (by decide))⟩
  · obtain ⟨head, body, rfl, hhead⟩ : ∃ head body, rest = head ++ body ∧ head.length = 3 :=
      ⟨rest.take 3, rest.drop 3, (List.take_append_drop 3 rest).symm, by
        rw [List.length_take]
        exact min_eq_left hlong⟩
    have hsmall : Bytes.toNat head < 2 ^ 24 := by
      have hlt := Bytes.toNat_lt head
      rw [hhead] at hlt
      exact hlt
    rw [List.length_append] at hlen
    have hget := TlsInput.get_append past head body (by omega)
    rw [hhead] at hget
    have hmissing : body.length < Bytes.toNat head := by
      by_contra hge
      have hlength : (body.take (Bytes.toNat head)).length = Bytes.toNat head := by
        rw [List.length_take]
        exact min_eq_left (not_lt.mp hge)
      refine h ⟨⟨b, body.take (Bytes.toNat head), by rw [hlength]; exact hsmall⟩,
        body.drop (Bytes.toNat head), ?_⟩
      have hhead' : Bytes.ofNat 3 (body.take (Bytes.toNat head)).length = head := by
        rw [hlength, ← hhead]
        exact Bytes.ofNat_toNat head
      rw [WireMessage.bytes]
      dsimp only
      rw [hhead', List.cons_append, List.append_assoc, List.take_append_drop]
    have hcheck : quicLt ((body.length + 0 : ℕ) : ℤ) (Bytes.toNat head) := by
      rw [quicLt_iff] <;> omega
    rw [Prog.bind_of_ok hget]
    exact ⟨_, Prog.bind_of_error (if_pos hcheck)⟩

/-- What happens to a message that no state reads. -/
structure Refuses (m : TlsMethod τ) (s : TlsStep τ) (b : UInt8) (q : TlsState) : Prop where
  /-- The state reached is stored. -/
  conn : (tlsHandshakeRead m s).2.conn = s.conn.setState q
  /-- A complete message of an earlier state is dropped. -/
  drop : tlsHandshakeMsgRetrans m.proc b.toNat q = true → Complete s.input.rest →
    (tlsHandshakeRead m s).1 = .ok .drop
  /-- Anything else is an error. -/
  error : ¬ (tlsHandshakeMsgRetrans m.proc b.toNat q = true ∧ Complete s.input.rest) →
    (tlsHandshakeRead m s).1 = .error .ret

/-- A message that no state reads is dropped or refused. -/
theorem tlsHandshakeRead_refuses {q : TlsState} (hinput : s.input.rest = b :: rest)
    (hbeyond : s.input.beyond = 0) (hlen : s.input.rest.length < 2 ^ 31)
    (hmatch : tlsHandshakeMatch m.proc b.toNat s.conn = (.ok (q, false), s.conn.setState q)) :
    Refuses m s b q := by
  obtain ⟨c, ⟨past, _, _⟩, w, t⟩ := s
  cases hinput
  cases hbeyond
  have hrest : rest.length < 2 ^ 31 := (Nat.lt_succ_self _).trans hlen
  have hrun : tlsHandshakeRead m ⟨c, ⟨past, b :: rest, 0⟩, w, t⟩ =
      ((tlsHandshakeDrop (tlsHandshakeMsgRetrans m.proc b.toNat q) ⟨past ++ [b], rest, 0⟩).1,
        ⟨c.setState q, (tlsHandshakeDrop (tlsHandshakeMsgRetrans m.proc b.toNat q)
          ⟨past ++ [b], rest, 0⟩).2, w, t⟩) := by
    rw [tlsHandshakeRead_cons past hrest, TlsStep.onConn_bind_of_ok hmatch,
      if_neg Bool.false_ne_true]
    rfl
  refine ⟨by rw [hrun], ?_, ?_⟩
  · rintro hretrans ⟨msg, more, hbytes⟩
    have htype : b = msg.type := (List.cons.inj hbytes).1
    dsimp only at hbytes hlen ⊢
    rw [hbytes] at hlen ⊢
    rw [htype] at hmatch hretrans
    obtain ⟨i, hdrop⟩ := tlsHandshakeRead_retrans past hlen hmatch hretrans
    rw [hdrop]
  · intro hnot
    rw [hrun]
    dsimp only
    by_cases hretrans : tlsHandshakeMsgRetrans m.proc b.toNat q = true
    · obtain ⟨i, hdrop⟩ := tlsHandshakeDrop_of_incomplete (past ++ [b]) hrest
        fun hcomplete => hnot ⟨hretrans, hcomplete⟩
      rw [hretrans, hdrop]
    · rw [Bool.not_eq_true] at hretrans
      rw [hretrans]
      rfl

/-- A message that a state reads is given at most to its handler. -/
theorem tlsHandshakeRead_found {q : TlsState} (hinput : s.input.rest = b :: rest)
    (hbeyond : s.input.beyond = 0) (hlen : s.input.rest.length < 2 ^ 31)
    (hmatch : tlsHandshakeMatch m.proc b.toNat s.conn = (.ok (q, true), s.conn.setState q)) :
    (tlsHandshakeRead m s).2.conn.handled = s.conn.handled ∨
      ∃ bytes : List UInt8, bytes.head?.map UInt8.toNat = some b.toNat ∧
        (tlsHandshakeRead m s).2.conn.handled = s.conn.handled ++ [(q, bytes)] := by
  obtain ⟨c, ⟨past, _, _⟩, w, t⟩ := s
  cases hinput
  cases hbeyond
  have hrest : rest.length < 2 ^ 31 := (Nat.lt_succ_self _).trans hlen
  have hmsg := @tlsHandshakeMsg_handsOver τ m q ⟨past, b :: rest, 0⟩ b.toNat
    ⟨c.setState q, ⟨past ++ [b], rest, 0⟩, w, t⟩ rfl
  obtain ⟨len, hover⟩ := Prog.Post.state (P := fun t : TlsStep τ => ∃ len,
    HandsOver m q ((b :: rest).take (4 + len)) (c.setState q) t.conn) hmsg
  rw [tlsHandshakeRead_cons past hrest, TlsStep.onConn_bind_of_ok hmatch, if_pos rfl]
  rcases hover.handled with hsame | hgiven
  · exact .inl hsame
  · refine .inr ⟨(b :: rest).take (4 + len), ?_, hgiven⟩
    rw [Nat.add_comm, List.take_succ_cons]
    rfl

/-- When `TlsHandshakeRead` does what is required with a type: it is expected, or the state is not
optional and, where the type belongs to an earlier state, a message of the type was processed and
the one at hand is complete, or neither. -/
def Dispatchable (m : TlsMethod τ) (s : TlsStep τ) (type : ℕ) : Prop :=
  (∃ q, Expected m s.conn type q) ∨
    (m.proc s.conn.handshakeState).skipCheck s.conn.host = false ∧
      (tlsHandshakeMsgRetrans m.proc type s.conn.handshakeState = true →
        (Processed m s.conn type ↔ Complete s.input.rest))

/-- With a table of this shape, the condition is exact. -/
theorem dispatches_iff_of_passed (hm : m.Regular) (ho : m.Ordered) (hs : s.conn.Passed m)
    (hreading : (m.proc s.conn.handshakeState).isReading = true)
    (hinput : s.input.rest = b :: rest) (hbeyond : s.input.beyond = 0)
    (hlen : s.input.rest.length < 2 ^ 31) :
    Dispatches m s b.toNat ↔ Dispatchable m s b.toNat := by
  obtain ⟨q, found, hmatch, _, hexpected, hnone, hstays⟩ :=
    hm.tlsHandshakeMatch_eq b.toNat hreading
  cases found with
  | true =>
    have hq := hexpected rfl
    refine ⟨fun _ => .inl ⟨q, hq⟩, fun _ => ⟨?_, fun h => absurd ⟨q, hq⟩ h,
      fun h => absurd ⟨q, hq⟩ h⟩⟩
    rcases tlsHandshakeRead_found hinput hbeyond hlen hmatch with hsame | ⟨bytes, hhead, hgiven⟩
    · exact .inl hsame
    · exact .inr ⟨q, bytes, hq, hhead, hgiven⟩
  | false =>
    have hnot := hnone rfl
    have hrefuses := tlsHandshakeRead_refuses hinput hbeyond hlen hmatch
    have hstate : (tlsHandshakeRead m s).2.conn.handshakeState = s.conn.handshakeState ↔
        (m.proc s.conn.handshakeState).skipCheck s.conn.host = false := by
      rw [hrefuses.conn]
      exact hstays rfl
    have hpassed (h : Processed m s.conn b.toNat) :=
      tlsHandshakeMsgRetrans_of_processed hm ho hs hreading h hnot
    constructor
    · intro h
      right
      by_cases hprocessed : Processed m s.conn b.toNat
      · obtain ⟨hresult, hsame⟩ := h.retrans hnot hprocessed
        have hskip := hstate.mp hsame
        refine ⟨hskip, fun hretrans => iff_of_true hprocessed ?_⟩
        by_contra hincomplete
        have herror := hrefuses.error fun hboth => hincomplete hboth.2
        rw [herror] at hresult
        rcases hresult with hresult | ⟨hresult, _⟩ <;> cases hresult
      · obtain ⟨hresult, hsame⟩ := h.unexpected hnot hprocessed
        have hskip := hstate.mp hsame
        refine ⟨hskip, fun hretrans => iff_of_false hprocessed fun hcomplete => ?_⟩
        rw [← (hstays rfl).mpr hskip] at hretrans
        rw [hrefuses.drop hretrans hcomplete] at hresult
        cases hresult
    · rintro (hexp | ⟨hskip, hiff⟩)
      · exact absurd hexp hnot
      · have hq := (hstays rfl).mpr hskip
        rw [hq] at hrefuses
        refine ⟨.inl (by rw [hrefuses.conn]; rfl), fun _ hprocessed => ?_, fun _ hprocessed => ?_⟩
        · have hretrans := hpassed hprocessed
          exact ⟨.inl (hrefuses.drop hretrans ((hiff hretrans).mp hprocessed)), hstate.mpr hskip⟩
        · refine ⟨hrefuses.error ?_, hstate.mpr hskip⟩
          rintro ⟨hretrans, hcomplete⟩
          exact hprocessed ((hiff hretrans).mpr hcomplete)

/-- In every state of every run, `TlsHandshakeRead` does what is required exactly when the type is
expected, or the state is not optional and a message of an earlier state was processed if and only
if the one at hand is complete. -/
theorem dispatches_iff
    (htable : (∃ h, m.proc = clientProc h) ∨ ∃ h, m.proc = serverProc h) (hs : Reaches m s)
    (hreading : (m.proc s.conn.handshakeState).isReading = true)
    (hinput : s.input.rest = b :: rest) (hbeyond : s.input.beyond = 0)
    (hlen : s.input.rest.length < 2 ^ 31) :
    Dispatches m s b.toNat ↔ Dispatchable m s b.toNat := by
  rcases htable with ⟨h, hproc⟩ | ⟨h, hproc⟩
  · have hm := clientProc_regular h hproc
    have ho := clientProc_ordered h hproc
    exact dispatches_iff_of_passed hm ho (.of_reaches hm ho hs) hreading hinput hbeyond hlen
  · have hm := serverProc_regular h hproc
    have ho := serverProc_ordered h hproc
    exact dispatches_iff_of_passed hm ho (.of_reaches hm ho hs) hreading hinput hbeyond hlen

end Dispatch

section Calls

variable {τ : Type} {m : TlsMethod τ}

/-- A program in a call stays where the loop can come to. -/
def TlsStep.KeepsReach {α : Type} (m : TlsMethod τ) (p : Prog Fail (TlsStep τ) α) : Prop :=
  Prog.Keeps (fun s t => Reaches m s → Reaches m t) p

/-- The rule of sequencing. -/
theorem TlsStep.KeepsReach.bind {α β : Type} {p : Prog Fail (TlsStep τ) α}
    {f : α → Prog Fail (TlsStep τ) β} (hp : KeepsReach m p) (hf : ∀ a, KeepsReach m (f a)) :
    KeepsReach m (p >>= f) :=
  Prog.Keeps.bind (fun h h' hs => h' (h hs)) hp hf

/-- The state and the messages that were handled are the same. -/
theorem Reaches.same {s t : TlsStep τ} (hs : Reaches m s)
    (hstate : t.conn.handshakeState = s.conn.handshakeState)
    (hhandled : t.conn.handled = s.conn.handled) : Reaches m t :=
  .other hs (.inl hstate) hhandled

/-- The loop of a call. -/
theorem tlsHandshakeStatem_keepsReach (fuel : ℕ) :
    TlsStep.KeepsReach m (tlsHandshakeStatem m fuel) := by
  induction fuel with
  | zero => exact Prog.keeps_fail (fun _ hs => hs) _
  | succ fuel ih =>
    have hround : TlsStep.KeepsReach m (tlsHandshakeRound m) := fun s hs => .round hs rfl
    apply hround.bind
    intro o
    cases o with
    | none => exact ih
    | some ret => exact Prog.keeps_pure (fun _ hs => hs) _

/-- The end of a call. -/
theorem tlsHandshakeFinish_keepsReach (ret : Except Fail QuicFlowReturn) :
    TlsStep.KeepsReach m (tlsHandshakeFinish m ret) := by
  have hoffset : TlsStep.KeepsReach m (tlsHandshakeOffset ret) := by
    apply Prog.keeps_get_bind
    intro s hs
    split
    · unfold QuicBuffer.addOffset
      split
      · rw [Prog.ofOption_none, Prog.fail_bind]
        exact hs
      · rw [Prog.ofOption_some, Prog.pure_bind]
        exact hs.same rfl rfl
    · exact hs.same rfl rfl
  have hsend : TlsStep.KeepsReach m (tlsHandshakeSend m) := by
    apply Prog.keeps_get_bind
    intro s hs
    rw [Prog.modify_bind]
    split
    · exact hs.same rfl rfl
    · exact hs.same rfl rfl
  have hdone : TlsStep.KeepsReach m (tlsHandshakeDone m) := by
    apply Prog.keeps_get_bind
    intro s hs
    split
    next hstate =>
      rcases hrun : ignoreRet (m.handshakeDoneFrameBuild s.pktType) s.conn.host with ⟨r, host⟩
      cases r with
      | error e =>
        have hhost : TlsStep.onConn (TlsConn.onHost
            (ignoreRet (m.handshakeDoneFrameBuild s.pktType))) s =
            (.error e, { s with conn.host := host }) := Prog.zoom_of_error (Prog.zoom_of_error hrun)
        rw [Prog.bind_of_error hhost]
        exact hs.same rfl rfl
      | ok a =>
        have hhost : TlsStep.onConn (TlsConn.onHost
            (ignoreRet (m.handshakeDoneFrameBuild s.pktType))) s =
            (.ok a, { s with conn.host := host }) := Prog.zoom_of_ok (Prog.zoom_of_ok hrun)
        rw [Prog.bind_of_ok hhost]
        exact .other hs (.inr ⟨hstate, rfl⟩) rfl
    · exact hs
  apply Prog.keeps_get_bind
  intro s hs
  rw [Prog.modify_bind]
  have hrest : TlsStep.KeepsReach m (tlsHandshakeOffset ret >>= fun _ => tlsHandshakeSend m >>=
      fun _ => tlsHandshakeDone m >>= fun _ => Prog.ofExcept ret) := by
    apply hoffset.bind
    intro _
    apply hsend.bind
    intro _
    apply hdone.bind
    intro _
    exact Prog.keeps_ofExcept (fun _ hs => hs) _
  exact hrest _ (hs.same rfl rfl)

/-- Calls of `TlsHandshake` lead where the loop can come to. -/
theorem reaches_tlsHandshake {c : TlsConn τ} (fuel : ℕ) (h : Reaches m c.start) :
    Reaches m (tlsHandshake m fuel c).2.start := by
  have hbody : TlsStep.KeepsReach m (tlsHandshakeBody m fuel) := by
    refine TlsStep.KeepsReach.bind (tlsHandshakeStatem_keepsReach fuel).attempt ?_
    intro r
    cases r with
    | ok ret => exact tlsHandshakeFinish_keepsReach _
    | error e =>
      cases e with
      | ret => exact tlsHandshakeFinish_keepsReach _
      | assert | ub | fuel => exact Prog.keeps_fail (fun _ hs => hs) _
  rw [tlsHandshake, Prog.get_bind]
  by_cases hassert : quicGe (((c.buffer.dataLen : ℤ) - c.buffer.offset) % 2 ^ 64) 0
  · rw [Prog.ensure_of_pos hassert, Prog.pure_bind, Prog.zoom_apply]
    exact (hbody c.start h).same rfl rfl
  · rw [Prog.ensure_of_neg hassert, Prog.fail_bind]
    exact h

end Calls

/-- A client whose handlers accept every message. -/
def willingClient : TlsMethod Unit where
  proc := clientProc
    { clientHelloBuild := pure ()
      clntFinishedBuild := pure ()
      serverHelloProc := fun _ => pure ()
      encExtProc := fun _ => pure ()
      serverCertProc := fun _ => pure ()
      certVerifyProc := fun _ => pure ()
      clientFinishedProc := fun _ => pure ()
      clntNewSessionTicketProc := fun _ => pure ()
      clientEncExtPostWork := pure ()
      clientFinishedPostWork := pure ()
      hit := fun _ => false }
  takeMac := pure ()
  finishMac := fun _ => pure ()
  cryptoFrameBuild := fun _ _ => pure ()
  handshakeDoneFrameBuild := fun _ => pure ()

/-- A connection in a state, with bytes to read and messages that were handled. -/
def clientStep (q : TlsState) (rest : List UInt8) (handled : List (TlsState × List UInt8)) :
    TlsStep Unit where
  conn := { handshakeState := q, buffer := quicBufInit 0, host := (), handled }
  input := { past := [], rest, beyond := 0 }
  pkt := wPacketStaticBufInit 4
  pktType := quicPktTypeInitial

/-- A message of the server without a body. -/
def emptyMessage (type : TlsMessageType) : WireMessage := ⟨UInt8.ofNat type.code, [], by decide⟩

/-- The ServerHello as it was handled. -/
def serverHelloHandled : List (TlsState × List UInt8) :=
  [(.crServerHello, (emptyMessage .serverHello).bytes)]

/-- The ServerHello and the EncryptedExtensions message as they were handled. -/
def encExtHandled : List (TlsState × List UInt8) :=
  serverHelloHandled ++ [(.crEncryptedExtensions, (emptyMessage .encryptedExtensions).bytes)]

/-- A round, after which other bytes can be there to read. -/
theorem Reaches.goOn {s t : TlsStep Unit} (hs : Reaches willingClient s)
    (hstate : (tlsHandshakeRound willingClient s).2.conn.handshakeState = t.conn.handshakeState)
    (hhandled : (tlsHandshakeRound willingClient s).2.conn.handled = t.conn.handled) :
    Reaches willingClient t :=
  (Reaches.round hs rfl).same hstate.symm hhandled.symm

/-- The client comes to the state behind the ServerHello. -/
theorem reaches_encryptedExtensions (rest : List UInt8) :
    Reaches willingClient (clientStep .crEncryptedExtensions rest serverHelloHandled) := by
  have hok : Reaches willingClient (clientStep .ok [] []) := .start rfl rfl
  have hwrite : Reaches willingClient (clientStep .cwClientHello [] []) :=
    hok.goOn (by decide +kernel) (by decide +kernel)
  have hread : Reaches willingClient
      (clientStep .crServerHello (emptyMessage .serverHello).bytes []) :=
    hwrite.goOn (by decide +kernel) (by decide +kernel)
  exact hread.goOn (show _ = TlsState.crEncryptedExtensions by decide +kernel)
    (show _ = serverHelloHandled by decide +kernel)

/-- The client comes to the state behind the EncryptedExtensions message. -/
theorem reaches_certRequest (rest : List UInt8) :
    Reaches willingClient (clientStep .crCertRequest rest encExtHandled) :=
  (reaches_encryptedExtensions (emptyMessage .encryptedExtensions).bytes).goOn
    (show _ = TlsState.crCertRequest by decide +kernel)
    (show _ = encExtHandled by decide +kernel)

/-- A ServerHello that comes again before the EncryptedExtensions message is dropped. -/
theorem dispatches_serverHello :
    Dispatches willingClient
      (clientStep .crEncryptedExtensions (emptyMessage .serverHello).bytes serverHelloHandled)
      (emptyMessage .serverHello).type.toNat := by
  refine (dispatches_iff (.inl ⟨_, rfl⟩) (reaches_encryptedExtensions _) rfl rfl rfl
    (by decide)).mpr (.inr ⟨rfl, fun _ => iff_of_true ?_ ?_⟩)
  · exact ⟨_, List.mem_singleton.mpr rfl, rfl⟩
  · exact ⟨emptyMessage .serverHello, [], (List.append_nil _).symm⟩

/-- An EncryptedExtensions message that comes again changes the state of a client that waits for a
CertificateRequest. -/
theorem not_dispatches_encryptedExtensions :
    Reaches willingClient
        (clientStep .crCertRequest (emptyMessage .encryptedExtensions).bytes encExtHandled) ∧
      ¬ Dispatches willingClient
        (clientStep .crCertRequest (emptyMessage .encryptedExtensions).bytes encExtHandled)
        (emptyMessage .encryptedExtensions).type.toNat := by
  refine ⟨reaches_certRequest _, fun h => ?_⟩
  have hprocessed : Processed willingClient
      (clientStep .crCertRequest (emptyMessage .encryptedExtensions).bytes encExtHandled).conn
      (emptyMessage .encryptedExtensions).type.toNat :=
    ⟨_, List.mem_append_right _ (List.mem_singleton.mpr rfl), rfl⟩
  have hnone : ¬ ∃ q, Expected willingClient
      (clientStep .crCertRequest (emptyMessage .encryptedExtensions).bytes encExtHandled).conn
      (emptyMessage .encryptedExtensions).type.toNat q := by
    rintro ⟨q, hskips, _, htype⟩
    have hrun : tlsSkip willingClient.proc () (emptyMessage .encryptedExtensions).type.toNat 2
        .crCertRequest = .ok (.crServerCertificate, false) := rfl
    exact Bool.false_ne_true (found_of_skipsTo hskips htype hrun)
  have hstate := (h.retrans hnone hprocessed).2
  have hmoved : (tlsHandshakeRead willingClient (clientStep .crCertRequest
      (emptyMessage .encryptedExtensions).bytes encExtHandled)).2.conn.handshakeState =
      .crServerCertificate := by decide +kernel
  rw [hmoved] at hstate
  cases hstate

end Tbquic
