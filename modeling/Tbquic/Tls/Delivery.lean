import Tbquic.Tls.Position

/-!
# Delivery of a flight

Messages that are delivered one after the other, the memory that their handlers see and the loop
of `TlsHandshakeStatem` over them.
-/

namespace Tbquic

variable {τ : Type} {m : TlsMethod τ}

/-- The bytes of messages that follow each other. -/
def flightBytes (msgs : List WireMessage) : List UInt8 := msgs.flatMap WireMessage.bytes

@[simp] theorem flightBytes_nil : flightBytes [] = [] := rfl

@[simp] theorem flightBytes_cons (msg : WireMessage) (msgs : List WireMessage) :
    flightBytes (msg :: msgs) = msg.bytes ++ flightBytes msgs := rfl

@[simp] theorem flightBytes_append (msgs others : List WireMessage) :
    flightBytes (msgs ++ others) = flightBytes msgs ++ flightBytes others :=
  List.flatMap_append

/-- The front of a flight consists of complete messages and the front of the next one. -/
theorem flightBytes_split {todo : List WireMessage} {front back : List UInt8}
    (h : front ++ back = flightBytes todo) :
    ∃ now rest part, todo = now ++ rest ∧ front = flightBytes now ++ part ∧
      (rest = [] → part = []) ∧ ∀ next more, rest = next :: more →
        part <+: next.bytes ∧ part.length < next.bytes.length := by
  induction todo generalizing front with
  | nil =>
    obtain ⟨rfl, rfl⟩ := List.append_eq_nil_iff.mp h
    exact ⟨[], [], [], rfl, rfl, fun _ => rfl, nofun⟩
  | cons msg todo ih =>
    rw [flightBytes_cons] at h
    by_cases hlt : front.length < msg.bytes.length
    · refine ⟨[], msg :: todo, front, rfl, rfl, nofun, ?_⟩
      rintro next more heq
      cases heq
      exact ⟨List.prefix_of_prefix_length_le ⟨back, h⟩ ⟨_, rfl⟩ hlt.le, hlt⟩
    · obtain ⟨front, rfl⟩ : msg.bytes <+: front :=
        List.prefix_of_prefix_length_le ⟨_, rfl⟩ ⟨back, h⟩ (by omega)
      rw [List.append_assoc] at h
      obtain ⟨now, rest, part, rfl, rfl, hnil, hnext⟩ := ih (List.append_cancel_left h)
      exact ⟨msg :: now, rest, part, rfl, by simp, hnil, hnext⟩

/-- The messages at the front of a flight are known from its bytes. -/
theorem flightBytes_inj {now now' more rest : List WireMessage} {next : WireMessage}
    {part : List UInt8} (hsplit : now ++ next :: more = now' ++ rest)
    (hlt : part.length < next.bytes.length) (h : flightBytes now ++ part = flightBytes now') :
    part = [] ∧ now' = now := by
  have hbytes (msg : WireMessage) (msgs : List WireMessage) :
      0 < (flightBytes (msg :: msgs)).length := by
    rw [flightBytes_cons, List.length_append, WireMessage.bytes_length]
    omega
  rcases List.append_eq_append_iff.mp hsplit with ⟨between, rfl, hnext⟩ | ⟨between, rfl, hrest⟩
  · rw [flightBytes_append] at h
    have hpart := List.append_cancel_left h
    cases between with
    | nil => exact ⟨hpart, List.append_nil now⟩
    | cons msg between =>
      rw [List.cons_append, List.cons.injEq] at hnext
      obtain ⟨rfl, _⟩ := hnext
      rw [hpart, flightBytes_cons, List.length_append] at hlt
      omega
  · have hlength := congrArg List.length h
    rw [flightBytes_append, List.length_append, List.length_append] at hlength
    have hpart : part = [] := List.eq_nil_of_length_eq_zero (by omega)
    cases between with
    | nil => exact ⟨hpart, (List.append_nil now').symm⟩
    | cons msg between =>
      have hpos := hbytes msg between
      omega

/-- Deliver messages one after the other. -/
def tlsDeliverAll (m : TlsMethod τ) : List WireMessage → Prog Fail (TlsConn τ) Unit
  | [] => pure ()
  | msg :: msgs => do
    tlsDeliver m msg
    tlsDeliverAll m msgs

/-- Replace the buffer of the handshake. -/
def TlsConn.withBuffer (b : QuicBuffer) (c : TlsConn τ) : TlsConn τ := { c with buffer := b }

section Delivery

variable {msg msg' : WireMessage} {c c₁ c' c'' : TlsConn τ} {q q' : TlsState}

/-- What is known of the state that reads a message. -/
theorem Delivery.skipped (hm : m.Regular) (h : Delivery m msg c c' q) :
    Skipped m c.host msg.type.toNat c.handshakeState q true :=
  hm.skipped h.reading h.skip

/-- The type of a message is that of the state that reads it. -/
theorem Delivery.type_eq (hm : m.Regular) (h : Delivery m msg c c' q) :
    msg.type.toNat = (m.proc q).msgType.code :=
  of_decide_eq_true (h.skipped hm).found_eq.symm

/-- Where nothing can be skipped the state of the connection reads the message. -/
theorem Delivery.eq_of_skipCheck (h : Delivery m msg c c' q)
    (hskip : (m.proc c.handshakeState).skipCheck c.host = false) : q = c.handshakeState := by
  have hrun := h.skip
  rw [show TlsState.all.length = 24 + 1 from rfl, tlsSkip, hskip,
    if_neg Bool.false_ne_true] at hrun
  split at hrun
  · cases hrun
    rfl
  · cases hrun

/-- A message that another one of the same level follows leaves the buffer alone. -/
theorem Delivery.buffer_eq (hm : m.Regular) (h : Delivery m msg c c' q)
    (h' : Delivery m msg' c' c'' q')
    (hlevel : tlsMessageLevel msg.type.toNat = tlsMessageLevel msg'.type.toNat) :
    c'.buffer = c.buffer := by
  obtain ⟨h₁, h₂, handler, r, _, _, hflow, hhandler, _, hbuffer⟩ := h.handlers
  have hreading := (h.skipped hm).reading
  by_cases hhello : (m.proc q).msgType = .serverHello
  · obtain ⟨hskip, hnext⟩ := hm.hello hreading hhello
    have hq : q' = c'.handshakeState := by
      apply h'.eq_of_skipCheck
      rw [h.state]
      exact hskip _
    rw [h.type_eq hm, h'.type_eq hm, hq, h.state, hhello] at hlevel
    exact absurd hlevel.symm hnext
  · rw [hbuffer, hm.keeps hflow hhello hhandler]

/-- A delivery does not depend on the parts of the buffer that the handlers do not see. -/
theorem Delivery.withBuffer (h : Delivery m msg c c' q) {b : QuicBuffer}
    (hreserved : b.reserved = c.buffer.reserved)
    (hhead : b.mem.take (c.buffer.reserved + msg.bytes.length) =
      c.buffer.mem.take (c.buffer.reserved + msg.bytes.length)) :
    Delivery m msg (c.withBuffer b)
      (c'.withBuffer { b with reserved := c'.buffer.reserved }) q := by
  obtain ⟨h₁, h₂, handler, r, hmac, hfinish, hflow, hhandler, hpost, hbuffer⟩ := h.handlers
  refine ⟨h.reading, h.skip, ⟨h₁, h₂, handler, r, hmac, hfinish, hflow, ?_, hpost, ?_⟩, h.state,
    h.handled⟩
  · change handler { bytes := msg.bytes, head := b.mem.take (b.reserved + msg.bytes.length) }
      { host := h₂, reserved := b.reserved } = _
    rw [hreserved, hhead]
    exact hhandler
  · change ({ b with reserved := c'.buffer.reserved } : QuicBuffer) = _
    rw [hbuffer]
    rfl

/-- A message that another one follows is delivered alike with another buffer. -/
theorem tlsDeliver_withBuffer (hm : m.Regular) (h : tlsDeliver m msg c = (.ok (), c'))
    (h' : tlsDeliver m msg' c' = (.ok (), c''))
    (hlevel : tlsMessageLevel msg.type.toNat = tlsMessageLevel msg'.type.toNat) :
    c'.buffer = c.buffer ∧ ∀ {b : QuicBuffer}, b.reserved = c.buffer.reserved →
      b.mem.take (c.buffer.reserved + msg.bytes.length) =
        c.buffer.mem.take (c.buffer.reserved + msg.bytes.length) →
      tlsDeliver m msg (c.withBuffer b) = (.ok (), c'.withBuffer b) := by
  obtain ⟨q, hdelivery⟩ := tlsDeliver_iff.mp h
  obtain ⟨q', hdelivery'⟩ := tlsDeliver_iff.mp h'
  have hbuffer := hdelivery.buffer_eq hm hdelivery' hlevel
  refine ⟨hbuffer, fun hreserved hhead => tlsDeliver_iff.mpr ⟨q, ?_⟩⟩
  have hsame := hdelivery.withBuffer hreserved hhead
  rw [hbuffer, ← hreserved] at hsame
  exact hsame

/-- The first messages of a flight of one level leave the buffer alone and are delivered alike
with another buffer. -/
theorem tlsDeliverAll_front (hm : m.Regular) {msgs more : List WireMessage} {next : WireMessage}
    {level : ℕ} (hlevel : ∀ msg ∈ msgs ++ next :: more, tlsMessageLevel msg.type.toNat = level)
    (h : tlsDeliverAll m (msgs ++ next :: more) c = (.ok (), c')) :
    ∃ c₁, tlsDeliverAll m msgs c = (.ok (), c₁) ∧
      tlsDeliverAll m (next :: more) c₁ = (.ok (), c') ∧ c₁.buffer = c.buffer ∧
      ∀ {b : QuicBuffer}, b.reserved = c.buffer.reserved →
        (∀ msg ∈ msgs, b.mem.take (c.buffer.reserved + msg.bytes.length) =
          c.buffer.mem.take (c.buffer.reserved + msg.bytes.length)) →
        tlsDeliverAll m msgs (c.withBuffer b) = (.ok (), c₁.withBuffer b) := by
  induction msgs generalizing c with
  | nil => exact ⟨c, rfl, h, rfl, fun _ _ => rfl⟩
  | cons msg msgs ih =>
    rw [List.cons_append] at h
    obtain ⟨_, c₂, hfirst, hrest⟩ := Prog.bind_eq_ok.mp h
    obtain ⟨c₁, hmsgs, hnext, hbuffer, halike⟩ :=
      ih (fun a ha => hlevel a (List.mem_cons_of_mem msg ha)) hrest
    obtain ⟨second, others, hsecond⟩ : ∃ second others,
      msgs ++ next :: more = second :: others := by
      cases msgs with
      | nil => exact ⟨next, more, rfl⟩
      | cons second others => exact ⟨second, others ++ next :: more, rfl⟩
    have hlevels : tlsMessageLevel msg.type.toNat = tlsMessageLevel second.type.toNat := by
      rw [hlevel msg List.mem_cons_self, hlevel second]
      rw [List.cons_append, hsecond]
      exact List.mem_cons_of_mem msg List.mem_cons_self
    rw [hsecond] at hrest
    obtain ⟨_, c₃, hdeliver, _⟩ := Prog.bind_eq_ok.mp hrest
    obtain ⟨hsame, hother⟩ := tlsDeliver_withBuffer hm hfirst hdeliver hlevels
    refine ⟨c₁, ?_, hnext, hbuffer.trans hsame, ?_⟩
    · rw [tlsDeliverAll, Prog.bind_of_ok hfirst]
      exact hmsgs
    · intro b hreserved hhead
      rw [tlsDeliverAll, Prog.bind_of_ok (hother hreserved (hhead msg List.mem_cons_self))]
      apply halike
      · rw [hsame]
        exact hreserved
      · intro a ha
        rw [hsame]
        exact hhead a (List.mem_cons_of_mem msg ha)

/-- A flight in two parts is delivered one part after the other. -/
theorem tlsDeliverAll_append {msgs others : List WireMessage}
    (h : tlsDeliverAll m msgs c = (.ok (), c')) (h' : tlsDeliverAll m others c' = (.ok (), c'')) :
    tlsDeliverAll m (msgs ++ others) c = (.ok (), c'') := by
  induction msgs generalizing c with
  | nil =>
    cases h
    exact h'
  | cons msg msgs ih =>
    obtain ⟨_, c₁, hfirst, hrest⟩ := Prog.bind_eq_ok.mp h
    rw [List.cons_append, tlsDeliverAll, Prog.bind_of_ok hfirst]
    exact ih hrest

/-- A connection that a message is delivered to reads. -/
theorem isReading_of_tlsDeliverAll {msgs : List WireMessage}
    (h : tlsDeliverAll m (msg :: msgs) c = (.ok (), c')) :
    (m.proc c.handshakeState).isReading = true := by
  obtain ⟨_, c₁, hfirst, _⟩ := Prog.bind_eq_ok.mp h
  exact (tlsDeliver_eq_ok hfirst).1

/-- A state that repeats itself reads messages of its type only. -/
theorem tlsDeliverAll_repeat (hm : m.Regular) {msgs : List WireMessage}
    (hnext : (m.proc q).nextState = q) (hskip : ∀ host, (m.proc q).skipCheck host = false)
    (hstate : c.handshakeState = q) (h : tlsDeliverAll m msgs c = (.ok (), c')) :
    c'.handshakeState = q ∧ ∀ msg ∈ msgs, msg.type.toNat = (m.proc q).msgType.code := by
  induction msgs generalizing c with
  | nil =>
    cases h
    exact ⟨hstate, by simp⟩
  | cons msg msgs ih =>
    obtain ⟨_, c₁, hfirst, hrest⟩ := Prog.bind_eq_ok.mp h
    obtain ⟨q', hdelivery⟩ := tlsDeliver_iff.mp hfirst
    have hq : q' = q := by
      rw [← hstate]
      apply hdelivery.eq_of_skipCheck
      rw [hstate]
      exact hskip _
    subst hq
    obtain ⟨hend, htypes⟩ := ih (hdelivery.state.trans hnext) hrest
    refine ⟨hend, ?_⟩
    intro a ha
    rcases List.mem_cons.mp ha with rfl | ha
    · exact hdelivery.type_eq hm
    · exact htypes a ha

/-- The states that read messages follow their order. -/
theorem index_le_of_tlsDeliverAll (hm : m.Regular) {msgs : List WireMessage}
    (h : tlsDeliverAll m msgs c = (.ok (), c'))
    (hreading : (m.proc c'.handshakeState).isReading = true) :
    (m.proc c.handshakeState).isReading = true ∧
      c.handshakeState.index ≤ c'.handshakeState.index := by
  induction msgs generalizing c with
  | nil =>
    cases h
    exact ⟨hreading, Nat.le_refl _⟩
  | cons msg msgs ih =>
    obtain ⟨_, c₁, hfirst, hrest⟩ := Prog.bind_eq_ok.mp h
    obtain ⟨q', hdelivery⟩ := tlsDeliver_iff.mp hfirst
    obtain ⟨hnext, hle⟩ := ih hrest
    have hskipped := hdelivery.skipped hm
    refine ⟨hdelivery.reading, hskipped.le.trans ?_⟩
    rw [hdelivery.state] at hnext hle
    rcases hm.next hskipped.reading hnext with hlt | ⟨hsame, _⟩
    · exact hlt.le.trans hle
    · rwa [hsame] at hle

/-- After messages were delivered, the first of them is read in an earlier state or again and
again. -/
theorem tlsDeliverAll_first (hm : m.Regular) {msgs : List WireMessage}
    (hfirst : Delivery m msg c c₁ q) (h : tlsDeliverAll m msgs c₁ = (.ok (), c'))
    (hreading : (m.proc c'.handshakeState).isReading = true) :
    q.index < c'.handshakeState.index ∨
      (m.proc q).nextState = q ∧ (∀ host, (m.proc q).skipCheck host = false) ∧
        c'.handshakeState = q := by
  obtain ⟨hnext, hle⟩ := index_le_of_tlsDeliverAll hm h hreading
  rw [hfirst.state] at hnext hle
  rcases hm.next (hfirst.skipped hm).reading hnext with hlt | ⟨hsame, hskip⟩
  · exact .inl (hlt.trans_le hle)
  · exact .inr ⟨hsame, hskip, (tlsDeliverAll_repeat hm hsame hskip
      (hfirst.state.trans hsame) h).1⟩

/-- The messages delivered are handled in their order. -/
theorem handled_of_tlsDeliverAll {msgs : List WireMessage}
    (h : tlsDeliverAll m msgs c = (.ok (), c')) :
    c'.handled.map Prod.snd = c.handled.map Prod.snd ++ msgs.map WireMessage.bytes := by
  induction msgs generalizing c with
  | nil =>
    cases h
    simp
  | cons msg msgs ih =>
    obtain ⟨_, c₁, hfirst, hrest⟩ := Prog.bind_eq_ok.mp h
    obtain ⟨q, hdelivery⟩ := tlsDeliver_iff.mp hfirst
    rw [ih hrest, hdelivery.handled]
    simp

end Delivery

section Loop

variable {c c' : TlsConn τ} {w : WPacket} {t : ℕ} {msg : WireMessage} {msgs : List WireMessage}
  {past rest : List UInt8} {r : Except Fail QuicFlowReturn × TlsStep τ}

/-- In a state that reads, the packet type of the rounds before does not matter. -/
theorem TlsStep.ends_pktType {i : TlsInput} (t' : ℕ)
    (hreading : (m.proc c.handshakeState).isReading = true)
    (h : TlsStep.Ends m ⟨c, i, w, t⟩ r) : TlsStep.Ends m ⟨c, i, w, t'⟩ r := by
  refine TlsStep.ends_congr ?_ h
  have hnot : ∀ t, TlsStep.setPktType (m.proc c.handshakeState) ⟨c, i, w, t⟩ =
      ⟨c, i, w, (m.proc c.handshakeState).pktType⟩ := by
    intro t
    unfold TlsProcess.isReading at hreading
    split at hreading
    · rename_i handler hflow
      rw [TlsStep.setPktType, hflow]
    · cases hreading
  rw [tlsHandshakeRound, Prog.get_bind, Prog.modify_bind, Prog.get_bind, Prog.modify_bind, hnot,
    hnot]

/-- The loop goes on behind the messages delivered. -/
theorem TlsStep.ends_tlsDeliverAll (h : tlsDeliverAll m msgs c = (.ok (), c'))
    (hlen : (flightBytes msgs ++ rest).length < 2 ^ 31) (past : List UInt8) (t : ℕ) :
    ∃ t', ∀ {r}, TlsStep.Ends m ⟨c, ⟨past, flightBytes msgs ++ rest, 0⟩, w, t⟩ r ↔
      TlsStep.Ends m ⟨c', ⟨past ++ flightBytes msgs, rest, 0⟩, w, t'⟩ r := by
  induction msgs generalizing c past t with
  | nil =>
    cases h
    refine ⟨t, ?_⟩
    simp
  | cons msg msgs ih =>
    obtain ⟨_, c₁, hfirst, hrest⟩ := Prog.bind_eq_ok.mp h
    rw [flightBytes_cons, List.append_assoc] at hlen ⊢
    obtain ⟨t', hends⟩ := ih hrest (by rw [List.length_append] at hlen; omega)
      (past ++ msg.bytes) (m.proc c.handshakeState).pktType
    refine ⟨t', ?_⟩
    intro r
    rw [TlsStep.ends_iff_of_none (tlsHandshakeRound_of_deliver hlen hfirst), hends,
      List.append_assoc]

/-- A loop that handles as many messages as there are delivers them. -/
theorem TlsStep.Ends.deliverAll (hm : m.Regular) {ret : QuicFlowReturn} {s : TlsStep τ}
    (hflow : (m.proc c.handshakeState).flow ≠ .nothing)
    (hlen : (flightBytes msgs).length < 2 ^ 31)
    (h : TlsStep.Ends m ⟨c, ⟨past, flightBytes msgs, 0⟩, w, t⟩ (.ok ret, s))
    (hhandled : s.conn.handled.length = c.handled.length + msgs.length) :
    ∃ c', tlsDeliverAll m msgs c = (.ok (), c') := by
  induction msgs generalizing c past t with
  | nil => exact ⟨c, rfl⟩
  | cons msg msgs ih =>
    rw [List.length_cons] at hhandled
    have hreading : (m.proc c.handshakeState).isReading = true := by
      by_contra hnot
      have hquiet := TlsProcess.isQuiet_of_flow hflow hnot
      have hsame := TlsStep.Ends.handled_of_quiet hm (s := ⟨c, _, w, t⟩) hquiet h
      rw [hsame] at hhandled
      change c.handled.length = _ at hhandled
      omega
    rw [flightBytes_cons] at hlen h
    rcases tlsHandshakeRound_complete (w := w) (t := t) past hlen hreading with
      ⟨c₁, hdeliver⟩ | ⟨e, s', hround⟩ | ⟨q, i, _, hround⟩
    · obtain ⟨q, hdelivery⟩ := tlsDeliver_iff.mp hdeliver
      have hrest := (TlsStep.ends_iff_of_none (tlsHandshakeRound_of_deliver hlen hdeliver)).mp h
      obtain ⟨c', hall⟩ := ih (c := c₁) (by
          rw [hdelivery.state]
          exact hm.next_flow (hdelivery.skipped hm).reading)
        (by rw [List.length_append] at hlen; omega) hrest (by
          rw [hhandled, hdelivery.handled, List.length_append, List.length_singleton]
          omega)
      refine ⟨c', ?_⟩
      rw [tlsDeliverAll, Prog.bind_of_ok hdeliver]
      exact hall
    · exact absurd hround (h.round_ne_error e s')
    · have hend := h.unique (TlsStep.ends_of_some hround)
      cases hend
      change c.handled.length = _ at hhandled
      omega

end Loop

end Tbquic
