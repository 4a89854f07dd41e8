import Tbquic.Tls.Statem

/-!
# Reading messages

What `TlsHandshakeStatem` does with complete and with incomplete messages of the peer. A
complete message is delivered to its handler, and an incomplete one stays in the buffer.
-/

namespace Tbquic

/-- A message of the handshake on the wire. -/
structure WireMessage where
  /-- The type. -/
  type : UInt8
  /-- The body. -/
  body : List UInt8
  /-- The length of the body has three bytes. -/
  small : body.length < 2 ^ 24

namespace WireMessage

/-- The bytes of a message. -/
def bytes (msg : WireMessage) : List UInt8 :=
  msg.type :: (Bytes.ofNat 3 msg.body.length ++ msg.body)

variable (msg : WireMessage)

theorem bytes_length : msg.bytes.length = 4 + msg.body.length := by
  simp [bytes]
  omega

end WireMessage

section Ends

variable {τ : Type} {m : TlsMethod τ} {s t : TlsStep τ} {ret : QuicFlowReturn} {e : Fail}
  {r r' : Except Fail QuicFlowReturn × TlsStep τ}

/-- More fuel does not change the outcome of the loop. -/
theorem tlsHandshakeStatem_mono {fuel k : ℕ} (hk : fuel ≤ k)
    (h : (tlsHandshakeStatem m fuel s).1 ≠ .error .fuel) :
    tlsHandshakeStatem m k s = tlsHandshakeStatem m fuel s := by
  induction fuel generalizing s k with
  | zero => exact absurd rfl h
  | succ fuel ih =>
    obtain ⟨k, rfl⟩ : ∃ j, k = j + 1 := ⟨k - 1, by omega⟩
    rw [tlsHandshakeStatem] at h ⊢
    rw [tlsHandshakeStatem]
    rcases hround : tlsHandshakeRound m s with ⟨r, t⟩
    cases r with
    | error e => rw [Prog.bind_of_error hround, Prog.bind_of_error hround]
    | ok o =>
      rw [Prog.bind_of_ok hround] at h ⊢
      rw [Prog.bind_of_ok hround]
      cases o with
      | some ret => rfl
      | none => exact ih (by omega) h

/-- The outcome of the loop with enough fuel. -/
def TlsStep.Ends (m : TlsMethod τ) (s : TlsStep τ)
    (r : Except Fail QuicFlowReturn × TlsStep τ) : Prop :=
  r.1 ≠ .error .fuel ∧ ∃ fuel, tlsHandshakeStatem m fuel s = r

/-- The loop has one outcome. -/
theorem TlsStep.Ends.unique (h : s.Ends m r) (h' : s.Ends m r') : r = r' := by
  obtain ⟨hr, fuel, rfl⟩ := h
  obtain ⟨hr', fuel', rfl⟩ := h'
  rcases Nat.le_total fuel fuel' with hle | hle
  · exact (tlsHandshakeStatem_mono hle hr).symm
  · exact tlsHandshakeStatem_mono hle hr'

/-- The loop ends with its last round. -/
theorem TlsStep.ends_of_some (h : tlsHandshakeRound m s = (.ok (some ret), t)) :
    s.Ends m (.ok ret, t) := by
  refine ⟨nofun, 1, ?_⟩
  rw [tlsHandshakeStatem, Prog.bind_of_ok h]
  rfl

/-- The loop goes on after a round. -/
theorem TlsStep.ends_of_none (h : tlsHandshakeRound m s = (.ok none, t)) (ht : t.Ends m r) :
    s.Ends m r := by
  obtain ⟨hr, fuel, hrun⟩ := ht
  refine ⟨hr, fuel + 1, ?_⟩
  rw [tlsHandshakeStatem, Prog.bind_of_ok h]
  exact hrun

/-- An outcome of the loop has a first round. -/
theorem TlsStep.Ends.round (h : s.Ends m r) :
    (∃ ret t, tlsHandshakeRound m s = (.ok (some ret), t) ∧ r = (.ok ret, t)) ∨
      (∃ t, tlsHandshakeRound m s = (.ok none, t) ∧ t.Ends m r) ∨
      ∃ e t, tlsHandshakeRound m s = (.error e, t) ∧ r = (.error e, t) := by
  obtain ⟨hr, fuel, hrun⟩ := h
  cases fuel with
  | zero =>
    rw [← hrun] at hr
    exact absurd rfl hr
  | succ fuel =>
    rw [tlsHandshakeStatem] at hrun
    rcases hround : tlsHandshakeRound m s with ⟨o, t⟩
    cases o with
    | error e =>
      rw [Prog.bind_of_error hround] at hrun
      exact .inr (.inr ⟨e, t, rfl, hrun.symm⟩)
    | ok o =>
      rw [Prog.bind_of_ok hround] at hrun
      cases o with
      | some ret => exact .inl ⟨ret, t, rfl, hrun.symm⟩
      | none => exact .inr (.inl ⟨t, rfl, hr, fuel, hrun⟩)

/-- A round that is not the last one does not change the outcome. -/
theorem TlsStep.ends_iff_of_none (h : tlsHandshakeRound m s = (.ok none, t)) :
    s.Ends m r ↔ t.Ends m r := by
  constructor
  · intro hs
    rcases hs.round with ⟨ret, t', hround, _⟩ | ⟨t', hround, ht⟩ | ⟨e, t', hround, _⟩
    · rw [h] at hround
      cases hround
    · rw [h] at hround
      cases hround
      exact ht
    · rw [h] at hround
      cases hround
  · exact TlsStep.ends_of_none h

/-- A loop that ends well does not start with a failing round. -/
theorem TlsStep.Ends.round_ne_error (h : s.Ends m (.ok ret, t)) (e : Fail) (u : TlsStep τ) :
    tlsHandshakeRound m s ≠ (.error e, u) := by
  intro hround
  rcases h.round with ⟨_, _, hother, _⟩ | ⟨_, hother, _⟩ | ⟨_, _, _, hend⟩
  · rw [hround] at hother
    cases hother
  · rw [hround] at hother
    cases hother
  · cases hend

/-- Equal rounds have equal outcomes. -/
theorem TlsStep.ends_congr (h : tlsHandshakeRound m s = tlsHandshakeRound m t)
    (hs : s.Ends m r) : t.Ends m r := by
  obtain ⟨hr, fuel, hrun⟩ := hs
  refine ⟨hr, fuel, ?_⟩
  cases fuel with
  | zero =>
    rw [← hrun] at hr
    exact absurd rfl hr
  | succ fuel =>
    rw [tlsHandshakeStatem, Prog.bind_apply] at hrun ⊢
    rw [← h]
    exact hrun

end Ends

namespace TlsInput

variable {past rest : List UInt8}

/-- Bytes that are there are read. -/
theorem get_append (past bytes rest : List UInt8) (hrest : rest.length < 2 ^ 31) :
    get bytes.length { past, rest := bytes ++ rest, beyond := 0 } =
      (.ok bytes, { past := past ++ bytes, rest, beyond := 0 }) := by
  have hcheck : ¬ quicLt (((bytes ++ rest).length + 0 : ℕ) : ℤ) bytes.length := by
    rw [Nat.add_zero, List.length_append, quicLt_iff] <;> omega
  have hbound : ¬ (bytes ++ rest).length < bytes.length := by simp
  simp only [get, remaining, if_neg hcheck, if_neg hbound, List.take_left, forward,
    List.drop_left]

/-- Bytes that are not all there are not read. -/
theorem get_of_lt {len : ℕ} {i : TlsInput} (h : i.remaining < len) (hlen : len < 2 ^ 31) :
    get len i = (.error .ret, i) := by
  have hcheck : quicLt (i.remaining : ℤ) len := by
    rw [quicLt_iff] <;> omega
  rw [get, if_pos hcheck]

/-- The length and the body of a message are read. -/
theorem message_append (past rest : List UInt8) (msg : WireMessage)
    (hrest : (msg.body ++ rest).length < 2 ^ 31) :
    message { past, rest := Bytes.ofNat 3 msg.body.length ++ (msg.body ++ rest), beyond := 0 } =
      (.ok msg.body.length,
        { past := past ++ (Bytes.ofNat 3 msg.body.length ++ msg.body), rest, beyond := 0 }) := by
  have hlen := get_append past (Bytes.ofNat 3 msg.body.length) _ hrest
  have hbody := get_append (past ++ Bytes.ofNat 3 msg.body.length) msg.body rest
    (by rw [List.length_append] at hrest; omega)
  rw [Bytes.ofNat_length] at hlen
  have hvalue := Bytes.toNat_ofNat_of_lt (show msg.body.length < 256 ^ 3 from msg.small)
  rw [message, Prog.bind_of_ok hlen, hvalue, Prog.bind_of_ok hbody, List.append_assoc]
  rfl

/-- The length and the body of an incomplete message are not read. -/
theorem message_of_incomplete (past : List UInt8) (msg : WireMessage) {part : List UInt8}
    (hpart : part <+: Bytes.ofNat 3 msg.body.length ++ msg.body)
    (hlt : part.length < 3 + msg.body.length) :
    ∃ i, message { past, rest := part, beyond := 0 } = (.error .ret, i) := by
  have hsmall : msg.body.length < 2 ^ 24 := msg.small
  by_cases hshort : part.length < 3
  · have hget : get 3 { past, rest := part, beyond := 0 } =
        (.error .ret, { past, rest := part, beyond := 0 }) :=
      get_of_lt hshort (by decide)
    exact ⟨_, by rw [message, Prog.bind_of_error hget]⟩
  · have hthree : (Bytes.ofNat 3 msg.body.length).length = 3 := Bytes.ofNat_length 3 _
    obtain ⟨more, rfl⟩ : ∃ more, part = Bytes.ofNat 3 msg.body.length ++ more := by
      obtain ⟨tail, htail⟩ := hpart
      refine ⟨part.drop 3, ?_⟩
      have htake := congrArg (List.take 3) htail
      rw [List.take_append_of_le_length (by omega), List.take_append_of_le_length (by omega),
        List.take_of_length_le (show (Bytes.ofNat 3 msg.body.length).length ≤ 3 by omega)] at htake
      rw [← htake, List.take_append_drop]
    have hlen := get_append past (Bytes.ofNat 3 msg.body.length) more
      (by rw [List.length_append] at hlt; omega)
    rw [Bytes.ofNat_length] at hlen
    have hvalue := Bytes.toNat_ofNat_of_lt (show msg.body.length < 256 ^ 3 from msg.small)
    have hbody : get msg.body.length
        { past := past ++ Bytes.ofNat 3 msg.body.length, rest := more, beyond := 0 } =
        (.error .ret,
          { past := past ++ Bytes.ofNat 3 msg.body.length, rest := more, beyond := 0 }) := by
      apply get_of_lt
      · rw [List.length_append, hthree] at hlt
        show more.length + 0 < msg.body.length
        omega
      · omega
    exact ⟨_, by rw [message, Prog.bind_of_ok hlen, hvalue, Prog.bind_of_error hbody]⟩

end TlsInput

section Reading

variable {τ : Type} {m : TlsMethod τ} {msg : WireMessage} {past rest : List UInt8}
  {q : TlsState} {c c' : TlsConn τ} {w : WPacket} {t : ℕ}

/-- Reading starts with the type of a message. -/
theorem tlsHandshakeRead_cons (past : List UInt8) {b : UInt8} (hrest : rest.length < 2 ^ 31) :
    tlsHandshakeRead m ⟨c, ⟨past, b :: rest, 0⟩, w, t⟩ = (do
      let found ← TlsStep.onConn (tlsHandshakeMatch m.proc b.toNat)
      if found.2 then tlsHandshakeMsg m ⟨past, b :: rest, 0⟩ b.toNat found.1
      else
        TlsStep.onInput (tlsHandshakeDrop (tlsHandshakeMsgRetrans m.proc b.toNat found.1)) :
      Prog Fail (TlsStep τ) QuicFlowReturn) ⟨c, ⟨past ++ [b], rest, 0⟩, w, t⟩ := by
  have hget := TlsInput.get_append past [b] rest hrest
  rw [List.length_singleton, List.singleton_append] at hget
  have htype : Bytes.toNat [b] = b.toNat := by simp [Bytes.toNat]
  rw [tlsHandshakeRead, Prog.get_bind, TlsStep.attempt_onInput_bind hget]
  dsimp only
  rw [htype]

/-- Read a complete message in a state for messages of its type. -/
theorem tlsHandshakeRead_message (past : List UInt8) (hlen : (msg.bytes ++ rest).length < 2 ^ 31)
    (hmatch : tlsHandshakeMatch m.proc msg.type.toNat c = (.ok (q, true), c')) :
    tlsHandshakeRead m ⟨c, ⟨past, msg.bytes ++ rest, 0⟩, w, t⟩ =
      (TlsStep.onConn (tlsHandshakeProc m msg.type.toNat q msg.bytes) >>= fun _ => pure .finish)
        ⟨c', ⟨past ++ msg.bytes, rest, 0⟩, w, t⟩ := by
  have hbytes : msg.bytes ++ rest =
      msg.type :: (Bytes.ofNat 3 msg.body.length ++ (msg.body ++ rest)) := by
    simp [WireMessage.bytes]
  have hbody : (Bytes.ofNat 3 msg.body.length ++ (msg.body ++ rest)).length < 2 ^ 31 := by
    rw [hbytes, List.length_cons] at hlen
    omega
  have hmsg := TlsInput.message_append (past ++ [msg.type]) rest msg
    (by rw [List.length_append] at hbody; omega)
  have htake : (msg.bytes ++ rest).take (4 + msg.body.length) = msg.bytes :=
    List.take_left' msg.bytes_length
  have hpast : past ++ [msg.type] ++ (Bytes.ofNat 3 msg.body.length ++ msg.body) =
      past ++ msg.bytes := by
    simp [WireMessage.bytes]
  rw [hpast] at hmsg
  rw [hbytes, tlsHandshakeRead_cons past hbody, TlsStep.onConn_bind_of_ok hmatch, if_pos rfl,
    tlsHandshakeMsg, TlsStep.attempt_onInput_bind hmsg]
  dsimp only
  rw [← hbytes, htake]

/-- Wait for the rest of an incomplete message. -/
theorem tlsHandshakeRead_incomplete {part : List UInt8} (hpart : part <+: msg.bytes)
    (hpos : part ≠ []) (hlt : part.length < msg.bytes.length)
    (hmatch : tlsHandshakeMatch m.proc msg.type.toNat c = (.ok (q, true), c')) :
    tlsHandshakeRead m ⟨c, ⟨past, part, 0⟩, w, t⟩ =
      (.ok .wantRead, ⟨c', ⟨past, part, 0⟩, w, t⟩) := by
  have hsmall : msg.body.length < 2 ^ 24 := msg.small
  rw [WireMessage.bytes_length] at hlt
  obtain ⟨b, part, rfl⟩ := List.exists_cons_of_ne_nil hpos
  rw [WireMessage.bytes, List.cons_prefix_cons] at hpart
  obtain ⟨rfl, hpart⟩ := hpart
  rw [List.length_cons] at hlt
  obtain ⟨i, hmsg⟩ := TlsInput.message_of_incomplete (past ++ [msg.type]) msg hpart (by omega)
  rw [tlsHandshakeRead_cons past (show part.length < 2 ^ 31 by omega),
    TlsStep.onConn_bind_of_ok hmatch, if_pos rfl, tlsHandshakeMsg,
    TlsStep.attempt_onInput_bind hmsg]
  dsimp only
  rw [Prog.modify_bind]
  rfl

/-- Drop a complete message of an earlier state. -/
theorem tlsHandshakeRead_retrans (past : List UInt8) (hlen : (msg.bytes ++ rest).length < 2 ^ 31)
    (hmatch : tlsHandshakeMatch m.proc msg.type.toNat c = (.ok (q, false), c'))
    (hretrans : tlsHandshakeMsgRetrans m.proc msg.type.toNat q = true) :
    ∃ i, tlsHandshakeRead m ⟨c, ⟨past, msg.bytes ++ rest, 0⟩, w, t⟩ =
      (.ok .drop, ⟨c', i, w, t⟩) := by
  have hbytes : msg.bytes ++ rest =
      msg.type :: (Bytes.ofNat 3 msg.body.length ++ (msg.body ++ rest)) := by
    simp [WireMessage.bytes]
  have hbody : (Bytes.ofNat 3 msg.body.length ++ (msg.body ++ rest)).length < 2 ^ 31 := by
    rw [hbytes, List.length_cons] at hlen
    omega
  have hrest : (msg.body ++ rest).length < 2 ^ 31 := by
    rw [List.length_append] at hbody
    omega
  have hthree := TlsInput.get_append (past ++ [msg.type]) (Bytes.ofNat 3 msg.body.length) _ hrest
  rw [Bytes.ofNat_length] at hthree
  have hvalue := Bytes.toNat_ofNat_of_lt (show msg.body.length < 256 ^ 3 from msg.small)
  have hpull : ¬ quicLt (((msg.body ++ rest).length + 0 : ℕ) : ℤ) msg.body.length := by
    rw [Nat.add_zero, List.length_append] at *
    rw [quicLt_iff] <;> omega
  have hdrop : ∃ i, tlsHandshakeDrop true ⟨past ++ [msg.type],
      Bytes.ofNat 3 msg.body.length ++ (msg.body ++ rest), 0⟩ = (.ok .drop, i) := by
    rw [tlsHandshakeDrop, if_pos rfl, Prog.bind_of_ok hthree, hvalue]
    exact ⟨_, Prog.bind_of_ok (if_neg hpull)⟩
  obtain ⟨i, hdrop⟩ := hdrop
  refine ⟨i, ?_⟩
  rw [hbytes, tlsHandshakeRead_cons past hbody, TlsStep.onConn_bind_of_ok hmatch,
    if_neg Bool.false_ne_true, hretrans]
  exact Prog.zoom_of_ok hdrop

/-- Deliver a message to the handler of the state, or of a later one behind states that can be
skipped. -/
def tlsDeliver (m : TlsMethod τ) (msg : WireMessage) : Prog Fail (TlsConn τ) Unit := do
  let c ← Prog.get
  Prog.ensure .ret ((m.proc c.handshakeState).isReading = true)
  let found ← tlsHandshakeMatch m.proc msg.type.toNat
  Prog.ensure .ret (found.2 = true)
  tlsHandshakeProc m msg.type.toNat found.1 msg.bytes
  TlsConn.onHost (m.proc c.handshakeState).postWork

/-- The round of the loop in a state that reads. -/
theorem tlsHandshakeRound_reading {i : TlsInput}
    (hreading : (m.proc c.handshakeState).isReading = true) (hne : i.remaining ≠ 0) :
    tlsHandshakeRound m ⟨c, i, w, t⟩ = (do
      let ret ← tlsHandshakeRead m
      if ret = .wantRead ∨ ret = .drop ∨ ret = .finished then pure (some ret)
      else do
        TlsStep.onConn (TlsConn.onHost (m.proc c.handshakeState).postWork)
        pure (if ret = .next then some ret else none) :
          Prog Fail (TlsStep τ) (Option QuicFlowReturn))
        ⟨c, i, w, (m.proc c.handshakeState).pktType⟩ := by
  unfold TlsProcess.isReading at hreading
  split at hreading
  · rename_i handler hflow
    rw [tlsHandshakeRound, Prog.get_bind, Prog.modify_bind, TlsStep.setPktType, hflow,
      tlsHandshakeFlow, hflow]
    dsimp only
    have hread : (do
        let s ← Prog.get
        if s.input.remaining = 0 then pure .wantRead else tlsHandshakeRead m :
        Prog Fail (TlsStep τ) QuicFlowReturn) ⟨c, i, w, (m.proc c.handshakeState).pktType⟩ =
        tlsHandshakeRead m ⟨c, i, w, (m.proc c.handshakeState).pktType⟩ := by
      rw [Prog.get_bind, if_neg hne]
    rw [Prog.bind_apply, hread, ← Prog.bind_apply]
  · cases hreading

/-- A routine behind the state machine succeeds. -/
theorem TlsConn.onHost_eq_ok {p : Prog Fail τ Unit} :
    TlsConn.onHost p c = (.ok (), c') ↔ ∃ host,
      p c.host = (.ok (), host) ∧ c' = { c with host } := by
  rw [TlsConn.onHost, Prog.zoom_apply]
  rcases h : p c.host with ⟨r, host⟩
  constructor
  · intro heq
    cases heq
    exact ⟨host, rfl, rfl⟩
  · rintro ⟨host', heq, rfl⟩
    cases heq
    rfl

/-- The states that can be skipped are skipped. -/
theorem tlsHandshakeMatch_eq_ok {type : ℕ} {found : TlsState × Bool} :
    tlsHandshakeMatch m.proc type c = (.ok found, c') ↔
      tlsSkip m.proc c.host type TlsState.all.length c.handshakeState = .ok found ∧
        c' = c.setState found.1 := by
  rw [tlsHandshakeMatch, Prog.get_bind]
  cases h : tlsSkip m.proc c.host type TlsState.all.length c.handshakeState with
  | error e =>
    rw [Prog.ofExcept_error, Prog.fail_bind]
    constructor
    · intro heq
      cases heq
    · rintro ⟨heq, _⟩
      cases heq
  | ok f =>
    rw [Prog.ofExcept_ok, Prog.pure_bind, Prog.modify_bind]
    constructor
    · intro heq
      cases heq
      exact ⟨rfl, rfl⟩
    · rintro ⟨heq, rfl⟩
      cases heq
      rfl

/-- A handler succeeds. -/
theorem TlsConn.onRead_eq_ok {p : Prog Fail (TlsRead τ) Unit} :
    TlsConn.onRead p c = (.ok (), c') ↔
      ∃ r, p { host := c.host, reserved := c.buffer.reserved } = (.ok (), r) ∧
        c' = { c with host := r.host, buffer.reserved := r.reserved } := by
  rw [TlsConn.onRead, Prog.zoom_apply]
  rcases h : p { host := c.host, reserved := c.buffer.reserved } with ⟨o, r⟩
  constructor
  · intro heq
    cases heq
    exact ⟨r, rfl, rfl⟩
  · rintro ⟨r', heq, rfl⟩
    cases heq
    rfl

/-- A complete message is given to the handler of its state. -/
theorem tlsHandshakeProc_eq_ok {type : ℕ} {bytes : List UInt8} (hstate : c.handshakeState = q) :
    tlsHandshakeProc m type q bytes c = (.ok (), c') ↔ ∃ h₁ h₂ handler r,
      tlsHandshakeMac m type c.host = (.ok (), h₁) ∧ m.finishMac bytes h₁ = (.ok (), h₂) ∧
      (m.proc q).flow = .reading handler ∧
      handler { bytes, head := c.buffer.mem.take (c.buffer.reserved + bytes.length) }
        { host := h₂, reserved := c.buffer.reserved } = (.ok (), r) ∧
      c' = { handshakeState := (m.proc q).nextState, host := r.host,
             buffer := { c.buffer with reserved := r.reserved },
             handled := c.handled ++ [(q, bytes)] } := by
  constructor
  · intro h
    obtain ⟨_, c₁, hmac, h⟩ := Prog.bind_eq_ok.mp h
    obtain ⟨_, c₂, hfinish, h⟩ := Prog.bind_eq_ok.mp h
    obtain ⟨h₁, hmacHost, rfl⟩ := TlsConn.onHost_eq_ok.mp hmac
    obtain ⟨h₂, hfinishHost, rfl⟩ := TlsConn.onHost_eq_ok.mp hfinish
    cases hflow : (m.proc q).flow with
    | reading handler =>
      rw [hflow] at h
      dsimp only at h
      rw [Prog.get_bind, Prog.modify_bind] at h
      obtain ⟨_, c₃, hread, h⟩ := Prog.bind_eq_ok.mp h
      obtain ⟨r, hhandler, rfl⟩ := TlsConn.onRead_eq_ok.mp hread
      rw [Prog.modify_apply, TlsConn.flowFinish, TlsConn.record, if_pos hstate.symm] at h
      cases h
      exact ⟨h₁, h₂, handler, r, hmacHost, hfinishHost, rfl, hhandler, rfl⟩
    | nothing | writing | finished =>
      rw [hflow] at h
      cases h
  · rintro ⟨h₁, h₂, handler, r, hmac, hfinish, hflow, hread, rfl⟩
    rw [tlsHandshakeProc, Prog.bind_of_ok (TlsConn.onHost_eq_ok.mpr ⟨h₁, hmac, rfl⟩),
      Prog.bind_of_ok (TlsConn.onHost_eq_ok.mpr ⟨h₂, hfinish, rfl⟩), hflow]
    dsimp only
    rw [Prog.get_bind, Prog.modify_bind,
      Prog.bind_of_ok (TlsConn.onRead_eq_ok.mpr ⟨r, hread, rfl⟩), Prog.modify_apply,
      TlsConn.flowFinish, TlsConn.record, if_pos hstate.symm]
    rfl

/-- The parts of a successful delivery. -/
theorem tlsDeliver_eq_ok (h : tlsDeliver m msg c = (.ok (), c')) :
    (m.proc c.handshakeState).isReading = true ∧ ∃ q c₁ c₂,
      tlsHandshakeMatch m.proc msg.type.toNat c = (.ok (q, true), c₁) ∧
      tlsHandshakeProc m msg.type.toNat q msg.bytes c₁ = (.ok (), c₂) ∧
      TlsConn.onHost (m.proc c.handshakeState).postWork c₂ = (.ok (), c') := by
  rw [tlsDeliver, Prog.get_bind, Prog.ensure_bind_eq_ok] at h
  obtain ⟨hreading, h⟩ := h
  obtain ⟨⟨q, found⟩, c₁, hmatch, h⟩ := Prog.bind_eq_ok.mp h
  rw [Prog.ensure_bind_eq_ok] at h
  obtain ⟨hfound, h⟩ := h
  obtain ⟨_, c₂, hproc, hpost⟩ := Prog.bind_eq_ok.mp h
  dsimp only at hfound
  subst hfound
  exact ⟨hreading, q, c₁, c₂, hmatch, hproc, hpost⟩

/-- What a successful delivery does. -/
structure Delivery (m : TlsMethod τ) (msg : WireMessage) (c c' : TlsConn τ) (q : TlsState) :
    Prop where
  /-- The state of the connection reads. -/
  reading : (m.proc c.handshakeState).isReading = true
  /-- The state that reads the message. -/
  skip : tlsSkip m.proc c.host msg.type.toNat TlsState.all.length c.handshakeState = .ok (q, true)
  /-- The handlers succeed. -/
  handlers : ∃ h₁ h₂ handler r, tlsHandshakeMac m msg.type.toNat c.host = (.ok (), h₁) ∧
    m.finishMac msg.bytes h₁ = (.ok (), h₂) ∧ (m.proc q).flow = .reading handler ∧
    handler { bytes := msg.bytes,
              head := c.buffer.mem.take (c.buffer.reserved + msg.bytes.length) }
      { host := h₂, reserved := c.buffer.reserved } = (.ok (), r) ∧
    (m.proc c.handshakeState).postWork r.host = (.ok (), c'.host) ∧
    c'.buffer = { c.buffer with reserved := r.reserved }
  /-- The next state. -/
  state : c'.handshakeState = (m.proc q).nextState
  /-- The message is recorded. -/
  handled : c'.handled = c.handled ++ [(q, msg.bytes)]

/-- A delivery succeeds when its parts do. -/
theorem tlsDeliver_iff : tlsDeliver m msg c = (.ok (), c') ↔ ∃ q, Delivery m msg c c' q := by
  constructor
  · intro h
    obtain ⟨hreading, q, c₁, c₂, hmatch, hproc, hpost⟩ := tlsDeliver_eq_ok h
    obtain ⟨hskip, rfl⟩ := tlsHandshakeMatch_eq_ok.mp hmatch
    obtain ⟨h₁, h₂, handler, r, hmac, hfinish, hflow, hread, rfl⟩ :=
      (tlsHandshakeProc_eq_ok (c := c.setState q) (q := q) rfl).mp hproc
    obtain ⟨host, hwork, rfl⟩ := TlsConn.onHost_eq_ok.mp hpost
    exact ⟨q, hreading, hskip, ⟨h₁, h₂, handler, r, hmac, hfinish, hflow, hread, hwork, rfl⟩, rfl,
      rfl⟩
  · rintro ⟨q, hreading, hskip, ⟨h₁, h₂, handler, r, hmac, hfinish, hflow, hread, hpost, hbuffer⟩,
      hstate, hhandled⟩
    let c₂ : TlsConn τ :=
      { handshakeState := (m.proc q).nextState, host := r.host,
        buffer := { c.buffer with reserved := r.reserved },
        handled := c.handled ++ [(q, msg.bytes)] }
    have hproc : tlsHandshakeProc m msg.type.toNat q msg.bytes (c.setState q) = (.ok (), c₂) :=
      (tlsHandshakeProc_eq_ok (c := c.setState q) (q := q) rfl).mpr
        ⟨h₁, h₂, handler, r, hmac, hfinish, hflow, hread, rfl⟩
    have hwork : TlsConn.onHost (m.proc c.handshakeState).postWork c₂ =
        (.ok (), { c₂ with host := c'.host }) :=
      TlsConn.onHost_eq_ok.mpr ⟨c'.host, hpost, rfl⟩
    rw [tlsDeliver, Prog.get_bind, Prog.ensure_of_pos hreading, Prog.pure_bind,
      Prog.bind_of_ok (tlsHandshakeMatch_eq_ok.mpr ⟨hskip, rfl⟩), Prog.ensure_of_pos rfl,
      Prog.pure_bind, Prog.bind_of_ok hproc, hwork]
    cases c'
    simp_all [c₂]

/-- A message that is delivered takes one round. -/
theorem tlsHandshakeRound_of_deliver (hlen : (msg.bytes ++ rest).length < 2 ^ 31)
    (hdeliver : tlsDeliver m msg c = (.ok (), c')) :
    tlsHandshakeRound m ⟨c, ⟨past, msg.bytes ++ rest, 0⟩, w, t⟩ =
      (.ok none, ⟨c', ⟨past ++ msg.bytes, rest, 0⟩, w, (m.proc c.handshakeState).pktType⟩) := by
  obtain ⟨hreading, q, c₁, c₂, hmatch, hproc, hpost⟩ := tlsDeliver_eq_ok hdeliver
  have hne : (⟨past, msg.bytes ++ rest, 0⟩ : TlsInput).remaining ≠ 0 := by
    simp [TlsInput.remaining, WireMessage.bytes]
  have hread : tlsHandshakeRead m
      ⟨c, ⟨past, msg.bytes ++ rest, 0⟩, w, (m.proc c.handshakeState).pktType⟩ =
      (.ok .finish,
        ⟨c₂, ⟨past ++ msg.bytes, rest, 0⟩, w, (m.proc c.handshakeState).pktType⟩) := by
    rw [tlsHandshakeRead_message past hlen hmatch, TlsStep.onConn_bind_of_ok hproc]
    rfl
  rw [tlsHandshakeRound_reading hreading hne, Prog.bind_of_ok hread, if_neg (by decide),
    TlsStep.onConn_bind_of_ok hpost, if_neg (by decide)]
  rfl

/-- An incomplete message for the state ends the loop. -/
theorem tlsHandshakeRound_incomplete {part : List UInt8} (hpart : part <+: msg.bytes)
    (hpos : part ≠ []) (hlt : part.length < msg.bytes.length)
    (hreading : (m.proc c.handshakeState).isReading = true)
    (hmatch : tlsHandshakeMatch m.proc msg.type.toNat c = (.ok (q, true), c')) :
    tlsHandshakeRound m ⟨c, ⟨past, part, 0⟩, w, t⟩ =
      (.ok (some .wantRead), ⟨c', ⟨past, part, 0⟩, w, (m.proc c.handshakeState).pktType⟩) := by
  have hne : (⟨past, part, 0⟩ : TlsInput).remaining ≠ 0 := by
    rw [TlsInput.remaining, Nat.add_zero]
    exact List.length_pos_iff.mpr hpos |>.ne'
  rw [tlsHandshakeRound_reading hreading hne,
    Prog.bind_of_ok (tlsHandshakeRead_incomplete hpart hpos hlt hmatch), if_pos (by decide)]
  rfl

/-- A message of an earlier state ends the loop. -/
theorem tlsHandshakeRound_retrans (past : List UInt8) (hlen : (msg.bytes ++ rest).length < 2 ^ 31)
    (hreading : (m.proc c.handshakeState).isReading = true)
    (hmatch : tlsHandshakeMatch m.proc msg.type.toNat c = (.ok (q, false), c'))
    (hretrans : tlsHandshakeMsgRetrans m.proc msg.type.toNat q = true) :
    ∃ i, tlsHandshakeRound m ⟨c, ⟨past, msg.bytes ++ rest, 0⟩, w, t⟩ =
      (.ok (some .drop), ⟨c', i, w, (m.proc c.handshakeState).pktType⟩) := by
  have hne : (⟨past, msg.bytes ++ rest, 0⟩ : TlsInput).remaining ≠ 0 := by
    simp [TlsInput.remaining, WireMessage.bytes]
  obtain ⟨i, hread⟩ := tlsHandshakeRead_retrans (w := w)
    (t := (m.proc c.handshakeState).pktType) past hlen hmatch hretrans
  refine ⟨i, ?_⟩
  rw [tlsHandshakeRound_reading hreading hne, Prog.bind_of_ok hread, if_pos (by decide)]
  rfl

/-- Without messages the loop ends in a state that reads. -/
theorem tlsHandshakeRound_nil (hreading : (m.proc c.handshakeState).isReading = true) :
    tlsHandshakeRound m ⟨c, ⟨past, [], 0⟩, w, t⟩ =
      (.ok (some .wantRead), ⟨c, ⟨past, [], 0⟩, w, (m.proc c.handshakeState).pktType⟩) := by
  unfold TlsProcess.isReading at hreading
  split at hreading
  · rename_i handler hflow
    rw [tlsHandshakeRound, Prog.get_bind, Prog.modify_bind, TlsStep.setPktType, hflow,
      tlsHandshakeFlow, hflow]
    dsimp only
    rw [Prog.bind_of_ok (a := .wantRead) (by rw [Prog.get_bind]; rfl)]
    rfl
  · cases hreading

/-- A routine that fails in a round. -/
theorem tlsHandshakeRound_of_error {i : TlsInput} {e : Fail} {s : TlsStep τ}
    (hreading : (m.proc c.handshakeState).isReading = true) (hne : i.remaining ≠ 0)
    (hread : tlsHandshakeRead m ⟨c, i, w, (m.proc c.handshakeState).pktType⟩ = (.error e, s)) :
    tlsHandshakeRound m ⟨c, i, w, t⟩ = (.error e, s) := by
  rw [tlsHandshakeRound_reading hreading hne, Prog.bind_of_error hread]

/-- A complete message is delivered, makes the handshake fail or is dropped as one of an earlier
state. -/
theorem tlsHandshakeRound_complete (past : List UInt8) (hlen : (msg.bytes ++ rest).length < 2 ^ 31)
    (hreading : (m.proc c.handshakeState).isReading = true) :
    (∃ c', tlsDeliver m msg c = (.ok (), c')) ∨
      (∃ e s, tlsHandshakeRound m ⟨c, ⟨past, msg.bytes ++ rest, 0⟩, w, t⟩ = (.error e, s)) ∨
      ∃ q i, tlsSkip m.proc c.host msg.type.toNat TlsState.all.length c.handshakeState =
          .ok (q, false) ∧
        tlsHandshakeRound m ⟨c, ⟨past, msg.bytes ++ rest, 0⟩, w, t⟩ =
          (.ok (some .drop), ⟨c.setState q, i, w, (m.proc c.handshakeState).pktType⟩) := by
  have hne : (⟨past, msg.bytes ++ rest, 0⟩ : TlsInput).remaining ≠ 0 := by
    simp [TlsInput.remaining, WireMessage.bytes]
  have hbytes : msg.bytes ++ rest =
      msg.type :: (Bytes.ofNat 3 msg.body.length ++ (msg.body ++ rest)) := by
    simp [WireMessage.bytes]
  have hbody : (Bytes.ofNat 3 msg.body.length ++ (msg.body ++ rest)).length < 2 ^ 31 := by
    rw [hbytes, List.length_cons] at hlen
    omega
  rcases hmatch : tlsHandshakeMatch m.proc msg.type.toNat c with ⟨r, c₁⟩
  cases r with
  | error e =>
    have hread := tlsHandshakeRead_cons (m := m) (c := c) (w := w)
      (t := (m.proc c.handshakeState).pktType) past (b := msg.type) hbody
    rw [← hbytes, TlsStep.onConn_bind_of_error hmatch] at hread
    exact .inr (.inl ⟨e, _, tlsHandshakeRound_of_error hreading hne hread⟩)
  | ok found =>
    obtain ⟨q, found⟩ := found
    cases found with
    | true =>
      have hread := tlsHandshakeRead_message (w := w)
        (t := (m.proc c.handshakeState).pktType) past hlen hmatch
      rcases hproc : tlsHandshakeProc m msg.type.toNat q msg.bytes c₁ with ⟨r, c₂⟩
      cases r with
      | error e =>
        rw [TlsStep.onConn_bind_of_error hproc] at hread
        exact .inr (.inl ⟨e, _, tlsHandshakeRound_of_error hreading hne hread⟩)
      | ok _ =>
        rw [TlsStep.onConn_bind_of_ok hproc] at hread
        rcases hpost : TlsConn.onHost (m.proc c.handshakeState).postWork c₂ with ⟨r, c₃⟩
        cases r with
        | error e =>
          have hround := tlsHandshakeRound_reading (w := w) (t := t) hreading hne
          rw [Prog.bind_of_ok hread, if_neg (by decide), TlsStep.onConn_bind_of_error hpost]
            at hround
          exact .inr (.inl ⟨e, _, hround⟩)
        | ok _ =>
          refine .inl ⟨c₃, ?_⟩
          rw [tlsDeliver, Prog.get_bind, Prog.ensure_of_pos hreading, Prog.pure_bind,
            Prog.bind_of_ok hmatch, Prog.ensure_of_pos rfl, Prog.pure_bind,
            Prog.bind_of_ok hproc, hpost]
    | false =>
      obtain ⟨hskip, rfl⟩ := tlsHandshakeMatch_eq_ok.mp hmatch
      cases hretrans : tlsHandshakeMsgRetrans m.proc msg.type.toNat q with
      | true =>
        obtain ⟨i, hround⟩ := tlsHandshakeRound_retrans (w := w) (t := t) past hlen
          hreading hmatch hretrans
        exact .inr (.inr ⟨q, i, hskip, hround⟩)
      | false =>
        have hread := tlsHandshakeRead_cons (m := m) (c := c) (w := w)
          (t := (m.proc c.handshakeState).pktType) past (b := msg.type) hbody
        rw [← hbytes, TlsStep.onConn_bind_of_ok hmatch, if_neg Bool.false_ne_true, hretrans]
          at hread
        exact .inr (.inl ⟨.ret, _, tlsHandshakeRound_of_error hreading hne hread⟩)

end Reading

end Tbquic
