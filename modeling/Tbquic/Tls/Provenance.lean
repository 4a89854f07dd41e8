import Tbquic.Lib.Trace
import Tbquic.Tls.Frames

/-!
# Where the messages come from

`TlsHandshake` reads what stands between the offset and the recorded length of the buffer. The
length is the largest end of a frame or the length of what the endpoint wrote, so these bytes
need not be bytes of the peer. Here the frames are recorded that arrived since the last event that
moved or overwrote the messages, and the memory holds them at every step of a run.
-/

namespace Tbquic

variable {τ : Type} {m : TlsMethod τ}

/-- The buffers of two connections differ at most in the number of bytes in front of the
messages. -/
def TlsConn.SameBuffer (c d : TlsConn τ) : Prop :=
  d.buffer = { c.buffer with reserved := d.buffer.reserved }

/-- A program on the connection changes at most this number. -/
def TlsConn.Stays {α : Type} (p : Prog Fail (TlsConn τ) α) : Prop :=
  Prog.Keeps TlsConn.SameBuffer p

namespace TlsConn

theorem SameBuffer.refl (c : TlsConn τ) : c.SameBuffer c := rfl

theorem SameBuffer.trans {c d e : TlsConn τ} (h : c.SameBuffer d) (h' : d.SameBuffer e) :
    c.SameBuffer e := by
  unfold SameBuffer at h h' ⊢
  rw [h', h]

theorem Stays.bind {α β : Type} {p : Prog Fail (TlsConn τ) α} {f : α → Prog Fail (TlsConn τ) β}
    (hp : Stays p) (hf : ∀ a, Stays (f a)) : Stays (p >>= f) :=
  Prog.Keeps.bind SameBuffer.trans hp hf

/-- A program that reads the connection. -/
theorem stays_get_bind {α : Type} {f : TlsConn τ → Prog Fail (TlsConn τ) α}
    (hf : ∀ c, Stays (f c)) : Stays (Prog.get >>= f) :=
  Prog.keeps_get_bind fun c => hf c c

/-- Routines behind the state machine do not touch the buffer. -/
theorem stays_onHost {α : Type} (p : Prog Fail τ α) : Stays (onHost p) :=
  Prog.keeps_zoom SameBuffer.refl

/-- An update that does not touch the buffer. -/
theorem stays_modify {f : TlsConn τ → TlsConn τ} (hf : ∀ c, (f c).buffer = c.buffer) :
    Stays (Prog.modify f) := by
  apply Prog.keeps_modify
  intro c
  rw [SameBuffer, hf]

/-- The choice of the next state. -/
theorem stays_flowFinish (q q' : TlsState) :
    Stays (Prog.modify (flowFinish q q') : Prog Fail (TlsConn τ) Unit) := by
  apply stays_modify
  intro c
  unfold flowFinish
  split <;> rfl

end TlsConn

/-- The search for the state of a message. -/
theorem tlsHandshakeMatch_stays (type : ℕ) :
    TlsConn.Stays (tlsHandshakeMatch m.proc type) := by
  apply TlsConn.stays_get_bind
  intro c
  apply TlsConn.Stays.bind
  · exact Prog.keeps_ofExcept TlsConn.SameBuffer.refl _
  intro found
  apply TlsConn.Stays.bind
  · exact TlsConn.stays_modify fun _ => rfl
  · intro _
    exact Prog.keeps_pure TlsConn.SameBuffer.refl _

/-- The handler of a message. -/
theorem tlsHandshakeProc_stays (type : ℕ) (q : TlsState) (bytes : List UInt8) :
    TlsConn.Stays (tlsHandshakeProc m type q bytes) := by
  apply (TlsConn.stays_onHost _).bind
  intro _
  apply (TlsConn.stays_onHost _).bind
  intro _
  cases (m.proc q).flow with
  | reading handler =>
    apply TlsConn.stays_get_bind
    intro c
    apply TlsConn.Stays.bind
    · exact TlsConn.stays_modify fun _ => rfl
    intro _
    apply TlsConn.Stays.bind
    · exact Prog.keeps_zoom fun _ => rfl
    intro _
    exact TlsConn.stays_flowFinish _ _
  | nothing | writing | finished => exact Prog.keeps_fail TlsConn.SameBuffer.refl _

/-- A program in the loop of a call changes at most this number. -/
def TlsStep.Stays {α : Type} (p : Prog Fail (TlsStep τ) α) : Prop :=
  Prog.Keeps (fun s t => s.conn.SameBuffer t.conn) p

namespace TlsStep

theorem stays_pure {α : Type} (a : α) : Stays (pure a : Prog Fail (TlsStep τ) α) :=
  Prog.keeps_pure (fun s => .refl s.conn) a

theorem stays_fail {α : Type} (e : Fail) : Stays (Prog.fail e : Prog Fail (TlsStep τ) α) :=
  Prog.keeps_fail (fun s => .refl s.conn) e

theorem Stays.bind {α β : Type} {p : Prog Fail (TlsStep τ) α} {f : α → Prog Fail (TlsStep τ) β}
    (hp : Stays p) (hf : ∀ a, Stays (f a)) : Stays (p >>= f) :=
  Prog.Keeps.bind TlsConn.SameBuffer.trans hp hf

/-- A program that reads the locals of the call. -/
theorem stays_get_bind {α : Type} {f : TlsStep τ → Prog Fail (TlsStep τ) α}
    (hf : ∀ s, Stays (f s)) : Stays (Prog.get >>= f) :=
  Prog.keeps_get_bind fun s => hf s s

/-- An operation on the messages of the call. -/
theorem stays_onInput {α : Type} (p : Prog Fail TlsInput α) :
    Stays (onInput p : Prog Fail (TlsStep τ) α) :=
  Prog.keeps_zoom fun s => .refl s.conn

/-- An operation on the writer. -/
theorem stays_onPkt {α : Type} (p : Prog Fail WPacket α) :
    Stays (onPkt p : Prog Fail (TlsStep τ) α) :=
  Prog.keeps_zoom fun s => .refl s.conn

/-- A routine on the connection. -/
theorem stays_onConn {α : Type} {p : Prog Fail (TlsConn τ) α} (hp : TlsConn.Stays p) :
    Stays (onConn p) :=
  Prog.keeps_zoom fun s => hp s.conn

end TlsStep

/-- A message for the state. -/
theorem tlsHandshakeMsg_stays (start : TlsInput) (type : ℕ) (q : TlsState) :
    TlsStep.Stays (tlsHandshakeMsg m start type q) := by
  apply TlsStep.Stays.bind
  · exact (TlsStep.stays_onInput _).attempt
  intro r
  cases r with
  | error e =>
    cases e with
    | ret =>
      apply TlsStep.Stays.bind
      · exact Prog.keeps_modify fun s => .refl s.conn
      intro _
      exact TlsStep.stays_pure _
    | assert | ub | fuel => exact TlsStep.stays_fail _
  | ok len =>
    apply (TlsStep.stays_onConn (tlsHandshakeProc_stays _ _ _)).bind
    intro _
    exact TlsStep.stays_pure _

/-- A message of the peer. -/
theorem tlsHandshakeRead_stays : TlsStep.Stays (tlsHandshakeRead m) := by
  apply TlsStep.stays_get_bind
  intro s
  apply TlsStep.Stays.bind
  · exact (TlsStep.stays_onInput _).attempt
  intro r
  cases r with
  | error e =>
    cases e with
    | ret => exact TlsStep.stays_pure _
    | assert | ub | fuel => exact TlsStep.stays_fail _
  | ok type =>
    apply (TlsStep.stays_onConn (tlsHandshakeMatch_stays _)).bind
    intro found
    dsimp only
    split
    · exact tlsHandshakeMsg_stays _ _ _
    · exact TlsStep.stays_onInput _

/-- A message of the endpoint. -/
theorem tlsHandshakeWrite_stays (p : TlsProcess τ) (handler : Prog Fail (TlsWrite τ) Unit) :
    TlsStep.Stays (tlsHandshakeWrite m p handler) := by
  apply TlsStep.stays_get_bind
  intro s
  apply (TlsStep.stays_onPkt _).bind
  intro _
  apply (TlsStep.stays_onPkt _).bind
  intro _
  apply TlsStep.Stays.bind
  · exact Prog.keeps_zoom fun s => .refl s.conn
  intro _
  apply (TlsStep.stays_onPkt _).bind
  intro _
  apply TlsStep.stays_get_bind
  intro t
  apply TlsStep.Stays.bind
  · exact Prog.keeps_ensure (fun s => .refl s.conn) _ _
  intro _
  apply (TlsStep.stays_onConn (TlsConn.stays_onHost _)).bind
  intro _
  exact TlsStep.stays_onConn (TlsConn.stays_flowFinish _ _)

/-- What happens in a state. -/
theorem tlsHandshakeFlow_stays (p : TlsProcess τ) :
    TlsStep.Stays (tlsHandshakeFlow m p) := by
  unfold tlsHandshakeFlow
  cases p.flow with
  | nothing =>
    apply TlsStep.Stays.bind
    · exact TlsStep.stays_onConn (TlsConn.stays_modify fun _ => rfl)
    intro _
    exact TlsStep.stays_pure _
  | reading handler =>
    apply TlsStep.stays_get_bind
    intro s
    split
    · exact TlsStep.stays_pure _
    · exact tlsHandshakeRead_stays
  | writing handler ret =>
    apply (tlsHandshakeWrite_stays _ _).bind
    intro _
    exact TlsStep.stays_pure _
  | finished => exact TlsStep.stays_pure _

/-- One round of the loop. -/
theorem tlsHandshakeRound_stays : TlsStep.Stays (tlsHandshakeRound m) := by
  apply TlsStep.stays_get_bind
  intro s
  apply TlsStep.Stays.bind
  · exact Prog.keeps_modify fun s => .refl s.conn
  intro _
  apply (tlsHandshakeFlow_stays _).bind
  intro ret
  split
  · exact TlsStep.stays_pure _
  · apply (TlsStep.stays_onConn (TlsConn.stays_onHost _)).bind
    intro _
    exact TlsStep.stays_pure _

/-- The loop of a call. -/
theorem tlsHandshakeStatem_stays (fuel : ℕ) :
    TlsStep.Stays (tlsHandshakeStatem m fuel) := by
  induction fuel with
  | zero => exact TlsStep.stays_fail _
  | succ fuel ih =>
    apply tlsHandshakeRound_stays.bind
    intro o
    cases o with
    | none => exact ih
    | some ret => exact TlsStep.stays_pure _

section Memory

/-- A program in a call keeps the memory. -/
def TlsStep.KeepsMem {α : Type} (p : Prog Fail (TlsStep τ) α) : Prop :=
  Prog.Keeps (fun s t => t.conn.buffer.mem = s.conn.buffer.mem) p

theorem TlsStep.KeepsMem.bind {α β : Type} {p : Prog Fail (TlsStep τ) α}
    {f : α → Prog Fail (TlsStep τ) β} (hp : KeepsMem p) (hf : ∀ a, KeepsMem (f a)) :
    KeepsMem (p >>= f) :=
  Prog.Keeps.bind (fun h h' => h'.trans h) hp hf

/-- The read position is not in the memory. -/
theorem tlsHandshakeOffset_keepsMem (ret : Except Fail QuicFlowReturn) :
    TlsStep.KeepsMem (tlsHandshakeOffset ret : Prog Fail (TlsStep τ) Unit) := by
  apply Prog.keeps_get_bind
  intro s
  split
  · unfold QuicBuffer.addOffset
    split
    · rw [Prog.ofOption_none, Prog.fail_bind]
      rfl
    · rw [Prog.ofOption_some, Prog.pure_bind]
      rfl
  · rfl

/-- Sending does not change the memory. -/
theorem tlsHandshakeSend_keepsMem : TlsStep.KeepsMem (tlsHandshakeSend m) := by
  apply Prog.keeps_get_bind
  intro s
  rw [Prog.modify_bind]
  split <;> rfl

/-- The end of the handshake does not change the memory. -/
theorem tlsHandshakeDone_keepsMem : TlsStep.KeepsMem (tlsHandshakeDone m) := by
  apply Prog.keeps_get_bind
  intro s
  split
  · have hdone : TlsStep.KeepsMem
        (TlsStep.onConn (TlsConn.onHost (ignoreRet (m.handshakeDoneFrameBuild s.pktType))) >>=
          fun _ => TlsStep.onConn (Prog.modify (TlsConn.setState .handshakeDone))) := by
      apply TlsStep.KeepsMem.bind
      · exact Prog.keeps_zoom fun _ => rfl
      · intro _
        exact Prog.keeps_zoom fun _ => rfl
    exact hdone s
  · rfl

/-- The end of a call writes the messages of the endpoint to the start of the memory. -/
theorem tlsHandshakeFinish_mem (ret : Except Fail QuicFlowReturn) (s : TlsStep τ) :
    (tlsHandshakeFinish m ret s).2.conn.buffer.mem =
      (s.conn.buffer.writeHead s.pkt.buf).mem := by
  rw [tlsHandshakeFinish, Prog.get_bind, Prog.modify_bind]
  have hrest : TlsStep.KeepsMem
      (tlsHandshakeOffset ret >>= fun _ => tlsHandshakeSend m >>= fun _ =>
        tlsHandshakeDone m >>= fun _ => Prog.ofExcept ret) := by
    apply (tlsHandshakeOffset_keepsMem ret).bind
    intro _
    apply tlsHandshakeSend_keepsMem.bind
    intro _
    apply tlsHandshakeDone_keepsMem.bind
    intro _
    exact Prog.keeps_ofExcept (fun _ => by rfl) _
  exact hrest _

/-- The number of bytes that a call of `TlsHandshake` writes. -/
def tlsHandshakeWritten (m : TlsMethod τ) (fuel : ℕ) (c : TlsConn τ) : ℕ :=
  (tlsHandshakeStatem m fuel c.start).2.pkt.written

/-- A call of `TlsHandshake` changes the memory only by the messages that it writes to the start. -/
theorem tlsHandshake_mem (fuel : ℕ) (c : TlsConn τ) :
    ∃ bytes, bytes.length ≤ tlsHandshakeWritten m fuel c ∧
      (tlsHandshake m fuel c).2.buffer.mem = (c.buffer.writeHead bytes).mem := by
  have hnothing : (c.buffer.writeHead []).mem = c.buffer.mem := by rfl
  rw [tlsHandshake, Prog.get_bind]
  by_cases hassert : quicGe (((c.buffer.dataLen : ℤ) - c.buffer.offset) % 2 ^ 64) 0
  · rw [Prog.ensure_of_pos hassert, Prog.pure_bind, Prog.zoom_apply, tlsHandshakeBody,
      Prog.attempt_bind]
    have hloop : c.SameBuffer (tlsHandshakeStatem m fuel c.start).2.conn :=
      tlsHandshakeStatem_stays fuel c.start
    rcases hrun : tlsHandshakeStatem m fuel c.start with ⟨ret, s⟩
    rw [hrun] at hloop
    have hmem : s.conn.buffer.mem = c.buffer.mem := by
      have hsame : s.conn.buffer = { c.buffer with reserved := s.conn.buffer.reserved } := hloop
      rw [hsame]
    have hwritten : tlsHandshakeWritten m fuel c = s.pkt.buf.length := by
      rw [tlsHandshakeWritten, hrun]
      rfl
    have hfinish (ret : Except Fail QuicFlowReturn) :
        ∃ bytes, bytes.length ≤ tlsHandshakeWritten m fuel c ∧
          (tlsHandshakeFinish m ret s).2.conn.buffer.mem = (c.buffer.writeHead bytes).mem := by
      refine ⟨s.pkt.buf, hwritten.ge, (tlsHandshakeFinish_mem ret s).trans ?_⟩
      rw [QuicBuffer.writeHead, QuicBuffer.writeHead, hmem]
    cases ret with
    | ok ret => exact hfinish _
    | error e =>
      cases e with
      | ret => exact hfinish _
      | assert | ub | fuel => exact ⟨[], Nat.zero_le _, hmem.trans hnothing.symm⟩
  · rw [Prog.ensure_of_neg hassert, Prog.fail_bind]
    exact ⟨[], Nat.zero_le _, hnothing.symm⟩

end Memory

/-- A connection with the frames that the peer sent. -/
structure TlsTracked (τ : Type) where
  /-- The connection. -/
  conn : TlsConn τ
  /-- The type of the packets of the last frames. -/
  level : ℕ
  /-- The frames from packets of this type that arrived since the messages were last moved or
  overwritten. -/
  arrived : List (Segment UInt8)
  /-- All frames received, with the types of their packets. -/
  received : List (ℕ × Segment UInt8)

/-- What happens to the buffer of the handshake. -/
inductive TlsEvent (τ : Type)
  /-- A packet of a type arrives with CRYPTO frames, and the rest of it is accepted or not. -/
  | packet (level : ℕ) (frames : List (Segment UInt8)) (accepted : Bool)
  /-- `TlsDoHandshake` in the `pre_work` of the state machine. -/
  | preWork
  /-- `QuicBufReserve` in the `pre_work` of the client. -/
  | reserve
  /-- `QuicBufClear` after a packet that the server receives in its first state. -/
  | clear
  /-- Other frames or calls change the connection behind the buffer. -/
  | other (state : TlsState) (host : τ)

namespace TlsTracked

variable {s t : TlsTracked τ} {level fuel : ℕ} {frames : List (Segment UInt8)} {e : TlsEvent τ}
  {es : List (TlsEvent τ)}

/-- The frames of a level that arrived. The first packet of another level starts anew. -/
def arrivedAt (s : TlsTracked τ) (level : ℕ) : List (Segment UInt8) :=
  if level = s.level then s.arrived else []

/-- The frames of a packet. The flag says whether all of them were read. -/
def recv (s : TlsTracked τ) (level : ℕ) (frames : List (Segment UInt8)) :
    Option (Bool × TlsTracked τ) :=
  let received := s.received ++ frames.map fun f => (level, f)
  match recvCryptoPayload (frames.flatMap cryptoFrameBytes) s.conn.buffer with
  | (.ok (), b) =>
    some (true,
      { conn := s.conn.withBuffer b, level, arrived := s.arrivedAt level ++ frames, received })
  | (.error .ret, b) =>
    some (false, { conn := s.conn.withBuffer b, level, arrived := [], received })
  | _ => none

/-- The connection changes. The messages are moved when the number of reserved bytes changes. -/
def replace (s : TlsTracked τ) (c : TlsConn τ) : TlsTracked τ :=
  { s with
    conn := c
    arrived := if c.buffer.reserved = s.conn.buffer.reserved then s.arrived else [] }

/-- The connection behind a call of `TlsHandshake`, which overwrites the messages when it writes
more bytes than are reserved. -/
def writeOver (s : TlsTracked τ) (written : ℕ) (c : TlsConn τ) : TlsTracked τ :=
  if written ≤ s.conn.buffer.reserved then s.replace c else { s with conn := c, arrived := [] }

/-- A call of `TlsHandshake`, also one that returns an error. -/
def call (m : TlsMethod τ) (fuel : ℕ) (s : TlsTracked τ) : Option (TlsTracked τ) :=
  match tlsHandshake m fuel s.conn with
  | (.ok _, c) | (.error .ret, c) => some (s.writeOver (tlsHandshakeWritten m fuel s.conn) c)
  | _ => none

/-- The connection of an event in which it calls `TlsHandshake`. -/
def handed (s : TlsTracked τ) : TlsEvent τ → Option (TlsTracked τ)
  | .packet level frames accepted =>
    (s.recv level frames).bind fun r =>
      if r.1 = true ∧ accepted = true ∧ frames ≠ [] ∧
        r.2.conn.handshakeState ≠ .handshakeDone then some r.2 else none
  | .preWork => some s
  | _ => none

/-- The state after an event. -/
def step (m : TlsMethod τ) (fuel : ℕ) (s : TlsTracked τ) (e : TlsEvent τ) :
    Option (TlsTracked τ) :=
  match s.handed e with
  | some t => t.call m fuel
  | none =>
    match e with
    | .packet level frames _ => (s.recv level frames).map Prod.snd
    | .preWork => none
    | .reserve => some (s.replace { s.conn with buffer := s.conn.buffer.reserve })
    | .clear => some (s.replace { s.conn with buffer := s.conn.buffer.clear })
    | .other handshakeState host => some (s.replace { s.conn with handshakeState, host })

/-- A connection before any event. -/
def start (c : TlsConn τ) : TlsTracked τ where
  conn := c
  level := quicPktTypeInitial
  arrived := []
  received := []

/-- The bytes that `TlsHandshake` reads come from the peer: its assertion holds, and each byte
between the offset and the recorded length is that of a frame of the level at its place. -/
structure Proper (s : TlsTracked τ) : Prop where
  /-- The assertion of `TlsHandshake`. -/
  assertion : quicGe (((s.conn.buffer.dataLen : ℤ) - s.conn.buffer.offset) % 2 ^ 64) 0
  /-- The offset is not behind the recorded length. -/
  offset_le : s.conn.buffer.offset ≤ s.conn.buffer.dataLen
  /-- The bytes are bytes of the peer. -/
  bytes : ∀ i, s.conn.buffer.offset ≤ i → i < s.conn.buffer.dataLen →
    ∃ f, (s.level, f) ∈ s.received ∧ f.Covers i ∧
      s.conn.buffer.mem[s.conn.buffer.reserved + i]? = f.data[i - f.offset]?

/-- No frame is missing in front of another one. -/
def NoGap (frames : List (Segment UInt8)) : Prop :=
  ∀ f ∈ frames, ∀ i < f.stop, ∃ g ∈ frames, g.Covers i

instance (frames : List (Segment UInt8)) : Decidable (NoGap frames) :=
  inferInstanceAs (Decidable (∀ f ∈ frames, ∀ i < f.stop, ∃ g ∈ frames, g.Covers i))

/-- The frames of a packet continue those that arrived: no frame is lost or late in front of another
one, none of the messages that the endpoint wrote is recorded behind them, and the packet does not
end in front of what was read. -/
def Continues (s : TlsTracked τ) (level : ℕ) (frames : List (Segment UInt8)) : Prop :=
  NoGap (s.arrivedAt level ++ frames) ∧
    s.conn.buffer.dataLen ≤ stopAfter 0 (s.arrivedAt level ++ frames) ∧
      s.conn.buffer.offset ≤ stopAfter s.conn.buffer.dataLen frames

instance (s : TlsTracked τ) (level : ℕ) (frames : List (Segment UInt8)) :
    Decidable (s.Continues level frames) := inferInstanceAs (Decidable (_ ∧ _ ∧ _))

/-- The sizes of frames and of a buffer in which the lengths fit in an `int`. -/
structure Ordinary (b : QuicBuffer) (frames : List (Segment UInt8)) : Prop where
  /-- The payload fits. -/
  payload : (frames.flatMap cryptoFrameBytes).length < 2 ^ 31
  /-- The frames end in front of the limit of the memory. -/
  stop : ∀ f ∈ frames, f.stop ≤ bufMemLimit
  /-- The memory has not outgrown its limit. -/
  length : b.length ≤ bufMemLimit
  /-- The recorded length fits. -/
  dataLen : b.dataLen < 2 ^ 31

/-- The state behind the frames of a packet that are all read. -/
def receive (s : TlsTracked τ) (level : ℕ) (frames : List (Segment UInt8)) : TlsTracked τ where
  conn := s.conn.withBuffer (frames.foldl QuicBuffer.receive s.conn.buffer)
  level := level
  arrived := s.arrivedAt level ++ frames
  received := s.received ++ frames.map fun f => (level, f)

/-- Frames of ordinary size are read when they have places in the memory. -/
theorem recv_of_places (hsize : Ordinary s.conn.buffer frames)
    (hplaces : s.conn.buffer.HasPlaces frames) (level : ℕ) :
    s.recv level frames = some (true, s.receive level frames) := by
  have hok := (recvCryptoPayload_places hsize.payload hsize.stop hsize.length hsize.dataLen).1
  rw [recv, hok hplaces]
  rfl

/-- Frames of ordinary size are not read when they have no places. -/
theorem places_of_recv (hsize : Ordinary s.conn.buffer frames) {r : Bool × TlsTracked τ}
    (hrecv : s.recv level frames = some r) : s.conn.buffer.HasPlaces frames := by
  by_contra hplaces
  have hub := (recvCryptoPayload_places hsize.payload hsize.stop hsize.length hsize.dataLen).2
    hplaces
  unfold recv at hrecv
  split at hrecv
  · rename_i heq
    rw [heq] at hub
    cases hub
  · rename_i heq
    rw [heq] at hub
    cases hub
  · cases hrecv

/-- Packets have ordinary sizes, and those that make the handshake go on continue what arrived. -/
def Ready (s : TlsTracked τ) : TlsEvent τ → Prop
  | .packet level frames accepted =>
    Ordinary s.conn.buffer frames ∧
      (accepted = true → frames ≠ [] → s.conn.handshakeState ≠ .handshakeDone →
        s.Continues level frames)
  | .preWork => Ordinary s.conn.buffer [] ∧ s.Continues s.level []
  | _ => True

/-- The frames that arrived were received, and the memory holds them. -/
structure Held (s : TlsTracked τ) : Prop where
  /-- The frames were received. -/
  received : ∀ f ∈ s.arrived, (s.level, f) ∈ s.received
  /-- The memory holds the frames. -/
  holds : Segment.Holds s.conn.buffer.mem s.conn.buffer.reserved s.arrived

/-- Without frames nothing has to be held. -/
theorem held_of_nil (h : s.arrived = []) : s.Held where
  received := by rw [h]; exact List.forall_mem_nil _
  holds := by rw [h]; exact Segment.holds_nil _ _

/-- The frames stay in their places when the memory behind the reserved bytes does. -/
theorem Held.replace (h : s.Held) {c : TlsConn τ} (hmem : ∀ i,
    c.buffer.mem[s.conn.buffer.reserved + i]? = s.conn.buffer.mem[s.conn.buffer.reserved + i]?) :
    (s.replace c).Held := by
  by_cases hreserved : c.buffer.reserved = s.conn.buffer.reserved
  · have harrived : (s.replace c).arrived = s.arrived := if_pos hreserved
    refine ⟨fun f hf => h.received f (harrived ▸ hf), fun i hi => ?_⟩
    rw [harrived] at hi ⊢
    obtain ⟨f, hf, hcovers, hat⟩ := h.holds i hi
    refine ⟨f, hf, hcovers, Eq.trans ?_ hat⟩
    change c.buffer.mem[c.buffer.reserved + i]? = _
    rw [hreserved, hmem]
  · exact held_of_nil (if_neg hreserved)

/-- Bytes that fit into the reserved ones leave the memory behind these alone. -/
theorem getElem?_writeHead {b : QuicBuffer} {bytes : List UInt8} (h : bytes.length ≤ b.reserved)
    (i : ℕ) : (b.writeHead bytes).mem[b.reserved + i]? = b.mem[b.reserved + i]? := by
  rw [QuicBuffer.writeHead, List.getElem?_append_right (h.trans (Nat.le_add_right _ _)),
    List.getElem?_drop]
  congr 1
  omega

/-- A call of `TlsHandshake` keeps the record. -/
theorem Held.call (h : s.Held) (hcall : s.call m fuel = some t) : t.Held := by
  have hover : t = s.writeOver (tlsHandshakeWritten m fuel s.conn)
      (tlsHandshake m fuel s.conn).2 := by
    unfold TlsTracked.call at hcall
    split at hcall
    · rename_i heq
      rw [heq]
      exact (Option.some.inj hcall).symm
    · rename_i heq
      rw [heq]
      exact (Option.some.inj hcall).symm
    · cases hcall
  obtain ⟨bytes, hlen, hmem⟩ := tlsHandshake_mem (m := m) fuel s.conn
  rw [hover, writeOver]
  split_ifs with hwritten
  · refine h.replace fun i => ?_
    rw [hmem]
    exact getElem?_writeHead (hlen.trans hwritten) i
  · exact held_of_nil rfl

/-- The frames of a level that arrived are held. -/
theorem Held.arrivedAt (h : s.Held) (level : ℕ) :
    (∀ f ∈ s.arrivedAt level, (level, f) ∈ s.received) ∧
      Segment.Holds s.conn.buffer.mem s.conn.buffer.reserved (s.arrivedAt level) := by
  unfold TlsTracked.arrivedAt
  split
  · rename_i hlevel
    rw [hlevel]
    exact ⟨h.received, h.holds⟩
  · exact ⟨nofun, Segment.holds_nil _ _⟩

/-- The frames of a packet of ordinary size are held. -/
theorem Held.recv (h : s.Held) (hsize : Ordinary s.conn.buffer frames) {ok : Bool}
    (hrecv : s.recv level frames = some (ok, t)) : t.Held ∧ t = s.receive level frames := by
  have hplaces := places_of_recv hsize hrecv
  rw [recv_of_places hsize hplaces] at hrecv
  cases hrecv
  obtain ⟨hreceived, hholds⟩ := h.arrivedAt level
  refine ⟨⟨fun f hf => ?_, ?_⟩, rfl⟩
  · rcases List.mem_append.mp hf with hf | hf
    · exact List.mem_append_left _ (hreceived f hf)
    · exact List.mem_append_right _ (List.mem_map_of_mem hf)
  · have hfold := QuicBuffer.foldl_receive_holds hplaces hholds
    rw [← (QuicBuffer.foldl_receive frames s.conn.buffer).2.1] at hfold
    exact hfold

/-- A call happens after a packet of frames that were all read. -/
theorem handed_packet {accepted : Bool} (h : s.handed (.packet level frames accepted) = some t) :
    ∃ ok, s.recv level frames = some (ok, t) ∧ accepted = true ∧ frames ≠ [] ∧
      t.conn.handshakeState ≠ .handshakeDone := by
  unfold handed at h
  obtain ⟨⟨ok, u⟩, hrecv, h⟩ := Option.bind_eq_some_iff.mp h
  split at h
  · rename_i hcond
    cases h
    exact ⟨ok, hrecv, hcond.2⟩
  · cases h

/-- In front of the end of the data with the ends of frames. -/
theorem lt_stopAfter {i dataLen : ℕ} :
    i < stopAfter dataLen frames ↔ i < dataLen ∨ ∃ f ∈ frames, i < f.stop := by
  induction frames generalizing dataLen with
  | nil => simp [stopAfter]
  | cons f frames ih =>
    change i < stopAfter (max dataLen f.stop) frames ↔ _
    rw [ih, lt_max_iff, List.exists_mem_cons_iff, or_assoc]

/-- Behind a packet that continues what arrived, every position up to the end of the data has
arrived. -/
theorem Continues.exists_covers (h : s.Continues level frames) {i : ℕ}
    (hi : i < stopAfter s.conn.buffer.dataLen frames) :
    ∃ f ∈ s.arrivedAt level ++ frames, f.Covers i := by
  obtain ⟨hgap, hown, -⟩ := h
  have hend : ∃ f ∈ s.arrivedAt level ++ frames, i < f.stop := by
    rcases lt_stopAfter.mp hi with hi | ⟨f, hf, hi⟩
    · exact (lt_stopAfter.mp (hi.trans_le hown)).resolve_left (Nat.not_lt_zero i)
    · exact ⟨f, List.mem_append_right _ hf, hi⟩
  obtain ⟨f, hf, hstop⟩ := hend
  exact hgap f hf i hstop

/-- The bytes of a call come from the peer when all of them have arrived. -/
theorem Held.proper_of_covers (h : s.Held) (hdata : s.conn.buffer.dataLen < 2 ^ 31)
    (hoffset : s.conn.buffer.offset ≤ s.conn.buffer.dataLen)
    (hcovers : ∀ i < s.conn.buffer.dataLen, ∃ f ∈ s.arrived, f.Covers i) : s.Proper := by
  refine ⟨?_, hoffset, fun i _ hhigh => ?_⟩
  · rw [quicGe_iff] <;> omega
  · obtain ⟨f, hf, hplace, hmem⟩ := h.holds i (hcovers i hhigh)
    exact ⟨f, h.received f hf, hplace, hmem⟩

/-- The bytes of a call come from the peer when the event was ready. -/
theorem Held.proper (h : s.Held) (hready : s.Ready e) (hhanded : s.handed e = some t) :
    t.Proper := by
  cases e with
  | packet level frames accepted =>
    obtain ⟨hsize, hready⟩ := hready
    obtain ⟨ok, hrecv, haccepted, hne, hdone⟩ := handed_packet hhanded
    obtain ⟨hheld, rfl⟩ := h.recv hsize hrecv
    obtain ⟨hoffset, _, hdata⟩ := QuicBuffer.foldl_receive frames s.conn.buffer
    have hlimit (f : Segment UInt8) (hf : f ∈ frames) : f.stop < 2 ^ 31 := by
      have hstop := hsize.stop f hf
      unfold bufMemLimit at hstop
      omega
    have hoffset' : (s.receive level frames).conn.buffer.offset = s.conn.buffer.offset := hoffset
    have hdataLen : (s.receive level frames).conn.buffer.dataLen =
        stopAfter s.conn.buffer.dataLen frames := hdata
    have hcontinues := hready haccepted hne hdone
    refine hheld.proper_of_covers ?_ ?_ fun i hi => ?_
    · rw [hdataLen]
      exact stopAfter_lt hsize.dataLen hlimit
    · rw [hdataLen, hoffset']
      exact hcontinues.2.2
    · rw [hdataLen] at hi
      exact hcontinues.exists_covers hi
  | preWork =>
    cases hhanded
    obtain ⟨hsize, hcontinues⟩ := hready
    refine h.proper_of_covers hsize.dataLen hcontinues.2.2 fun i hi => ?_
    have hcovers : ∃ f ∈ s.arrivedAt s.level ++ [], f.Covers i := hcontinues.exists_covers hi
    rwa [List.append_nil, TlsTracked.arrivedAt, if_pos rfl] at hcovers
  | reserve | clear | other => cases hhanded

/-- An event that is ready keeps the record. -/
theorem Held.step (h : s.Held) (hready : s.Ready e) (hstep : s.step m fuel e = some t) :
    t.Held := by
  cases e with
  | packet level frames accepted =>
    unfold TlsTracked.step at hstep
    cases hhanded : s.handed (.packet level frames accepted) with
    | some u =>
      rw [hhanded] at hstep
      obtain ⟨ok, hrecv, _⟩ := handed_packet hhanded
      exact (h.recv hready.1 hrecv).1.call hstep
    | none =>
      rw [hhanded] at hstep
      obtain ⟨⟨ok, u⟩, hrecv, rfl⟩ := Option.map_eq_some_iff.mp hstep
      exact (h.recv hready.1 hrecv).1
  | preWork => exact h.call hstep
  | reserve | clear | other =>
    cases hstep
    exact h.replace fun _ => rfl

/-- A server whose handlers accept every message. -/
def acceptingServer : TlsMethod Unit where
  proc := serverProc
    { clientHelloProc := fun _ => pure ()
      srvrFinishedProc := fun _ => pure ()
      serverHelloBuild := pure ()
      srvrEncryptedExtBuild := pure ()
      srvrServerCertBuild := pure ()
      srvrCertVerifyBuild := pure ()
      srvrFinishedBuild := pure ()
      srvrNewSessionTicketBuild := pure ()
      srvrClientHelloPostWork := pure ()
      srvrServerHelloPostWork := pure ()
      serverWriteFinishedPostWork := pure () }
  takeMac := pure ()
  finishMac := fun _ => pure ()
  cryptoFrameBuild := fun _ _ => pure ()
  handshakeDoneFrameBuild := fun _ => pure ()

/-- A server before its first packet. -/
def freshConn : TlsConn Unit where
  handshakeState := .ok
  buffer := quicBufInit tlsMessageMaxLen
  host := ()
  handled := []

theorem freshConn_length : freshConn.buffer.length = tlsMessageMaxLen := List.length_replicate

end TlsTracked

end Tbquic
