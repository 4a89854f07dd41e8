import Tbquic.Frame.Parser
import Tbquic.Frame.Queue
import Tbquic.Tls.Buffer

/-!
# The state machine of the handshake

`TlsHandshake` walks over a table with one entry for each state. An entry reads a message of
the peer from the buffer of the handshake, or writes one of the endpoint to the start of the
same buffer. The client and the server have a table each, with their own handlers, which are
parameters here.
-/

namespace Tbquic

/-- `TlsState`. -/
inductive TlsState
  | ok
  | cwClientHello
  | cwClientCertificate
  | cwCertVerify
  | cwFinished
  | crServerHello
  | crEncryptedExtensions
  | crCertRequest
  | crServerCertificate
  | crCertVerify
  | crFinished
  | crNewSessionTicket
  | srClientHello
  | srClientCertificate
  | srCertVerify
  | srFinished
  | swServerHello
  | swEncryptedExtensions
  | swCertRequest
  | swServerCertificate
  | swCertVerify
  | swFinished
  | swNewSessionTicket
  | swHandshakeDone
  | handshakeDone
  deriving DecidableEq, Repr

namespace TlsState

/-- The number of a state. -/
def index (q : TlsState) : ℕ := q.ctorIdx

/-- All states in order. -/
def all : List TlsState :=
  [ok, cwClientHello, cwClientCertificate, cwCertVerify, cwFinished, crServerHello,
    crEncryptedExtensions, crCertRequest, crServerCertificate, crCertVerify, crFinished,
    crNewSessionTicket, srClientHello, srClientCertificate, srCertVerify, srFinished,
    swServerHello, swEncryptedExtensions, swCertRequest, swServerCertificate, swCertVerify,
    swFinished, swNewSessionTicket, swHandshakeDone, handshakeDone]

end TlsState

/-- `TlsMessageType`, the types that the tables use. -/
inductive TlsMessageType
  | helloRequest
  | clientHello
  | serverHello
  | newSessionTicket
  | encryptedExtensions
  | certificate
  | certificateRequest
  | certificateVerify
  | finished
  deriving DecidableEq, Repr

/-- The number of a message type. -/
def TlsMessageType.code : TlsMessageType → ℕ
  | helloRequest => 0
  | clientHello => 1
  | serverHello => 2
  | newSessionTicket => 4
  | encryptedExtensions => 8
  | certificate => 11
  | certificateRequest => 13
  | certificateVerify => 15
  | finished => 20

/-- `QuicFlowReturn` without the error, which ends a computation. No handler returns the other
values. -/
inductive QuicFlowReturn
  /-- `QUIC_FLOW_RET_NEXT`. -/
  | next
  /-- `QUIC_FLOW_RET_WANT_READ`. -/
  | wantRead
  /-- `QUIC_FLOW_RET_CONTINUE`. -/
  | goOn
  /-- `QUIC_FLOW_RET_FINISH`. -/
  | finish
  /-- `QUIC_FLOW_RET_DROP`. -/
  | drop
  /-- `QUIC_FLOW_RET_END`. -/
  | finished
  deriving DecidableEq, Repr

/-- A message of the peer as its handler sees it. -/
structure TlsMessage where
  /-- The bytes of the message with its header. -/
  bytes : List UInt8
  /-- The start of the memory, `reserved` bytes and as many more as the message has, which is
  what `TlsDigestCachedRecords` hashes. -/
  head : List UInt8
  deriving DecidableEq, Repr

/-- The bytes of a message behind its type and its length. -/
def TlsMessage.body (msg : TlsMessage) : List UInt8 := msg.bytes.drop 4

/-- What `TlsServerHelloProc` can change. -/
structure TlsRead (τ : Type) where
  /-- The connection. -/
  host : τ
  /-- The number of bytes in front of the messages received, which `QuicBufClear` resets. -/
  reserved : ℕ

/-- What the writer of a message can change. -/
structure TlsWrite (τ : Type) where
  /-- The connection. -/
  host : τ
  /-- The bytes written. -/
  pkt : WPacket
  /-- Whether the writer has set `handshake_state`. -/
  jump : Bool

/-- `flow_state` and `handler` of an entry. -/
inductive TlsFlow (τ : Type)
  /-- `QUIC_FLOW_NOTHING`. -/
  | nothing
  /-- `QUIC_FLOW_READING`. The handlers return `QUIC_FLOW_RET_FINISH`. -/
  | reading (handler : TlsMessage → Prog Fail (TlsRead τ) Unit)
  /-- `QUIC_FLOW_WRITING`, with what the handler returns. -/
  | writing (handler : Prog Fail (TlsWrite τ) Unit) (ret : QuicFlowReturn)
  /-- `QUIC_FLOW_FINISHED`. -/
  | finished

/-- Reading with a handler that leaves the buffer alone. -/
def TlsFlow.readingHost {τ : Type} (handler : TlsMessage → Prog Fail τ Unit) : TlsFlow τ :=
  .reading fun msg => Prog.zoom TlsRead.host (fun host r => { r with host }) (handler msg)

/-- `TlsProcess`. -/
structure TlsProcess (τ : Type) where
  /-- What happens in the state. -/
  flow : TlsFlow τ
  /-- The next state. -/
  nextState : TlsState
  /-- The state that the writer can choose instead. -/
  jumpState : TlsState := .handshakeDone
  /-- The type of the message read or written. -/
  msgType : TlsMessageType := .helloRequest
  /-- `post_work`. -/
  postWork : Prog Fail τ Unit := pure ()
  /-- `skip_check` is there and returns `0`. -/
  skipCheck : τ → Bool := fun _ => false
  /-- The type of the packets that carry what was written. -/
  pktType : ℕ := quicPktTypeInitial

/-- The entries that the source leaves out. -/
def tlsProcessEmpty {τ : Type} : TlsProcess τ := { flow := .nothing, nextState := .ok }

/-- A message is read in the state. -/
def TlsProcess.isReading {τ : Type} (p : TlsProcess τ) : Bool :=
  match p.flow with
  | .reading _ => true
  | _ => false

/-- The table of an endpoint and the routines that `TlsHandshake` calls with every table. -/
structure TlsMethod (τ : Type) where
  /-- The table. -/
  proc : TlsState → TlsProcess τ
  /-- `TlsTakeMac`. -/
  takeMac : Prog Fail τ Unit
  /-- `TlsFinishMac`. -/
  finishMac : List UInt8 → Prog Fail τ Unit
  /-- `QuicCryptoFrameBuild` on a packet type and the bytes at the start of the memory. -/
  cryptoFrameBuild : ℕ → List UInt8 → Prog Fail τ Unit
  /-- `QuicDataHandshakeDoneFrameBuild`, whose result is ignored. -/
  handshakeDoneFrameBuild : ℕ → Prog Fail τ Unit

/-- The part of a connection that the state machine works on. -/
structure TlsConn (τ : Type) where
  /-- `handshake_state`. -/
  handshakeState : TlsState
  /-- The buffer of the handshake. -/
  buffer : QuicBuffer
  /-- The rest of the connection. -/
  host : τ
  /-- The messages that were given to handlers, the last one at the end. No routine reads
  them. -/
  handled : List (TlsState × List UInt8)

namespace TlsConn

variable {τ α : Type}

/-- Run a routine on the connection behind the state machine. -/
def onHost (m : Prog Fail τ α) : Prog Fail (TlsConn τ) α :=
  Prog.zoom TlsConn.host (fun host c => { c with host }) m

/-- Run the handler of a message. -/
def onRead (m : Prog Fail (TlsRead τ) α) : Prog Fail (TlsConn τ) α :=
  Prog.zoom (fun c => { host := c.host, reserved := c.buffer.reserved })
    (fun r c => { c with host := r.host, buffer.reserved := r.reserved }) m

/-- `s->handshake_state = state`. -/
def setState (q : TlsState) (c : TlsConn τ) : TlsConn τ := { c with handshakeState := q }

/-- A message is given to the handler of a state. -/
def record (q : TlsState) (bytes : List UInt8) (c : TlsConn τ) : TlsConn τ :=
  { c with handled := c.handled ++ [(q, bytes)] }

/-- `TlsFlowFinish`. -/
def flowFinish (prevState nextState : TlsState) (c : TlsConn τ) : TlsConn τ :=
  if prevState = c.handshakeState then c.setState nextState else c

end TlsConn

/-- The `RPacket` over the messages received. Its length can exceed the memory. -/
structure TlsInput where
  /-- The bytes read. -/
  past : List UInt8
  /-- The bytes to read that are in the memory. -/
  rest : List UInt8
  /-- The number of bytes to read behind the memory. -/
  beyond : ℕ
  deriving DecidableEq, Repr

namespace TlsInput

/-- `RPacketRemaining`. -/
def remaining (i : TlsInput) : ℕ := i.rest.length + i.beyond

/-- `RPacketForward` over bytes of the memory. -/
def forward (i : TlsInput) (len : ℕ) : TlsInput :=
  { i with past := i.past ++ i.rest.take len, rest := i.rest.drop len }

/-- `RPacketGetBytes` and `RPacketTransfer`. -/
def get (len : ℕ) : Prog Fail TlsInput (List UInt8) := fun i =>
  if quicLt i.remaining len then (.error .ret, i)
  else if i.rest.length < len then (.error .ub, i)
  else (.ok (i.rest.take len), i.forward len)

/-- `RPacketPull`. -/
def pull (len : ℕ) : Prog Fail TlsInput Unit := fun i =>
  if quicLt i.remaining len then (.error .ret, i) else (.ok (), i.forward len)

/-- The length and the body of a message behind its type. -/
def message : Prog Fail TlsInput ℕ := do
  let len ← get 3
  let _ ← get (Bytes.toNat len)
  pure (Bytes.toNat len)

end TlsInput

/-- The messages received that were not read. -/
def QuicBuffer.input (b : QuicBuffer) : TlsInput :=
  let len : ℕ := (((b.dataLen : ℤ) - b.offset) % 2 ^ 64).toNat
  { past := [], rest := b.msg.take len, beyond := len - b.msg.length }

/-- The locals of `TlsHandshake`. -/
structure TlsStep (τ : Type) where
  /-- The connection. -/
  conn : TlsConn τ
  /-- `rpkt`. No table reads a message after it wrote one in the same call, so these bytes are
  those that the memory has at the start of the call. -/
  input : TlsInput
  /-- `wpkt`. -/
  pkt : WPacket
  /-- `pkt_type`. -/
  pktType : ℕ

/-- The locals at the start of `TlsHandshake`. -/
def TlsConn.start {τ : Type} (c : TlsConn τ) : TlsStep τ where
  conn := c
  input := c.buffer.input
  pkt := wPacketStaticBufInit wPacketBufMaxLen
  pktType := 0

namespace TlsStep

variable {τ α : Type}

/-- Run an operation on the messages received. -/
def onInput (m : Prog Fail TlsInput α) : Prog Fail (TlsStep τ) α :=
  Prog.zoom TlsStep.input (fun input s => { s with input }) m

/-- Run an operation on the writer. -/
def onPkt (m : Prog Fail WPacket α) : Prog Fail (TlsStep τ) α :=
  Prog.zoom TlsStep.pkt (fun pkt s => { s with pkt }) m

/-- Run a routine on the connection. -/
def onConn (m : Prog Fail (TlsConn τ) α) : Prog Fail (TlsStep τ) α :=
  Prog.zoom TlsStep.conn (fun conn s => { s with conn }) m

/-- `*pkt_type = p->pkt_type`, which does not happen in a finished state. -/
def setPktType (p : TlsProcess τ) (s : TlsStep τ) : TlsStep τ :=
  { s with pktType := match p.flow with
      | .finished => s.pktType
      | _ => p.pktType }

/-- Replace the buffer of the handshake. -/
def setBuffer (buffer : QuicBuffer) (s : TlsStep τ) : TlsStep τ := { s with conn.buffer := buffer }

/-- Run the writer of a message, which can choose a state. -/
def onWrite (jumpState : TlsState) (m : Prog Fail (TlsWrite τ) α) : Prog Fail (TlsStep τ) α :=
  Prog.zoom (fun s => { host := s.conn.host, pkt := s.pkt, jump := false })
    (fun w s =>
      { s with
        conn.host := w.host
        conn.handshakeState := if w.jump then jumpState else s.conn.handshakeState
        pkt := w.pkt }) m

variable {β : Type} {c c' : TlsConn τ} {i i' : TlsInput} {pkt : WPacket} {t : ℕ} {a : α} {e : Fail}

/-- A sequence continues after a routine on the connection. -/
theorem onConn_bind_of_ok {m : Prog Fail (TlsConn τ) α} {f : α → Prog Fail (TlsStep τ) β}
    (h : m c = (.ok a, c')) : (onConn m >>= f) ⟨c, i, pkt, t⟩ = f a ⟨c', i, pkt, t⟩ :=
  Prog.bind_of_ok (Prog.zoom_of_ok h)

/-- A sequence ends with a failing routine on the connection. -/
theorem onConn_bind_of_error {m : Prog Fail (TlsConn τ) α} {f : α → Prog Fail (TlsStep τ) β}
    (h : m c = (.error e, c')) :
    (onConn m >>= f) ⟨c, i, pkt, t⟩ = (.error e, ⟨c', i, pkt, t⟩) :=
  Prog.bind_of_error (Prog.zoom_of_error h)

/-- A sequence continues with the outcome of an operation on the messages received. -/
theorem attempt_onInput_bind {m : Prog Fail TlsInput α}
    {f : Except Fail α → Prog Fail (TlsStep τ) β} {r : Except Fail α} (h : m i = (r, i')) :
    (Prog.attempt (onInput m) >>= f) ⟨c, i, pkt, t⟩ = f r ⟨c, i', pkt, t⟩ := by
  rw [Prog.attempt_bind, onInput, Prog.zoom_apply, h]

end TlsStep

section Handshake

variable {τ : Type}

/-- The loop of `TlsHandshakeRead` over the states that can be skipped. The result is the state
that is reached and whether it reads messages of the type. -/
def tlsSkip (proc : TlsState → TlsProcess τ) (host : τ) (type : ℕ) :
    ℕ → TlsState → Except Fail (TlsState × Bool)
  | 0, _ => .error .fuel
  | fuel + 1, q =>
    if type = (proc q).msgType.code then .ok (q, true)
    else if (proc q).skipCheck host then tlsSkip proc host type fuel (proc q).nextState
    else .ok (q, false)

/-- The loop, from the state of the connection, which it changes. -/
def tlsHandshakeMatch (proc : TlsState → TlsProcess τ) (type : ℕ) :
    Prog Fail (TlsConn τ) (TlsState × Bool) := do
  let c ← Prog.get
  let found ← Prog.ofExcept (tlsSkip proc c.host type TlsState.all.length c.handshakeState)
  Prog.modify (TlsConn.setState found.1)
  pure found

/-- `TlsHandshakeMsgRetrans`. -/
def tlsHandshakeMsgRetrans (proc : TlsState → TlsProcess τ) (type : ℕ) (q : TlsState) : Bool :=
  match TlsState.all.find? fun i => (proc i).isReading && (proc i).msgType.code = type with
  | some i => i.index < q.index
  | none => false

/-- The end of `TlsHandshakeRead` with a message whose type does not match. -/
def tlsHandshakeDrop (retrans : Bool) : Prog Fail TlsInput QuicFlowReturn :=
  if retrans then do
    let len ← TlsInput.get 3
    TlsInput.pull (Bytes.toNat len)
    pure .drop
  else Prog.fail .ret

/-- `TlsTakeMac` before a Finished message. -/
def tlsHandshakeMac (m : TlsMethod τ) (type : ℕ) : Prog Fail τ Unit :=
  if type = TlsMessageType.finished.code then m.takeMac else pure ()

/-- The end of `TlsHandshakeRead` with a complete message for the state. -/
def tlsHandshakeProc (m : TlsMethod τ) (type : ℕ) (q : TlsState) (bytes : List UInt8) :
    Prog Fail (TlsConn τ) Unit := do
  TlsConn.onHost (tlsHandshakeMac m type)
  TlsConn.onHost (m.finishMac bytes)
  match (m.proc q).flow with
  | .reading handler => do
    let c ← Prog.get
    let head := c.buffer.mem.take (c.buffer.reserved + bytes.length)
    Prog.modify (TlsConn.record q bytes)
    TlsConn.onRead (handler { bytes, head })
    Prog.modify (TlsConn.flowFinish q (m.proc q).nextState)
  | _ => Prog.fail .ub

/-- The part of `TlsHandshakeRead` with a message of the right type, which waits for the rest of
an incomplete message. -/
def tlsHandshakeMsg (m : TlsMethod τ) (start : TlsInput) (type : ℕ) (q : TlsState) :
    Prog Fail (TlsStep τ) QuicFlowReturn := do
  match ← Prog.attempt (TlsStep.onInput TlsInput.message) with
  | .error .ret => do
    Prog.modify fun s => { s with input := start }
    pure .wantRead
  | .error e => Prog.fail e
  | .ok len => do
    TlsStep.onConn (tlsHandshakeProc m type q (start.rest.take (4 + len)))
    pure .finish

/-- `TlsHandshakeRead` behind the check for an empty input. -/
def tlsHandshakeRead (m : TlsMethod τ) : Prog Fail (TlsStep τ) QuicFlowReturn := do
  let s ← Prog.get
  match ← Prog.attempt (TlsStep.onInput (TlsInput.get 1)) with
  | .error .ret => pure .wantRead
  | .error e => Prog.fail e
  | .ok type => do
    let found ← TlsStep.onConn (tlsHandshakeMatch m.proc (Bytes.toNat type))
    if found.2 then tlsHandshakeMsg m s.input (Bytes.toNat type) found.1
    else do
      let retrans := tlsHandshakeMsgRetrans m.proc (Bytes.toNat type) found.1
      TlsStep.onInput (tlsHandshakeDrop retrans)

/-- `TlsHandshakeWrite`. -/
def tlsHandshakeWrite (m : TlsMethod τ) (p : TlsProcess τ) (handler : Prog Fail (TlsWrite τ) Unit) :
    Prog Fail (TlsStep τ) Unit := do
  let s ← Prog.get
  TlsStep.onPkt (wPacketPutBytes p.msgType.code 1)
  TlsStep.onPkt (wPacketStartSubBytes 3)
  TlsStep.onWrite p.jumpState handler
  TlsStep.onPkt wPacketClose
  let t ← Prog.get
  Prog.ensure .assert (quicGt ((t.pkt.written : ℤ) - s.pkt.written) 0)
  TlsStep.onConn (TlsConn.onHost (m.finishMac (t.pkt.buf.drop s.pkt.written)))
  TlsStep.onConn (Prog.modify (TlsConn.flowFinish s.conn.handshakeState p.nextState))

/-- One round of the loop of `TlsHandshakeStatem` up to the handler. -/
def tlsHandshakeFlow (m : TlsMethod τ) (p : TlsProcess τ) : Prog Fail (TlsStep τ) QuicFlowReturn :=
  match p.flow with
  | .nothing => do
    TlsStep.onConn (Prog.modify (TlsConn.setState p.nextState))
    pure .goOn
  | .reading _ => do
    let s ← Prog.get
    if s.input.remaining = 0 then pure .wantRead else tlsHandshakeRead m
  | .writing handler ret => do
    tlsHandshakeWrite m p handler
    pure ret
  | .finished => pure .finished

/-- One round of the loop of `TlsHandshakeStatem`. The result is the value to return, if the
round is the last one. -/
def tlsHandshakeRound (m : TlsMethod τ) : Prog Fail (TlsStep τ) (Option QuicFlowReturn) := do
  let s ← Prog.get
  let p := m.proc s.conn.handshakeState
  Prog.modify (TlsStep.setPktType p)
  let ret ← tlsHandshakeFlow m p
  if ret = .wantRead ∨ ret = .drop ∨ ret = .finished then pure (some ret)
  else do
    TlsStep.onConn (TlsConn.onHost p.postWork)
    pure (if ret = .next then some ret else none)

/-- The loop of `TlsHandshakeStatem`. -/
def tlsHandshakeStatem (m : TlsMethod τ) : ℕ → Prog Fail (TlsStep τ) QuicFlowReturn
  | 0 => Prog.fail .fuel
  | fuel + 1 => do
    match ← tlsHandshakeRound m with
    | some ret => pure ret
    | none => tlsHandshakeStatem m fuel

/-- The offset of the messages to read, after `TlsHandshakeStatem`. -/
def tlsHandshakeOffset (ret : Except Fail QuicFlowReturn) : Prog Fail (TlsStep τ) Unit := do
  let s ← Prog.get
  if (ret = .ok .wantRead ∨ ret = .ok .next) ∧ s.input.remaining ≠ 0 then do
    let buffer ← Prog.ofOption .ret (s.conn.buffer.addOffset s.input.past.length)
    Prog.modify (TlsStep.setBuffer buffer)
  else Prog.modify (TlsStep.setBuffer s.conn.buffer.resetOffset)

/-- Send what was written. -/
def tlsHandshakeSend (m : TlsMethod τ) : Prog Fail (TlsStep τ) Unit := do
  let s ← Prog.get
  Prog.modify (TlsStep.setBuffer (s.conn.buffer.setDataLength s.pkt.written))
  if s.pkt.written ≠ 0 then
    TlsStep.onConn (TlsConn.onHost (m.cryptoFrameBuild s.pktType s.pkt.buf))
  else pure ()

/-- The end of `TlsHandshake`. -/
def tlsHandshakeDone (m : TlsMethod τ) : Prog Fail (TlsStep τ) Unit := do
  let s ← Prog.get
  if s.conn.handshakeState = .swHandshakeDone then do
    TlsStep.onConn (TlsConn.onHost (ignoreRet (m.handshakeDoneFrameBuild s.pktType)))
    TlsStep.onConn (Prog.modify (TlsConn.setState .handshakeDone))
  else pure ()

/-- `TlsHandshake` behind `TlsHandshakeStatem`, with its result. -/
def tlsHandshakeFinish (m : TlsMethod τ) (ret : Except Fail QuicFlowReturn) :
    Prog Fail (TlsStep τ) QuicFlowReturn := do
  let s ← Prog.get
  Prog.modify (TlsStep.setBuffer (s.conn.buffer.writeHead s.pkt.buf))
  tlsHandshakeOffset ret
  tlsHandshakeSend m
  tlsHandshakeDone m
  Prog.ofExcept ret

/-- `TlsHandshake` behind the assertion. A call that ends with an error also sends what it
wrote. -/
def tlsHandshakeBody (m : TlsMethod τ) (fuel : ℕ) : Prog Fail (TlsStep τ) QuicFlowReturn := do
  match ← Prog.attempt (tlsHandshakeStatem m fuel) with
  | .error .assert => Prog.fail .assert
  | .error .ub => Prog.fail .ub
  | .error .fuel => Prog.fail .fuel
  | ret => tlsHandshakeFinish m ret

/-- `TlsHandshake`, which is also `TlsDoHandshake`. The fuel bounds the rounds of the loop. -/
def tlsHandshake (m : TlsMethod τ) (fuel : ℕ) : Prog Fail (TlsConn τ) QuicFlowReturn := do
  let c ← Prog.get
  Prog.ensure .assert (quicGe (((c.buffer.dataLen : ℤ) - c.buffer.offset) % 2 ^ 64) 0)
  Prog.zoom TlsConn.start (fun s _ => s.conn) (tlsHandshakeBody m fuel)

end Handshake

/-- The handlers of the client. -/
structure ClientHandlers (τ : Type) where
  /-- `TlsClientHelloBuild`. -/
  clientHelloBuild : Prog Fail (TlsWrite τ) Unit
  /-- `TlsClntFinishedBuild`. -/
  clntFinishedBuild : Prog Fail (TlsWrite τ) Unit
  /-- `TlsServerHelloProc`. -/
  serverHelloProc : TlsMessage → Prog Fail (TlsRead τ) Unit
  /-- `TlsEncExtProc`. -/
  encExtProc : TlsMessage → Prog Fail τ Unit
  /-- `TlsServerCertProc`. -/
  serverCertProc : TlsMessage → Prog Fail τ Unit
  /-- `TlsCertVerifyProc`. -/
  certVerifyProc : TlsMessage → Prog Fail τ Unit
  /-- `TlsClientFinishedProc`. -/
  clientFinishedProc : TlsMessage → Prog Fail τ Unit
  /-- `TlsClntNewSessionTicketProc`. -/
  clntNewSessionTicketProc : TlsMessage → Prog Fail τ Unit
  /-- `TlsClientEncExtPostWork`. -/
  clientEncExtPostWork : Prog Fail τ Unit
  /-- `TlsClientFinishedPostWork`. -/
  clientFinishedPostWork : Prog Fail τ Unit
  /-- `hit`, which `TlsClientSkipCheckServerCert` and `TlsClientSkipCheckCertVerify` read. -/
  hit : τ → Bool

/-- `client_proc`. `TlsClntCertBuild`, `TlsClntCertVerifyBuild` and `TlsCertRequestProc` do
nothing, and `TlsClientSkipCheckCertRequest` returns `0`. -/
def clientProc {τ : Type} (h : ClientHandlers τ) : TlsState → TlsProcess τ
  | .ok => { flow := .nothing, nextState := .cwClientHello }
  | .cwClientHello =>
    { flow := .writing h.clientHelloBuild .next, nextState := .crServerHello,
      msgType := .clientHello }
  | .crServerHello =>
    { flow := .reading h.serverHelloProc, nextState := .crEncryptedExtensions,
      msgType := .serverHello }
  | .crEncryptedExtensions =>
    { flow := .readingHost h.encExtProc, nextState := .crCertRequest,
      msgType := .encryptedExtensions,
      postWork := h.clientEncExtPostWork }
  | .crCertRequest =>
    { flow := .readingHost fun _ => pure (), nextState := .crServerCertificate,
      msgType := .certificateRequest, skipCheck := fun _ => true }
  | .crServerCertificate =>
    { flow := .readingHost h.serverCertProc, nextState := .crCertVerify, msgType := .certificate,
      skipCheck := h.hit }
  | .crCertVerify =>
    { flow := .readingHost h.certVerifyProc, nextState := .crFinished,
      msgType := .certificateVerify,
      skipCheck := h.hit }
  | .crFinished =>
    { flow := .readingHost h.clientFinishedProc, nextState := .cwFinished, msgType := .finished }
  | .cwClientCertificate =>
    { flow := .writing (pure ()) .next, nextState := .cwCertVerify, msgType := .certificate }
  | .cwCertVerify =>
    { flow := .writing (pure ()) .next, nextState := .cwFinished, msgType := .certificateVerify }
  | .cwFinished =>
    { flow := .writing h.clntFinishedBuild .next, nextState := .crNewSessionTicket,
      msgType := .finished, postWork := h.clientFinishedPostWork, pktType := quicPktTypeHandshake }
  | .crNewSessionTicket =>
    { flow := .readingHost h.clntNewSessionTicketProc, nextState := .crNewSessionTicket,
      msgType := .newSessionTicket, pktType := quicPktType1Rtt }
  | .handshakeDone => { flow := .finished, nextState := .handshakeDone }
  | _ => tlsProcessEmpty

/-- The handlers of the server. -/
structure ServerHandlers (τ : Type) where
  /-- `TlsClientHelloProc`. -/
  clientHelloProc : TlsMessage → Prog Fail τ Unit
  /-- `TlsSrvrFinishedProc`. -/
  srvrFinishedProc : TlsMessage → Prog Fail τ Unit
  /-- `TlsServerHelloBuild`. -/
  serverHelloBuild : Prog Fail (TlsWrite τ) Unit
  /-- `TlsSrvrEncryptedExtBuild`. -/
  srvrEncryptedExtBuild : Prog Fail (TlsWrite τ) Unit
  /-- `TlsSrvrServerCertBuild`. -/
  srvrServerCertBuild : Prog Fail (TlsWrite τ) Unit
  /-- `TlsSrvrCertVerifyBuild`. -/
  srvrCertVerifyBuild : Prog Fail (TlsWrite τ) Unit
  /-- `TlsSrvrFinishedBuild`. -/
  srvrFinishedBuild : Prog Fail (TlsWrite τ) Unit
  /-- `TlsSrvrNewSessionTicketBuild`. -/
  srvrNewSessionTicketBuild : Prog Fail (TlsWrite τ) Unit
  /-- `TlsSrvrClientHelloPostWork`. -/
  srvrClientHelloPostWork : Prog Fail τ Unit
  /-- `TlsSrvrServerHelloPostWork`. -/
  srvrServerHelloPostWork : Prog Fail τ Unit
  /-- `TlsServerWriteFinishedPostWork`. -/
  serverWriteFinishedPostWork : Prog Fail τ Unit

/-- `server_proc`. `TlsSrvrCertRequestBuild`, `TlsSrvrCertProc`, `TlsSrvrCertVerifyProc` and
`TlsServerReadFinishedPostWork` do nothing. -/
def serverProc {τ : Type} (h : ServerHandlers τ) : TlsState → TlsProcess τ
  | .ok => { flow := .nothing, nextState := .srClientHello }
  | .srClientHello =>
    { flow := .readingHost h.clientHelloProc, nextState := .swServerHello, msgType := .clientHello,
      postWork := h.srvrClientHelloPostWork }
  | .swServerHello =>
    { flow := .writing h.serverHelloBuild .next, nextState := .swEncryptedExtensions,
      msgType := .serverHello, postWork := h.srvrServerHelloPostWork }
  | .swEncryptedExtensions =>
    { flow := .writing h.srvrEncryptedExtBuild .finish, nextState := .swServerCertificate,
      jumpState := .swFinished, msgType := .encryptedExtensions, pktType := quicPktTypeHandshake }
  | .swCertRequest =>
    { flow := .writing (pure ()) .finish, nextState := .swServerCertificate,
      msgType := .certificateRequest, pktType := quicPktTypeHandshake }
  | .swServerCertificate =>
    { flow := .writing h.srvrServerCertBuild .finish, nextState := .swCertVerify,
      msgType := .certificate, pktType := quicPktTypeHandshake }
  | .swCertVerify =>
    { flow := .writing h.srvrCertVerifyBuild .finish, nextState := .swFinished,
      msgType := .certificateVerify, pktType := quicPktTypeHandshake }
  | .swFinished =>
    { flow := .writing h.srvrFinishedBuild .next, nextState := .srFinished, msgType := .finished,
      postWork := h.serverWriteFinishedPostWork, pktType := quicPktTypeHandshake }
  | .srClientCertificate =>
    { flow := .readingHost fun _ => pure (), nextState := .srCertVerify, msgType := .certificate,
      pktType := quicPktTypeHandshake }
  | .srCertVerify =>
    { flow := .readingHost fun _ => pure (), nextState := .srFinished,
      msgType := .certificateVerify,
      pktType := quicPktTypeHandshake }
  | .srFinished =>
    { flow := .readingHost h.srvrFinishedProc, nextState := .swNewSessionTicket,
      msgType := .finished,
      pktType := quicPktTypeHandshake }
  | .swNewSessionTicket =>
    { flow := .writing h.srvrNewSessionTicketBuild .finish, nextState := .swNewSessionTicket,
      jumpState := .swHandshakeDone, msgType := .newSessionTicket, pktType := quicPktType1Rtt }
  | .swHandshakeDone => { flow := .finished, nextState := .handshakeDone }
  | .handshakeDone => { flow := .finished, nextState := .handshakeDone }
  | _ => tlsProcessEmpty

end Tbquic
