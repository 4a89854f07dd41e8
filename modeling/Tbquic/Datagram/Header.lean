import Tbquic.Frame.Connection
import Tbquic.Tls.Statem

/-!
# Headers of received packets

`QuicReadStateMachine` and `QuicStreamRecvNew` take a datagram apart into packets. The header of a
packet and its Length field say where the packet ends. What happens to a packet once it is cut out
is a parameter of the model.
-/

namespace Tbquic

/-- `QUIC_PKT_TYPE_INITIAL` to `QUIC_PKT_TYPE_1RTT`. -/
inductive QuicPktType
  | initial
  | zeroRtt
  | handshake
  | retry
  | oneRtt
  deriving DecidableEq, Repr

/-- `QUIC_VERSION_1`. -/
def quicVersion1 : ℕ := 1

/-- `QUIC_MAX_CID_LENGTH`. -/
def quicMaxCidLength : ℕ := 20

/-- `QUIC_MIN_CID_LENGTH`. -/
def quicMinCidLength : ℕ := 8

/-- A connection ID of this endpoint. Its length is a `uint8_t`. -/
abbrev LocalCid := { id : List UInt8 // id.length < 256 }

/-- What a connection knows when it reads headers. The rest of it is of type `κ`. -/
structure HeaderConn (κ : Type) where
  /-- `statem.state`. -/
  state : QuicStatemState
  /-- Whether this endpoint is the server. -/
  server : Bool
  /-- `version`. -/
  version : ℕ
  /-- `cid_len`. -/
  cidLen : UInt8
  /-- `scid`. -/
  scid : LocalCid
  /-- `scid_inited`. -/
  scidInited : Bool
  /-- `dcid`. -/
  dcid : List UInt8
  /-- `dcid_inited`. -/
  dcidInited : Bool
  /-- `token`. -/
  token : Option (List UInt8)
  /-- The rest of the connection. -/
  other : κ

/-- The calls that headers and packets are passed on to. -/
structure PacketCalls (κ : Type) where
  /-- `QuicCidGen`. -/
  cidGen : κ → UInt8 → Option (LocalCid × κ)
  /-- `QuicCreateInitialDecoders`. -/
  createInitialDecoders : κ → ℕ → List UInt8 → Option κ
  /-- `QuicCidMatch` on the connection IDs of this endpoint. -/
  scidMatch : κ → List UInt8 → Bool
  /-- `QuicCidMatch` on the connection IDs of the peer. -/
  dcidMatch : κ → List UInt8 → Bool
  /-- `QuicDecryptPacket` and `QuicFrameParse`, and whether both succeed. -/
  packet : QuicPktType → RPacket → HeaderConn κ → Bool × HeaderConn κ
  /-- `QuicCheckStatelessResetToken`. -/
  checkStatelessResetToken : List UInt8 → HeaderConn κ → HeaderConn κ

/-- A packet and the connection that reads it. -/
structure PktRecv (κ : Type) where
  /-- The datagram from the packet on. -/
  pkt : RPacket
  /-- The connection. -/
  conn : HeaderConn κ

/-- `QUIC_PACKET_IS_LONG_PACKET`. -/
def isLongPacket (flags : ℕ) : Bool := flags.testBit 7

/-- `lh.lpacket_type` with `QuicPacketTypeMap`. -/
def longPacketType (flags : ℕ) : QuicPktType :=
  match flags / 16 % 4 with
  | 0 => .initial
  | 1 => .zeroRtt
  | 2 => .handshake
  | _ => .retry

namespace PktRecv

variable {κ α : Type}

/-- Read from the packet. -/
def onPkt (read : Prog Fail RPacket α) : Prog Fail (PktRecv κ) α :=
  Prog.zoom PktRecv.pkt (fun pkt s => { s with pkt }) read

/-- Change the connection. -/
def setConn (f : HeaderConn κ → HeaderConn κ) : Prog Fail (PktRecv κ) Unit :=
  Prog.modify fun s => { s with conn := f s.conn }

variable (calls : PacketCalls κ)

/-- `QuicCidCmp` on the connection IDs of this endpoint. -/
def scidCmp (data : List UInt8) : Prog Fail (PktRecv κ) Unit := do
  let s ← Prog.get
  Prog.ensure .ret (s.conn.scid.val = data ∨ calls.scidMatch s.conn.other data = true)

/-- `QuicCidCmp` on the connection IDs of the peer. -/
def dcidCmp (data : List UInt8) : Prog Fail (PktRecv κ) Unit := do
  let s ← Prog.get
  Prog.ensure .ret (s.conn.dcid = data ∨ calls.dcidMatch s.conn.other data = true)

/-- `QuicClntParseDcid`. -/
def quicClntParseDcid (len : ℕ) : Prog Fail (PktRecv κ) Unit := do
  let data ← onPkt (rPacketGetBytes len)
  scidCmp calls data

/-- `QuicClntParseScid`. The result is whether the peer may still choose its connection ID. -/
def quicClntParseScid (len : ℕ) : Prog Fail (PktRecv κ) Bool := do
  let s ← Prog.get
  Prog.ensure .ret (s.conn.dcid ≠ [])
  if s.conn.dcidInited = false then pure true
  else if s.conn.dcid.length = len ∧ len = 0 then pure false
  else do
    let data ← onPkt (rPacketGetBytes len)
    dcidCmp calls data
    pure false

/-- The connection ID that a server takes over from its first packet. -/
def srvrTakeScid (data : List UInt8) : Prog Fail (PktRecv κ) Unit := do
  let s ← Prog.get
  if h : data.length = s.conn.cidLen.toNat then
    setConn fun c => { c with
      scid := ⟨data, h ▸ s.conn.cidLen.toNat_lt⟩, scidInited := true }
  else do
    let (scid, other) ← Prog.ofOption .ret (calls.cidGen s.conn.other s.conn.cidLen)
    setConn fun c => { c with scid, scidInited := true, other }

/-- `QuicSrvrParseDcid`. -/
def quicSrvrParseDcid (len : ℕ) : Prog Fail (PktRecv κ) Unit := do
  let data ← onPkt (rPacketGetBytes len)
  let s ← Prog.get
  let other ← Prog.ofOption .ret
    (calls.createInitialDecoders s.conn.other s.conn.version data)
  setConn fun c => { c with other }
  if s.conn.cidLen = 0 then
    if s.conn.scidInited = true then Prog.ensure .ret (len = 0)
    else setConn fun c => { c with scidInited := true }
  else if s.conn.scidInited = false then srvrTakeScid calls data
  else scidCmp calls data

/-- `QuicSrvrParseScid`. -/
def quicSrvrParseScid (len : ℕ) : Prog Fail (PktRecv κ) Bool := do
  let data ← onPkt (rPacketGetBytes len)
  let s ← Prog.get
  if s.conn.dcidInited = false then do
    setConn fun c => { c with dcid := if len = 0 then c.dcid else data, dcidInited := true }
    pure false
  else if s.conn.dcid.length = len ∧ len = 0 then pure false
  else do
    dcidCmp calls data
    pure false

/-- `parse_dcid` of the method. -/
def parseDcid (len : ℕ) : Prog Fail (PktRecv κ) Unit := do
  let s ← Prog.get
  if s.conn.server = true then quicSrvrParseDcid calls len else quicClntParseDcid calls len

/-- `parse_scid` of the method. -/
def parseScid (len : ℕ) : Prog Fail (PktRecv κ) Bool := do
  let s ← Prog.get
  if s.conn.server = true then quicSrvrParseScid calls len else quicClntParseScid calls len

/-- `QuicLPacketHeaderParse`. The result is the connection ID that the peer has chosen, if any. -/
def quicLPacketHeaderParse : Prog Fail (PktRecv κ) (Option (List UInt8)) := do
  let version ← onPkt rPacketGet4
  let len ← onPkt rPacketGet1
  let s ← Prog.get
  Prog.ensure .ret (version = s.conn.version)
  Prog.ensure .ret (¬ (version = quicVersion1 ∧ quicMaxCidLength < len))
  Prog.ensure .ret (¬ (0 < len ∧ len < quicMinCidLength))
  parseDcid calls len
  let len ← onPkt rPacketGet1
  let chosen ← parseScid calls len
  if chosen then do
    let data ← onPkt (rPacketGetBytes len)
    pure (some data)
  else pure none

/-- `QuicSPacketHeaderParse`. -/
def quicSPacketHeaderParse : Prog Fail (PktRecv κ) Unit := do
  let s ← Prog.get
  if s.conn.scid.val.length = 0 then pure ()
  else do
    let data ← onPkt (rPacketGetBytes s.conn.scid.val.length)
    scidCmp calls data

/-- `QuicPktHeaderParse`. -/
def quicPktHeaderParse (flags : ℕ) :
    Prog Fail (PktRecv κ) (QuicPktType × Option (List UInt8)) :=
  if isLongPacket flags = true then do
    let chosen ← quicLPacketHeaderParse calls
    pure (longPacketType flags, chosen)
  else do
    quicSPacketHeaderParse calls
    pure (.oneRtt, none)

/-- `QuicUpdateDcid`, when there is a connection ID to take over. -/
def quicUpdateDcid (chosen : Option (List UInt8)) (type : QuicPktType) :
    Prog Fail (PktRecv κ) Unit :=
  match chosen with
  | none => pure ()
  | some dcid =>
    setConn fun c => { c with dcid, dcidInited := c.dcidInited || decide (type = .initial) }

/-- `QuicTokenVerify`. A comparison behind the end of the datagram is undefined. -/
def quicTokenVerify (len : ℕ) : Prog Fail (PktRecv κ) Unit :=
  if len = 0 then pure ()
  else do
    let s ← Prog.get
    let token ← Prog.ofOption .ret s.conn.token
    Prog.ensure .ret (token.length = len)
    Prog.ensure .ub (len ≤ s.pkt.remaining)
    Prog.ensure .ret (token = s.pkt.rest.take len)

/-- `QuicLengthParse`: cut out the packet with the header in front of it. A packet that reaches
behind the end of the datagram is undefined. -/
def quicLengthParse : Prog Fail RPacket RPacket := do
  let length ← quicVariableLengthDecode
  let pkt ← Prog.get
  Prog.ensure .ret (¬ quicGt length pkt.remaining)
  Prog.ensure .ub (length ≤ pkt.remaining)
  Prog.modify (·.forward length)
  pure { past := pkt.past, rest := pkt.rest.take length }

/-- `QuicDecryptPacket` and `QuicFrameParse`. -/
def packet (type : QuicPktType) (msg : RPacket) : Prog Fail (PktRecv κ) Unit := fun s =>
  (if (calls.packet type msg s.conn).1 = true then .ok () else .error .ret,
    { s with conn := (calls.packet type msg s.conn).2 })

/-- `QuicInitPacketParse`. -/
def quicInitPacketParse : Prog Fail (PktRecv κ) Unit := do
  let tokenLen ← onPkt quicVariableLengthDecode
  quicTokenVerify tokenLen
  onPkt (Prog.modify (·.forward tokenLen))
  let msg ← onPkt quicLengthParse
  packet calls .initial msg

/-- `QuicHandshakePacketParse`. -/
def quicHandshakePacketParse : Prog Fail (PktRecv κ) Unit := do
  let msg ← onPkt quicLengthParse
  packet calls .handshake msg

/-- `QuicOneRttParse`. -/
def quicOneRttParse : Prog Fail (PktRecv κ) Unit := do
  let s ← Prog.get
  packet calls .oneRtt s.pkt
  onPkt (Prog.modify fun pkt => pkt.forward pkt.remaining)

/-- `QuicPktBodyParse`. The parsers of 0-RTT and Retry packets do nothing. -/
def quicPktBodyParse : QuicPktType → Prog Fail (PktRecv κ) Unit
  | .initial => quicInitPacketParse calls
  | .zeroRtt => pure ()
  | .handshake => quicHandshakePacketParse calls
  | .retry => pure ()
  | .oneRtt => quicOneRttParse calls

/-- `QuicInitialRecv`. -/
def quicInitialRecv (flags : ℕ) : Prog Fail (PktRecv κ) Unit := do
  Prog.ensure .ret (isLongPacket flags = true)
  Prog.ensure .ret (longPacketType flags = .initial)
  let chosen ← quicLPacketHeaderParse calls
  quicInitPacketParse calls
  quicUpdateDcid chosen .initial

/-- The bytes at the end of a datagram that may be a stateless reset token. -/
def statelessResetToken (pkt : RPacket) : Option (List UInt8) :=
  let offset : ℕ := (((pkt.remaining : ℤ) - quicStatelessResetTokenLen) % 2 ^ 64).toNat
  if quicGt offset 0 then some (pkt.rest.drop offset) else none

/-- The part of `QuicPacketRead` that may fail. -/
def quicPacketParse (flags : ℕ) : Prog Fail (PktRecv κ) Unit := do
  let (type, chosen) ← quicPktHeaderParse calls flags
  quicPktBodyParse calls type
  quicUpdateDcid chosen type

/-- `QuicPacketRead`. -/
def quicPacketRead (flags : ℕ) : Prog Fail (PktRecv κ) Unit := fun s =>
  match quicPacketParse calls flags s, statelessResetToken s.pkt with
  | (.error .ret, t), some token =>
    (.error .ret, { t with conn := calls.checkStatelessResetToken token t.conn })
  | run, _ => run

/-- The `recv` of `client_statem` and `server_statem`. A closed connection has none, and the source
calls a null pointer. -/
def recv (server : Bool) (state : QuicStatemState) (flags : ℕ) :
    Prog Fail (PktRecv κ) QuicFlowReturn :=
  match state with
  | .initial => do
    quicInitialRecv calls flags
    setConn fun c => { c with state := .handshake }
    pure (if server = true then .finish else .wantRead)
  | .handshake | .handshakeDone => do
    quicPacketRead calls flags
    pure .finish
  | .closing | .draining => pure .finish
  | .closed => Prog.fail .ub

end PktRecv

/-- What the loop of `QuicReadStateMachine` works on, with a record of the datagram that is being
read. -/
structure ReadSm (κ : Type) where
  /-- The datagram that is being read. -/
  pkt : RPacket
  /-- The connection. -/
  conn : HeaderConn κ
  /-- Whether `read_state` is `QUIC_WANT_DATA`. -/
  wantData : Bool
  /-- What `recv` returned last. -/
  ret : Option QuicFlowReturn
  /-- The datagrams that `read_bytes` is going to return. -/
  input : List (List UInt8)
  /-- All of the datagram that is being read. -/
  datagram : List UInt8
  /-- The bytes that each iteration consumed of it. -/
  packets : List (List UInt8)

namespace ReadSm

variable {κ : Type} (calls : PacketCalls κ)

/-- `read_bytes`. -/
def readBytes : Prog Fail (ReadSm κ) Unit := fun s =>
  match s.input with
  | [] => (.error .ret, s)
  | datagram :: input =>
    (.ok (), { s with
      pkt := rPacketBufInit datagram, wantData := false, input, datagram, packets := [] })

/-- Read a datagram, or go on behind the last packet. -/
def next : Prog Fail (ReadSm κ) Unit := do
  let s ← Prog.get
  if s.wantData = true ∧ s.pkt.remaining = 0 then readBytes
  else Prog.modify fun s => { s with pkt := rPacketBufInit s.pkt.rest }

/-- Hand the packet on with the connection. -/
def onPacket {α : Type} (recv : Prog Fail (PktRecv κ) α) : Prog Fail (ReadSm κ) α :=
  Prog.zoom (fun s => ⟨s.pkt, s.conn⟩) (fun t s => { s with pkt := t.pkt, conn := t.conn }) recv

/-- Read the first byte of a packet and hand the packet on. -/
def packet (recv : ℕ → Prog Fail (PktRecv κ) QuicFlowReturn) :
    Prog Fail (ReadSm κ) Unit := do
  let flags ← Prog.zoom ReadSm.pkt (fun pkt s => { s with pkt }) rPacketGet1
  let ret ← onPacket (recv flags)
  Prog.modify fun s => { s with
    ret := some ret
    wantData := s.wantData || decide (ret = .wantRead)
    packets := s.packets ++ [s.pkt.past] }

/-- An iteration of `QuicReadStateMachine`. -/
def iteration : Prog Fail (ReadSm κ) Unit := do
  next
  let s ← Prog.get
  packet (PktRecv.recv calls s.conn.server s.conn.state)

/-- The condition that ends the loop of `QuicReadStateMachine`. -/
def done (s : ReadSm κ) : Bool := decide (s.ret = some .finish ∧ s.pkt.remaining = 0)

/-- An iteration of `QuicStreamRecvNew`. -/
def streamIteration : Prog Fail (ReadSm κ) Unit := do
  packet fun flags => do
    PktRecv.quicPacketRead calls flags
    pure .finish
  Prog.modify fun s => { s with pkt := rPacketBufInit s.pkt.rest }

/-- The condition that ends the loop of `QuicStreamRecvNew`. -/
def streamDone (s : ReadSm κ) : Bool := decide (s.pkt.remaining = 0)

/-- The start of `QuicReadStateMachine`. -/
def start (conn : HeaderConn κ) (input : List (List UInt8)) : ReadSm κ where
  pkt := rPacketBufInit []
  conn := conn
  wantData := true
  ret := none
  input := input
  datagram := []
  packets := []

/-- The loop of `QuicStreamRecvNew` behind the read of a datagram. -/
def streamStart (conn : HeaderConn κ) (datagram : List UInt8) : ReadSm κ where
  pkt := rPacketBufInit datagram
  conn := conn
  wantData := false
  ret := none
  input := []
  datagram := datagram
  packets := []

end ReadSm

end Tbquic
