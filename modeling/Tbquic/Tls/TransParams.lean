import Tbquic.Datagram.Seal

/-!
# Transport parameters

The extension of the transport parameters is written from a table and read with the table of the
other role. A third table gives the offset of a parameter in `QuicTransParams`, whose numbers are
read and written as words of 64 bits.
-/

namespace Tbquic

/-- `QuicTransParams`: the 64-bit words by their offset, and the token. -/
structure TransParams where
  /-- `QUIC_GET_U64_VALUE_BY_OFFSET`. -/
  word : ℕ → ℕ
  /-- `stateless_reset_token`. -/
  statelessResetToken : List UInt8

/-- `QUIC_SET_U64_VALUE_BY_OFFSET`. -/
def TransParams.set (param : TransParams) (offset value : ℕ) : TransParams :=
  { param with word := Function.update param.word offset value }

/-- `QUIC_TRANS_PARAM_ORIGINAL_DESTINATION_CONNECTION_ID`. -/
def quicTransParamOriginalDcid : ℕ := 0x00

/-- `QUIC_TRANS_PARAM_MAX_IDLE_TIMEOUT`. -/
def quicTransParamMaxIdleTimeout : ℕ := 0x01

/-- `QUIC_TRANS_PARAM_STATELESS_RESET_TOKEN`. -/
def quicTransParamStatelessResetToken : ℕ := 0x02

/-- `QUIC_TRANS_PARAM_MAX_UDP_PAYLOAD_SIZE`. -/
def quicTransParamMaxUdpPayloadSize : ℕ := 0x03

/-- `QUIC_TRANS_PARAM_INITIAL_MAX_DATA`. -/
def quicTransParamInitialMaxData : ℕ := 0x04

/-- `QUIC_TRANS_PARAM_INITIAL_MAX_STREAM_DATA_BIDI_LOCAL`. -/
def quicTransParamInitialMaxStreamDataBidiLocal : ℕ := 0x05

/-- `QUIC_TRANS_PARAM_INITIAL_MAX_STREAM_DATA_BIDI_REMOTE`. -/
def quicTransParamInitialMaxStreamDataBidiRemote : ℕ := 0x06

/-- `QUIC_TRANS_PARAM_INITIAL_MAX_STREAM_DATA_UNI`. -/
def quicTransParamInitialMaxStreamDataUni : ℕ := 0x07

/-- `QUIC_TRANS_PARAM_INITIAL_MAX_STREAMS_BIDI`. -/
def quicTransParamInitialMaxStreamsBidi : ℕ := 0x08

/-- `QUIC_TRANS_PARAM_INITIAL_MAX_STREAMS_UNI`. -/
def quicTransParamInitialMaxStreamsUni : ℕ := 0x09

/-- `QUIC_TRANS_PARAM_ACTIVE_CONNECTION_ID_LIMIT`. -/
def quicTransParamActiveConnIdLimit : ℕ := 0x0e

/-- `QUIC_TRANS_PARAM_INITIAL_SOURCE_CONNECTION_ID`. -/
def quicTransParamInitialScid : ℕ := 0x0f

/-- `QUIC_TRANS_PARAM_MAX_DATAGRAME_FRAME_SIZE`. -/
def quicTransParamMaxDatagrameFrameSize : ℕ := 0x20

/-- `QuicTransParamsDefines`, without the routines that get and set a value. -/
structure QuicTransParamsDefines where
  /-- The type of the parameter. -/
  type : ℕ
  /-- Its offset in `QuicTransParams`. -/
  offset : ℕ
  /-- The number that `init` stores. -/
  init : Option ℕ := none

/-- `trans_param_definition`. No offset is given for the source connection ID. -/
def transParamDefinition : List QuicTransParamsDefines :=
  [{ type := quicTransParamMaxIdleTimeout, offset := 0 },
    { type := quicTransParamMaxUdpPayloadSize, offset := 8 },
    { type := quicTransParamInitialMaxData, offset := 16 },
    { type := quicTransParamInitialMaxStreamDataBidiLocal, offset := 24 },
    { type := quicTransParamInitialMaxStreamDataBidiRemote, offset := 32 },
    { type := quicTransParamInitialMaxStreamDataUni, offset := 40 },
    { type := quicTransParamInitialMaxStreamsBidi, offset := 48 },
    { type := quicTransParamInitialMaxStreamsUni, offset := 56 },
    { type := quicTransParamActiveConnIdLimit, offset := 72, init := some 2 },
    { type := quicTransParamInitialScid, offset := 0 },
    { type := quicTransParamMaxDatagrameFrameSize, offset := 64 }]

/-- `QuicTransParamGetOffset`. -/
def quicTransParamGetOffset (type : ℕ) : Option ℕ :=
  (transParamDefinition.find? fun p => p.type = type).map QuicTransParamsDefines.offset

/-- `QuicTransParamInit` on zeros. -/
def quicTransParamInit : TransParams :=
  transParamDefinition.foldl
    (fun param p => match p.init with
      | some value => param.set p.offset value
      | none => param)
    { word := fun _ => 0, statelessResetToken := List.replicate 16 0 }

/-- What the routines of the tables read. -/
structure QtpTls where
  /-- `tls->ext.trans_param`. -/
  transParam : TransParams
  /-- `scid`. -/
  scid : List UInt8
  /-- `dcid`. -/
  dcid : List UInt8

/-- The bytes of the extension that are still to be read, and `peer_param`. -/
structure QtpState where
  /-- The bytes. -/
  pkt : RPacket
  /-- The parameters of the peer. -/
  peerParam : TransParams

/-- A routine that reads from the bytes of the extension. -/
def QtpState.reading {α : Type} (m : Prog Fail RPacket α) : Prog Fail QtpState α :=
  Prog.zoom QtpState.pkt (fun pkt s => { s with pkt }) m

/-- The routines `parse` of the tables. -/
inductive QtpParse
  | integer
  | sourceConnId
  | statelessResetToken
  deriving DecidableEq

/-- The routines `check` of the tables. -/
inductive QtpCheck
  | integer
  | statelessResetToken
  | grease
  | googleVersion
  deriving DecidableEq

/-- The routines `construct` of the tables. -/
inductive QtpConstruct
  | integer
  | sourceConnId
  | grease
  | googleVersion
  deriving DecidableEq

/-- `TlsExtQtpDefinition`. -/
structure TlsExtQtpDefinition where
  /-- The type of the parameter. -/
  type : ℕ
  /-- How it is read. -/
  parse : Option QtpParse := none
  /-- Whether it is written. -/
  check : Option QtpCheck := none
  /-- How it is written. -/
  construct : Option QtpConstruct := none
  deriving DecidableEq

/-- The entry of a parameter that is a number. -/
def TlsExtQtpDefinition.integer (type : ℕ) : TlsExtQtpDefinition where
  type := type
  parse := some .integer
  check := some .integer
  construct := some .integer

/-- `client_transport_param`. -/
def clientTransportParam : List TlsExtQtpDefinition :=
  [{ type := quicTransParamStatelessResetToken, parse := some .statelessResetToken,
      check := some .statelessResetToken },
    .integer quicTransParamMaxIdleTimeout,
    .integer quicTransParamMaxUdpPayloadSize,
    .integer quicTransParamInitialMaxData,
    .integer quicTransParamInitialMaxStreamDataBidiLocal,
    .integer quicTransParamInitialMaxStreamDataBidiRemote,
    .integer quicTransParamInitialMaxStreamDataUni,
    .integer quicTransParamInitialMaxStreamsBidi,
    .integer quicTransParamInitialMaxStreamsUni,
    { type := quicTransParamInitialScid, construct := some .sourceConnId },
    .integer quicTransParamMaxDatagrameFrameSize,
    { type := 0x1CD4C8D5641422F0, check := some .grease, construct := some .grease },
    { type := 0x4752, check := some .googleVersion, construct := some .googleVersion }]

/-- `server_transport_param`. -/
def serverTransportParam : List TlsExtQtpDefinition :=
  [{ type := quicTransParamOriginalDcid, construct := some .sourceConnId },
    .integer quicTransParamMaxIdleTimeout,
    .integer quicTransParamMaxUdpPayloadSize,
    .integer quicTransParamInitialMaxData,
    .integer quicTransParamInitialMaxStreamDataBidiLocal,
    .integer quicTransParamInitialMaxStreamDataBidiRemote,
    .integer quicTransParamInitialMaxStreamDataUni,
    .integer quicTransParamInitialMaxStreamsBidi,
    .integer quicTransParamInitialMaxStreamsUni,
    { type := quicTransParamInitialScid, parse := some .sourceConnId,
      construct := some .sourceConnId },
    .integer quicTransParamMaxDatagrameFrameSize]

/-- The table of a role. -/
def transportParam (server : Bool) : List TlsExtQtpDefinition :=
  if server then serverTransportParam else clientTransportParam

/-- Whether a check lets a parameter be written. Only tests write GREASE and the version. -/
def QtpCheck.passes (tls : QtpTls) (offset : ℕ) : QtpCheck → Bool
  | .integer => tls.transParam.word offset ≠ 0
  | .statelessResetToken | .grease | .googleVersion => false

/-- `QuicVariableLengthValueWrite`. -/
def quicVariableLengthValueWrite (value : ℕ) : Prog Fail WPacket Unit := do
  let var ← Prog.ofExcept (quicVariableLengthEncode 8 value)
  Prog.ensure .assert (var.length ≤ 8)
  quicVariableLengthWrite var.length
  wPacketMemcpy var

/-- `TlsExtQtpConstructCid`. -/
def tlsExtQtpConstructCid (cid : List UInt8) : Prog Fail WPacket Unit := do
  quicVariableLengthWrite cid.length
  if cid.length = 0 then pure () else wPacketMemcpy cid

/-- The value of `TlsExtQtpConstructGrease`. -/
def greaseValue : List UInt8 :=
  [0xB9, 0xF8, 0xCB, 0xDE, 0x38, 0x55, 0x6D, 0x9D, 0x34, 0x30, 0x0F, 0x89]

/-- The construct routines. -/
def QtpConstruct.run (tls : QtpTls) (offset : ℕ) : QtpConstruct → Prog Fail WPacket Unit
  | .integer => quicVariableLengthValueWrite (tls.transParam.word offset)
  | .sourceConnId => tlsExtQtpConstructCid tls.scid
  | .grease => do
    quicVariableLengthWrite greaseValue.length
    wPacketMemcpy greaseValue
  | .googleVersion => do
    quicVariableLengthWrite 4
    wPacketPutBytes 1 4

/-- The loop of `TlsConstructQtpExtension`. The offset of a type that has none is the last one. -/
def qtpConstructLoop (tls : QtpTls) : List TlsExtQtpDefinition → ℕ → Prog Fail WPacket Unit
  | [], _ => pure ()
  | p :: params, offset =>
    let offset := (quicTransParamGetOffset p.type).getD offset
    if (p.check.map (·.passes tls offset)).getD true then do
      quicVariableLengthWrite p.type
      match p.construct with
      | none => qtpConstructLoop tls params offset
      | some construct => do
        construct.run tls offset
        qtpConstructLoop tls params offset
    else qtpConstructLoop tls params offset

/-- `TlsConstructQtpExtension`. -/
def tlsConstructQtpExtension (tls : QtpTls) (params : List TlsExtQtpDefinition) :
    Prog Fail WPacket Unit :=
  qtpConstructLoop tls params 0

/-- The parse routines. The length of a number is not looked at. -/
def QtpParse.run (tls : QtpTls) (offset len : ℕ) : QtpParse → Prog Fail QtpState Unit
  | .integer => do
    let length ← QtpState.reading quicVariableLengthDecode
    Prog.modify fun s => { s with peerParam := s.peerParam.set offset length }
  | .sourceConnId => do
    let scid ← QtpState.reading (rPacketGetBytes len)
    if tls.dcid.length = 0 then pure () else Prog.ensure .ret (tls.dcid = scid)
  | .statelessResetToken => do
    Prog.ensure .ret (len = 16)
    let token ← QtpState.reading (rPacketGetBytes len)
    Prog.modify fun s => { s with peerParam := { s.peerParam with statelessResetToken := token } }

/-- The parse routine for a type and its offset, if the tables have both. -/
def qtpParser (params : List TlsExtQtpDefinition) (type : ℕ) : Option (QtpParse × ℕ) := do
  let p ← params.find? fun p => p.type = type
  let offset ← quicTransParamGetOffset type
  let parse ← p.parse
  pure (parse, offset)

/-- A round of `TlsParseQtpExtension`. -/
def qtpRound (tls : QtpTls) (params : List TlsExtQtpDefinition) : Prog Fail QtpState Unit := do
  let type ← QtpState.reading quicVariableLengthDecode
  let len ← QtpState.reading quicVariableLengthDecode
  match qtpParser params type with
  | none => QtpState.reading (rPacketPull len)
  | some (parse, offset) => parse.run tls offset len

/-- The loop of `TlsParseQtpExtension`. -/
def qtpParseLoop (tls : QtpTls) (params : List TlsExtQtpDefinition) : ℕ → Prog Fail QtpState Unit
  | 0 => Prog.fail .fuel
  | fuel + 1 => do
    let s ← Prog.get
    if s.pkt.remaining = 0 then pure ()
    else do
      qtpRound tls params
      qtpParseLoop tls params fuel

/-- `TlsParseQtpExtension`. Every round reads a byte. -/
def tlsParseQtpExtension (tls : QtpTls) (params : List TlsExtQtpDefinition) :
    Prog Fail QtpState Unit := do
  let s ← Prog.get
  qtpParseLoop tls params (s.pkt.remaining + 1)

/-- A parameter on the wire: its type and the length of its value in any encodings. -/
structure QtpParam where
  /-- The type. -/
  type : VarLength
  /-- The length of the value. -/
  length : VarLength
  /-- The value. -/
  value : List UInt8
  /-- The value is as long as declared. -/
  value_length : value.length = length.value

namespace QtpParam

/-- The bytes of a parameter. -/
def bytes (p : QtpParam) : List UInt8 := p.type.bytes ++ (p.length.bytes ++ p.value)

/-- The bytes of a list of parameters. -/
def listBytes (ps : List QtpParam) : List UInt8 := ps.flatMap bytes

/-- The types of the numbers, with the offsets of their fields. -/
def integers : List (ℕ × ℕ) :=
  [(quicTransParamMaxIdleTimeout, 0), (quicTransParamMaxUdpPayloadSize, 8),
    (quicTransParamInitialMaxData, 16), (quicTransParamInitialMaxStreamDataBidiLocal, 24),
    (quicTransParamInitialMaxStreamDataBidiRemote, 32), (quicTransParamInitialMaxStreamDataUni, 40),
    (quicTransParamInitialMaxStreamsBidi, 48), (quicTransParamInitialMaxStreamsUni, 56),
    (quicTransParamMaxDatagrameFrameSize, 64)]

/-- The field of a number. -/
def integerOffset (type : ℕ) : Option ℕ := (integers.find? fun p => p.1 = type).map Prod.snd

/-- A number fills its value, and a stateless reset token has 16 bytes. -/
def WellFormed (p : QtpParam) : Prop :=
  ((integerOffset p.type.value).isSome → ∃ v : VarLength, p.value = v.bytes) ∧
    (p.type.value = quicTransParamStatelessResetToken → p.value.length = 16)

/-- The number that some bytes encode. -/
def number : List UInt8 → ℕ
  | [] => 0
  | head :: tail => head.toNat % 64 * 256 ^ tail.length + Bytes.toNat tail

/-- The numbers of a parameter go to their fields. -/
def store (param : TransParams) (p : QtpParam) : TransParams :=
  match integerOffset p.type.value with
  | some offset => param.set offset (number p.value)
  | none => param

/-- A parameter is recorded: beside the numbers, the table of the client lists the token. -/
def record (server : Bool) (param : TransParams) (p : QtpParam) : TransParams :=
  if p.type.value = quicTransParamStatelessResetToken then
    if server then param else { param with statelessResetToken := p.value }
  else p.store param

end QtpParam

end Tbquic
