import Tbquic.Datagram.Header
import Tbquic.Protect

/-!
# Building packets

`QuicLPacketBuild` and `QuicSPacketBuild` write the header of a packet into a datagram, fill the
last packet of a datagram up with PADDING frames, and protect the packet.
-/

namespace Tbquic

/-- What a connection writes into the headers of its packets. -/
structure HeaderSource where
  /-- `version`. -/
  version : ℕ
  /-- `dcid`. -/
  dcid : List UInt8
  /-- `scid`. -/
  scid : List UInt8
  /-- `token`. -/
  token : List UInt8
  /-- The two bits `pkt_num_len`. -/
  pktNumLen : Fin 4

namespace HeaderSource

/-- The number of bytes of a packet number. -/
def numLen (conn : HeaderSource) : ℕ := conn.pktNumLen.val + 1

end HeaderSource

/-- `QUIC_INITIAL_PKT_DATAGRAM_SIZE_MIN`. -/
def initialDatagramSizeMin : ℕ := 1200

/-- `lpacket_type` of a packet with a long header. -/
def lPacketType : QuicPktType → ℕ
  | .initial => 0
  | .zeroRtt => 1
  | .handshake => 2
  | _ => 3

/-- The two bits `packet_num_len` of the first byte. -/
def packetNumLenBits (pktNumLen : ℕ) : ℕ := (pktNumLen % 4 + 3) % 4

/-- The first byte of `QuicLHeaderGen`. -/
def longHeaderFlags (type : QuicPktType) (pktNumLen : ℕ) : ℕ :=
  0xC0 + lPacketType type * 16 + packetNumLenBits pktNumLen

/-- The first byte of `QuicSHeaderGen`. -/
def shortHeaderFlags (pktNumLen : ℕ) : ℕ := 0x40 + packetNumLenBits pktNumLen

/-- `WPacketMemset`. -/
def wPacketMemset (c : UInt8) (len : ℕ) : Prog Fail WPacket Unit :=
  if len = 0 then pure () else wPacketAppend (List.replicate len c)

/-- `QuicCidPut`. -/
def quicCidPut (cid : List UInt8) : Prog Fail WPacket Unit := do
  wPacketPutBytes cid.length 1
  if cid.length = 0 then pure () else wPacketMemcpy cid

/-- `QuicTokenPut`. -/
def quicTokenPut (token : List UInt8) : Prog Fail WPacket Unit :=
  if token.length = 0 then wPacketPutBytes 0 1
  else do
    quicVariableLengthWrite token.length
    wPacketMemcpy token

/-- The token that `QuicLPacketBuild` puts into an Initial packet. -/
def quicInitialTokenPut (conn : HeaderSource) (type : QuicPktType) : Prog Fail WPacket Unit :=
  if type = .initial then quicTokenPut conn.token else pure ()

/-- `QuicLHeaderGen`. -/
def quicLHeaderGen (conn : HeaderSource) (type : QuicPktType) (pktNumLen : ℕ) :
    Prog Fail WPacket Unit := do
  wPacketPutBytes (longHeaderFlags type pktNumLen) 1
  wPacketPutBytes conn.version 4
  quicCidPut conn.dcid
  quicCidPut conn.scid

/-- `QuicSHeaderGen`. -/
def quicSHeaderGen (conn : HeaderSource) (pktNumLen : ℕ) : Prog Fail WPacket Unit := do
  wPacketPutBytes (shortHeaderFlags pktNumLen) 1
  if conn.dcid.length = 0 then pure () else wPacketMemcpy conn.dcid

/-- The result of `QuicVariableLengthEncode` as an `int`. -/
def varLengthWlen (length : ℕ) : ℤ :=
  match quicVariableLengthEncode 8 length with
  | .ok bytes => bytes.length
  | .error _ => -1

/-- `QuicCidWriteLen`. -/
def quicCidWriteLen (cid : List UInt8) : ℕ := 1 + cid.length

/-- `QuicLPacketGetHeaderLen`. -/
def HeaderSource.quicLPacketGetHeaderLen (conn : HeaderSource) (type : QuicPktType) : ℤ :=
  1 + 4 + quicCidWriteLen conn.dcid + quicCidWriteLen conn.scid +
    if type = .initial then varLengthWlen conn.token.length + conn.token.length else 0

/-- `QuicLPacketGetTotalLen` for a packet protection cipher. -/
def HeaderSource.quicLPacketGetTotalLen (conn : HeaderSource) (alg : ℕ) (type : QuicPktType)
    (dataLen : ℕ) :
    Except Fail ℕ := do
  let cipherLen ← quicCipherLenGet alg dataLen
  let len := cipherLen + conn.numLen
  pure ((conn.quicLPacketGetHeaderLen type + len + varLengthWlen len) % 2 ^ 64).toNat

section Build

variable {Ctx : Type} (evp : Evp Ctx)

/-- `QuicFrameBufferAddPadding`. -/
def quicFrameBufferAddPadding (len : ℕ) : Prog Fail (PktBuild Ctx) Unit := fun s =>
  match wPacketMemset 0 len (wPacketStaticBufInit s.qb.space) with
  | (.error e, _) => (.error e, s)
  | (.ok _, pkt) =>
    if quicLt s.qb.buffLen ((s.qb.dataLen + len : ℕ) : ℤ) then (.error .ret, s)
    else if h : s.qb.data.length + pkt.buf.length ≤ s.qb.buffLen then
      (.ok (), { s with qb := s.qb.extend pkt.buf h })
    else (.error .ub, s)

/-- The padding that `QuicLPacketBuild` puts into the last packet of a datagram. -/
def quicLastPacketPad (totalLen : ℕ) (last : Bool) : Prog Fail (PktBuild Ctx) Unit :=
  if last = true ∧ quicLt totalLen initialDatagramSizeMin then
    quicFrameBufferAddPadding (((initialDatagramSizeMin : ℤ) - totalLen) % 2 ^ 64).toNat
  else pure ()

/-- `QuicLPacketBuild`. -/
def quicLPacketBuild (conn : HeaderSource) (type : QuicPktType) (last : Bool) :
    Prog Fail (PktBuild Ctx) Unit := do
  let s ← Prog.get
  let totalLen ← Prog.ofExcept
    (conn.quicLPacketGetTotalLen s.ppCipher.cipher.alg type s.qb.dataLen)
  PktBuild.onPkt (quicLHeaderGen conn type conn.numLen)
  PktBuild.onPkt (quicInitialTokenPut conn type)
  quicLastPacketPad (totalLen + s.pkt.written) last
  quicPacketBuild evp s.pkt.written conn.numLen longHeaderMask

/-- `QuicSPacketBuild`. -/
def quicSPacketBuild (conn : HeaderSource) : Prog Fail (PktBuild Ctx) Unit := do
  let s ← Prog.get
  PktBuild.onPkt (quicSHeaderGen conn conn.numLen)
  quicPacketBuild evp s.pkt.written conn.numLen shortHeaderMask

/-- `QBuffBuildPkt`: the `build_pkt` of a packet type. The table has no entry for 0-RTT and Retry
packets, and the source calls a null pointer. -/
def qBuffBuildPkt (conn : HeaderSource) (type : QuicPktType) (last : Bool) :
    Prog Fail (PktBuild Ctx) Unit :=
  match type with
  | .initial | .handshake => quicLPacketBuild evp conn type last
  | .oneRtt => quicSPacketBuild evp conn
  | .zeroRtt | .retry => Prog.fail .ub

end Build

end Tbquic
