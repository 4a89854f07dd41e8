import Tbquic.Crypto
import Tbquic.PktNumber
import Tbquic.QBuff
import Tbquic.VarInt

/-!
# Packet protection

`QuicPacketBuild` numbers a packet, encrypts its payload and masks its header. The model
keeps a record of every nonce under which a payload was encrypted, together with the full
packet number at that time.
-/

namespace Tbquic

/-- The use of a nonce for a packet. -/
structure Seal where
  /-- The full packet number `c->pkt_num`. -/
  pktNum : ℕ
  /-- The length of the packet number field. -/
  pktNumLen : ℕ
  /-- The nonce of the encryption. -/
  nonce : List UInt8
  deriving DecidableEq, Repr

/-- The objects that `QuicPacketBuild` works on, with the record of the nonces used. -/
structure PktBuild (Ctx : Type) where
  /-- The packet number space. -/
  crypto : QuicCrypto Ctx
  /-- The datagram being written. -/
  pkt : WPacket
  /-- The payload. -/
  qb : QBuff
  /-- The nonces used so far. -/
  sealed : List Seal

/-- `QUIC_LPACKET_TYPE_RESV_MASK`. -/
def longHeaderMask : ℕ := 0x0F

/-- `QUIC_SPACKET_TYPE_RESV_MASK`. -/
def shortHeaderMask : ℕ := 0x1F

/-- The nonce of `QuicCryptoSetIV`: the last eight bytes of the static part are combined
with the number, the least significant byte last. -/
def quicNonce (iv : Fin 12 → UInt8) (pktNum : ℕ) : List UInt8 :=
  List.ofFn fun j : Fin 12 =>
    if 4 ≤ j.val then iv j ^^^ UInt8.ofNat (pktNum >>> (8 * (11 - j.val))) else iv j

/-- The entry of a packet: its nonce comes from the truncated number. -/
def sealOf (iv : Fin 12 → UInt8) (pktNum len : ℕ) : Seal :=
  ⟨pktNum, len, quicNonce iv (pktNum % 2 ^ (8 * len))⟩

namespace PktBuild

variable {Ctx : Type}

/-- The packet protection cipher in use. -/
def ppCipher (s : PktBuild Ctx) : QuicPPCipher Ctx := s.crypto.encrypt.ppCipher

/-- The header protection cipher in use. -/
def hpCipher (s : PktBuild Ctx) : QuicCipher Ctx := s.crypto.encrypt.hpCipher

/-- Store the context of the packet protection cipher. -/
def setPpCtx (ctx : Ctx) (s : PktBuild Ctx) : PktBuild Ctx :=
  { s with crypto.encrypt.ppCipher.cipher.ctx := some ctx }

/-- Store the context of the header protection cipher. -/
def setHpCtx (ctx : Ctx) (s : PktBuild Ctx) : PktBuild Ctx :=
  { s with crypto.encrypt.hpCipher.ctx := some ctx }

/-- Store the datagram. -/
def setPkt (pkt : WPacket) (s : PktBuild Ctx) : PktBuild Ctx := { s with pkt }

/-- Run an operation on the datagram. -/
def onPkt {α : Type} (m : Prog Fail WPacket α) : Prog Fail (PktBuild Ctx) α :=
  Prog.zoom (·.pkt) setPkt m

/-- Record the use of a nonce. -/
def record (entry : Seal) (s : PktBuild Ctx) : PktBuild Ctx :=
  { s with sealed := s.sealed ++ [entry] }

/-- Number the packet: `c->pkt_num++` and `qb->pkt_num = c->pkt_num`. -/
def number (s : PktBuild Ctx) : PktBuild Ctx :=
  { s with
    crypto.pktNum := (s.crypto.pktNum + 1) % 2 ^ 64
    qb.pktNum := (s.crypto.pktNum + 1) % 2 ^ 64 }

end PktBuild

section Build

variable {Ctx : Type} (evp : Evp Ctx)

/-- The context of the packet protection cipher. The library does not accept `NULL`. -/
def ppCtx : Prog Fail (PktBuild Ctx) Ctx := do
  let s ← Prog.get
  Prog.ofOption .ub s.ppCipher.cipher.ctx

/-- `QuicCryptoSetIV`. -/
def quicCryptoSetIV (pktNum : ℕ) : Prog Fail (PktBuild Ctx) Unit := do
  let s ← Prog.get
  let nonce := quicNonce s.ppCipher.iv pktNum
  let ctx ← ppCtx
  let ctx ← Prog.ofOption .ret (evp.cipherInit ctx nonce s.ppCipher.cipher.enc)
  Prog.modify (PktBuild.setPpCtx ctx)
  let ctx ← Prog.ofOption .ret (evp.setIvLen ctx nonce.length)
  Prog.modify (PktBuild.setPpCtx ctx)

/-- `QuicEncryptMessage`. A missing tag is logged and ignored by the source. -/
def quicEncryptMessage (head : List UInt8) (outBufLen pktNum pktNumLen : ℕ)
    (input : List UInt8) : Prog Fail (PktBuild Ctx) (List UInt8) := do
  quicCryptoSetIV evp pktNum
  let ctx ← ppCtx
  let (outl, ctx) ← Prog.ofOption .ret (evp.updateAad ctx head)
  Prog.modify (PktBuild.setPpCtx ctx)
  Prog.ensure .assert (quicLt outl outBufLen)
  let (out, ctx) ← Prog.ofExcept (quicDoCipher evp ctx outBufLen input)
  Prog.modify (PktBuild.setPpCtx ctx)
  let s ← Prog.get
  Prog.modify (PktBuild.record
    { pktNum := s.crypto.pktNum, pktNumLen, nonce := quicNonce s.ppCipher.iv pktNum })
  let tagLen ← Prog.ofExcept (quicCipherGetTagLen s.ppCipher.cipher.alg)
  if 0 < tagLen then do
    Prog.ensure .ret (out.length + tagLen ≤ outBufLen)
    pure (out ++ (evp.getTag ctx tagLen).getD (List.replicate tagLen 0))
  else pure out

/-- `QuicEncryptPayload`. -/
def quicEncryptPayload (head : List UInt8) (outLen pktNum pktNumLen : ℕ) :
    Prog Fail (PktBuild Ctx) (List UInt8) := do
  let s ← Prog.get
  let out ← quicEncryptMessage evp head outLen pktNum pktNumLen s.qb.data
  Prog.ensure .ret (outLen = out.length)
  pure out

/-- `QuicHPMaskGen`, with the bytes of the datagram from the packet number on. -/
def quicHPMaskGen (maskOutLen totalLen : ℕ) (pktNumStart : List UInt8) :
    Prog Fail (PktBuild Ctx) (List UInt8) := do
  let s ← Prog.get
  let ctx ← Prog.ofOption .ret s.hpCipher.ctx
  Prog.ensure .ret (20 ≤ totalLen)
  let (mask, ctx) ← Prog.ofExcept (quicDoCipher evp ctx 32 ((pktNumStart.drop 4).take 16))
  Prog.modify (PktBuild.setHpCtx ctx)
  Prog.ensure .assert (quicLe mask.length 32 ∧ quicGe mask.length maskOutLen)
  pure (mask.take maskOutLen)

/-- `QuicEncryptHeader` on the datagram, with the offsets of the first byte and of the
packet number. -/
def quicEncryptHeader (firstByte pktNumStart dataLen bitsMask : ℕ) :
    Prog Fail (PktBuild Ctx) Unit := do
  let s ← Prog.get
  let mask ← quicHPMaskGen evp 16 dataLen (s.pkt.buf.drop pktNumStart)
  let first := s.pkt.buf.getD firstByte 0
  let pktNumLen := first.toNat % 4 + 1
  let pktNum := (s.pkt.buf.drop pktNumStart).take pktNumLen
  let first := first ^^^ (mask.getD 0 0 &&& UInt8.ofNat bitsMask)
  let pktNum := List.zipWith (· ^^^ ·) pktNum (mask.drop 1)
  Prog.modify fun s =>
    s.setPkt ((s.pkt.overwrite firstByte [first]).overwrite pktNumStart pktNum)

/-- The length field of a long header in `QuicPacketBuild`. -/
def quicPacketLength (len mask : ℕ) : Prog Fail (PktBuild Ctx) Unit :=
  if mask = longHeaderMask then PktBuild.onPkt (quicVariableLengthWrite len) else pure ()

/-- The end of `QuicPacketBuild`: write the packet number, then encrypt the payload behind
it and mask the header. -/
def quicPacketSeal (firstByte pktNum pktNumLen cipherLen mask : ℕ) :
    Prog Fail (PktBuild Ctx) Unit := do
  let pktNumStart := (← Prog.get).pkt.written
  PktBuild.onPkt (wPacketPutBytes pktNum pktNumLen)
  let dest ← PktBuild.onPkt (wPacketAllocateBytes cipherLen)
  Prog.ensure .assert (0 < toInt ((dest : ℤ) - firstByte))
  let s ← Prog.get
  let head := (s.pkt.buf.take dest).drop firstByte
  let out ← quicEncryptPayload evp head cipherLen pktNum pktNumLen
  Prog.modify fun s => s.setPkt (s.pkt.overwrite dest out)
  quicEncryptHeader evp firstByte pktNumStart (pktNumLen + cipherLen) mask

/-- `QuicPacketBuild`, with the offset of the first byte of the packet in the datagram. -/
def quicPacketBuild (firstByte pktNumLen mask : ℕ) : Prog Fail (PktBuild Ctx) Unit := do
  Prog.ensure .ret ((← Prog.get).crypto.encrypt.cipherInited = true)
  Prog.modify PktBuild.number
  let s ← Prog.get
  let pktNum ← Prog.ofExcept
    (quicPktNumberEncode s.crypto.pktNum s.crypto.largestAcked (pktNumLen * 8))
  let cipherLen ← Prog.ofExcept (quicCipherLenGet s.ppCipher.cipher.alg s.qb.dataLen)
  Prog.ensure .ret (cipherLen ≠ 0)
  quicPacketLength (cipherLen + pktNumLen) mask
  quicPacketSeal evp firstByte pktNum pktNumLen cipherLen mask

end Build

end Tbquic
