import Tbquic.Keys.Prepare
import Tbquic.Protect

/-!
# Opening packets

`QuicDecryptPacket` removes the protection of a packet. It does not ask whether the keys of its
space are installed: the header protection looks at its context, the packet protection does not.
-/

namespace Tbquic

/-- The calls of `evp.c` into the cryptographic library that the receiver makes. -/
structure EvpOpen (Ctx : Type) extends Evp Ctx where
  /-- `EVP_CTRL_GCM_SET_TAG`. -/
  setTag : Ctx → List UInt8 → Option Ctx

/-- The objects that `QuicDecryptPacket` works on. -/
structure PktOpen (Ctx : Type) where
  /-- The packet number space. -/
  crypto : QuicCrypto Ctx
  /-- The packet, which is decrypted in place up to its packet number. -/
  pkt : RPacket

namespace RPacket

/-- `RPacketHead(pkt)[0]`. -/
def first (pkt : RPacket) : UInt8 := (pkt.past ++ pkt.rest).headD 0

/-- Write to `RPacketHead(pkt)[0]`. -/
def setFirst (byte : UInt8) (pkt : RPacket) : RPacket :=
  if pkt.past = [] then { pkt with rest := pkt.rest.set 0 byte }
  else { pkt with past := pkt.past.set 0 byte }

end RPacket

/-- `QUIC_PKT_NUM_MAX`. -/
def quicPktNumMax : ℕ := 2 ^ 62 - 1

namespace PktOpen

variable {Ctx : Type}

/-- The packet protection cipher in use. -/
def ppCipher (s : PktOpen Ctx) : QuicPPCipher Ctx := s.crypto.decrypt.ppCipher

/-- The header protection cipher in use. -/
def hpCipher (s : PktOpen Ctx) : QuicCipher Ctx := s.crypto.decrypt.hpCipher

/-- Store the context of the packet protection cipher. -/
def setPpCtx (ctx : Ctx) (s : PktOpen Ctx) : PktOpen Ctx :=
  { s with crypto.decrypt.ppCipher.cipher.ctx := some ctx }

/-- Store the context of the header protection cipher. -/
def setHpCtx (ctx : Ctx) (s : PktOpen Ctx) : PktOpen Ctx :=
  { s with crypto.decrypt.hpCipher.ctx := some ctx }

/-- The context of the packet protection cipher. The library does not accept `NULL`. -/
def ppCtx : Prog Fail (PktOpen Ctx) Ctx := do
  let s ← Prog.get
  Prog.ofOption .ub s.ppCipher.cipher.ctx

variable (evp : EvpOpen Ctx)

/-- `QuicHPMaskGen`. -/
def quicHPMaskGen (maskOutLen totalLen : ℕ) (pktNumStart : List UInt8) :
    Prog Fail (PktOpen Ctx) (List UInt8) := do
  let s ← Prog.get
  let ctx ← Prog.ofOption .ret s.hpCipher.ctx
  Prog.ensure .ret (20 ≤ totalLen)
  let (mask, ctx) ← Prog.ofExcept
    (quicDoCipher evp.toEvp ctx 32 ((pktNumStart.drop 4).take 16))
  Prog.modify (setHpCtx ctx)
  Prog.ensure .assert (quicLe mask.length 32 ∧ quicGe mask.length maskOutLen)
  pure (mask.take maskOutLen)

/-- `QuicDecryptHeader`: the packet number and its length. -/
def quicDecryptHeader (bitsMask : ℕ) : Prog Fail (PktOpen Ctx) (ℕ × ℕ) := do
  let s ← Prog.get
  let mask ← quicHPMaskGen evp 16 s.pkt.remaining s.pkt.rest
  let first := s.pkt.first ^^^ (mask.getD 0 0 &&& UInt8.ofNat bitsMask)
  Prog.modify fun s => { s with pkt := s.pkt.setFirst first }
  let pktNumLen := first.toNat % 4 + 1
  let s ← Prog.get
  Prog.ensure .ret (¬ s.pkt.remaining < pktNumLen)
  let pktNum := List.zipWith (· ^^^ ·) (s.pkt.rest.take pktNumLen) (mask.drop 1)
  Prog.modify fun s =>
    { s with pkt := { past := s.pkt.past ++ pktNum, rest := s.pkt.rest.drop pktNumLen } }
  pure (Bytes.toNat pktNum, pktNumLen)

/-- `QuicCryptoSetIV`. -/
def quicCryptoSetIV (pktNum : ℕ) : Prog Fail (PktOpen Ctx) Unit := do
  let s ← Prog.get
  let nonce := quicNonce s.ppCipher.iv pktNum
  let ctx ← ppCtx
  let ctx ← Prog.ofOption .ret (evp.cipherInit ctx nonce s.ppCipher.cipher.enc)
  Prog.modify (setPpCtx ctx)
  let ctx ← Prog.ofOption .ret (evp.setIvLen ctx nonce.length)
  Prog.modify (setPpCtx ctx)

/-- The authentication tag in `QuicDecryptMessage`, when the algorithm has one. -/
def setTag (tagLen : ℕ) (data : List UInt8) : Prog Fail (PktOpen Ctx) Unit :=
  if 0 < tagLen then do
    let ctx ← ppCtx
    let ctx ← Prog.ofOption .ret (evp.setTag ctx (data.drop (data.length - tagLen)))
    Prog.modify (setPpCtx ctx)
  else pure ()

/-- `QuicDecryptMessage`, which returns the payload. -/
def quicDecryptMessage (outBufLen pktNum : ℕ) : Prog Fail (PktOpen Ctx) (List UInt8) := do
  let s ← Prog.get
  Prog.ensure .assert (0 < s.pkt.past.length)
  quicCryptoSetIV evp pktNum
  let tagLen ← Prog.ofExcept (quicCipherGetTagLen s.ppCipher.cipher.alg)
  Prog.ensure .ret (¬ s.pkt.remaining < tagLen)
  setTag evp tagLen s.pkt.rest
  let ctx ← ppCtx
  let (outl, ctx) ← Prog.ofOption .ret (evp.updateAad ctx s.pkt.past)
  Prog.modify (setPpCtx ctx)
  Prog.ensure .assert (quicLt outl outBufLen)
  let (out, ctx) ← Prog.ofExcept
    (quicDoCipher evp.toEvp ctx outBufLen (s.pkt.rest.take (s.pkt.remaining - tagLen)))
  Prog.modify (setPpCtx ctx)
  pure out

/-- The part of `QuicDecryptPacket` in front of the payload, at a time: the packet number as it is
sent and in full. A number below `min_pkt_num` is logged only. -/
def quicDecryptPktNum (now bitMask : ℕ) : Prog Fail (PktOpen Ctx) (ℕ × ℕ) := do
  Prog.modify fun s => { s with crypto.arrivTime := now }
  let (number, len) ← quicDecryptHeader evp bitMask
  let s ← Prog.get
  let pktNum ← Prog.ofExcept (quicPktNumberDecode s.crypto.largestPn number (len * 8))
  Prog.ensure .ret (pktNum ≠ quicPktNumMax)
  pure (number, pktNum)

/-- `QuicDecryptPacket` at a time. -/
def quicDecryptPacket (now outBufLen bitMask : ℕ) : Prog Fail (PktOpen Ctx) (List UInt8) := do
  let (number, pktNum) ← quicDecryptPktNum evp now bitMask
  let out ← quicDecryptMessage evp outBufLen number
  Prog.modify fun s =>
    { s with crypto.largestPn :=
        if quicLt s.crypto.largestPn pktNum then pktNum else s.crypto.largestPn }
  pure out

end PktOpen

end Tbquic
