import Tbquic.Protect

/-!
# A sender whose builds succeed

The cryptographic library is a parameter of the model. With a library that never fails and
a payload of four frames, every build whose code fits in its field emits its packet.
-/

namespace Tbquic

open Prog

/-- A cryptographic library whose ciphers copy their input and whose tags are zero. -/
def plainEvp : Evp Unit where
  cipherInit _ _ _ := some ()
  setIvLen _ _ := some ()
  updateAad _ head := some (head.length, ())
  cipherUpdate _ input := some (input, ())
  cipherFinal _ := some ([], ())
  getTag _ len := some (List.replicate len 0)

/-- The 128 bit keys of a space. -/
def plainKeys : QuicCipherSpace Unit where
  hpCipher := ⟨quicAlgAes128Ecb, 1, some ()⟩
  ppCipher := ⟨⟨quicAlgAes128Gcm, 1, some ()⟩, fun _ => 0⟩
  cipherInited := true

/-- A space with these keys that sent and got acknowledged the given numbers. -/
def plainCrypto (pktNum largestAcked : ℕ) : QuicCrypto Unit where
  pktNum := pktNum
  largestPn := 0
  largestAcked := largestAcked
  largestAck := 0
  arrivTime := 0
  firstAckRange := 0
  encrypt := plainKeys
  decrypt := plainKeys

/-- A datagram with the first byte of a short header. -/
def pingPkt (first : UInt8) : WPacket :=
  { buf := [first], maxsize := 64, subs := [], fits := by simp }

/-- A payload of four PING frames. -/
def pingQb : QBuff where
  pktNum := 0
  flags := 0
  streamId := -1
  pktType := 4
  data := [1, 1, 1, 1]
  buffLen := 4
  streamLen := 0
  fits := by decide

/-- The copying cipher returns its input. -/
theorem quicDoCipher_plain {n : ℕ} {input : List UInt8} (h : input.length ≤ n) (hn : n < 2 ^ 31) :
    quicDoCipher plainEvp () n input = .ok (input, ()) := by
  have hle : quicLe input.length n := by rw [quicLe_iff] <;> omega
  simp [quicDoCipher, plainEvp, hle, h]

/-- The context of the packet protection cipher has one value. -/
theorem setPpCtx_plain {s : PktBuild Unit} (h : s.ppCipher = plainKeys.ppCipher) :
    s.setPpCtx () = s := by
  have hctx : s.crypto.encrypt.ppCipher.cipher.ctx = some () := by
    change s.ppCipher.cipher.ctx = _
    rw [h]
    rfl
  rw [PktBuild.setPpCtx, ← hctx]

/-- The context of the header protection cipher has one value. -/
theorem setHpCtx_plain {s : PktBuild Unit} (h : s.hpCipher = plainKeys.hpCipher) :
    s.setHpCtx () = s := by
  have hctx : s.crypto.encrypt.hpCipher.ctx = some () := by
    change s.hpCipher.ctx = _
    rw [h]
    rfl
  rw [PktBuild.setHpCtx, ← hctx]

/-- Encrypting four bytes succeeds and uses one nonce. -/
theorem quicEncryptPayload_plain {s : PktBuild Unit} {head : List UInt8} {pktNum len : ℕ}
    (hkeys : s.ppCipher = plainKeys.ppCipher) (hdata : s.qb.data.length = 4)
    (hhead : head.length < 20) :
    Post (quicEncryptPayload plainEvp head 20 pktNum len)
      (fun out t => out.length = 20 ∧
        t = s.record ⟨s.crypto.pktNum, len, quicNonce (fun _ => 0) pktNum⟩)
      (fun _ _ => False) s := by
  have hlt : quicLt (head.length : ℤ) ((20 : ℕ) : ℤ) := by rw [quicLt_iff] <;> omega
  have hcipher := quicDoCipher_plain (by omega : s.qb.data.length ≤ 20) (by decide)
  have htag : quicCipherGetTagLen plainKeys.ppCipher.cipher.alg = .ok 16 := rfl
  have hctx : plainKeys.ppCipher.cipher.ctx = some () := rfl
  have hiv : plainKeys.ppCipher.iv = fun _ => 0 := rfl
  have hinit : ∀ n e, plainEvp.cipherInit () n e = some () := fun _ _ => rfl
  have hset : ∀ n, plainEvp.setIvLen () n = some () := fun _ => rfl
  have haad : plainEvp.updateAad () head = some (head.length, ()) := rfl
  simp only [quicEncryptPayload, quicEncryptMessage, quicCryptoSetIV, ppCtx, post_bind, post_get,
    post_modify, hkeys, hctx, hinit, hset, haad, ofOption_some, post_pure, setPpCtx_plain hkeys,
    post_ensure, hcipher, ofExcept_ok, htag, hiv]
  refine ⟨fun _ => ?_, fun h => h hlt⟩
  rw [if_pos (by decide), post_bind, post_ensure]
  refine ⟨fun _ => ?_, fun h => h (by omega)⟩
  have hout : (s.qb.data ++ (plainEvp.getTag () 16).getD (List.replicate 16 0)).length = 20 := by
    rw [List.length_append, hdata]
    rfl
  exact ⟨fun _ => ⟨hout, rfl⟩, fun h => h hout.symm⟩

/-- Masking the header of a packet that is long enough succeeds. -/
theorem quicEncryptHeader_plain {s : PktBuild Unit} {start dataLen mask : ℕ}
    (hkeys : s.hpCipher = plainKeys.hpCipher) (hbuf : start + 20 ≤ s.pkt.buf.length)
    (hlen : 20 ≤ dataLen) :
    Post (quicEncryptHeader plainEvp 0 start dataLen mask) (fun _ t => ∃ pkt, t = s.setPkt pkt)
      (fun _ _ => False) s := by
  have hsample : (((s.pkt.buf.drop start).drop 4).take 16).length = 16 := by
    simp only [List.length_take, List.length_drop]
    omega
  have hcipher := quicDoCipher_plain
    (by omega : (((s.pkt.buf.drop start).drop 4).take 16).length ≤ 32) (by decide)
  simp only [quicEncryptHeader, quicHPMaskGen, post_bind, post_get]
  rw [hkeys]
  simp only [plainKeys, ofOption_some, post_pure, post_ensure, hcipher, ofExcept_ok, post_modify,
    setHpCtx_plain hkeys, hsample]
  refine ⟨fun _ => ⟨fun _ => ⟨_, rfl⟩, fun h => h (by decide)⟩, fun h => h hlen⟩

/-- Writing and encrypting the packet succeeds when the code fits in its field. -/
theorem quicPacketSeal_plain {s : PktBuild Unit} {code len mask : ℕ} (hlen : 1 ≤ len ∧ len ≤ 4)
    (hkeys : s.crypto.encrypt = plainKeys) (hpkt : s.pkt.buf.length = 1)
    (hmax : s.pkt.maxsize = 64) (hdata : s.qb.data.length = 4) (hfits : code / 256 ^ len = 0) :
    Post (quicPacketSeal plainEvp 0 code len 20 mask)
      (fun _ t => t.crypto = s.crypto ∧
        t.sealed = s.sealed ++ [⟨s.crypto.pktNum, len, quicNonce (fun _ => 0) code⟩])
      (fun _ _ => False) s := by
  have hpp : s.ppCipher = plainKeys.ppCipher := by rw [PktBuild.ppCipher, hkeys]
  have hhp : s.hpCipher = plainKeys.hpCipher := by rw [PktBuild.hpCipher, hkeys]
  have hspace : s.pkt.written + (Bytes.ofNat len code).length ≤ s.pkt.maxsize := by
    rw [Bytes.ofNat_length, WPacket.written]
    omega
  have hput := wPacketPutBytes_of_fits s.pkt code len hspace (by omega) hfits
  have hbuf : (s.pkt.append (Bytes.ofNat len code) hspace).buf.length = len + 1 := by
    change (s.pkt.buf ++ _).length = _
    rw [List.length_append, Bytes.ofNat_length]
    omega
  have hallocate := wPacketAllocateBytes_of_fits (s.pkt.append (Bytes.ofNat len code) hspace) 20
    (by
      rw [List.length_replicate, WPacket.written, hbuf]
      change len + 1 + 20 ≤ s.pkt.maxsize
      omega)
    (by change s.pkt.maxsize < _; omega)
  have hoffset :
      0 < toInt (((s.pkt.append (Bytes.ofNat len code) hspace).written : ℤ) - (0 : ℕ)) := by
    rw [WPacket.written, hbuf, toInt_of_bounds] <;> omega
  rw [quicPacketSeal, post_bind, post_get, post_bind, PktBuild.onPkt, post_zoom, post_of_eq hput,
    post_bind, PktBuild.onPkt, post_zoom]
  refine (post_of_eq hallocate).mpr ?_
  rw [post_bind, post_ensure]
  refine ⟨fun _ => ?_, fun h => h hoffset⟩
  rw [post_bind, post_get, post_bind]
  refine (quicEncryptPayload_plain ?_ ?_ ?_).mono ?_ fun _ _ h => h
  · exact hpp
  · exact hdata
  · rw [List.drop_zero, List.length_take]
    change min (s.pkt.append (Bytes.ofNat len code) hspace).buf.length _ < 20
    omega
  · rintro out t ⟨hout, rfl⟩
    rw [post_bind, post_modify]
    refine (quicEncryptHeader_plain ?_ ?_ ?_).mono ?_ fun _ _ h => h
    · exact hhp
    · change s.pkt.buf.length + 20 ≤ (Bytes.overwrite (_ ++ List.replicate 20 0) _ _).length
      rw [Bytes.overwrite_length, List.length_append, hbuf, List.length_replicate]
      omega
    · omega
    · rintro _ t ⟨pkt, rfl⟩
      exact ⟨rfl, rfl⟩

/-- A build whose code fits in its field emits its packet. -/
theorem quicPacketBuild_ping {len pktNum largestAcked code : ℕ} (hlen : 1 ≤ len ∧ len ≤ 4)
    (hcode : quicPktNumberEncode ((pktNum + 1) % 2 ^ 64) largestAcked (len * 8) = .ok code)
    (hfits : code / 256 ^ len = 0) (log : List Seal) (first : UInt8) :
    Post (quicPacketBuild plainEvp 0 len shortHeaderMask)
      (fun _ t => t.crypto = plainCrypto ((pktNum + 1) % 2 ^ 64) largestAcked ∧
        t.sealed = log ++ [sealOf (fun _ => 0) ((pktNum + 1) % 2 ^ 64) len])
      (fun _ _ => False)
      { crypto := plainCrypto pktNum largestAcked, pkt := pingPkt first, qb := pingQb,
        sealed := log } := by
  have hlow := quicPktNumberEncode_low hlen hcode hfits
  have hmask : shortHeaderMask ≠ longHeaderMask := by decide
  have hclen : quicCipherLenGet quicAlgAes128Gcm 4 = .ok 20 := rfl
  simp only [quicPacketBuild, post_bind, post_get, post_ensure, post_modify]
  refine ⟨fun _ => ?_, fun h => h rfl⟩
  change Post (Prog.ofExcept (quicPktNumberEncode ((pktNum + 1) % 2 ^ 64) largestAcked (len * 8)))
    _ _ _
  rw [hcode, ofExcept_ok, post_pure]
  change Post (Prog.ofExcept (quicCipherLenGet quicAlgAes128Gcm 4)) _ _ _
  rw [hclen, ofExcept_ok, post_pure]
  refine ⟨fun _ => ?_, fun h => h (by decide)⟩
  rw [quicPacketLength, if_neg hmask, post_pure, sealOf, ← hlow]
  exact (quicPacketSeal_plain hlen rfl rfl rfl rfl hfits).mono (fun _ _ h => h) fun _ _ h => h

end Tbquic
