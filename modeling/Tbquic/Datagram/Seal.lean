import Tbquic.Datagram.Build

/-!
# Protecting packets with a working library

The cryptographic library is a parameter of the model. With contexts that compute an AEAD and a
header mask, a build succeeds exactly when the packet has room, its number fits in its field, the
assertion on the header holds and the sample is there, and the bytes of the packet are those of an
abstract protection.
-/

namespace Tbquic

open Prog

section Writes

/-- A program writes certain bytes when a condition holds and they have room, and fails
otherwise. -/
def Writes (m : Prog Fail WPacket Unit) (p : Prop) (bytes : List UInt8) : Prop :=
  ∀ pkt : WPacket, pkt.maxsize < 2 ^ 31 → Post m (fun _ t => p ∧ pkt.Extends bytes t)
    (fun _ _ => ¬ (p ∧ pkt.written + bytes.length ≤ pkt.maxsize)) pkt

variable {m : Prog Fail WPacket Unit} {p q : Prop} {bytes : List UInt8}

/-- Bytes are appended when they have room. -/
theorem writes_append (bytes : List UInt8) : Writes (wPacketAppend bytes) True bytes := by
  intro pkt hmax
  by_cases h : pkt.written + bytes.length ≤ pkt.maxsize
  · rw [post_of_eq (wPacketAppend_of_fits h hmax)]
    exact ⟨trivial, rfl, rfl⟩
  · unfold Post wPacketAppend
    rw [dif_neg h]
    split
    · next heq => split at heq <;> cases heq
    · exact fun hboth => h hboth.2

/-- Nothing is written by a program that does nothing. -/
theorem writes_nothing : Writes (pure ()) True [] := by
  intro pkt _
  exact ⟨trivial, (List.append_nil _).symm, rfl⟩

/-- The rule of sequencing. -/
theorem Writes.bind {n : Unit → Prog Fail WPacket Unit} {more : List UInt8} (hm : Writes m p bytes)
    (hn : Writes (n ()) q more) : Writes (m >>= n) (p ∧ q) (bytes ++ more) := by
  intro pkt hmax
  rw [post_bind]
  refine (hm pkt hmax).mono ?_ ?_
  · rintro _ t ⟨hp, ht⟩
    refine (hn t (ht.2 ▸ hmax)).mono ?_ ?_
    · rintro _ u ⟨hq, hu⟩
      exact ⟨⟨hp, hq⟩, ht.trans hu⟩
    · rintro _ u hno ⟨⟨-, hq⟩, hroom⟩
      rw [List.length_append] at hroom
      rw [ht.written, ht.2] at hno
      exact hno ⟨hq, by omega⟩
  · rintro _ t hno ⟨⟨hp, -⟩, hroom⟩
    rw [List.length_append] at hroom
    exact hno ⟨hp, by omega⟩

/-- The rule of consequence. -/
theorem Writes.iff (h : Writes m p bytes) (hpq : p ↔ q) : Writes m q bytes := by
  rwa [← propext hpq]

/-- Bytes are copied when they have room. -/
theorem writes_memcpy (src : List UInt8) : Writes (wPacketMemcpy src) True src := by
  rw [wPacketMemcpy]
  by_cases hempty : src.length = 0
  · rw [if_pos hempty, List.length_eq_zero_iff.mp hempty]
    exact writes_nothing
  · rw [if_neg hempty]
    exact writes_append src

/-- A number is written when it fits in its field. -/
theorem writes_putBytes (val size : ℕ) :
    Writes (wPacketPutBytes val size) (val < 256 ^ size) (Bytes.ofNat size val) := by
  have hdiv : val / 256 ^ size = 0 ↔ val < 256 ^ size :=
    Nat.div_eq_zero_iff_lt (Nat.pow_pos (by decide))
  have hensure : Writes (Prog.ensure .ret (val / 256 ^ size = 0)) (val < 256 ^ size) [] := by
    intro pkt _
    rw [post_ensure]
    exact ⟨fun h => ⟨hdiv.mp h, (List.append_nil _).symm, rfl⟩,
      fun h hboth => h (hdiv.mpr hboth.1)⟩
  have hboth := (writes_append (Bytes.ofNat size val)).bind (n := fun _ => _) hensure
  rw [List.append_nil] at hboth
  exact hboth.iff ⟨fun h => h.2, fun h => ⟨trivial, h⟩⟩

/-- A number is written in its variable-length encoding. -/
theorem writes_varLength (n : ℕ) :
    Writes (quicVariableLengthWrite n) (n < 2 ^ 62) (varLengthBytes n) := by
  rw [quicVariableLengthWrite]
  by_cases hn : n < 2 ^ 62
  · rw [quicVariableLengthEncode_eq hn, ofExcept_ok, pure_bind]
    exact (writes_memcpy _).iff ⟨fun _ => hn, fun _ => trivial⟩
  · rw [quicVariableLengthEncode_eq_error (not_lt.mp hn), ofExcept_error, fail_bind]
    intro pkt _
    exact fun hboth => hn hboth.1

end Writes

/-- An AEAD under one key. -/
structure Aead where
  /-- The ciphertext under a nonce and with associated data. -/
  encrypt : List UInt8 → List UInt8 → List UInt8 → List UInt8
  /-- The tag of a given length. -/
  tag : ℕ → List UInt8 → List UInt8 → List UInt8 → List UInt8
  /-- A ciphertext is as long as its plaintext. -/
  encrypt_length (nonce aad text : List UInt8) : (encrypt nonce aad text).length = text.length
  /-- A tag has the length asked for. -/
  tag_length (n : ℕ) (nonce aad text : List UInt8) : (tag n nonce aad text).length = n

namespace Aead

/-- The ciphertext with the tag behind it. -/
def output (aead : Aead) (tagLen : ℕ) (nonce aad text : List UInt8) : List UInt8 :=
  aead.encrypt nonce aad text ++ aead.tag tagLen nonce aad text

@[simp] theorem output_length (aead : Aead) (tagLen : ℕ) (nonce aad text : List UInt8) :
    (aead.output tagLen nonce aad text).length = text.length + tagLen := by
  rw [output, List.length_append, aead.encrypt_length, aead.tag_length]

end Aead

/-- The mask of a sample under one key. -/
structure HeaderMask where
  /-- The mask. -/
  mask : List UInt8 → List UInt8
  /-- A mask is a block. -/
  mask_length (sample : List UInt8) : (mask sample).length = 16

variable {Ctx : Type}

/-- Contexts that encrypt with an AEAD. `EVP_CipherUpdate` reports how many bytes it consumed. -/
structure Encrypts (evp : Evp Ctx) (enc : ℕ) (aead : Aead) (keyed : Ctx → Prop) : Prop where
  /-- The calls for one message. -/
  run (ctx : Ctx) (nonce aad text : List UInt8) : keyed ctx →
    ∃ ctx₁ ctx₂ ctx₃ ctx₄ ctx₅, evp.cipherInit ctx nonce enc = some ctx₁ ∧
      evp.setIvLen ctx₁ nonce.length = some ctx₂ ∧
      evp.updateAad ctx₂ aad = some (aad.length, ctx₃) ∧
      evp.cipherUpdate ctx₃ text = some (aead.encrypt nonce aad text, ctx₄) ∧
      evp.cipherFinal ctx₄ = some ([], ctx₅) ∧ keyed ctx₅ ∧
      ∀ n, evp.getTag ctx₅ n = some (aead.tag n nonce aad text)

/-- Contexts that mask headers. The library may put a block of padding behind the mask. -/
structure Masks (evp : Evp Ctx) (header : HeaderMask) (keyed : Ctx → Prop) : Prop where
  /-- The calls for one sample. -/
  run (ctx : Ctx) (sample : List UInt8) : keyed ctx → sample.length = 16 →
    ∃ ctx₁ ctx₂ last, evp.cipherUpdate ctx sample = some (header.mask sample, ctx₁) ∧
      evp.cipherFinal ctx₁ = some (last, ctx₂) ∧ last.length ≤ 16 ∧ keyed ctx₂

/-- A mask is made of a sample. -/
theorem Masks.quicDoCipher {evp : Evp Ctx} {header : HeaderMask} {keyed : Ctx → Prop}
    (h : Masks evp header keyed) {ctx : Ctx} (hctx : keyed ctx) {sample : List UInt8}
    (hsample : sample.length = 16) :
    ∃ out ctx', Tbquic.quicDoCipher evp ctx 32 sample = .ok (out, ctx') ∧ keyed ctx' ∧
      16 ≤ out.length ∧ out.length ≤ 32 ∧ out.take 16 = header.mask sample := by
  obtain ⟨ctx₁, ctx₂, last, hupdate, hfinal, hlast, hkeyed⟩ := h.run ctx sample hctx hsample
  have hmask := header.mask_length sample
  have hlen : (header.mask sample ++ last).length = 16 + last.length := by
    rw [List.length_append, hmask]
  refine ⟨header.mask sample ++ last, ctx₂, ?_, hkeyed, by omega, by omega, ?_⟩
  · have hle : quicLe (header.mask sample).length (32 : ℕ) := by
      rw [quicLe_iff] <;> omega
    have hle' : quicLe ((header.mask sample ++ last).length : ℕ) (32 : ℕ) := by
      rw [quicLe_iff] <;> omega
    unfold Tbquic.quicDoCipher
    rw [hupdate]
    dsimp only
    rw [if_pos hle, hfinal]
    dsimp only
    rw [if_pos hle', if_pos (by omega)]
  · rw [← hmask, List.take_left]

/-- The length of a ciphertext and that of its tag come from the same entry of the table. -/
theorem quicCipherLenGet_eq {alg dataLen cipherLen : ℕ}
    (h : quicCipherLenGet alg dataLen = .ok cipherLen) (hpos : cipherLen ≠ 0) :
    ∃ tagLen, quicCipherGetTagLen alg = .ok tagLen ∧ cipherLen = dataLen + tagLen ∧
      tagLen ≤ 16 := by
  have hlt : alg < 12 := by
    by_contra hge
    have hnone : cipherSuite[alg]? = none := List.getElem?_eq_none (not_lt.mp hge)
    rw [quicCipherLenGet, hnone] at h
    cases h
    exact hpos rfl
  unfold quicCipherLenGet at h
  unfold quicCipherGetTagLen
  obtain rfl | rfl | rfl | rfl | rfl | rfl | rfl | rfl | rfl | rfl | rfl | rfl :
    alg = 0 ∨ alg = 1 ∨ alg = 2 ∨ alg = 3 ∨ alg = 4 ∨ alg = 5 ∨ alg = 6 ∨ alg = 7 ∨ alg = 8 ∨
      alg = 9 ∨ alg = 10 ∨ alg = 11 := by omega
  all_goals cases h
  all_goals exact ⟨_, rfl, rfl, by decide⟩

section Message

variable {evp : Evp Ctx} {aead : Aead} {header : HeaderMask} {ppKeyed hpKeyed : Ctx → Prop}

/-- The contexts of a sender with installed keys. -/
structure KeysInstalled (evp : Evp Ctx) (aead : Aead) (header : HeaderMask)
    (ppKeyed hpKeyed : Ctx → Prop) (crypto : QuicCrypto Ctx) : Prop where
  /-- `cipher_inited`. -/
  inited : crypto.encrypt.cipherInited = true
  /-- The packet protection cipher encrypts. -/
  encrypts : Encrypts evp crypto.encrypt.ppCipher.cipher.enc aead ppKeyed
  /-- The header protection cipher masks. -/
  masks : Masks evp header hpKeyed
  /-- The context of the packet protection cipher. -/
  ppCtx : ∃ ctx, crypto.encrypt.ppCipher.cipher.ctx = some ctx ∧ ppKeyed ctx
  /-- The context of the header protection cipher. -/
  hpCtx : ∃ ctx, crypto.encrypt.hpCipher.ctx = some ctx ∧ hpKeyed ctx

/-- The state behind an encryption. -/
def Encrypted (ppKeyed : Ctx → Prop) (s t : PktBuild Ctx) : Prop :=
  ∃ ctx entry, ppKeyed ctx ∧ t = (s.setPpCtx ctx).record entry

/-- A message is encrypted when its associated data is shorter than the output. -/
theorem quicEncryptMessage_post {s : PktBuild Ctx} {head input : List UInt8}
    {outBufLen num len tagLen : ℕ}
    (hkeys : KeysInstalled evp aead header ppKeyed hpKeyed s.crypto)
    (htag : quicCipherGetTagLen s.ppCipher.cipher.alg = .ok tagLen)
    (hout : outBufLen = input.length + tagLen) (hlen : outBufLen < 2 ^ 31)
    (hhead : head.length < 2 ^ 31) :
    Post (quicEncryptMessage evp head outBufLen num len input)
      (fun out t => head.length < outBufLen ∧ Encrypted ppKeyed s t ∧
        out = aead.output tagLen (quicNonce s.ppCipher.iv num) head input)
      (fun _ _ => ¬ head.length < outBufLen) s := by
  obtain ⟨ctx, hctx, hkeyed⟩ := hkeys.ppCtx
  have hctx : s.ppCipher.cipher.ctx = some ctx := hctx
  obtain ⟨ctx₁, ctx₂, ctx₃, ctx₄, ctx₅, hinit, hset, haad, hupdate, hfinal, hkeyed', hgetTag⟩ :=
    hkeys.encrypts.run ctx (quicNonce s.ppCipher.iv num) head input hkeyed
  have hinit : evp.cipherInit ctx (quicNonce s.ppCipher.iv num) s.ppCipher.cipher.enc =
      some ctx₁ := hinit
  have htext := aead.encrypt_length (quicNonce s.ppCipher.iv num) head input
  have hcipher : quicDoCipher evp ctx₃ outBufLen input =
      .ok (aead.encrypt (quicNonce s.ppCipher.iv num) head input, ctx₅) := by
    have hle : quicLe ((aead.encrypt (quicNonce s.ppCipher.iv num) head input).length : ℕ)
        outBufLen := by
      rw [quicLe_iff] <;> omega
    unfold quicDoCipher
    rw [hupdate]
    dsimp only
    rw [if_pos hle, hfinal]
    dsimp only
    rw [List.append_nil, if_pos hle, if_pos (by omega)]
  have hlt : quicLt (head.length : ℕ) outBufLen ↔ head.length < outBufLen := by
    rw [quicLt_iff] <;> omega
  have hsetIV : quicCryptoSetIV evp num s = (.ok (), s.setPpCtx ctx₂) := by
    rw [quicCryptoSetIV, get_bind, ppCtx, bind_assoc, get_bind, hctx, ofOption_some, pure_bind,
      hinit, ofOption_some, pure_bind, modify_bind, hset, ofOption_some, pure_bind]
    rfl
  have hppCtx : ppCtx (s.setPpCtx ctx₂) = (.ok ctx₂, s.setPpCtx ctx₂) := by
    rw [ppCtx, get_bind]
    rfl
  rw [quicEncryptMessage, post_bind, post_of_eq hsetIV, post_bind, post_of_eq hppCtx, haad,
    ofOption_some, pure_bind]
  dsimp only
  rw [post_bind, post_modify, post_bind, post_ensure]
  refine ⟨fun hok => ?_, fun hno => fun h => hno (hlt.mpr h)⟩
  rw [hcipher, ofExcept_ok, pure_bind]
  dsimp only
  rw [post_bind, post_modify, post_bind, post_get, post_bind, post_modify]
  change Post (Prog.ofExcept (quicCipherGetTagLen s.ppCipher.cipher.alg) >>= _) _ _ _
  rw [htag, ofExcept_ok, pure_bind]
  have hentry (entry : Seal) : Encrypted ppKeyed s ((s.setPpCtx ctx₅).record entry) :=
    ⟨ctx₅, entry, hkeyed', rfl⟩
  by_cases hpos : 0 < tagLen
  · rw [if_pos hpos, post_bind, post_ensure]
    refine ⟨fun _ => ?_, fun hno => absurd (by omega) hno⟩
    rw [hgetTag]
    exact ⟨hlt.mp hok, hentry _, rfl⟩
  · have hzero : tagLen = 0 := by omega
    have hempty := aead.tag_length tagLen (quicNonce s.ppCipher.iv num) head input
    rw [if_neg hpos]
    refine ⟨hlt.mp hok, hentry _, ?_⟩
    rw [hzero] at hempty
    rw [Aead.output, hzero, List.length_eq_zero_iff.mp hempty, List.append_nil]

/-- A payload is encrypted when the header is shorter than the output. -/
theorem quicEncryptPayload_post {s : PktBuild Ctx} {head : List UInt8} {outLen num len tagLen : ℕ}
    (hkeys : KeysInstalled evp aead header ppKeyed hpKeyed s.crypto)
    (htag : quicCipherGetTagLen s.ppCipher.cipher.alg = .ok tagLen)
    (hout : outLen = s.qb.data.length + tagLen) (hlen : outLen < 2 ^ 31)
    (hhead : head.length < 2 ^ 31) :
    Post (quicEncryptPayload evp head outLen num len)
      (fun out t => head.length < outLen ∧ Encrypted ppKeyed s t ∧
        out = aead.output tagLen (quicNonce s.ppCipher.iv num) head s.qb.data)
      (fun _ _ => ¬ head.length < outLen) s := by
  rw [quicEncryptPayload, post_bind, post_get, post_bind]
  refine (quicEncryptMessage_post hkeys htag hout hlen hhead).mono ?_ fun _ _ h => h
  rintro out t ⟨hless, ht, rfl⟩
  rw [post_bind, post_ensure, aead.output_length]
  exact ⟨fun _ => ⟨hless, ht, rfl⟩, fun hno => absurd hout hno⟩

/-- The first byte of a packet under a mask. -/
def maskFirst (mask : List UInt8) (bitsMask : ℕ) (first : UInt8) : UInt8 :=
  first ^^^ (mask.getD 0 0 &&& UInt8.ofNat bitsMask)

/-- The bytes of a packet number under a mask. -/
def maskNumber (mask num : List UInt8) : List UInt8 := List.zipWith (· ^^^ ·) num (mask.drop 1)

/-- The sample of a packet from its number on. -/
def sampleOf (numStart : List UInt8) : List UInt8 := (numStart.drop 4).take 16

/-- A packet whose header is masked. -/
def maskedPacket (header : HeaderMask) (bitsMask : ℕ) (first : UInt8) (rest num body : List UInt8) :
    List UInt8 :=
  maskFirst (header.mask (sampleOf (num ++ body))) bitsMask first ::
    (rest ++ (maskNumber (header.mask (sampleOf (num ++ body))) num ++ body))

/-- A packet number keeps its length under a mask. -/
theorem maskNumber_length (header : HeaderMask) {sample num : List UInt8} (hnum : num.length ≤ 4) :
    (maskNumber (header.mask sample) num).length = num.length := by
  have hmask := header.mask_length sample
  rw [maskNumber, List.length_zipWith, List.length_drop]
  omega

/-- A header is masked when the sample is there. -/
theorem quicEncryptHeader_post {s : PktBuild Ctx} {before rest num body : List UInt8}
    {first : UInt8} {bitsMask : ℕ}
    (hkeys : KeysInstalled evp aead header ppKeyed hpKeyed s.crypto)
    (hbuf : s.pkt.buf = before ++ first :: (rest ++ (num ++ body)))
    (hnum : num.length = first.toNat % 4 + 1) :
    Post (quicEncryptHeader evp before.length (before.length + (first :: rest).length)
        (num.length + body.length) bitsMask)
      (fun _ t => 20 ≤ num.length + body.length ∧ ∃ ctx pkt, hpKeyed ctx ∧
        t = (s.setHpCtx ctx).setPkt pkt ∧ pkt.maxsize = s.pkt.maxsize ∧
        pkt.buf = before ++ maskedPacket header bitsMask first rest num body)
      (fun _ _ => ¬ 20 ≤ num.length + body.length) s := by
  have hdrop : s.pkt.buf.drop (before.length + (first :: rest).length) = num ++ body := by
    rw [hbuf, ← List.drop_drop, List.drop_left, ← List.cons_append, List.drop_left]
  have hfirst : s.pkt.buf.getD before.length 0 = first := by
    rw [hbuf, List.getD_eq_getElem?_getD, List.getElem?_append_right (le_refl _), Nat.sub_self]
    rfl
  obtain ⟨ctx, hctx, hkeyed⟩ := hkeys.hpCtx
  have hctx : s.hpCipher.ctx = some ctx := hctx
  rw [quicEncryptHeader, post_bind, post_get, post_bind, hdrop, quicHPMaskGen, post_bind, post_get,
    hctx, ofOption_some, pure_bind, post_bind, post_ensure]
  refine ⟨fun hlong => ?_, fun hshort => hshort⟩
  have hsample : (sampleOf (num ++ body)).length = 16 := by
    rw [sampleOf, List.length_take, List.length_drop, List.length_append]
    omega
  obtain ⟨out, ctx', hcipher, hkeyed', hlow, hhigh, htake⟩ :=
    hkeys.masks.quicDoCipher hkeyed hsample
  have hcheck : quicLe (out.length : ℕ) 32 ∧ quicGe (out.length : ℕ) (16 : ℕ) := by
    constructor
    · rw [quicLe_iff] <;> omega
    · rw [quicGe_iff] <;> omega
  rw [show quicDoCipher evp ctx 32 (((num ++ body).drop 4).take 16) = .ok (out, ctx') from hcipher,
    ofExcept_ok, pure_bind]
  dsimp only
  rw [post_bind, post_modify, post_bind, post_ensure]
  refine ⟨fun _ => ?_, fun hno => absurd hcheck hno⟩
  rw [post_pure, hfirst, ← hnum, List.take_left, htake, post_modify]
  refine ⟨hlong, ctx', _, hkeyed', rfl, rfl, ?_⟩
  have hmasked := @maskNumber_length header (sampleOf (num ++ body)) num (by omega)
  have hone := @Bytes.overwrite_append before [first]
    [maskFirst (header.mask (sampleOf (num ++ body))) bitsMask first] (rest ++ (num ++ body)) rfl
  have htwo := @Bytes.overwrite_append
    (before ++ maskFirst (header.mask (sampleOf (num ++ body))) bitsMask first :: rest) num
    (maskNumber (header.mask (sampleOf (num ++ body))) num) body hmasked
  change Bytes.overwrite (Bytes.overwrite s.pkt.buf before.length
      [maskFirst (header.mask (sampleOf (num ++ body))) bitsMask first])
    (before.length + (first :: rest).length)
    (maskNumber (header.mask (sampleOf (num ++ body))) num) = _
  rw [List.append_assoc, List.append_assoc, List.singleton_append] at hone
  rw [hbuf, hone]
  rw [List.length_append, List.length_cons] at htwo
  rw [List.length_cons, maskedPacket]
  simpa only [List.append_assoc, List.cons_append, List.singleton_append, List.nil_append]
    using htwo

/-- The bytes of a protected packet, from the numbers and keys that its sender uses. -/
def protectedPacket (aead : Aead) (header : HeaderMask) (iv : Fin 12 → UInt8)
    (tagLen bitsMask : ℕ) (first : UInt8) (rest : List UInt8) (num len : ℕ) (text : List UInt8) :
    List UInt8 :=
  maskedPacket header bitsMask first rest (Bytes.ofNat len num)
    (aead.output tagLen (quicNonce iv num) (first :: (rest ++ Bytes.ofNat len num)) text)

/-- What a packet needs to be protected behind its header. -/
structure Protectable (headLen num len cipherLen space : ℕ) : Prop where
  /-- The packet number fits in its field. -/
  number : num < 256 ^ len
  /-- The rest of the packet fits in the datagram. -/
  room : len + cipherLen ≤ space
  /-- `QUIC_LT(*outl, out_buf_len)` of `QuicEncryptMessage`. -/
  longer : headLen + len < cipherLen
  /-- The check of `QuicHPMaskGen`. -/
  sample : 20 ≤ len + cipherLen

/-- What a build leaves of a state: the payload, and the keys with other contexts. -/
def Sealed (ppKeyed hpKeyed : Ctx → Prop) (s t : PktBuild Ctx) : Prop :=
  ∃ ctx ctx' entry pkt, ppKeyed ctx ∧ hpKeyed ctx' ∧ pkt.maxsize = s.pkt.maxsize ∧
    t = (((s.setPpCtx ctx).record entry).setHpCtx ctx').setPkt pkt

/-- The end of a build protects the packet under the conditions on its parts. -/
theorem quicPacketSeal_post {s : PktBuild Ctx} {before rest : List UInt8} {first : UInt8}
    {num len tagLen cipherLen bitsMask : ℕ}
    (hkeys : KeysInstalled evp aead header ppKeyed hpKeyed s.crypto)
    (htag : quicCipherGetTagLen s.ppCipher.cipher.alg = .ok tagLen)
    (hcipher : cipherLen = s.qb.data.length + tagLen) (hmax : s.pkt.maxsize < 2 ^ 31)
    (hbuf : s.pkt.buf = before ++ first :: rest) (hlen : len = first.toNat % 4 + 1) :
    Post (quicPacketSeal evp before.length num len cipherLen bitsMask)
      (fun _ t => Protectable (first :: rest).length num len cipherLen
          (s.pkt.maxsize - s.pkt.written) ∧ Sealed ppKeyed hpKeyed s t ∧
        t.pkt.buf = before ++ protectedPacket aead header s.ppCipher.iv tagLen bitsMask first rest
          num len s.qb.data)
      (fun _ _ => ¬ Protectable (first :: rest).length num len cipherLen
        (s.pkt.maxsize - s.pkt.written)) s := by
  have hfits := s.pkt.fits
  have hlast : s.pkt.written = before.length + (first :: rest).length := by
    rw [WPacket.written, hbuf, List.length_append]
  rw [quicPacketSeal, post_bind, post_get, post_bind, PktBuild.onPkt, post_zoom]
  refine (writes_putBytes num len s.pkt hmax).mono ?_ ?_
  swap
  · intro _ _ hno h
    have hroom := h.room
    refine hno ⟨h.number, ?_⟩
    rw [Bytes.ofNat_length]
    change s.pkt.written ≤ s.pkt.maxsize at hfits
    omega
  rintro _ pkt ⟨hnum, hput⟩
  have hwritten := hput.written
  rw [Bytes.ofNat_length] at hwritten
  rw [post_bind, PktBuild.onPkt, post_zoom, wPacketAllocateBytes, post_bind, post_get, post_bind]
  refine (writes_append (List.replicate cipherLen 0) pkt (hput.2 ▸ hmax)).mono ?_ ?_
  swap
  · intro _ _ hno h
    have hroom := h.room
    refine hno ⟨trivial, ?_⟩
    rw [List.length_replicate, hwritten, hput.2]
    omega
  rintro _ pkt' ⟨-, happend⟩
  have hroom : len + cipherLen ≤ s.pkt.maxsize - s.pkt.written := by
    have hfits' := pkt'.fits
    have hwritten' := happend.written
    rw [List.length_replicate, hwritten] at hwritten'
    change pkt'.written ≤ pkt'.maxsize at hfits'
    rw [happend.2, hput.2] at hfits'
    omega
  have hbuf' : pkt'.buf = before ++ (first :: (rest ++ Bytes.ofNat len num)) ++
      List.replicate cipherLen 0 := by
    rw [happend.1, hput.1, hbuf]
    simp only [List.append_assoc, List.cons_append]
  have hdest : pkt.written = (before ++ first :: (rest ++ Bytes.ofNat len num)).length := by
    rw [hwritten, hlast, List.length_append, List.length_cons, List.length_cons,
      List.length_append, Bytes.ofNat_length]
    omega
  have hhead : (pkt'.buf.take pkt.written).drop before.length =
      first :: (rest ++ Bytes.ofNat len num) := by
    rw [hbuf', hdest, List.take_left, List.drop_left]
  have hassert : 0 < toInt ((pkt.written : ℤ) - before.length) := by
    have hpos : (first :: rest).length = rest.length + 1 := List.length_cons
    change s.pkt.written ≤ s.pkt.maxsize at hfits
    rw [toInt_of_bounds] <;> omega
  rw [post_pure, post_bind, post_ensure]
  refine ⟨fun _ => ?_, fun hno => absurd hassert hno⟩
  rw [post_bind, post_get, post_bind]
  change Post (quicEncryptPayload evp ((pkt'.buf.take pkt.written).drop before.length) _ _ _) _ _ _
  have hheadLen : (first :: (rest ++ Bytes.ofNat len num)).length =
      (first :: rest).length + len := by
    rw [List.length_cons, List.length_cons, List.length_append, Bytes.ofNat_length]
    omega
  rw [hhead]
  change s.pkt.written ≤ s.pkt.maxsize at hfits
  refine (quicEncryptPayload_post (s := (s.setPkt pkt).setPkt pkt') hkeys htag hcipher (by omega)
    (by omega)).mono ?_ ?_
  swap
  · intro _ _ hno h
    rw [hheadLen] at hno
    exact hno h.longer
  rintro out t ⟨hlonger, ⟨ctx, entry, hctx, rfl⟩, rfl⟩
  rw [hheadLen] at hlonger
  rw [post_bind, post_modify]
  have hout := aead.output_length tagLen (quicNonce s.ppCipher.iv num)
    (first :: (rest ++ Bytes.ofNat len num)) s.qb.data
  rw [← hcipher] at hout
  have hover := @Bytes.overwrite_append (before ++ first :: (rest ++ Bytes.ofNat len num))
    (List.replicate cipherLen 0) (aead.output tagLen (quicNonce s.ppCipher.iv num)
      (first :: (rest ++ Bytes.ofNat len num)) s.qb.data) []
    (by rw [hout, List.length_replicate])
  rw [List.append_nil, List.append_nil, ← hbuf', ← hdest] at hover
  have hmask := @quicEncryptHeader_post Ctx evp aead header ppKeyed hpKeyed
    ((((s.setPkt pkt).setPkt pkt').setPpCtx ctx).record entry |>.setPkt
      (pkt'.overwrite pkt.written (aead.output tagLen (quicNonce s.ppCipher.iv num)
        (first :: (rest ++ Bytes.ofNat len num)) s.qb.data)))
    before rest (Bytes.ofNat len num) (aead.output tagLen (quicNonce s.ppCipher.iv num)
      (first :: (rest ++ Bytes.ofNat len num)) s.qb.data) first bitsMask
    ⟨hkeys.inited, hkeys.encrypts, hkeys.masks, ⟨ctx, rfl, hctx⟩, hkeys.hpCtx⟩
    (by
      change Bytes.overwrite pkt'.buf _ _ = _
      rw [hover]
      simp only [List.append_assoc, List.cons_append])
    (by rw [Bytes.ofNat_length, hlen])
  rw [Bytes.ofNat_length, hout, ← hlast] at hmask
  refine hmask.mono ?_ ?_
  · rintro _ t ⟨hsample, ctx', final, hctx', rfl, hfinalMax, hfinal⟩
    refine ⟨⟨hnum, hroom, hlonger, hsample⟩, ⟨ctx, ctx', entry, final, hctx, hctx', ?_, rfl⟩,
      hfinal⟩
    exact hfinalMax.trans (happend.2.trans hput.2)
  · intro _ _ hno h
    exact hno h.sample

/-- The Length field that `QuicPacketBuild` writes, which packets with a short header lack. -/
def lengthField (mask n : ℕ) : List UInt8 := if mask = longHeaderMask then varLengthBytes n else []

/-- What `QuicPacketBuild` needs to protect a payload of some length behind a header, with the
packet number and the length of the tag. -/
structure Buildable (crypto : QuicCrypto Ctx) (dataLen space mask headLen len num tagLen : ℕ) :
    Prop where
  /-- The packet number has an encoding. -/
  number : quicPktNumberEncode ((crypto.pktNum + 1) % 2 ^ 64) crypto.largestAcked (len * 8) =
    .ok num
  /-- The algorithm has a tag. -/
  tag : quicCipherGetTagLen crypto.encrypt.ppCipher.cipher.alg = .ok tagLen
  /-- The algorithm has a ciphertext. -/
  cipher : quicCipherLenGet crypto.encrypt.ppCipher.cipher.alg dataLen = .ok (dataLen + tagLen)
  /-- The ciphertext is not empty. -/
  text : dataLen + tagLen ≠ 0
  /-- The packet can be protected behind its Length field. -/
  protectable : Protectable (headLen + (lengthField mask (dataLen + tagLen + len)).length) num len
    (dataLen + tagLen) (space - (lengthField mask (dataLen + tagLen + len)).length)

/-- The Length field is written. -/
theorem quicPacketLength_post {s : PktBuild Ctx} {mask n : ℕ} (hmax : s.pkt.maxsize < 2 ^ 31) :
    Post (quicPacketLength n mask)
      (fun _ t => ∃ pkt, t = s.setPkt pkt ∧ s.pkt.Extends (lengthField mask n) pkt)
      (fun _ _ => ¬ (n < 2 ^ 62 ∧
        s.pkt.written + (lengthField mask n).length ≤ s.pkt.maxsize)) s := by
  rw [quicPacketLength, lengthField]
  by_cases hmask : mask = longHeaderMask
  · rw [if_pos hmask, if_pos hmask, PktBuild.onPkt, post_zoom]
    refine (writes_varLength n s.pkt hmax).mono ?_ fun _ _ h => h
    rintro _ pkt ⟨-, hpkt⟩
    exact ⟨pkt, rfl, hpkt⟩
  · rw [if_neg hmask, if_neg hmask]
    exact ⟨s.pkt, rfl, (List.append_nil _).symm, rfl⟩

/-- A build protects its packet exactly under its conditions. -/
theorem quicPacketBuild_post {s : PktBuild Ctx} {before rest : List UInt8} {first : UInt8}
    {mask len : ℕ} (hkeys : KeysInstalled evp aead header ppKeyed hpKeyed s.crypto)
    (hmax : s.pkt.maxsize < 2 ^ 31) (hbuf : s.pkt.buf = before ++ first :: rest)
    (hlen : len = first.toNat % 4 + 1) :
    Post (quicPacketBuild evp before.length len mask)
      (fun _ t => ∃ num tagLen, Buildable s.crypto s.qb.dataLen (s.pkt.maxsize - s.pkt.written)
          mask (first :: rest).length len num tagLen ∧
        Sealed ppKeyed hpKeyed s.number t ∧
        t.pkt.buf = before ++ protectedPacket aead header s.ppCipher.iv tagLen mask first
          (rest ++ lengthField mask (s.qb.dataLen + tagLen + len)) num len s.qb.data)
      (fun _ _ => ¬ ∃ num tagLen, Buildable s.crypto s.qb.dataLen
        (s.pkt.maxsize - s.pkt.written) mask (first :: rest).length len num tagLen) s := by
  rw [quicPacketBuild, post_bind, post_get, post_bind, post_ensure]
  refine ⟨fun _ => ?_, fun hno => absurd hkeys.inited hno⟩
  rw [post_bind, post_modify, post_bind, post_get, post_bind]
  change Post (Prog.ofExcept (quicPktNumberEncode ((s.crypto.pktNum + 1) % 2 ^ 64)
    s.crypto.largestAcked (len * 8))) _ _ _
  rw [post_ofExcept]
  refine ⟨fun num hnum => ?_, ?_⟩
  swap
  · rintro e he ⟨num, tagLen, h⟩
    rw [h.number] at he
    cases he
  rw [post_bind]
  change Post (Prog.ofExcept (quicCipherLenGet s.ppCipher.cipher.alg s.qb.dataLen)) _ _ _
  rw [post_ofExcept]
  refine ⟨fun cipherLen hcipher => ?_, ?_⟩
  swap
  · rintro e he ⟨num', tagLen, h⟩
    rw [show quicCipherLenGet s.ppCipher.cipher.alg s.qb.dataLen = _ from h.cipher] at he
    cases he
  rw [post_bind, post_ensure]
  refine ⟨fun hpos => ?_, ?_⟩
  swap
  · rintro hzero ⟨num', tagLen, h⟩
    have heq := h.cipher
    rw [show quicCipherLenGet s.crypto.encrypt.ppCipher.cipher.alg s.qb.dataLen = _ from
      hcipher] at heq
    cases heq
    exact hzero h.text
  obtain ⟨tagLen, htag, rfl, -⟩ := quicCipherLenGet_eq hcipher hpos
  have hunique {num' tagLen' : ℕ} (h : Buildable s.crypto s.qb.dataLen
      (s.pkt.maxsize - s.pkt.written) mask (first :: rest).length len num' tagLen') :
      num' = num ∧ tagLen' = tagLen := by
    have hnum' := h.number
    have htag' := h.tag
    rw [hnum] at hnum'
    rw [show quicCipherGetTagLen s.crypto.encrypt.ppCipher.cipher.alg = _ from htag] at htag'
    cases hnum'
    cases htag'
    exact ⟨rfl, rfl⟩
  rw [post_bind]
  refine (@quicPacketLength_post Ctx s.number mask (s.qb.dataLen + tagLen + len) hmax).mono ?_ ?_
  swap
  · rintro _ _ hno ⟨num', tagLen', h⟩
    obtain ⟨rfl, rfl⟩ := hunique h
    have hroom := h.protectable.room
    have hsample := h.protectable.sample
    refine hno ⟨by omega, ?_⟩
    change s.pkt.written + _ ≤ s.pkt.maxsize
    omega
  rintro _ _ ⟨pkt, rfl, hpkt⟩
  have hwritten := hpkt.written
  change pkt.written = s.pkt.written + _ at hwritten
  have hseal := @quicPacketSeal_post Ctx evp aead header ppKeyed hpKeyed (s.number.setPkt pkt)
    before (rest ++ lengthField mask (s.qb.dataLen + tagLen + len)) first num len tagLen
    (s.qb.dataLen + tagLen) mask ⟨hkeys.inited, hkeys.encrypts, hkeys.masks, hkeys.ppCtx,
      hkeys.hpCtx⟩ htag rfl (hpkt.2 ▸ hmax)
    (by
      change pkt.buf = _
      rw [hpkt.1, ← List.cons_append, ← List.append_assoc, ← hbuf]
      rfl) hlen
  have hspace : pkt.maxsize - pkt.written = s.pkt.maxsize - s.pkt.written -
      (lengthField mask (s.qb.dataLen + tagLen + len)).length := by
    rw [hpkt.2, hwritten, Nat.sub_sub]
    rfl
  have hhead : (first :: (rest ++ lengthField mask (s.qb.dataLen + tagLen + len))).length =
      (first :: rest).length + (lengthField mask (s.qb.dataLen + tagLen + len)).length := by
    rw [← List.cons_append, List.length_append]
  rw [hhead] at hseal
  change Post _ (fun _ t => Protectable _ num len _ (pkt.maxsize - pkt.written) ∧ _) (fun _ _ =>
    ¬ Protectable _ num len _ (pkt.maxsize - pkt.written)) _ at hseal
  rw [hspace] at hseal
  refine hseal.mono ?_ ?_
  · rintro _ t ⟨hprotectable, ⟨ctx, ctx', entry, final, hctx, hctx', hfinal, rfl⟩, hbytes⟩
    refine ⟨num, tagLen, ⟨hnum, htag, hcipher, hpos, hprotectable⟩,
      ⟨ctx, ctx', entry, final, hctx, hctx', ?_, rfl⟩, hbytes⟩
    exact hfinal.trans hpkt.2
  · rintro _ _ hno ⟨num', tagLen', h⟩
    obtain ⟨rfl, rfl⟩ := hunique h
    exact hno h.protectable

end Message

end Tbquic
