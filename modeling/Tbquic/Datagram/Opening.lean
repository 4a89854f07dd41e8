import Tbquic.Datagram.Seal
import Tbquic.Keys.Open

/-!
# Opening what was protected

With the keys of the sender, the receiver of a protected packet makes the same sample, takes the
same mask off and decrypts the payload under the same nonce with the same associated data.
-/

namespace Tbquic

open Prog

variable {Ctx : Type}

/-- Contexts that decrypt what an AEAD encrypts. A tag is handed over unless it is empty. -/
structure Decrypts (evp : EvpOpen Ctx) (enc : ℕ) (aead : Aead) (keyed : Ctx → Prop) : Prop where
  /-- The calls for one message. -/
  run (ctx : Ctx) (n : ℕ) (nonce aad text : List UInt8) : keyed ctx →
    ∃ ctx₁ ctx₂ ctx₃ ctx₄ ctx₅ ctx₆, evp.cipherInit ctx nonce enc = some ctx₁ ∧
      evp.setIvLen ctx₁ nonce.length = some ctx₂ ∧
      (if 0 < n then evp.setTag ctx₂ (aead.tag n nonce aad text) else some ctx₂) = some ctx₃ ∧
      evp.updateAad ctx₃ aad = some (aad.length, ctx₄) ∧
      evp.cipherUpdate ctx₄ (aead.encrypt nonce aad text) = some (text, ctx₅) ∧
      evp.cipherFinal ctx₅ = some ([], ctx₆) ∧ keyed ctx₆

/-- The contexts of a receiver that shares the keys of a sender. -/
structure KeysShared (evp : EvpOpen Ctx) (aead : Aead) (header : HeaderMask)
    (ppKeyed hpKeyed : Ctx → Prop) (iv : Fin 12 → UInt8) (alg : ℕ) (crypto : QuicCrypto Ctx) :
    Prop where
  /-- The packet protection cipher decrypts. -/
  decrypts : Decrypts evp crypto.decrypt.ppCipher.cipher.enc aead ppKeyed
  /-- The header protection cipher masks. -/
  masks : Masks evp.toEvp header hpKeyed
  /-- The static part of the nonces. -/
  iv : crypto.decrypt.ppCipher.iv = iv
  /-- The algorithm. -/
  alg : crypto.decrypt.ppCipher.cipher.alg = alg
  /-- The context of the packet protection cipher. -/
  ppCtx : ∃ ctx, crypto.decrypt.ppCipher.cipher.ctx = some ctx ∧ ppKeyed ctx
  /-- The context of the header protection cipher. -/
  hpCtx : ∃ ctx, crypto.decrypt.hpCipher.ctx = some ctx ∧ hpKeyed ctx

section Mask

/-- A byte under a mask twice is the byte. -/
theorem maskFirst_maskFirst (mask : List UInt8) (bitsMask : ℕ) (first : UInt8) :
    maskFirst mask bitsMask (maskFirst mask bitsMask first) = first := by
  rw [maskFirst, maskFirst, UInt8.xor_assoc, UInt8.xor_self, UInt8.xor_zero]

/-- Bytes combined twice with the same bytes are the bytes. -/
theorem zipWith_xor_zipWith_xor {xs ks : List UInt8} (h : xs.length ≤ ks.length) :
    List.zipWith (· ^^^ ·) (List.zipWith (· ^^^ ·) xs ks) ks = xs := by
  induction xs generalizing ks with
  | nil => rfl
  | cons x xs ih =>
    cases ks with
    | nil => cases h
    | cons k ks =>
      rw [List.zipWith_cons_cons, List.zipWith_cons_cons, ih (Nat.le_of_succ_le_succ h),
        UInt8.xor_assoc, UInt8.xor_self, UInt8.xor_zero]

/-- A packet number under a mask twice is the packet number. -/
theorem maskNumber_maskNumber (header : HeaderMask) {sample num : List UInt8}
    (hnum : num.length ≤ 4) :
    maskNumber (header.mask sample) (maskNumber (header.mask sample) num) = num := by
  have hmask := header.mask_length sample
  refine zipWith_xor_zipWith_xor ?_
  rw [List.length_drop]
  omega

/-- The sample is behind the longest packet number, so it is not masked. -/
theorem sampleOf_maskNumber (header : HeaderMask) {sample num body : List UInt8}
    (hnum : num.length ≤ 4) :
    sampleOf (maskNumber (header.mask sample) num ++ body) = sampleOf (num ++ body) := by
  have hlen := @maskNumber_length header sample num hnum
  have hdrop {xs : List UInt8} (h : xs.length = num.length) :
      (xs ++ body).drop 4 = body.drop (4 - num.length) := by
    rw [List.drop_append, h, List.drop_of_length_le (by omega), List.nil_append]
  rw [sampleOf, sampleOf, hdrop hlen, hdrop rfl]

end Mask

namespace PktOpen

section Opening

variable {evp : EvpOpen Ctx} {aead : Aead} {header : HeaderMask} {ppKeyed hpKeyed : Ctx → Prop}
  {iv : Fin 12 → UInt8} {alg : ℕ}

/-- The mask of the sender is made again. -/
theorem quicHPMaskGen_run {s : PktOpen Ctx} {num body : List UInt8}
    (hkeys : KeysShared evp aead header ppKeyed hpKeyed iv alg s.crypto)
    (hnum : num.length ≤ 4) (hlen : 20 ≤ num.length + body.length) :
    ∃ ctx, hpKeyed ctx ∧ quicHPMaskGen evp 16 (num.length + body.length)
        (maskNumber (header.mask (sampleOf (num ++ body))) num ++ body) s =
      (.ok (header.mask (sampleOf (num ++ body))), s.setHpCtx ctx) := by
  have hsampleEq :
      ((maskNumber (header.mask (sampleOf (num ++ body))) num ++ body).drop 4).take 16 =
        sampleOf (num ++ body) :=
    sampleOf_maskNumber header hnum
  have hsample : (sampleOf (num ++ body)).length = 16 := by
    rw [sampleOf, List.length_take, List.length_drop, List.length_append]
    omega
  obtain ⟨ctx, hctx, hkeyed⟩ := hkeys.hpCtx
  have hctx : s.hpCipher.ctx = some ctx := hctx
  obtain ⟨out, ctx', hcipher, hkeyed', hlow, hhigh, htake⟩ :=
    hkeys.masks.quicDoCipher hkeyed hsample
  have hcheck : quicLe (out.length : ℕ) 32 ∧ quicGe (out.length : ℕ) (16 : ℕ) := by
    constructor
    · rw [quicLe_iff] <;> omega
    · rw [quicGe_iff] <;> omega
  refine ⟨ctx', hkeyed', ?_⟩
  rw [quicHPMaskGen, get_bind, hctx, ofOption_some, pure_bind, ensure_of_pos hlen, pure_bind,
    hsampleEq, hcipher, ofExcept_ok, pure_bind]
  dsimp only
  rw [modify_bind, ensure_of_pos hcheck, pure_bind, htake]
  rfl

/-- The header of the sender is recovered. -/
theorem quicDecryptHeader_run {s : PktOpen Ctx} {rest body : List UInt8} {first : UInt8}
    {num len bitsMask : ℕ}
    (hkeys : KeysShared evp aead header ppKeyed hpKeyed iv alg s.crypto)
    (hpast : s.pkt.past = maskFirst (header.mask (sampleOf (Bytes.ofNat len num ++ body))) bitsMask
      first :: rest)
    (hrest : s.pkt.rest = maskNumber (header.mask (sampleOf (Bytes.ofNat len num ++ body)))
      (Bytes.ofNat len num) ++ body)
    (hnum : num < 256 ^ len) (hlen : len = first.toNat % 4 + 1) (hbody : 20 ≤ len + body.length) :
    ∃ ctx, hpKeyed ctx ∧ quicDecryptHeader evp bitsMask s = (.ok (num, len),
      { s.setHpCtx ctx with pkt := ⟨first :: (rest ++ Bytes.ofNat len num), body⟩ }) := by
  have hnumLen := Bytes.ofNat_length len num
  have hle : (Bytes.ofNat len num).length ≤ 4 := by omega
  have hmasked := @maskNumber_length header (sampleOf (Bytes.ofNat len num ++ body)) _ hle
  have htwice := @maskNumber_maskNumber header (sampleOf (Bytes.ofNat len num ++ body)) _ hle
  have hremaining : s.pkt.remaining = (Bytes.ofNat len num).length + body.length := by
    rw [RPacket.remaining, hrest, List.length_append, hmasked]
  have hbody' : 20 ≤ (Bytes.ofNat len num).length + body.length := by omega
  obtain ⟨ctx, hctx, hmask⟩ := quicHPMaskGen_run hkeys hle hbody'
  rw [← hrest, ← hremaining] at hmask
  have hfirst : s.pkt.first = maskFirst (header.mask (sampleOf (Bytes.ofNat len num ++ body)))
      bitsMask first := by
    rw [RPacket.first, hpast]
    rfl
  have hset : s.pkt.setFirst first = ⟨first :: rest, s.pkt.rest⟩ := by
    rw [RPacket.setFirst, hpast, if_neg (List.cons_ne_nil _ _)]
    rfl
  have htake : s.pkt.rest.take len = maskNumber (header.mask
      (sampleOf (Bytes.ofNat len num ++ body))) (Bytes.ofNat len num) := by
    rw [hrest, List.take_append_of_le_length (by omega), List.take_of_length_le (by omega)]
  have hdrop : s.pkt.rest.drop len = body := by
    rw [hrest, List.drop_append_of_le_length (by omega), List.drop_of_length_le (by omega),
      List.nil_append]
  have hlong : ¬ (s.pkt.setFirst first).remaining < len := by
    rw [hset]
    exact not_lt.mpr (by omega : len ≤ s.pkt.remaining)
  refine ⟨ctx, hctx, ?_⟩
  rw [quicDecryptHeader, get_bind, bind_of_ok hmask, hfirst,
    show _ ^^^ _ = first from maskFirst_maskFirst _ bitsMask first, modify_bind, get_bind, ← hlen]
  change (Prog.ensure Fail.ret (¬ (s.pkt.setFirst first).remaining < len) >>= _) _ = _
  rw [ensure_of_pos hlong, pure_bind]
  dsimp only [setHpCtx]
  rw [hset]
  dsimp only
  rw [htake, show List.zipWith _ _ _ = Bytes.ofNat len num from htwice,
    Bytes.toNat_ofNat_of_lt hnum, modify_bind, pure_apply]
  dsimp only
  rw [hdrop, List.cons_append]

/-- The nonce of the sender is set. -/
theorem quicCryptoSetIV_run {s : PktOpen Ctx} {num : ℕ} {ctx ctx₁ ctx₂ : Ctx}
    (hctx : s.ppCipher.cipher.ctx = some ctx)
    (hinit : evp.cipherInit ctx (quicNonce s.ppCipher.iv num) s.ppCipher.cipher.enc = some ctx₁)
    (hset : evp.setIvLen ctx₁ (quicNonce s.ppCipher.iv num).length = some ctx₂) :
    quicCryptoSetIV evp num s = (.ok (), s.setPpCtx ctx₂) := by
  rw [quicCryptoSetIV, get_bind, ppCtx, bind_assoc, get_bind, hctx, ofOption_some, pure_bind,
    hinit, ofOption_some, pure_bind, modify_bind, hset, ofOption_some, pure_bind]
  rfl

/-- The tag behind the ciphertext is handed over. -/
theorem setTag_run {s : PktOpen Ctx} {ctx ctx' : Ctx} {text tag : List UInt8}
    (hctx : s.ppCipher.cipher.ctx = some ctx)
    (htag : (if 0 < tag.length then evp.setTag ctx tag else some ctx) = some ctx') :
    setTag evp tag.length (text ++ tag) s = (.ok (), s.setPpCtx ctx') := by
  rw [setTag]
  by_cases hpos : 0 < tag.length
  · rw [if_pos hpos] at htag ⊢
    rw [ppCtx, bind_assoc, get_bind, hctx, ofOption_some, pure_bind, List.length_append,
      Nat.add_sub_cancel, List.drop_left, htag, ofOption_some, pure_bind]
    rfl
  · rw [if_neg hpos] at htag ⊢
    cases htag
    rw [setPpCtx, ← hctx]
    rfl

/-- The payload of the sender is recovered when the header is shorter than the output buffer and the
payload fits in it. -/
theorem quicDecryptMessage_run {s : PktOpen Ctx} {head text : List UInt8}
    {outBufLen num tagLen : ℕ}
    (hkeys : KeysShared evp aead header ppKeyed hpKeyed iv alg s.crypto)
    (htag : quicCipherGetTagLen alg = .ok tagLen)
    (hpkt : s.pkt = ⟨head, aead.output tagLen (quicNonce iv num) head text⟩) (hhead : head ≠ [])
    (hless : head.length < outBufLen) (htext : text.length ≤ outBufLen)
    (hbuf : outBufLen < 2 ^ 31) :
    ∃ ctx, ppKeyed ctx ∧ quicDecryptMessage evp outBufLen num s = (.ok text, s.setPpCtx ctx) := by
  obtain ⟨ctx, hctx, hkeyed⟩ := hkeys.ppCtx
  have hctx : s.ppCipher.cipher.ctx = some ctx := hctx
  have hiv : s.ppCipher.iv = iv := hkeys.iv
  have halg : s.ppCipher.cipher.alg = alg := hkeys.alg
  obtain ⟨ctx₁, ctx₂, ctx₃, ctx₄, ctx₅, ctx₆, hinit, hset, hsetTag, haad, hupdate, hfinal,
      hkeyed'⟩ :=
    hkeys.decrypts.run ctx tagLen (quicNonce iv num) head text hkeyed
  have hlen := aead.tag_length tagLen (quicNonce iv num) head text
  have hcipherLen := aead.encrypt_length (quicNonce iv num) head text
  have hremaining : s.pkt.remaining = text.length + tagLen := by
    rw [hpkt, RPacket.remaining, aead.output_length]
  have hIV := quicCryptoSetIV_run hctx (hiv.symm ▸ hinit) (hiv.symm ▸ hset)
  have htagRun := @setTag_run Ctx evp (s.setPpCtx ctx₂) ctx₂ ctx₃
    (aead.encrypt (quicNonce iv num) head text) (aead.tag tagLen (quicNonce iv num) head text) rfl
    (by rw [hlen]; exact hsetTag)
  rw [hlen] at htagRun
  have hctx₃ : ppCtx ((s.setPpCtx ctx₂).setPpCtx ctx₃) =
      (.ok ctx₃, (s.setPpCtx ctx₂).setPpCtx ctx₃) := by
    rw [ppCtx, get_bind]
    rfl
  have hcheck : quicLt (head.length : ℕ) outBufLen := by
    rw [quicLt_iff] <;> omega
  have hcipher : quicDoCipher evp.toEvp ctx₄ outBufLen
      (aead.encrypt (quicNonce iv num) head text) = .ok (text, ctx₆) := by
    have hle : quicLe (text.length : ℕ) outBufLen := by
      rw [quicLe_iff] <;> omega
    unfold quicDoCipher
    rw [hupdate]
    dsimp only
    rw [if_pos hle, hfinal]
    dsimp only
    rw [List.append_nil, if_pos hle, if_pos htext]
  have htake : (aead.output tagLen (quicNonce iv num) head text).take
      (text.length + tagLen - tagLen) = aead.encrypt (quicNonce iv num) head text := by
    rw [Nat.add_sub_cancel, ← hcipherLen, Aead.output, List.take_left]
  have hpast : 0 < s.pkt.past.length := by
    rw [hpkt]
    exact List.length_pos_iff.mpr hhead
  refine ⟨ctx₆, hkeyed', ?_⟩
  rw [quicDecryptMessage, get_bind, ensure_of_pos hpast, pure_bind, bind_of_ok hIV, halg, htag,
    ofExcept_ok, pure_bind, ensure_of_pos (by rw [hremaining]; omega), pure_bind, hremaining, hpkt]
  dsimp only
  rw [show aead.output tagLen (quicNonce iv num) head text = aead.encrypt (quicNonce iv num) head
    text ++ aead.tag tagLen (quicNonce iv num) head text from rfl, bind_of_ok htagRun,
    bind_of_ok hctx₃, haad, ofOption_some, pure_bind]
  dsimp only
  rw [modify_bind, ensure_of_pos hcheck, pure_bind, ← Aead.output, htake, hcipher, ofExcept_ok,
    pure_bind]
  dsimp only
  rw [modify_bind]
  rfl

/-- A protected packet that is cut in front of its packet number. -/
structure Cut (aead : Aead) (header : HeaderMask) (iv : Fin 12 → UInt8) (tagLen bitsMask : ℕ)
    (first : UInt8) (rest : List UInt8) (num len : ℕ) (text : List UInt8) (pkt : RPacket) :
    Prop where
  /-- What was read. -/
  past : pkt.past = maskFirst (header.mask (sampleOf (Bytes.ofNat len num ++ aead.output tagLen
    (quicNonce iv num) (first :: (rest ++ Bytes.ofNat len num)) text))) bitsMask first :: rest
  /-- The packet is complete. -/
  whole : pkt.past ++ pkt.rest =
    protectedPacket aead header iv tagLen bitsMask first rest num len text

/-- What is behind the cut. -/
theorem Cut.rest_eq {tagLen bitsMask num len : ℕ} {first : UInt8} {rest text : List UInt8}
    {pkt : RPacket} (h : Cut aead header iv tagLen bitsMask first rest num len text pkt) :
    pkt.rest = maskNumber (header.mask (sampleOf (Bytes.ofNat len num ++ aead.output tagLen
      (quicNonce iv num) (first :: (rest ++ Bytes.ofNat len num)) text))) (Bytes.ofNat len num) ++
        aead.output tagLen (quicNonce iv num) (first :: (rest ++ Bytes.ofNat len num)) text := by
  have hwhole := h.whole
  rw [h.past, protectedPacket, maskedPacket, List.cons_append] at hwhole
  exact List.append_cancel_left (List.cons.inj hwhole).2

end Opening

end PktOpen

/-- The packet number space behind a packet that was opened. -/
def QuicCrypto.opened (c : QuicCrypto Ctx) (now pktNum : ℕ) (pp hp : Ctx) : QuicCrypto Ctx :=
  { c with
    largestPn := if quicLt c.largestPn pktNum then pktNum else c.largestPn
    arrivTime := now
    decrypt.ppCipher.cipher.ctx := some pp
    decrypt.hpCipher.ctx := some hp }

/-- The packet number space behind a packet whose number is not decoded. -/
def QuicCrypto.unopened (c : QuicCrypto Ctx) (now : ℕ) (hp : Ctx) : QuicCrypto Ctx :=
  { c with
    arrivTime := now
    decrypt.hpCipher.ctx := some hp }

section Shared

variable {evp : EvpOpen Ctx} {aead : Aead} {header : HeaderMask} {ppKeyed hpKeyed : Ctx → Prop}
  {iv : Fin 12 → UInt8} {alg : ℕ}

/-- The keys are kept. -/
theorem KeysShared.opened {crypto : QuicCrypto Ctx}
    (h : KeysShared evp aead header ppKeyed hpKeyed iv alg crypto) (now pktNum : ℕ) {pp hp : Ctx}
    (hpp : ppKeyed pp) (hhp : hpKeyed hp) :
    KeysShared evp aead header ppKeyed hpKeyed iv alg (crypto.opened now pktNum pp hp) :=
  ⟨h.decrypts, h.masks, h.iv, h.alg, ⟨pp, rfl, hpp⟩, ⟨hp, rfl, hhp⟩⟩

/-- They are also kept when the number is not decoded. -/
theorem KeysShared.unopened {crypto : QuicCrypto Ctx}
    (h : KeysShared evp aead header ppKeyed hpKeyed iv alg crypto) (now : ℕ) {hp : Ctx}
    (hhp : hpKeyed hp) :
    KeysShared evp aead header ppKeyed hpKeyed iv alg (crypto.unopened now hp) :=
  ⟨h.decrypts, h.masks, h.iv, h.alg, h.ppCtx, ⟨hp, rfl, hhp⟩⟩

/-- The number that a truncated one stands for, unless it is none. -/
def decodedNumber (largestPn num bits : ℕ) : Except Fail ℕ :=
  match quicPktNumberDecode largestPn num bits with
  | .error e => .error e
  | .ok pktNum => if pktNum = quicPktNumMax then .error .ret else .ok pktNum

namespace PktOpen

variable {s : PktOpen Ctx} {first : UInt8} {rest text : List UInt8}
  {num len tagLen bitsMask : ℕ}

/-- The number of a protected packet is recovered and decoded. -/
theorem quicDecryptPktNum_run (now : ℕ)
    (hkeys : KeysShared evp aead header ppKeyed hpKeyed iv alg s.crypto)
    (hcut : Cut aead header iv tagLen bitsMask first rest num len text s.pkt)
    (hnum : num < 256 ^ len) (hlen : len = first.toNat % 4 + 1)
    (hsample : 20 ≤ len + (text.length + tagLen)) :
    ∃ hp, hpKeyed hp ∧ quicDecryptPktNum evp now bitsMask s =
      ((decodedNumber s.crypto.largestPn num (len * 8)).map fun pktNum => (num, pktNum),
        { setHpCtx hp { s with crypto.arrivTime := now } with
          pkt := ⟨first :: (rest ++ Bytes.ofNat len num), aead.output tagLen (quicNonce iv num)
            (first :: (rest ++ Bytes.ofNat len num)) text⟩ }) := by
  set body := aead.output tagLen (quicNonce iv num) (first :: (rest ++ Bytes.ofNat len num)) text
    with hbody
  have hbodyLen : body.length = text.length + tagLen := aead.output_length ..
  obtain ⟨hp, hhp, hheader⟩ := quicDecryptHeader_run
    (s := { s with crypto.arrivTime := now }) ⟨hkeys.decrypts, hkeys.masks, hkeys.iv, hkeys.alg,
      hkeys.ppCtx, hkeys.hpCtx⟩ hcut.past hcut.rest_eq hnum hlen (by
        rw [← hbody, hbodyLen]
        exact hsample)
  rw [← hbody] at hheader
  set u : PktOpen Ctx := { setHpCtx hp { s with crypto.arrivTime := now } with
    pkt := ⟨first :: (rest ++ Bytes.ofNat len num), body⟩ } with hu
  refine ⟨hp, hhp, ?_⟩
  rw [quicDecryptPktNum, modify_bind, bind_of_ok hheader]
  dsimp only
  rw [get_bind, decodedNumber, show quicPktNumberDecode u.crypto.largestPn num (len * 8) =
    quicPktNumberDecode s.crypto.largestPn num (len * 8) from rfl]
  cases quicPktNumberDecode s.crypto.largestPn num (len * 8) with
  | error e =>
    rw [ofExcept_error, fail_bind]
    rfl
  | ok pktNum =>
    rw [ofExcept_ok, pure_bind]
    dsimp only
    by_cases hmax : pktNum = quicPktNumMax
    · rw [if_pos hmax, ensure_of_neg (fun h => h hmax), fail_bind]
      rfl
    · rw [if_neg hmax, ensure_of_pos hmax, pure_bind]
      rfl

/-- A protected packet is opened when its header is shorter than the output buffer and its number
is decoded. -/
theorem quicDecryptPacket_run (now : ℕ) {outBufLen pktNum : ℕ}
    (hkeys : KeysShared evp aead header ppKeyed hpKeyed iv alg s.crypto)
    (htag : quicCipherGetTagLen alg = .ok tagLen)
    (hcut : Cut aead header iv tagLen bitsMask first rest num len text s.pkt)
    (hnum : num < 256 ^ len) (hlen : len = first.toNat % 4 + 1)
    (hsample : 20 ≤ len + (text.length + tagLen))
    (hless : (first :: rest).length + len < outBufLen) (htext : text.length ≤ outBufLen)
    (hbuf : outBufLen < 2 ^ 31)
    (hdecode : decodedNumber s.crypto.largestPn num (len * 8) = .ok pktNum) :
    ∃ pp hp pkt, ppKeyed pp ∧ hpKeyed hp ∧
      quicDecryptPacket evp now outBufLen bitsMask s =
        (.ok text, { crypto := s.crypto.opened now pktNum pp hp, pkt }) := by
  obtain ⟨hp, hhp, hnumber⟩ := quicDecryptPktNum_run now hkeys hcut hnum hlen hsample
  rw [hdecode] at hnumber
  set u : PktOpen Ctx := { setHpCtx hp { s with crypto.arrivTime := now } with
    pkt := ⟨first :: (rest ++ Bytes.ofNat len num), aead.output tagLen (quicNonce iv num)
      (first :: (rest ++ Bytes.ofNat len num)) text⟩ } with hu
  have hheadLen : (first :: (rest ++ Bytes.ofNat len num)).length < outBufLen := by
    rw [List.length_cons, List.length_append, Bytes.ofNat_length]
    rw [List.length_cons] at hless
    omega
  obtain ⟨pp, hpp, hmessage⟩ := quicDecryptMessage_run (s := u)
    ⟨hkeys.decrypts, hkeys.masks, hkeys.iv, hkeys.alg, hkeys.ppCtx, ⟨hp, rfl, hhp⟩⟩ htag rfl
    (List.cons_ne_nil _ _) hheadLen htext hbuf
  refine ⟨pp, hp, u.pkt, hpp, hhp, ?_⟩
  rw [quicDecryptPacket, bind_of_ok hnumber]
  dsimp only
  rw [bind_of_ok hmessage, modify_bind]
  rfl

/-- A packet whose number is not decoded is refused. -/
theorem quicDecryptPacket_refused (now outBufLen : ℕ) {e : Fail}
    (hkeys : KeysShared evp aead header ppKeyed hpKeyed iv alg s.crypto)
    (hcut : Cut aead header iv tagLen bitsMask first rest num len text s.pkt)
    (hnum : num < 256 ^ len) (hlen : len = first.toNat % 4 + 1)
    (hsample : 20 ≤ len + (text.length + tagLen))
    (hdecode : decodedNumber s.crypto.largestPn num (len * 8) = .error e) :
    ∃ hp pkt, hpKeyed hp ∧ quicDecryptPacket evp now outBufLen bitsMask s =
      (.error e, { crypto := s.crypto.unopened now hp, pkt }) := by
  obtain ⟨hp, hhp, hnumber⟩ := quicDecryptPktNum_run now hkeys hcut hnum hlen hsample
  rw [hdecode] at hnumber
  set u : PktOpen Ctx := { setHpCtx hp { s with crypto.arrivTime := now } with
    pkt := ⟨first :: (rest ++ Bytes.ofNat len num), aead.output tagLen (quicNonce iv num)
      (first :: (rest ++ Bytes.ofNat len num)) text⟩ } with hu
  refine ⟨hp, u.pkt, hhp, ?_⟩
  rw [quicDecryptPacket, bind_of_error hnumber]
  rfl

end PktOpen

end Shared

end Tbquic
