import Tbquic.Crypto
import Tbquic.Tls.Library

/-!
# Preparing ciphers

`QuicCiphersPrepare` derives the keys of a cipher space from a secret and makes the two contexts
that work under them. A context of the model remembers its key. The calls into the cryptographic
library may fail, and what they return is an input of the model.
-/

namespace Tbquic

/-- The ciphers that `cipher_suite` names. -/
inductive CipherNid
  /-- `NID_undef`, in the entries that the source leaves empty. -/
  | undef
  /-- `NID_aes_128_ecb`. -/
  | aes128Ecb
  /-- `NID_aes_192_ecb`. -/
  | aes192Ecb
  /-- `NID_aes_256_ecb`. -/
  | aes256Ecb
  /-- `NID_aes_128_gcm`. -/
  | aes128Gcm
  /-- `NID_aes_192_gcm`. -/
  | aes192Gcm
  /-- `NID_aes_256_gcm`. -/
  | aes256Gcm
  /-- `NID_aes_128_ccm`. -/
  | aes128Ccm
  /-- `NID_aes_192_ccm`. -/
  | aes192Ccm
  /-- `NID_aes_256_ccm`. -/
  | aes256Ccm
  deriving DecidableEq, Repr

/-- The column `nid` of `cipher_suite`, in the order of `QUIC_ALG_ID`. -/
def cipherSuiteNids : List CipherNid :=
  [.aes128Ecb, .aes192Ecb, .aes256Ecb, .aes128Gcm, .aes192Gcm, .aes256Gcm, .aes128Ccm, .aes192Ccm,
    .aes256Ccm, .undef, .aes256Ccm, .undef]

/-- `QuicCipherNidFind`. -/
def quicCipherNidFind (alg : ℕ) : Option CipherNid := cipherSuiteNids[alg]?

/-- `QUIC_ALG_MAX`. -/
def quicAlgMax : ℕ := 12

/-- `AES_KEY_MAX_SIZE`. -/
def aesKeyMaxSize : ℕ := 32

/-- `QUIC_EVP_DECRYPT`. -/
def quicEvpDecrypt : ℕ := 0

/-- `QUIC_EVP_ENCRYPT`. -/
def quicEvpEncrypt : ℕ := 1

/-- A context of the cryptographic library with the key that it works under. -/
structure KeyCtx (Ctx : Type) where
  /-- The context. -/
  ctx : Ctx
  /-- The key of the last `EVP_CipherInit` with a key. -/
  key : Option (List UInt8)

/-- The functions of the cryptographic library that the preparation of ciphers calls. -/
structure CipherLib where
  /-- The functions on digests. -/
  tls : TlsLib
  /-- `EVP_get_cipherbynid` with `EVP_CIPHER_key_length`. -/
  keyLength : CipherNid → Option ℕ

/-- How the calls of the preparation of one cipher end. -/
structure CipherCalls (Ctx : Type) where
  /-- Whether HKDF has the memory to derive the key. -/
  expandKey : Bool
  /-- Whether HKDF has the memory to derive the static part of the nonces. -/
  expandIv : Bool
  /-- The result of `EVP_CIPHER_CTX_new`. -/
  ctxNew : Option Ctx
  /-- The context behind `EVP_CipherInit` with the key, when that succeeds. -/
  cipherInit : Option Ctx

/-- How the calls of `QuicCiphersPrepare` end. -/
structure CiphersCalls (Ctx : Type) where
  /-- Those for the header protection. -/
  hp : CipherCalls Ctx
  /-- Those for the packet protection. -/
  pp : CipherCalls Ctx

section Prepare

variable {Ctx : Type} (lib : CipherLib) (md : QuicDigest) (secret : List UInt8)

/-- `TLS13HkdfExpandLabel`, which fails without memory. -/
def tlsExpandLabel (mem : Bool) (label : String) (data : List UInt8) (len : ℕ) :
    Option (List UInt8) :=
  if mem then tls13HkdfExpandLabel lib.tls md secret label data len else none

/-- `QuicTLS13HkdfExpandLabel`. -/
def quicTls13HkdfExpandLabel (mem : Bool) (label : String) (len : ℕ) : Option (List UInt8) :=
  tlsExpandLabel lib md secret mem label [] len

/-- `QuicFindCipherByAlg` with `EVP_CIPHER_key_length`. -/
def quicFindCipherByAlg (alg : ℕ) : Option ℕ := (quicCipherNidFind alg).bind lib.keyLength

/-- `QuicCipherDoPrepare` with a secret that is not `NULL`. -/
def quicCipherDoPrepare (calls : CipherCalls Ctx) (key : List UInt8) (enc : ℕ) :
    Prog Fail (QuicCipher (KeyCtx Ctx)) Unit := do
  Prog.modify fun cipher => { cipher with ctx := calls.ctxNew.map fun ctx => ⟨ctx, none⟩ }
  Prog.ensure .ret (calls.ctxNew ≠ none)
  Prog.modify fun cipher => { cipher with enc }
  let ctx ← Prog.ofOption .ret calls.cipherInit
  Prog.modify fun cipher => { cipher with ctx := some ⟨ctx, some key⟩ }

/-- `QuicHPCipherPrepare` with a secret that is not `NULL`. -/
def quicHPCipherPrepare (calls : CipherCalls Ctx) : Prog Fail (QuicCipher (KeyCtx Ctx)) Unit := do
  let cipher ← Prog.get
  let keyLen ← Prog.ofOption .ret (quicFindCipherByAlg lib cipher.alg)
  Prog.ensure .ret (keyLen ≤ aesKeyMaxSize)
  let key ← Prog.ofOption .ret
    (quicTls13HkdfExpandLabel lib md secret calls.expandKey "quic hp" keyLen)
  quicCipherDoPrepare calls key quicEvpEncrypt

namespace QuicPPCipher

/-- An operation on the cipher. -/
def onCipher {α : Type} (m : Prog Fail (QuicCipher Ctx) α) : Prog Fail (QuicPPCipher Ctx) α :=
  Prog.zoom QuicPPCipher.cipher (fun cipher s => { s with cipher }) m

end QuicPPCipher

/-- `QuicPPCipherPrepare` with a secret that is not `NULL`. -/
def quicPPCipherPrepare (calls : CipherCalls Ctx) (enc : ℕ) :
    Prog Fail (QuicPPCipher (KeyCtx Ctx)) Unit := do
  let pp ← Prog.get
  let keyLen ← Prog.ofOption .ret (quicFindCipherByAlg lib pp.cipher.alg)
  Prog.ensure .ret (keyLen ≤ aesKeyMaxSize)
  let key ← Prog.ofOption .ret
    (quicTls13HkdfExpandLabel lib md secret calls.expandKey "quic key" keyLen)
  let iv ← Prog.ofOption .ret
    (quicTls13HkdfExpandLabel lib md secret calls.expandIv "quic iv" 12)
  Prog.modify fun pp => { pp with iv := fun j => iv.getD j 0 }
  QuicPPCipher.onCipher (quicCipherDoPrepare calls key enc)

namespace QuicCipherSpace

/-- An operation on the header protection. -/
def onHp {α : Type} (m : Prog Fail (QuicCipher Ctx) α) : Prog Fail (QuicCipherSpace Ctx) α :=
  Prog.zoom QuicCipherSpace.hpCipher (fun hpCipher cs => { cs with hpCipher }) m

/-- An operation on the packet protection. -/
def onPp {α : Type} (m : Prog Fail (QuicPPCipher Ctx) α) : Prog Fail (QuicCipherSpace Ctx) α :=
  Prog.zoom QuicCipherSpace.ppCipher (fun ppCipher cs => { cs with ppCipher }) m

end QuicCipherSpace

/-- `QuicCiphersPrepare` with a secret that is not `NULL`. When the header protection fails it
returns `1`, which none of its callers takes for an error. -/
def quicCiphersPrepare (calls : CiphersCalls Ctx) (enc : ℕ) :
    Prog Fail (QuicCipherSpace (KeyCtx Ctx)) Unit := do
  let hp ← Prog.attempt (QuicCipherSpace.onHp (quicHPCipherPrepare lib md secret calls.hp))
  match hp with
  | .error _ => pure ()
  | .ok () => QuicCipherSpace.onPp (quicPPCipherPrepare lib md secret calls.pp enc)

end Prepare

/-- `QUIC_set_cipher_alg`. -/
def quicSetCipherAlg {Ctx : Type} (alg : ℕ) : Prog Fail (QuicCipher Ctx) Unit := do
  Prog.ensure .ret (alg < quicAlgMax)
  Prog.modify fun cipher => { cipher with alg }

/-- `QUIC_set_hp_cipher_space_alg`. -/
def quicSetHpCipherSpaceAlg {Ctx : Type} (alg : ℕ) : Prog Fail (QuicCipherSpace Ctx) Unit :=
  QuicCipherSpace.onHp (quicSetCipherAlg alg)

/-- `QUIC_set_pp_cipher_space_alg`. -/
def quicSetPpCipherSpaceAlg {Ctx : Type} (alg : ℕ) : Prog Fail (QuicCipherSpace Ctx) Unit :=
  QuicCipherSpace.onPp (QuicPPCipher.onCipher (quicSetCipherAlg alg))

section Derive

/-- `handshake_salt_v1`. -/
def handshakeSaltV1 : List UInt8 :=
  [0x38, 0x76, 0x2C, 0xF7, 0xF5, 0x59, 0x34, 0xB3, 0x4D, 0x17, 0x9A, 0xE6, 0xA4, 0xC8, 0x0C, 0xAD,
    0xCC, 0xBB, 0x7F, 0x0A]

/-- `QuicSaltFind` on `handshake_salt`, whose only entry is the one of `QUIC_VERSION_1`. -/
def quicSaltFind (version : ℕ) : Option (List UInt8) :=
  if version = 1 then some handshakeSaltV1 else none

/-- `QuicDeriveInitialSecrets` with `EVP_sha256`: the secrets of the client and of the server. The
flag says whether the library has the memory for it. -/
def quicDeriveInitialSecrets (lib : CipherLib) (mem : Bool) (version : ℕ) (cid : List UInt8) :
    Option (List UInt8 × List UInt8) := do
  let salt ← quicSaltFind version
  let secret := lib.tls.hmac .sha256 salt cid
  let clientSecret ← quicTls13HkdfExpandLabel lib .sha256 secret mem "client in" 32
  let serverSecret ← quicTls13HkdfExpandLabel lib .sha256 secret mem "server in" 32
  some (clientSecret, serverSecret)

end Derive

/-- A key that HKDF derives from a secret under a label. -/
def KeyOf (lib : CipherLib) (md : QuicDigest) (secret : List UInt8) (label : String)
    (key : List UInt8) : Prop :=
  ∃ len, tls13HkdfExpandLabel lib.tls md secret label [] len = some key

namespace CipherCalls

variable {Ctx : Type} (lib : CipherLib) (calls : CipherCalls Ctx) (alg : ℕ)

/-- The library has the cipher of an algorithm, gives a context and accepts the key. -/
def Ready : Prop :=
  (∃ keyLen ∈ quicFindCipherByAlg lib alg, keyLen ≤ aesKeyMaxSize) ∧ calls.expandKey = true ∧
    calls.ctxNew ≠ none ∧ calls.cipherInit ≠ none

/-- In addition the static part of the nonces is derived. -/
def ReadyWithIv : Prop := calls.Ready lib alg ∧ calls.expandIv = true

end CipherCalls

namespace QuicCipher

variable {Ctx : Type}

/-- The key that the context of a cipher works under. -/
def key (cipher : QuicCipher (KeyCtx Ctx)) : Option (List UInt8) := cipher.ctx.bind KeyCtx.key

/-- The cipher has a context that works under a key of a secret. -/
def KeyedFrom (lib : CipherLib) (md : QuicDigest) (secret : List UInt8) (label : String)
    (cipher : QuicCipher (KeyCtx Ctx)) : Prop :=
  ∃ key, cipher.key = some key ∧ KeyOf lib md secret label key

/-- The cipher has no context that works under a key. -/
def Unkeyed (cipher : QuicCipher (KeyCtx Ctx)) : Prop := cipher.key = none

/-- A cipher without a key works under none. -/
theorem Unkeyed.not_keyedFrom {lib : CipherLib} {md : QuicDigest} {secret : List UInt8}
    {label : String} {cipher : QuicCipher (KeyCtx Ctx)} (h : cipher.Unkeyed) :
    ¬ cipher.KeyedFrom lib md secret label := by
  rintro ⟨key, hkey, -⟩
  rw [show cipher.key = none from h] at hkey
  cases hkey

/-- A cipher that works under a key has a context. -/
theorem KeyedFrom.ctx_ne_none {lib : CipherLib} {md : QuicDigest} {secret : List UInt8}
    {label : String} {cipher : QuicCipher (KeyCtx Ctx)}
    (h : cipher.KeyedFrom lib md secret label) : cipher.ctx ≠ none := by
  obtain ⟨key, hkey, -⟩ := h
  intro hctx
  rw [QuicCipher.key, hctx] at hkey
  cases hkey

end QuicCipher

section Spec

/-- HKDF derives secrets of the size of a digest and shorter keys. -/
theorem tls13HkdfExpandLabel_exists (lib : TlsLib) (md : QuicDigest) (secret : List UInt8)
    (label : String) {data : List UInt8} {len : ℕ} (hdata : data.length ≤ evpMaxMdSize)
    (hlen : len ≤ evpMaxMdSize) :
    ∃ out, tls13HkdfExpandLabel lib md secret label data len = some out := by
  unfold evpMaxMdSize at hdata hlen
  have hsmall : ¬ (2 ^ 16 ≤ len ∨ 2 ^ 8 ≤ data.length) := by omega
  have hblocks : ¬ 255 < len / md.size + if len % md.size = 0 then 0 else 1 := by
    have hdiv : len / md.size ≤ len := Nat.div_le_self len md.size
    split <;> omega
  unfold tls13HkdfExpandLabel hkdfExpand
  rw [if_neg hsmall]
  exact ⟨_, if_neg hblocks⟩

variable {Ctx : Type} {lib : CipherLib} {md : QuicDigest} {secret : List UInt8}

/-- HKDF derives a key with memory only. -/
theorem quicTls13HkdfExpandLabel_eq_some {mem : Bool} {label : String} {len : ℕ}
    {key : List UInt8} (h : quicTls13HkdfExpandLabel lib md secret mem label len = some key) :
    mem = true ∧ KeyOf lib md secret label key := by
  cases mem with
  | false => cases h
  | true => exact ⟨rfl, len, h⟩

/-- HKDF fails for keys without memory only. -/
theorem quicTls13HkdfExpandLabel_eq_none {mem : Bool} {label : String} {len : ℕ}
    (hlen : len ≤ evpMaxMdSize)
    (h : quicTls13HkdfExpandLabel lib md secret mem label len = none) : ¬ mem = true := by
  rintro rfl
  have hnil : ([] : List UInt8).length ≤ evpMaxMdSize := Nat.zero_le _
  obtain ⟨key, hkey⟩ := tls13HkdfExpandLabel_exists lib.tls md secret label hnil hlen
  rw [show quicTls13HkdfExpandLabel lib md secret true label len = _ from hkey] at h
  cases h

/-- The preparation of a context ends with one that works under the key, or with none that works
under any. -/
theorem quicCipherDoPrepare_post (calls : CipherCalls Ctx) (key : List UInt8) (enc : ℕ)
    (cipher : QuicCipher (KeyCtx Ctx)) :
    Prog.Post (quicCipherDoPrepare calls key enc)
      (fun _ t => (calls.ctxNew ≠ none ∧ calls.cipherInit ≠ none) ∧ t.key = some key)
      (fun _ t => ¬ (calls.ctxNew ≠ none ∧ calls.cipherInit ≠ none) ∧ t.Unkeyed) cipher := by
  have hunkeyed : (calls.ctxNew.map fun ctx => (⟨ctx, none⟩ : KeyCtx Ctx)).bind KeyCtx.key =
      none := by
    cases calls.ctxNew with
    | none => exact Option.bind_none _
    | some ctx => exact Option.bind_some _ _
  unfold quicCipherDoPrepare
  simp only [Prog.post_bind, Prog.post_modify, Prog.post_ensure, Prog.post_ofOption]
  refine ⟨fun hnew => ⟨fun ctx hinit => ?_, fun hinit => ?_⟩, fun hnew => ?_⟩
  · exact ⟨⟨hnew, by rw [hinit]; exact Option.some_ne_none ctx⟩, Option.bind_some _ _⟩
  · exact ⟨fun h => h.2 hinit, hunkeyed⟩
  · exact ⟨fun h => hnew h.1, hunkeyed⟩

section Cipher

variable {alg keyLen : ℕ}

/-- No cipher, no preparation. -/
theorem not_ready_of_none {calls : CipherCalls Ctx} (h : quicFindCipherByAlg lib alg = none) :
    ¬ calls.Ready lib alg := by
  rintro ⟨⟨n, hn, -⟩, -⟩
  rw [h] at hn
  cases hn

/-- A cipher with a key that is too long is not prepared. -/
theorem not_ready_of_long {calls : CipherCalls Ctx}
    (h : quicFindCipherByAlg lib alg = some keyLen) (hlen : ¬ keyLen ≤ aesKeyMaxSize) :
    ¬ calls.Ready lib alg := by
  rintro ⟨⟨n, hn, hle⟩, -⟩
  rw [h] at hn
  exact hlen (Option.some.inj hn ▸ hle)

end Cipher

/-- The header protection is prepared exactly when its calls succeed, and works under a key of the
secret then. -/
theorem quicHPCipherPrepare_post (lib : CipherLib) (md : QuicDigest) (secret : List UInt8)
    (calls : CipherCalls Ctx) (cipher : QuicCipher (KeyCtx Ctx)) :
    Prog.Post (quicHPCipherPrepare lib md secret calls)
      (fun _ t => calls.Ready lib cipher.alg ∧ t.KeyedFrom lib md secret "quic hp")
      (fun _ _ => ¬ calls.Ready lib cipher.alg) cipher := by
  unfold quicHPCipherPrepare
  simp only [Prog.post_bind, Prog.post_get, Prog.post_ofOption, Prog.post_ensure]
  refine ⟨fun keyLen hfind => ⟨fun hlen => ?_, not_ready_of_long hfind⟩, not_ready_of_none⟩
  have hsize : keyLen ≤ evpMaxMdSize := hlen.trans (by decide)
  refine ⟨fun key hkey => ?_, fun hkey hready =>
    quicTls13HkdfExpandLabel_eq_none hsize hkey hready.2.1⟩
  obtain ⟨hmem, hof⟩ := quicTls13HkdfExpandLabel_eq_some hkey
  refine (quicCipherDoPrepare_post calls key quicEvpEncrypt cipher).mono ?_ ?_
  · rintro _ t ⟨hcalls, hkeyed⟩
    exact ⟨⟨⟨keyLen, hfind, hlen⟩, hmem, hcalls⟩, key, hkeyed, hof⟩
  · rintro _ t ⟨hcalls, -⟩ hready
    exact hcalls hready.2.2

/-- The packet protection is prepared exactly when its calls succeed, and works under a key of the
secret then. Otherwise a cipher that works under no key still does so. -/
theorem quicPPCipherPrepare_post (lib : CipherLib) (md : QuicDigest) (secret : List UInt8)
    (calls : CipherCalls Ctx) (enc : ℕ) {pp : QuicPPCipher (KeyCtx Ctx)}
    (hpp : pp.cipher.Unkeyed) :
    Prog.Post (quicPPCipherPrepare lib md secret calls enc)
      (fun _ t => calls.ReadyWithIv lib pp.cipher.alg ∧
        t.cipher.KeyedFrom lib md secret "quic key")
      (fun _ t => ¬ calls.ReadyWithIv lib pp.cipher.alg ∧ t.cipher.Unkeyed) pp := by
  unfold quicPPCipherPrepare
  simp only [Prog.post_bind, Prog.post_get, Prog.post_ofOption, Prog.post_ensure,
    Prog.post_modify]
  refine ⟨fun keyLen hfind => ⟨fun hlen => ?_, fun hlen =>
    ⟨fun hready => not_ready_of_long hfind hlen hready.1, hpp⟩⟩, fun hfind =>
    ⟨fun hready => not_ready_of_none hfind hready.1, hpp⟩⟩
  have hsize : keyLen ≤ evpMaxMdSize := hlen.trans (by decide)
  refine ⟨fun key hkey => ⟨fun iv hiv => ?_, fun hiv => ⟨fun hready => ?_, hpp⟩⟩,
    fun hkey => ⟨fun hready => ?_, hpp⟩⟩
  · obtain ⟨hmem, hof⟩ := quicTls13HkdfExpandLabel_eq_some hkey
    obtain ⟨hivMem, -⟩ := quicTls13HkdfExpandLabel_eq_some hiv
    rw [QuicPPCipher.onCipher, Prog.post_zoom]
    refine (quicCipherDoPrepare_post calls key enc pp.cipher).mono ?_ ?_
    · rintro _ t ⟨hcalls, hkeyed⟩
      exact ⟨⟨⟨⟨keyLen, hfind, hlen⟩, hmem, hcalls⟩, hivMem⟩, key, hkeyed, hof⟩
    · rintro _ t ⟨hcalls, hunkeyed⟩
      exact ⟨fun hready => hcalls hready.1.2.2, hunkeyed⟩
  · exact quicTls13HkdfExpandLabel_eq_none (by decide) hiv hready.2
  · exact quicTls13HkdfExpandLabel_eq_none hsize hkey hready.1.2.1

end Spec

namespace QuicCipherSpace

variable {Ctx : Type} {lib : CipherLib}

/-- Both contexts of a cipher space work under keys of a secret. -/
def KeyedFrom (lib : CipherLib) (md : QuicDigest) (secret : List UInt8)
    (cs : QuicCipherSpace (KeyCtx Ctx)) : Prop :=
  cs.hpCipher.KeyedFrom lib md secret "quic hp" ∧
    cs.ppCipher.cipher.KeyedFrom lib md secret "quic key"

/-- The packet protection of a cipher space works under no key. -/
def Unkeyed (cs : QuicCipherSpace (KeyCtx Ctx)) : Prop := cs.ppCipher.cipher.Unkeyed

end QuicCipherSpace

namespace CiphersCalls

variable {Ctx : Type} (lib : CipherLib) (calls : CiphersCalls Ctx)
    (cs : QuicCipherSpace (KeyCtx Ctx))

/-- The header protection of a cipher space can be prepared. -/
def HpReady : Prop := calls.hp.Ready lib cs.hpCipher.alg

/-- The packet protection of a cipher space can be prepared. -/
def PpReady : Prop := calls.pp.ReadyWithIv lib cs.ppCipher.cipher.alg

end CiphersCalls

/-- A cipher space without keys has both after its preparation when all calls succeed. It still
has none when the header protection fails, which is not reported, and when the packet protection
fails. -/
theorem quicCiphersPrepare_post {Ctx : Type} (lib : CipherLib) (md : QuicDigest)
    (secret : List UInt8) (calls : CiphersCalls Ctx) (enc : ℕ)
    {cs : QuicCipherSpace (KeyCtx Ctx)} (hcs : cs.Unkeyed) :
    Prog.Post (quicCiphersPrepare lib md secret calls enc)
      (fun _ t => (t.cipherInited = cs.cipherInited ∧
        ((calls.HpReady lib cs ∧ calls.PpReady lib cs ∧ t.KeyedFrom lib md secret) ∨
          (¬ calls.HpReady lib cs ∧ t.Unkeyed))))
      (fun _ t => t.cipherInited = cs.cipherInited ∧ calls.HpReady lib cs ∧
        ¬ calls.PpReady lib cs ∧ t.Unkeyed) cs := by
  unfold quicCiphersPrepare
  have hhp := quicHPCipherPrepare_post lib md secret calls.hp cs.hpCipher
  unfold Prog.Post
  rw [Prog.attempt_bind, QuicCipherSpace.onHp, Prog.zoom_apply]
  rcases hrun : quicHPCipherPrepare lib md secret calls.hp cs.hpCipher with ⟨r, hp⟩
  cases r with
  | error e => exact ⟨rfl, .inr ⟨hhp.of_error hrun, hcs⟩⟩
  | ok u =>
    obtain ⟨hready, hkeyed⟩ := hhp.of_ok hrun
    have hpp := quicPPCipherPrepare_post lib md secret calls.pp enc hcs
    change Prog.Post (QuicCipherSpace.onPp (quicPPCipherPrepare lib md secret calls.pp enc)) _ _
      { cs with hpCipher := hp }
    rw [QuicCipherSpace.onPp, Prog.post_zoom]
    refine hpp.mono ?_ ?_
    · rintro _ t ⟨hppReady, hppKeyed⟩
      exact ⟨rfl, .inl ⟨hready, hppReady, hkeyed, hppKeyed⟩⟩
    · rintro _ t ⟨hppReady, hunkeyed⟩
      exact ⟨rfl, hready, hppReady, hunkeyed⟩

end Tbquic
