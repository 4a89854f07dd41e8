import Tbquic.Common

/-!
# Ciphers

The cipher suites of `cipher.c`, the state of one packet number space and the operations of
the cryptographic library that the packet protection calls. The latter lie outside the
repository and are parameters of the model.
-/

namespace Tbquic

/-- The calls of `evp.c` into the cryptographic library, on contexts of type `Ctx`. A call
that fails returns `none`. -/
structure Evp (Ctx : Type) where
  /-- `EVP_CipherInit` with a nonce and the direction. -/
  cipherInit : Ctx → List UInt8 → ℕ → Option Ctx
  /-- `EVP_CTRL_AEAD_SET_IVLEN`. -/
  setIvLen : Ctx → ℕ → Option Ctx
  /-- `EVP_CipherUpdate` without an output buffer, which returns `*outl`. -/
  updateAad : Ctx → List UInt8 → Option (ℕ × Ctx)
  /-- `EVP_CipherUpdate`, which returns the output. -/
  cipherUpdate : Ctx → List UInt8 → Option (List UInt8 × Ctx)
  /-- `EVP_CipherFinal`, which returns the output. -/
  cipherFinal : Ctx → Option (List UInt8 × Ctx)
  /-- `EVP_CTRL_GCM_GET_TAG`. -/
  getTag : Ctx → ℕ → Option (List UInt8)

/-- `QUIC_CIPHER`. -/
structure QuicCipher (Ctx : Type) where
  /-- The algorithm, an index into `cipher_suite`. -/
  alg : ℕ
  /-- The direction. -/
  enc : ℕ
  /-- The context, or `NULL`. -/
  ctx : Option Ctx

/-- `QuicPPCipher`. -/
structure QuicPPCipher (Ctx : Type) where
  /-- The packet protection cipher. -/
  cipher : QuicCipher Ctx
  /-- The static part of the nonce, of `TLS13_AEAD_NONCE_LENGTH` bytes. -/
  iv : Fin 12 → UInt8

/-- `QuicCipherSpace` with its `QuicCiphers`. -/
structure QuicCipherSpace (Ctx : Type) where
  /-- The header protection cipher. -/
  hpCipher : QuicCipher Ctx
  /-- The packet protection cipher. -/
  ppCipher : QuicPPCipher Ctx
  /-- Whether the keys are installed. -/
  cipherInited : Bool

/-- `QUIC_CRYPTO`: one packet number space. -/
structure QuicCrypto (Ctx : Type) where
  /-- The number of the last packet sent. -/
  pktNum : ℕ
  /-- The largest packet number received. -/
  largestPn : ℕ
  /-- The largest packet number that the peer acknowledged. -/
  largestAcked : ℕ
  /-- The largest packet number acknowledged to the peer. -/
  largestAck : ℕ
  /-- The arrival time of the largest packet. -/
  arrivTime : ℕ
  /-- The length of the first acknowledgement range. -/
  firstAckRange : ℕ
  /-- The keys for sending. -/
  encrypt : QuicCipherSpace Ctx
  /-- The keys for receiving. -/
  decrypt : QuicCipherSpace Ctx

/-- The fields of `QuicCipherSuite` that the packet protection reads. -/
structure QuicCipherSuite where
  /-- The length of the authentication tag. -/
  tagLen : ℕ
  /-- The length of a ciphertext, or `NULL`. -/
  getCipherLen : Option (ℕ → ℕ → ℕ)

/-- `QuicAesEcbGetCipherLen` and `QuicAesCcmGetCipherLen`. -/
def quicAesEcbGetCipherLen (plaintextLen _tagLen : ℕ) : ℕ := plaintextLen

/-- `QuicAesGcmGetCipherLen`. -/
def quicAesGcmGetCipherLen (plaintextLen tagLen : ℕ) : ℕ := plaintextLen + tagLen

/-- `cipher_suite`, in the order of `QUIC_ALG_ID`. The entries of the short tag and of
Poly1305 are left empty by the source. -/
def cipherSuite : List QuicCipherSuite :=
  List.replicate 3 ⟨0, some quicAesEcbGetCipherLen⟩ ++
  List.replicate 3 ⟨16, some quicAesGcmGetCipherLen⟩ ++
  List.replicate 3 ⟨0, some quicAesEcbGetCipherLen⟩ ++
  [⟨0, none⟩, ⟨0, some quicAesEcbGetCipherLen⟩, ⟨0, none⟩]

/-- `QUIC_ALG_AES_128_ECB`. -/
def quicAlgAes128Ecb : ℕ := 0

/-- `QUIC_ALG_AES_128_GCM`. -/
def quicAlgAes128Gcm : ℕ := 3

/-- `QuicCipherLenGet`. Calling an empty entry is undefined. -/
def quicCipherLenGet (alg plaintextLen : ℕ) : Except Fail ℕ :=
  match cipherSuite[alg]? with
  | none => .ok 0
  | some suite =>
    match suite.getCipherLen with
    | none => .error .ub
    | some getCipherLen => .ok (getCipherLen plaintextLen suite.tagLen)

/-- `QuicCipherGetTagLen`. -/
def quicCipherGetTagLen (alg : ℕ) : Except Fail ℕ :=
  match cipherSuite[alg]? with
  | none => .error .ret
  | some suite => .ok suite.tagLen

/-- `QuicDoCipher` on a context, into an output buffer of the given length. -/
def quicDoCipher {Ctx : Type} (evp : Evp Ctx) (ctx : Ctx) (outBufLen : ℕ)
    (input : List UInt8) : Except Fail (List UInt8 × Ctx) :=
  match evp.cipherUpdate ctx input with
  | none => .error .ret
  | some (out, ctx) =>
    if quicLe out.length outBufLen then
      match evp.cipherFinal ctx with
      | none => .error .ret
      | some (last, ctx) =>
        if quicLe ((out ++ last).length : ℕ) outBufLen then
          if (out ++ last).length ≤ outBufLen then .ok (out ++ last, ctx) else .error .ub
        else .error .assert
    else .error .assert

end Tbquic
