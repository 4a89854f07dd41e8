import Tbquic.Common
import Tbquic.Lib.Bytes

/-!
# Digests and key derivation

The digests and the cipher suites of the handshake, and HKDF over the HMAC of the cryptographic
library. The functions of the library are parameters.
-/

namespace Tbquic

/-- The digests of `quic_digest_method_map`. -/
inductive QuicDigest
  /-- `QUIC_DIGEST_SHA256`. -/
  | sha256
  /-- `QUIC_DIGEST_SHA384`. -/
  | sha384
  /-- `QUIC_DIGEST_SHA512`. -/
  | sha512
  /-- `QUIC_DIGEST_SHA1`. -/
  | sha1
  deriving DecidableEq, Repr

/-- `EVP_MD_size`. -/
def QuicDigest.size : QuicDigest → ℕ
  | sha256 => 32
  | sha384 => 48
  | sha512 => 64
  | sha1 => 20

/-- `EVP_MAX_MD_SIZE`. -/
def evpMaxMdSize : ℕ := 64

/-- The functions of the cryptographic library on digests. -/
structure TlsLib where
  /-- `EVP_DigestFinal_ex` after all bytes were hashed. -/
  digest : QuicDigest → List UInt8 → List UInt8
  /-- A digest has its size. -/
  digest_length : ∀ md bytes, (digest md bytes).length = md.size
  /-- `HMAC_Final` with a key and all bytes. -/
  hmac : QuicDigest → List UInt8 → List UInt8 → List UInt8
  /-- An HMAC has the size of its digest. -/
  hmac_length : ∀ md key bytes, (hmac md key bytes).length = md.size
  /-- `EVP_PKEY_derive` in the mode `EVP_PKEY_HKDEF_MODE_EXTRACT_ONLY`, with a salt and a key. -/
  hkdfExtract : QuicDigest → List UInt8 → List UInt8 → Option (List UInt8)
  /-- The extracted key has the size of the digest. -/
  hkdfExtract_length : ∀ md salt key out, hkdfExtract md salt key = some out →
    out.length = md.size

/-- `TlsCipher`, the fields that the handshake reads. -/
structure TlsCipher where
  /-- The number of the suite. -/
  id : ℕ
  /-- The algorithm of the packet protection, an index into `cipher_suite`. -/
  algorithmEnc : ℕ
  /-- The digest. -/
  digest : QuicDigest
  deriving DecidableEq, Repr

/-- `tls_ciphers`. -/
def tlsCiphers : List TlsCipher :=
  [⟨0x1301, 3, .sha256⟩, ⟨0x1302, 5, .sha384⟩, ⟨0x1303, 11, .sha256⟩, ⟨0x1304, 6, .sha256⟩,
    ⟨0x1305, 9, .sha256⟩]

/-- `QuicGetTlsCipherById`, which takes a `uint16_t`. -/
def quicGetTlsCipherById (id : ℕ) : Option TlsCipher :=
  tlsCiphers.find? fun cipher => cipher.id = id % 2 ^ 16

/-- A secret of a connection, an array of `EVP_MAX_MD_SIZE` bytes. -/
structure TlsSecret where
  /-- The bytes. -/
  bytes : List UInt8
  /-- Their number. -/
  length_eq : bytes.length = evpMaxMdSize
  deriving DecidableEq, Repr

namespace TlsSecret

/-- The array of a new connection. -/
def zero : TlsSecret := ⟨List.replicate evpMaxMdSize 0, List.length_replicate⟩

/-- The start of the array. -/
def get (s : TlsSecret) (len : ℕ) : List UInt8 := s.bytes.take len

/-- Write bytes to the start of the array, up to its end. -/
def set (s : TlsSecret) (bytes : List UInt8) : TlsSecret where
  bytes := (bytes ++ s.bytes.drop bytes.length).take evpMaxMdSize
  length_eq := by
    have h := s.length_eq
    rw [List.length_take, List.length_append, List.length_drop]
    omega

/-- What was written is read back. -/
theorem get_set {s : TlsSecret} {bytes : List UInt8} (h : bytes.length ≤ evpMaxMdSize) :
    (s.set bytes).get bytes.length = bytes := by
  rw [get, set, List.take_take, Nat.min_eq_left h, List.take_left]

end TlsSecret

/-- The size of a digest fits in a secret. -/
theorem QuicDigest.size_le (md : QuicDigest) : md.size ≤ evpMaxMdSize := by
  cases md <;> decide

section Hkdf

variable (lib : TlsLib) (md : QuicDigest)

/-- The loop of `HkdfExpand`, with the number of blocks that are left, the counter and the last
block. -/
def hkdfBlocks (prk info : List UInt8) : ℕ → ℕ → List UInt8 → List UInt8
  | 0, _, _ => []
  | n + 1, i, prev =>
    let block := lib.hmac md prk (prev ++ info ++ [UInt8.ofNat i])
    block ++ hkdfBlocks prk info n (i + 1) block

/-- `HkdfExpand` where its loop ends, which it does not with 255 blocks. -/
def hkdfExpand (prk info : List UInt8) (len : ℕ) : Option (List UInt8) :=
  let n := len / md.size + if len % md.size = 0 then 0 else 1
  if 255 < n then none else some ((hkdfBlocks lib md prk info n 1 []).take len)

/-- The bytes of a label. -/
def tlsLabel (label : String) : List UInt8 := label.toUTF8.toList

/-- `TLS13HkdfExpandLabel`. The length of the label is a `uint8_t`. -/
def tls13HkdfExpandLabel (secret : List UInt8) (label : String) (data : List UInt8) (len : ℕ) :
    Option (List UInt8) :=
  let fullLabel := tlsLabel "tls13 " ++ tlsLabel label
  if 2 ^ 16 ≤ len ∨ 2 ^ 8 ≤ data.length then none
  else hkdfExpand lib md secret (Bytes.ofNat 2 len ++ Bytes.ofNat 1 fullLabel.length ++ fullLabel ++
    Bytes.ofNat 1 data.length ++ data) len

/-- `TlsDeriveFinishedKey`. -/
def tlsDeriveFinishedKey (secret : List UInt8) : Option (List UInt8) :=
  tls13HkdfExpandLabel lib md secret "finished" [] md.size

/-- `TlsGenerateSecret`, with the previous secret, which may be `NULL`, and the new one, for which
zeros stand when it is `NULL`. -/
def tlsGenerateSecret (prevSecret inSecret : Option (List UInt8)) : Option (List UInt8) := do
  let key := inSecret.getD (List.replicate md.size 0)
  match prevSecret with
  | none => lib.hkdfExtract md [] key
  | some prev => do
    let salt ← tls13HkdfExpandLabel lib md prev "derived" (lib.digest md []) md.size
    lib.hkdfExtract md salt key

variable {lib md} in
/-- A generated secret has the size of the digest. -/
theorem tlsGenerateSecret_length {prevSecret inSecret : Option (List UInt8)} {out : List UInt8}
    (h : tlsGenerateSecret lib md prevSecret inSecret = some out) : out.length = md.size := by
  cases prevSecret with
  | none => exact lib.hkdfExtract_length md _ _ _ h
  | some prev =>
    obtain ⟨salt, _, hextract⟩ := Option.bind_eq_some_iff.mp h
    exact lib.hkdfExtract_length md _ _ _ hextract

end Hkdf

end Tbquic
