import Tbquic.Keys.Open
import Tbquic.Lib.Trace

/-!
# Installing keys

A connection has three packet number spaces and six cipher spaces. The Initial keys come from a
connection ID, those of the handshake and of the application from the key schedule of TLS. The
model follows every function that prepares a cipher space, uses it or frees it, in any order.
-/

namespace Tbquic

/-- The packet number spaces of a connection: `initial`, `handshake` and `application`. -/
inductive KeyLevel
  | initial
  | handshake
  | application
  deriving DecidableEq, Repr

/-- The cipher spaces of a packet number space: `decrypt` and `encrypt`. -/
inductive KeyDir
  | decrypt
  | encrypt
  deriving DecidableEq, Repr

/-- `QUIC_EVP_DECRYPT` and `QUIC_EVP_ENCRYPT`. -/
def KeyDir.enc : KeyDir → ℕ
  | decrypt => quicEvpDecrypt
  | encrypt => quicEvpEncrypt

/-- The fields of `TLS` that the installation of keys reads and writes. -/
structure KeySchedule where
  /-- `handshake_cipher`. -/
  handshakeCipher : Option TlsCipher
  /-- `handshake_secret`. -/
  handshakeSecret : TlsSecret
  /-- `master_secret`. -/
  masterSecret : TlsSecret
  /-- `resumption_master_secret`. -/
  resumptionMasterSecret : TlsSecret
  /-- `client_finished_secret`. -/
  clientFinishedSecret : TlsSecret
  /-- `server_finished_secret`. -/
  serverFinishedSecret : TlsSecret
  /-- `client_app_traffic_secret`. -/
  clientAppTrafficSecret : TlsSecret
  /-- `server_app_traffic_secret`. -/
  serverAppTrafficSecret : TlsSecret
  /-- `handshake_traffic_hash`. -/
  handshakeTrafficHash : TlsSecret
  /-- `server_finished_hash`. -/
  serverFinishedHash : TlsSecret

/-- The key schedule of a new connection. -/
def KeySchedule.start : KeySchedule where
  handshakeCipher := none
  handshakeSecret := .zero
  masterSecret := .zero
  resumptionMasterSecret := .zero
  clientFinishedSecret := .zero
  serverFinishedSecret := .zero
  clientAppTrafficSecret := .zero
  serverAppTrafficSecret := .zero
  handshakeTrafficHash := .zero
  serverFinishedHash := .zero

/-- A pointer to an array of the key schedule. -/
structure SecretField where
  /-- The array. -/
  get : KeySchedule → TlsSecret
  /-- Replace the array. -/
  put : TlsSecret → KeySchedule → KeySchedule

/-- Copy bytes into an array. -/
def SecretField.write (field : SecretField) (bytes : List UInt8) (t : KeySchedule) : KeySchedule :=
  field.put ((field.get t).set bytes) t

/-- A connection with its cipher spaces. -/
structure KeyConn (Ctx : Type) where
  /-- Whether this endpoint is the server. -/
  server : Bool
  /-- The packet number spaces. -/
  crypto : KeyLevel → QuicCrypto (KeyCtx Ctx)
  /-- The key schedule. -/
  tls : KeySchedule
  /-- The key schedules that the connection has had so far. No function reads them. -/
  past : List KeySchedule

namespace KeyConn

variable {Ctx α : Type}

/-- A cipher space. -/
def space (s : KeyConn Ctx) (level : KeyLevel) : KeyDir → QuicCipherSpace (KeyCtx Ctx)
  | .decrypt => (s.crypto level).decrypt
  | .encrypt => (s.crypto level).encrypt

/-- Replace a packet number space. -/
def setCrypto (level : KeyLevel) (c : QuicCrypto (KeyCtx Ctx)) (s : KeyConn Ctx) : KeyConn Ctx :=
  { s with crypto := fun l => if l = level then c else s.crypto l }

/-- Replace a cipher space. -/
def setSpace (level : KeyLevel) (dir : KeyDir) (cs : QuicCipherSpace (KeyCtx Ctx))
    (s : KeyConn Ctx) : KeyConn Ctx :=
  match dir with
  | .decrypt => s.setCrypto level { s.crypto level with decrypt := cs }
  | .encrypt => s.setCrypto level { s.crypto level with encrypt := cs }

/-- An operation on a cipher space. -/
def onSpace (level : KeyLevel) (dir : KeyDir) (m : Prog Fail (QuicCipherSpace (KeyCtx Ctx)) α) :
    Prog Fail (KeyConn Ctx) α :=
  Prog.zoom (fun s => s.space level dir) (fun cs s => s.setSpace level dir cs) m

/-- Write to the key schedule. -/
def onTls (f : KeySchedule → KeySchedule) : Prog Fail (KeyConn Ctx) Unit :=
  Prog.modify fun s => { s with tls := f s.tls }

/-- `cipher_inited = true`. -/
def setInited (level : KeyLevel) (dir : KeyDir) : Prog Fail (KeyConn Ctx) Unit :=
  onSpace level dir (Prog.modify fun cs => { cs with cipherInited := true })

end KeyConn

open KeyConn

/-- How the calls of `QuicCreateInitialDecoders` end. -/
structure InitialCalls (Ctx : Type) where
  /-- Whether the secrets are derived. -/
  derive : Bool
  /-- The calls for a cipher space. -/
  space : KeyDir → CiphersCalls Ctx

/-- How the calls of `QuicCreateEncryptorDecryptor` end. -/
structure InstallCalls (Ctx : Type) where
  /-- Whether `TlsDigestCachedRecords` succeeds. -/
  records : Bool
  /-- The result of `TlsHandshakeHash`, which fits in its array. -/
  hash : Option { hash : List UInt8 // hash.length ≤ evpMaxMdSize }
  /-- Whether there is memory to derive `resumption_master_secret`. -/
  resumption : Bool
  /-- Whether there is memory for `TlsDeriveSecrets`. -/
  derive : Bool
  /-- Whether there is memory for `TlsDeriveFinishedKey`. -/
  finished : Bool
  /-- The calls of `QuicCiphersPrepare`. -/
  ciphers : CiphersCalls Ctx

section Install

variable {Ctx : Type} (lib : CipherLib)

/-- `QuicPrepareEncoderDecoders` on the Initial space. -/
def quicPrepareEncoderDecoders (md : QuicDigest) (decSecret encSecret : List UInt8)
    (calls : KeyDir → CiphersCalls Ctx) : Prog Fail (KeyConn Ctx) Unit := do
  onSpace .initial .decrypt
    (quicCiphersPrepare lib md decSecret (calls .decrypt) quicEvpDecrypt)
  onSpace .initial .encrypt
    (quicCiphersPrepare lib md encSecret (calls .encrypt) quicEvpEncrypt)
  setInited .initial .decrypt
  setInited .initial .encrypt

/-- `QuicCreateInitialDecoders`. -/
def quicCreateInitialDecoders (version : ℕ) (cid : List UInt8) (calls : InitialCalls Ctx) :
    Prog Fail (KeyConn Ctx) Unit := do
  let s ← Prog.get
  if (s.space .initial .decrypt).cipherInited ∨ (s.space .initial .encrypt).cipherInited then
    pure ()
  else do
    let (client, server) ← Prog.ofOption .ret
      (quicDeriveInitialSecrets lib calls.derive version cid)
    if s.server then quicPrepareEncoderDecoders lib .sha256 client server calls.space
    else quicPrepareEncoderDecoders lib .sha256 server client calls.space

/-- The arguments of `QuicCreateEncryptorDecryptor` other than the direction. -/
structure TrafficKeys where
  /-- The packet number space. -/
  level : KeyLevel
  /-- `in_secret`. -/
  inSecret : KeySchedule → TlsSecret
  /-- `out_secret`, or `NULL`. -/
  outSecret : Option SecretField
  /-- `hash`. -/
  hash : SecretField
  /-- `label`. -/
  label : String
  /-- `finsecret`, or `NULL`. -/
  finsecret : Option SecretField
  /-- `server_traffic`. -/
  serverTraffic : Bool

/-- `quic_client_application_traffic`. -/
def quicClientApplicationTraffic : String := "c ap traffic"

/-- Write to a field when the pointer is not `NULL`. -/
def SecretField.writeTo (field : Option SecretField) (bytes : List UInt8) :
    KeySchedule → KeySchedule :=
  match field with
  | none => id
  | some field => field.write bytes

/-- The finished key of `QuicInstallEncryptorDecryptor`. -/
def deriveFinished (keys : TrafficKeys) (md : QuicDigest) (sec : List UInt8)
    (calls : InstallCalls Ctx) : Prog Fail (KeyConn Ctx) Unit :=
  match keys.finsecret with
  | none => pure ()
  | some field => do
    let key ← Prog.ofOption .ret
      (tlsExpandLabel lib md sec calls.finished "finished" [] md.size)
    onTls (field.write key)

/-- `QuicInstallEncryptorDecryptor`. -/
def quicInstallEncryptorDecryptor (keys : TrafficKeys) (md : QuicDigest) (dir : KeyDir)
    (calls : InstallCalls Ctx) : Prog Fail (KeyConn Ctx) Unit := do
  let s ← Prog.get
  let sec ← Prog.ofOption .ret (tlsExpandLabel lib md
    ((keys.inSecret s.tls).get md.size) calls.derive keys.label
    ((keys.hash.get s.tls).get md.size) md.size)
  onTls (SecretField.writeTo keys.outSecret sec)
  deriveFinished lib keys md sec calls
  onSpace keys.level dir (quicCiphersPrepare lib md sec calls.ciphers dir.enc)
  setInited keys.level dir

/-- The resumption secret of `QuicCreateEncryptorDecryptor`. -/
def deriveResumption (keys : TrafficKeys) (md : QuicDigest) (hashval : List UInt8)
    (calls : InstallCalls Ctx) : Prog Fail (KeyConn Ctx) Unit := do
  if keys.label = quicClientApplicationTraffic then do
    let s ← Prog.get
    let out ← Prog.ofOption .ret (tlsExpandLabel lib md
      ((keys.inSecret s.tls).get md.size) calls.resumption "res master" hashval hashval.length)
    onTls fun t => { t with resumptionMasterSecret := t.resumptionMasterSecret.set out }
  else pure ()

/-- The algorithms of `QuicCreateEncryptorDecryptor`. -/
def setCipherAlgs (level : KeyLevel) (dir : KeyDir) (alg : ℕ) : Prog Fail (KeyConn Ctx) Unit := do
  onSpace level dir (quicSetHpCipherSpaceAlg quicAlgAes128Ecb)
  onSpace level dir (quicSetPpCipherSpaceAlg alg)

/-- `QuicCreateEncryptorDecryptor`. -/
def quicCreateEncryptorDecryptor (keys : TrafficKeys) (dir : KeyDir) (calls : InstallCalls Ctx) :
    Prog Fail (KeyConn Ctx) Unit := do
  let s ← Prog.get
  if (s.space keys.level dir).cipherInited then pure ()
  else do
    let cipher ← Prog.ofOption .ret s.tls.handshakeCipher
    Prog.ensure .ret (calls.records = true)
    let hashval ← Prog.ofOption .ret calls.hash
    onTls (if keys.serverTraffic then keys.hash.write hashval.val else id)
    match ← Prog.attempt (setCipherAlgs keys.level dir cipher.algorithmEnc) with
    | .ok () => do
      deriveResumption lib keys cipher.digest hashval.val calls
      quicInstallEncryptorDecryptor lib keys cipher.digest dir calls
    -- `QUIC_FLOW_RET_ERROR` is zero, so the callers go on without keys
    | .error _ => pure ()

/-- `handshake_traffic_hash`. -/
def handshakeTrafficHashField : SecretField :=
  ⟨KeySchedule.handshakeTrafficHash, fun a t => { t with handshakeTrafficHash := a }⟩

/-- `server_finished_hash`. -/
def serverFinishedHashField : SecretField :=
  ⟨KeySchedule.serverFinishedHash, fun a t => { t with serverFinishedHash := a }⟩

/-- The arguments of `QuicCreateHandshakeClientEncryptorDecryptor`. -/
def handshakeClientKeys : TrafficKeys where
  level := .handshake
  inSecret := KeySchedule.handshakeSecret
  outSecret := none
  hash := handshakeTrafficHashField
  label := "c hs traffic"
  finsecret := some
    ⟨KeySchedule.clientFinishedSecret, fun a t => { t with clientFinishedSecret := a }⟩
  serverTraffic := false

/-- The arguments of `QuicCreateHandshakeServerEncryptorDecryptor`. -/
def handshakeServerKeys : TrafficKeys where
  level := .handshake
  inSecret := KeySchedule.handshakeSecret
  outSecret := none
  hash := handshakeTrafficHashField
  label := "s hs traffic"
  finsecret := some
    ⟨KeySchedule.serverFinishedSecret, fun a t => { t with serverFinishedSecret := a }⟩
  serverTraffic := true

/-- The arguments of `QuicCreateAppDataClientEncryptorDecryptor`. -/
def appDataClientKeys : TrafficKeys where
  level := .application
  inSecret := KeySchedule.masterSecret
  outSecret := some
    ⟨KeySchedule.clientAppTrafficSecret, fun a t => { t with clientAppTrafficSecret := a }⟩
  hash := serverFinishedHashField
  label := quicClientApplicationTraffic
  finsecret := none
  serverTraffic := false

/-- The arguments of `QuicCreateAppDataServerEncryptorDecryptor`. -/
def appDataServerKeys : TrafficKeys where
  level := .application
  inSecret := KeySchedule.masterSecret
  outSecret := some
    ⟨KeySchedule.serverAppTrafficSecret, fun a t => { t with serverAppTrafficSecret := a }⟩
  hash := serverFinishedHashField
  label := "s ap traffic"
  finsecret := none
  serverTraffic := true

/-- `QuicCreateHandshakeClientEncoders`. -/
def quicCreateHandshakeClientEncoders (calls : InstallCalls Ctx) : Prog Fail (KeyConn Ctx) Unit :=
  quicCreateEncryptorDecryptor lib handshakeClientKeys .encrypt calls

/-- `QuicCreateHandshakeClientDecoders`. -/
def quicCreateHandshakeClientDecoders (calls : InstallCalls Ctx) : Prog Fail (KeyConn Ctx) Unit :=
  quicCreateEncryptorDecryptor lib handshakeClientKeys .decrypt calls

/-- `QuicCreateHandshakeServerEncoders`. -/
def quicCreateHandshakeServerEncoders (calls : InstallCalls Ctx) : Prog Fail (KeyConn Ctx) Unit :=
  quicCreateEncryptorDecryptor lib handshakeServerKeys .encrypt calls

/-- `QuicCreateHandshakeServerDecoders`. -/
def quicCreateHandshakeServerDecoders (calls : InstallCalls Ctx) : Prog Fail (KeyConn Ctx) Unit :=
  quicCreateEncryptorDecryptor lib handshakeServerKeys .decrypt calls

/-- `QuicCreateAppDataClientEncoders`. -/
def quicCreateAppDataClientEncoders (calls : InstallCalls Ctx) : Prog Fail (KeyConn Ctx) Unit :=
  quicCreateEncryptorDecryptor lib appDataClientKeys .encrypt calls

/-- `QuicCreateAppDataClientDecoders`. -/
def quicCreateAppDataClientDecoders (calls : InstallCalls Ctx) : Prog Fail (KeyConn Ctx) Unit :=
  quicCreateEncryptorDecryptor lib appDataClientKeys .decrypt calls

/-- `QuicCreateAppDataServerEncoders`. -/
def quicCreateAppDataServerEncoders (calls : InstallCalls Ctx) : Prog Fail (KeyConn Ctx) Unit :=
  quicCreateEncryptorDecryptor lib appDataServerKeys .encrypt calls

/-- `QuicCreateAppDataServerDecoders`. -/
def quicCreateAppDataServerDecoders (calls : InstallCalls Ctx) : Prog Fail (KeyConn Ctx) Unit :=
  quicCreateEncryptorDecryptor lib appDataServerKeys .decrypt calls

end Install

section Free

variable {Ctx : Type}

/-- `QuicCipherCtxFree`. -/
def quicCipherCtxFree (cs : QuicCipherSpace Ctx) : QuicCipherSpace Ctx :=
  { cs with hpCipher.ctx := none, ppCipher.cipher.ctx := none }

/-- `QuicCryptoKeyFree`. -/
def quicCryptoKeyFree (c : QuicCrypto Ctx) : QuicCrypto Ctx :=
  { c with decrypt := quicCipherCtxFree c.decrypt, encrypt := quicCipherCtxFree c.encrypt }

/-- The keys in `QuicFrameHandshakeDoneParser`. -/
def handshakeDone (s : KeyConn Ctx) : KeyConn Ctx :=
  if s.server then s else s.setCrypto .handshake (quicCryptoKeyFree (s.crypto .handshake))

end Free

end Tbquic
