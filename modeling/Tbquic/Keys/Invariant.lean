import Tbquic.Keys.Install
import Tbquic.Keys.Use
import Tbquic.Ping

/-!
# Which cipher spaces have their keys

A cipher space is installed when both of its contexts work under keys of the secret of its level
and direction. The flag `cipher_inited` says so until the preparation of the header protection
fails, the Initial keys are made for one direction only, or a client frees its handshake keys.
-/

namespace Tbquic

/-- The secrets of a level for the packets of the client or the server, with the digest of the
level. Those of TLS come from a key schedule that the connection has had. -/
inductive SecretOf (lib : CipherLib) (past : List KeySchedule) :
    KeyLevel → Bool → QuicDigest → List UInt8 → Prop
  /-- `client in`. -/
  | initialClient {mem : Bool} {version : ℕ} {cid client server : List UInt8}
      (h : quicDeriveInitialSecrets lib mem version cid = some (client, server)) :
      SecretOf lib past .initial false .sha256 client
  /-- `server in`. -/
  | initialServer {mem : Bool} {version : ℕ} {cid client server : List UInt8}
      (h : quicDeriveInitialSecrets lib mem version cid = some (client, server)) :
      SecretOf lib past .initial true .sha256 server
  /-- `c hs traffic` and `s hs traffic`. -/
  | handshake {t : KeySchedule} (ht : t ∈ past) {server : Bool} {md : QuicDigest}
      {hash secret : List UInt8}
      (h : tls13HkdfExpandLabel lib.tls md (t.handshakeSecret.get md.size)
        (if server then "s hs traffic" else "c hs traffic") hash md.size = some secret) :
      SecretOf lib past .handshake server md secret
  /-- `c ap traffic` and `s ap traffic`. -/
  | application {t : KeySchedule} (ht : t ∈ past) {server : Bool} {md : QuicDigest}
      {hash secret : List UInt8}
      (h : tls13HkdfExpandLabel lib.tls md (t.masterSecret.get md.size)
        (if server then "s ap traffic" else "c ap traffic") hash md.size = some secret) :
      SecretOf lib past .application server md secret

/-- Secrets of a connection stay its secrets. -/
theorem SecretOf.mono {lib : CipherLib} {past past' : List KeySchedule} (hsub : past ⊆ past')
    {level : KeyLevel} {server : Bool} {md : QuicDigest} {secret : List UInt8}
    (h : SecretOf lib past level server md secret) : SecretOf lib past' level server md secret := by
  cases h with
  | initialClient h => exact .initialClient h
  | initialServer h => exact .initialServer h
  | handshake ht h => exact .handshake (hsub ht) h
  | application ht h => exact .application (hsub ht) h

/-- Whether the server sends the packets of a direction. -/
def KeyDir.bySrvr (dir : KeyDir) (server : Bool) : Bool :=
  match dir with
  | decrypt => !server
  | encrypt => server

/-- Both contexts of a cipher space exist. -/
def QuicCipherSpace.HasContexts {Ctx : Type} (cs : QuicCipherSpace Ctx) : Prop :=
  cs.hpCipher.ctx ≠ none ∧ cs.ppCipher.cipher.ctx ≠ none

/-- A cipher space with keys has both contexts. -/
theorem QuicCipherSpace.KeyedFrom.hasContexts {Ctx : Type} {lib : CipherLib} {md : QuicDigest}
    {secret : List UInt8} {cs : QuicCipherSpace (KeyCtx Ctx)} (h : cs.KeyedFrom lib md secret) :
    cs.HasContexts :=
  ⟨h.1.ctx_ne_none, h.2.ctx_ne_none⟩

/-- What happens to the keys of a connection. -/
inductive KeyEvent (Ctx : Type)
  /-- TLS negotiates a cipher suite or computes a secret. -/
  | keySchedule (t : KeySchedule)
  /-- `QuicCreateInitialDecoders`. -/
  | initialKeys (version : ℕ) (cid : List UInt8) (calls : InitialCalls Ctx)
  /-- The handshake keys of a direction are installed. -/
  | handshakeKeys (dir : KeyDir) (calls : InstallCalls Ctx)
  /-- The application keys of a direction are installed. -/
  | appDataKeys (dir : KeyDir) (calls : InstallCalls Ctx)
  /-- A `HANDSHAKE_DONE` frame. -/
  | handshakeDone
  /-- The counters of a packet number space change. -/
  | counters (level : KeyLevel) (c : QuicCrypto (KeyCtx Ctx))
  /-- `QuicPacketBuild`. -/
  | build (level : KeyLevel) (firstByte pktNumLen mask : ℕ) (pkt : WPacket) (qb : QBuff)
  /-- `QuicDecryptPacket`. -/
  | decrypt (level : KeyLevel) (now outBufLen bitMask : ℕ) (pkt : RPacket)

namespace KeyConn

variable {Ctx : Type} (lib : CipherLib) (evp : EvpOpen Ctx)

/-- A cipher space without contexts. -/
def newSpace (ppAlg : ℕ) : QuicCipherSpace (KeyCtx Ctx) where
  hpCipher := ⟨quicAlgAes128Ecb, 0, none⟩
  ppCipher := ⟨⟨ppAlg, 0, none⟩, fun _ => 0⟩
  cipherInited := false

/-- A packet number space without contexts. -/
def newCrypto (ppAlg : ℕ) : QuicCrypto (KeyCtx Ctx) where
  pktNum := 0
  largestPn := 0
  largestAcked := 0
  largestAck := 0
  arrivTime := 0
  firstAckRange := 0
  encrypt := newSpace ppAlg
  decrypt := newSpace ppAlg

/-- `QuicNew`, which sets the algorithms of the Initial space. -/
def start (server : Bool) : KeyConn Ctx where
  server := server
  crypto := fun
    | .initial => newCrypto quicAlgAes128Gcm
    | .handshake | .application => newCrypto 0
  tls := .start
  past := [.start]

/-- The handshake keys that TLS installs for a direction. -/
def installHandshake (server : Bool) (dir : KeyDir) (calls : InstallCalls Ctx) :
    Prog Fail (KeyConn Ctx) Unit :=
  match server, dir with
  | false, .decrypt => quicCreateHandshakeServerDecoders lib calls
  | false, .encrypt => quicCreateHandshakeClientEncoders lib calls
  | true, .decrypt => quicCreateHandshakeClientDecoders lib calls
  | true, .encrypt => quicCreateHandshakeServerEncoders lib calls

/-- The application keys that TLS installs for a direction. -/
def installAppData (server : Bool) (dir : KeyDir) (calls : InstallCalls Ctx) :
    Prog Fail (KeyConn Ctx) Unit :=
  match server, dir with
  | false, .decrypt => quicCreateAppDataServerDecoders lib calls
  | false, .encrypt => quicCreateAppDataClientEncoders lib calls
  | true, .decrypt => quicCreateAppDataClientDecoders lib calls
  | true, .encrypt => quicCreateAppDataServerEncoders lib calls

/-- The objects of a build. -/
def toBuild (s : KeyConn Ctx) (level : KeyLevel) (pkt : WPacket) (qb : QBuff) :
    PktBuild (KeyCtx Ctx) :=
  { crypto := s.crypto level, pkt, qb, sealed := [] }

/-- The state behind an event, whether it succeeds or not. -/
def act (s : KeyConn Ctx) : KeyEvent Ctx → KeyConn Ctx
  | .keySchedule t => { s with tls := t, past := t :: s.past }
  | .initialKeys version cid calls => (quicCreateInitialDecoders lib version cid calls s).2
  | .handshakeKeys dir calls => (installHandshake lib s.server dir calls s).2
  | .appDataKeys dir calls => (installAppData lib s.server dir calls s).2
  | .handshakeDone => handshakeDone s
  | .counters level c =>
    s.setCrypto level
      { c with decrypt := (s.crypto level).decrypt, encrypt := (s.crypto level).encrypt }
  | .build level firstByte pktNumLen mask pkt qb =>
    s.setCrypto level
      (quicPacketBuild evp.toEvp.keyed firstByte pktNumLen mask (s.toBuild level pkt qb)).2.crypto
  | .decrypt level now outBufLen bitMask pkt =>
    s.setCrypto level
      (PktOpen.quicDecryptPacket evp.keyed now outBufLen bitMask ⟨s.crypto level, pkt⟩).2.crypto

/-- The state behind an event. Every event has one. -/
def step (s : KeyConn Ctx) (e : KeyEvent Ctx) : Option (KeyConn Ctx) := some (s.act lib evp e)

/-- Both contexts of a cipher space work under keys of the secret of its level and direction. -/
def Keyed (s : KeyConn Ctx) (level : KeyLevel) (dir : KeyDir) : Prop :=
  ∃ md secret, SecretOf lib s.past level (dir.bySrvr s.server) md secret ∧
    (s.space level dir).KeyedFrom lib md secret

/-- The flags say which cipher spaces have their keys. -/
def Installed (s : KeyConn Ctx) : Prop :=
  ∀ level dir, (s.space level dir).cipherInited = true ↔ s.Keyed lib level dir

/-- A packet that is built gets past the flag, and one that is opened to its payload, only with
both contexts. -/
def UsesContexts (s : KeyConn Ctx) : KeyEvent Ctx → Prop
  | .build level _ _ _ _ _ =>
    (s.space level .encrypt).cipherInited = true → (s.space level .encrypt).HasContexts
  | .decrypt level now _ bitMask pkt =>
    ∀ r t, PktOpen.quicDecryptPktNum evp.keyed now bitMask ⟨s.crypto level, pkt⟩ = (.ok r, t) →
      (s.space level .decrypt).HasContexts
  | _ => True

/-- An event uses no context that is missing, and behind it the flags say which cipher spaces have
their keys. -/
def KeysProper (s : KeyConn Ctx) (e : KeyEvent Ctx) : Prop :=
  s.UsesContexts evp e ∧ (s.act lib evp e).Installed lib

end KeyConn

section Spaces

variable {Ctx : Type} {s t u : KeyConn Ctx} {level l : KeyLevel} {dir d : KeyDir}

namespace KeyConn

@[simp] theorem space_setSpace (s : KeyConn Ctx) (level : KeyLevel) (dir : KeyDir)
    (cs : QuicCipherSpace (KeyCtx Ctx)) : (s.setSpace level dir cs).space level dir = cs := by
  cases dir <;> simp [setSpace, setCrypto, space]

/-- Another cipher space stays as it is. -/
theorem space_setSpace_of_ne (s : KeyConn Ctx) (cs : QuicCipherSpace (KeyCtx Ctx))
    (h : (l, d) ≠ (level, dir)) : (s.setSpace level dir cs).space l d = s.space l d := by
  by_cases hl : l = level
  · subst hl
    cases dir <;> cases d <;> simp_all [setSpace, setCrypto, space]
  · cases dir <;> cases d <;> simp [setSpace, setCrypto, space, hl]

/-- Outside one cipher space a connection stays as it is, up to what TLS keeps of the
installation. -/
structure Elsewhere (level : KeyLevel) (dir : KeyDir) (s t : KeyConn Ctx) : Prop where
  /-- The role. -/
  server : t.server = s.server
  /-- The key schedules of the past. -/
  past : t.past = s.past
  /-- The secret of the handshake. -/
  handshakeSecret : t.tls.handshakeSecret = s.tls.handshakeSecret
  /-- The master secret. -/
  masterSecret : t.tls.masterSecret = s.tls.masterSecret
  /-- The other cipher spaces. -/
  space : ∀ l d, (l, d) ≠ (level, dir) → t.space l d = s.space l d

namespace Elsewhere

theorem refl (level : KeyLevel) (dir : KeyDir) (s : KeyConn Ctx) : Elsewhere level dir s s :=
  ⟨rfl, rfl, rfl, rfl, fun _ _ _ => rfl⟩

theorem setSpace (h : Elsewhere level dir s t) (cs : QuicCipherSpace (KeyCtx Ctx)) :
    Elsewhere level dir s (t.setSpace level dir cs) where
  server := by
    cases dir <;> exact h.server
  past := by
    cases dir <;> exact h.past
  handshakeSecret := by
    cases dir <;> exact h.handshakeSecret
  masterSecret := by
    cases dir <;> exact h.masterSecret
  space l d hne := (space_setSpace_of_ne t cs hne).trans (h.space l d hne)

end Elsewhere

end KeyConn

end Spaces

/-- Writing to an array leaves the secrets of the levels as they are. -/
structure SecretField.Keeps (field : SecretField) : Prop where
  /-- The secret of the handshake. -/
  handshakeSecret : ∀ a t, (field.put a t).handshakeSecret = t.handshakeSecret
  /-- The master secret. -/
  masterSecret : ∀ a t, (field.put a t).masterSecret = t.masterSecret

/-- The arguments of an installation belong to a level and to the packets of one side. -/
structure TrafficKeys.Right (keys : TrafficKeys) (level : KeyLevel) (server : Bool) : Prop where
  /-- The level. -/
  level_eq : keys.level = level
  /-- The array of the transcript hash is not a secret of a level. -/
  hash : keys.hash.Keeps
  /-- Neither is that of the traffic secret. -/
  outSecret : ∀ field ∈ keys.outSecret, field.Keeps
  /-- Neither is that of the finished key. -/
  finsecret : ∀ field ∈ keys.finsecret, field.Keeps
  /-- The secret and the label are those of the level and the side. -/
  secretOf : ∀ {lib : CipherLib} {past : List KeySchedule} {t u : KeySchedule} {md : QuicDigest}
    {hash secret : List UInt8}, t ∈ past → u.handshakeSecret = t.handshakeSecret →
    u.masterSecret = t.masterSecret →
    tls13HkdfExpandLabel lib.tls md ((keys.inSecret u).get md.size) keys.label hash md.size =
      some secret → SecretOf lib past level server md secret

/-- The arguments of the client's handshake keys. -/
theorem handshakeClientKeys_right : handshakeClientKeys.Right .handshake false where
  level_eq := rfl
  hash := ⟨fun _ _ => rfl, fun _ _ => rfl⟩
  outSecret := by
    rintro field ⟨⟩
  finsecret := by
    rintro field ⟨⟩
    exact ⟨fun _ _ => rfl, fun _ _ => rfl⟩
  secretOf := by
    intro lib past t u md hash secret ht hhandshake _ h
    change tls13HkdfExpandLabel lib.tls md (u.handshakeSecret.get md.size) _ hash md.size = _ at h
    rw [hhandshake] at h
    exact .handshake ht h

/-- The arguments of the server's handshake keys. -/
theorem handshakeServerKeys_right : handshakeServerKeys.Right .handshake true where
  level_eq := rfl
  hash := ⟨fun _ _ => rfl, fun _ _ => rfl⟩
  outSecret := by
    rintro field ⟨⟩
  finsecret := by
    rintro field ⟨⟩
    exact ⟨fun _ _ => rfl, fun _ _ => rfl⟩
  secretOf := by
    intro lib past t u md hash secret ht hhandshake _ h
    change tls13HkdfExpandLabel lib.tls md (u.handshakeSecret.get md.size) _ hash md.size = _ at h
    rw [hhandshake] at h
    exact .handshake ht h

/-- The arguments of the client's application keys. -/
theorem appDataClientKeys_right : appDataClientKeys.Right .application false where
  level_eq := rfl
  hash := ⟨fun _ _ => rfl, fun _ _ => rfl⟩
  outSecret := by
    rintro field ⟨⟩
    exact ⟨fun _ _ => rfl, fun _ _ => rfl⟩
  finsecret := by
    rintro field ⟨⟩
  secretOf := by
    intro lib past t u md hash secret ht _ hmaster h
    change tls13HkdfExpandLabel lib.tls md (u.masterSecret.get md.size) _ hash md.size = _ at h
    rw [hmaster] at h
    exact .application ht h

/-- The arguments of the server's application keys. -/
theorem appDataServerKeys_right : appDataServerKeys.Right .application true where
  level_eq := rfl
  hash := ⟨fun _ _ => rfl, fun _ _ => rfl⟩
  outSecret := by
    rintro field ⟨⟩
    exact ⟨fun _ _ => rfl, fun _ _ => rfl⟩
  finsecret := by
    rintro field ⟨⟩
  secretOf := by
    intro lib past t u md hash secret ht _ hmaster h
    change tls13HkdfExpandLabel lib.tls md (u.masterSecret.get md.size) _ hash md.size = _ at h
    rw [hmaster] at h
    exact .application ht h

/-- `QuicCreateEncryptorDecryptor` gets to the ciphers. -/
structure InstallCalls.Reaches {Ctx : Type} (calls : InstallCalls Ctx) (keys : TrafficKeys)
    (cipher : Option TlsCipher) : Prop where
  /-- A cipher suite with a known algorithm is negotiated. -/
  cipher : ∃ c ∈ cipher, c.algorithmEnc < quicAlgMax
  /-- The transcript is hashed. -/
  records : calls.records = true
  /-- The hash is computed. -/
  hash : calls.hash ≠ none
  /-- The resumption secret is derived. -/
  resumption : keys.label = quicClientApplicationTraffic → calls.resumption = true
  /-- The traffic secret is derived. -/
  derive : calls.derive = true
  /-- The finished key is derived. -/
  finished : keys.finsecret ≠ none → calls.finished = true

section Install

variable {Ctx : Type} {lib : CipherLib}

/-- HKDF for the sizes of digests fails without memory only. -/
theorem tlsExpandLabel_eq_none {md : QuicDigest} {secret : List UInt8} {mem : Bool}
    {label : String} {data : List UInt8} {len : ℕ} (hdata : data.length ≤ evpMaxMdSize)
    (hlen : len ≤ evpMaxMdSize) (h : tlsExpandLabel lib md secret mem label data len = none) :
    ¬ mem = true := by
  rintro rfl
  obtain ⟨out, hout⟩ := tls13HkdfExpandLabel_exists lib.tls md secret label hdata hlen
  rw [show tlsExpandLabel lib md secret true label data len = _ from hout] at h
  cases h

/-- HKDF succeeds with memory only. -/
theorem tlsExpandLabel_eq_some {md : QuicDigest} {secret out : List UInt8} {mem : Bool}
    {label : String} {data : List UInt8} {len : ℕ}
    (h : tlsExpandLabel lib md secret mem label data len = some out) :
    mem = true ∧ tls13HkdfExpandLabel lib.tls md secret label data len = some out := by
  cases mem with
  | false => cases h
  | true => exact ⟨rfl, h⟩

variable (lib) in
/-- A cipher space is installed, or has no key for the packets. -/
def KeyConn.SpaceProper (s : KeyConn Ctx) (level : KeyLevel) (dir : KeyDir) : Prop :=
  ((s.space level dir).cipherInited = true ∧ s.Keyed lib level dir) ∨
    ((s.space level dir).cipherInited = false ∧ (s.space level dir).Unkeyed)

/-- The state of an installation before it gets to the ciphers, with the algorithm of the header
protection. -/
structure KeyConn.Pending (alg : ℕ) (level : KeyLevel) (dir : KeyDir) (s t : KeyConn Ctx) :
    Prop extends KeyConn.Elsewhere level dir s t where
  /-- The algorithm. -/
  alg_eq : (t.space level dir).hpCipher.alg = alg
  /-- The flag. -/
  inited : (t.space level dir).cipherInited = false
  /-- The packet protection. -/
  unkeyed : (t.space level dir).Unkeyed

variable (lib) in
/-- An installation ends properly under a condition, and with a flag but without a key
otherwise. -/
structure KeyConn.InstallEnds (level : KeyLevel) (dir : KeyDir) (P : Prop) (s t : KeyConn Ctx) :
    Prop extends KeyConn.Elsewhere level dir s t where
  /-- Under the condition. -/
  proper : P → t.SpaceProper lib level dir
  /-- Without it. -/
  flagged : ¬ P → (t.space level dir).cipherInited = true ∧ (t.space level dir).Unkeyed

/-- The current secrets of a connection belong to a key schedule of its past. -/
def KeyConn.Remembers (s : KeyConn Ctx) : Prop :=
  ∃ u ∈ s.past, s.tls.handshakeSecret = u.handshakeSecret ∧ s.tls.masterSecret = u.masterSecret

namespace KeyConn

variable {alg : ℕ} {level : KeyLevel} {dir : KeyDir} {s t : KeyConn Ctx} {P : Prop}

/-- Stopping before the ciphers is proper. -/
theorem Pending.ends (h : Pending alg level dir s t) (hP : P) :
    InstallEnds lib level dir P s t where
  toElsewhere := h.toElsewhere
  proper _ := .inr ⟨h.inited, h.unkeyed⟩
  flagged hne := absurd hP hne

/-- Writing to an array of TLS keeps an installation pending. -/
theorem Pending.withTls (h : Pending alg level dir s t) {f : KeySchedule → KeySchedule}
    (hhandshake : (f t.tls).handshakeSecret = t.tls.handshakeSecret)
    (hmaster : (f t.tls).masterSecret = t.tls.masterSecret) :
    Pending alg level dir s { t with tls := f t.tls } where
  server := h.server
  past := h.past
  handshakeSecret := hhandshake.trans h.handshakeSecret
  masterSecret := hmaster.trans h.masterSecret
  space := h.space
  alg_eq := h.alg_eq
  inited := h.inited
  unkeyed := h.unkeyed

/-- Writing to an array that is not a secret of a level keeps an installation pending. -/
theorem Pending.write (h : Pending alg level dir s t) {field : SecretField} (hfield : field.Keeps)
    (bytes : List UInt8) : Pending alg level dir s { t with tls := field.write bytes t.tls } :=
  h.withTls (hfield.handshakeSecret _ _) (hfield.masterSecret _ _)

/-- A cipher space without a key keeps an installation pending. -/
theorem Pending.setSpace (h : Pending alg level dir s t) (cs : QuicCipherSpace (KeyCtx Ctx))
    (hinited : cs.cipherInited = false) (hunkeyed : cs.Unkeyed) :
    Pending cs.hpCipher.alg level dir s (t.setSpace level dir cs) where
  toElsewhere := h.toElsewhere.setSpace cs
  alg_eq := by
    rw [space_setSpace]
  inited := by
    rw [space_setSpace]
    exact hinited
  unkeyed := by
    rw [space_setSpace]
    exact hunkeyed

/-- The end of an installation: the ciphers are prepared from a secret of the level and the side,
and the flag is set. -/
theorem ciphersPrepare_ends (hs : Pending alg level dir s t) {md : QuicDigest} {secret : List UInt8}
    (hsecret : SecretOf lib s.past level (dir.bySrvr s.server) md secret)
    (calls : CiphersCalls Ctx) (hP : P ↔ calls.hp.Ready lib alg) :
    Prog.Post (do
        onSpace level dir (quicCiphersPrepare lib md secret calls dir.enc)
        setInited level dir)
      (fun _ u => InstallEnds lib level dir P s u) (fun _ u => InstallEnds lib level dir P s u)
      t := by
  have hprepare := quicCiphersPrepare_post lib md secret calls dir.enc hs.unkeyed
  unfold CiphersCalls.HpReady at hprepare
  rw [hs.alg_eq] at hprepare
  rw [Prog.post_bind, onSpace, Prog.post_zoom]
  refine hprepare.mono ?_ ?_
  · rintro _ cs ⟨-, hcs⟩
    rw [setInited, onSpace, Prog.post_zoom, Prog.post_modify, space_setSpace]
    have helse : Elsewhere level dir s ((t.setSpace level dir cs).setSpace level dir
        { cs with cipherInited := true }) :=
      (hs.toElsewhere.setSpace cs).setSpace _
    refine ⟨helse, fun hp => .inl ?_, fun hp => ?_⟩
    · rw [space_setSpace]
      refine ⟨rfl, md, secret, ?_, ?_⟩
      · rw [helse.past, helse.server]
        exact hsecret
      · rw [space_setSpace]
        rcases hcs with ⟨-, -, hkeyed⟩ | ⟨hready, -⟩
        · exact hkeyed
        · exact absurd (hP.mp hp) hready
    · rw [space_setSpace]
      rcases hcs with ⟨hready, -⟩ | ⟨-, hunkeyed⟩
      · exact absurd (hP.mpr hready) hp
      · exact ⟨rfl, hunkeyed⟩
  · rintro _ cs ⟨hinited, hready, -, hunkeyed⟩
    exact (hs.setSpace cs (hinited.trans hs.inited) hunkeyed).ends (hP.mpr hready)

/-- The finished key is derived, or the installation stops. -/
theorem deriveFinished_ends {keys : TrafficKeys} {server : Bool} (hkeys : keys.Right level server)
    (hs : Pending alg level dir s t) (md : QuicDigest) (sec : List UInt8)
    (calls : InstallCalls Ctx) (hP : ¬ (keys.finsecret ≠ none → calls.finished = true) → P) :
    Prog.Post (deriveFinished lib keys md sec calls)
      (fun _ u => Pending alg level dir s u ∧ (keys.finsecret ≠ none → calls.finished = true))
      (fun _ u => InstallEnds lib level dir P s u) t := by
  unfold deriveFinished
  cases hfield : keys.finsecret with
  | none => exact ⟨hs, fun h => absurd rfl h⟩
  | some field =>
    simp only [Prog.post_bind, Prog.post_ofOption, onTls, Prog.post_modify]
    refine ⟨fun key hkey => ?_, fun hkey => ?_⟩
    · exact ⟨hs.write (hkeys.finsecret field hfield) key,
        fun _ => (tlsExpandLabel_eq_some hkey).1⟩
    · have hmem := tlsExpandLabel_eq_none (Nat.zero_le _) md.size_le hkey
      refine hs.ends (hP fun hfinished => hmem (hfinished ?_))
      rw [hfield]
      exact Option.some_ne_none field

/-- `QuicInstallEncryptorDecryptor` ends properly, unless it gets to the ciphers and cannot prepare
the header protection. -/
theorem quicInstallEncryptorDecryptor_ends {keys : TrafficKeys}
    (hkeys : keys.Right level (dir.bySrvr s.server)) (hpast : s.Remembers)
    (hs : Pending alg level dir s t) (md : QuicDigest) (calls : InstallCalls Ctx)
    (hP : (calls.derive = true ∧ (keys.finsecret ≠ none → calls.finished = true) →
      calls.ciphers.hp.Ready lib alg) ↔ P) :
    Prog.Post (quicInstallEncryptorDecryptor lib keys md dir calls)
      (fun _ u => InstallEnds lib level dir P s u) (fun _ u => InstallEnds lib level dir P s u)
      t := by
  obtain ⟨v, hv, hhandshake, hmaster⟩ := hpast
  have htake : ∀ a : TlsSecret, (a.get md.size).length ≤ evpMaxMdSize := fun a =>
    (List.length_take_le _ _).trans md.size_le
  rw [quicInstallEncryptorDecryptor, hkeys.level_eq, Prog.post_bind, Prog.post_get, Prog.post_bind,
    Prog.post_ofOption]
  refine ⟨fun sec hsec => ?_, fun hsec => ?_⟩
  · obtain ⟨hderive, hexpand⟩ := tlsExpandLabel_eq_some hsec
    have hsecret := hkeys.secretOf hv (hs.handshakeSecret.trans hhandshake)
      (hs.masterSecret.trans hmaster) hexpand
    have hwrite : Pending alg level dir s
        { t with tls := SecretField.writeTo keys.outSecret sec t.tls } := by
      cases hfield : keys.outSecret with
      | none => exact hs
      | some field => exact hs.write (hkeys.outSecret field hfield) sec
    rw [Prog.post_bind, onTls, Prog.post_modify, Prog.post_bind]
    refine (deriveFinished_ends hkeys hwrite md sec calls fun hfinished => hP.mp fun h =>
      absurd h.2 hfinished).mono ?_ fun _ _ h => h
    rintro _ u ⟨hu, hfinished⟩
    exact ciphersPrepare_ends hu hsecret calls.ciphers
      (hP.symm.trans ⟨fun h => h ⟨hderive, hfinished⟩, fun h _ => h⟩)
  · have hmem := tlsExpandLabel_eq_none (htake _) md.size_le hsec
    exact hs.ends (hP.mp fun h => absurd h.1 hmem)

/-- The resumption secret is derived, or the installation stops. -/
theorem deriveResumption_ends {keys : TrafficKeys} (hs : Pending alg level dir s t)
    (md : QuicDigest) {hashval : List UInt8} (hhash : hashval.length ≤ evpMaxMdSize)
    (calls : InstallCalls Ctx)
    (hP : ¬ (keys.label = quicClientApplicationTraffic → calls.resumption = true) → P) :
    Prog.Post (deriveResumption lib keys md hashval calls)
      (fun _ u => Pending alg level dir s u ∧
        (keys.label = quicClientApplicationTraffic → calls.resumption = true))
      (fun _ u => InstallEnds lib level dir P s u) t := by
  rw [deriveResumption, Prog.post_ite]
  refine ⟨fun hlabel => ?_, fun hlabel => ⟨hs, fun h => absurd h hlabel⟩⟩
  simp only [Prog.post_bind, Prog.post_get, Prog.post_ofOption, onTls, Prog.post_modify]
  refine ⟨fun out hout => ⟨?_, fun _ => (tlsExpandLabel_eq_some hout).1⟩, fun hout => ?_⟩
  · exact @Pending.withTls _ _ _ _ _ _ hs (fun v =>
      { v with resumptionMasterSecret := v.resumptionMasterSecret.set out }) rfl rfl
  · exact hs.ends (hP fun h => tlsExpandLabel_eq_none hhash hhash hout (h hlabel))

/-- The algorithm of the header protection is set. -/
theorem setHpAlg_pending (hs : Pending alg level dir s t) (E : Fail → KeyConn Ctx → Prop) :
    Prog.Post (onSpace level dir (quicSetHpCipherSpaceAlg quicAlgAes128Ecb))
      (fun _ u => Pending quicAlgAes128Ecb level dir s u) E t := by
  rw [onSpace, quicSetHpCipherSpaceAlg, QuicCipherSpace.onHp, quicSetCipherAlg, Prog.post_zoom,
    Prog.post_zoom, Prog.post_bind, Prog.post_ensure]
  have hset := hs.setSpace { t.space level dir with hpCipher.alg := quicAlgAes128Ecb } hs.inited
    hs.unkeyed
  exact ⟨fun _ => hset, fun h => absurd (by decide) h⟩

/-- The algorithm of the packet protection is set, or the installation stops. -/
theorem setPpAlg_ends (hs : Pending alg level dir s t) (ppAlg : ℕ) (hP : ¬ ppAlg < quicAlgMax → P) :
    Prog.Post (onSpace level dir (quicSetPpCipherSpaceAlg ppAlg))
      (fun _ u => Pending alg level dir s u ∧ ppAlg < quicAlgMax)
      (fun _ u => InstallEnds lib level dir P s u) t := by
  rw [onSpace, quicSetPpCipherSpaceAlg, QuicCipherSpace.onPp, QuicPPCipher.onCipher,
    quicSetCipherAlg, Prog.post_zoom, Prog.post_zoom, Prog.post_zoom, Prog.post_bind,
    Prog.post_ensure]
  have hset := hs.setSpace { t.space level dir with ppCipher.cipher.alg := ppAlg } hs.inited
    hs.unkeyed
  have hkeep := hs.setSpace (t.space level dir) hs.inited hs.unkeyed
  rw [hs.alg_eq] at hset
  exact ⟨fun hmax => ⟨hset, hmax⟩, fun hmax => hkeep.ends (hP hmax)⟩

/-- Both algorithms are set, or the installation stops. -/
theorem setCipherAlgs_ends (hs : Pending alg level dir s t) (ppAlg : ℕ)
    (hP : ¬ ppAlg < quicAlgMax → P) :
    Prog.Post (setCipherAlgs level dir ppAlg)
      (fun _ u => Pending quicAlgAes128Ecb level dir s u ∧ ppAlg < quicAlgMax)
      (fun _ u => InstallEnds lib level dir P s u) t := by
  rw [setCipherAlgs, Prog.post_bind]
  exact (setHpAlg_pending hs _).mono (fun _ u hu => setPpAlg_ends hu ppAlg hP) fun _ _ h => h

/-- The header protection can be prepared, if the installation of keys gets to the ciphers. -/
def HpInstalls (lib : CipherLib) (s : KeyConn Ctx) (keys : TrafficKeys)
    (calls : InstallCalls Ctx) : Prop :=
  calls.Reaches keys s.tls.handshakeCipher → calls.ciphers.hp.Ready lib quicAlgAes128Ecb

/-- `QuicCreateEncryptorDecryptor` for a space that is not installed ends properly, unless it gets
to the ciphers and cannot prepare the header protection. -/
theorem quicCreateEncryptorDecryptor_ends {keys : TrafficKeys}
    (hkeys : keys.Right level (dir.bySrvr s.server)) (hpast : s.Remembers)
    (hinited : (s.space level dir).cipherInited = false) (hunkeyed : (s.space level dir).Unkeyed)
    (calls : InstallCalls Ctx) :
    InstallEnds lib level dir (HpInstalls lib s keys calls) s
      (quicCreateEncryptorDecryptor lib keys dir calls s).2 := by
  have hs : Pending (s.space level dir).hpCipher.alg level dir s s :=
    ⟨Elsewhere.refl level dir s, rfl, hinited, hunkeyed⟩
  apply Prog.Post.state
  have hflag : ¬ (s.space level dir).cipherInited = true := by
    rw [hinited]
    exact Bool.false_ne_true
  rw [quicCreateEncryptorDecryptor, hkeys.level_eq, Prog.post_bind, Prog.post_get, if_neg hflag,
    Prog.post_bind, Prog.post_ofOption]
  refine ⟨fun cipher hcipher => ?_, fun hcipher => hs.ends fun h => ?_⟩
  · rw [Prog.post_bind, Prog.post_ensure]
    refine ⟨fun hrecords => ?_, fun hrecords => hs.ends fun h => absurd h.records hrecords⟩
    rw [Prog.post_bind, Prog.post_ofOption]
    refine ⟨fun hashval hhash => ?_, fun hhash => hs.ends fun h => absurd hhash h.hash⟩
    have htls : Pending (s.space level dir).hpCipher.alg level dir s { s with
        tls := (if keys.serverTraffic then keys.hash.write hashval.val else id) s.tls } := by
      cases keys.serverTraffic with
      | false => exact hs
      | true => exact hs.write hkeys.hash hashval.val
    have halgs : Prog.Post (setCipherAlgs level dir cipher.algorithmEnc) _
        (fun _ u => InstallEnds lib level dir (HpInstalls lib s keys calls) s u) _ :=
      setCipherAlgs_ends htls cipher.algorithmEnc fun hmax h => by
        obtain ⟨c, hc, hlt⟩ := h.cipher
        rw [hcipher] at hc
        exact absurd (Option.some.inj hc ▸ hlt) hmax
    rw [Prog.post_bind, onTls, Prog.post_modify, Prog.post_bind, Prog.post_attempt]
    unfold Prog.Post at halgs
    generalize setCipherAlgs level dir cipher.algorithmEnc _ = run at halgs ⊢
    obtain ⟨r, u⟩ := run
    cases r with
    | error e => exact halgs
    | ok =>
      obtain ⟨hu, hmax⟩ := halgs
      rw [Prog.post_bind]
      refine (deriveResumption_ends hu cipher.digest hashval.property calls fun hres h =>
        absurd h.resumption hres).mono ?_ fun _ _ h => h
      rintro _ v ⟨hv, hresumption⟩
      refine quicInstallEncryptorDecryptor_ends hkeys hpast hv cipher.digest calls
        ⟨fun h hreach => h ⟨hreach.derive, hreach.finished⟩, fun h hrest => h ?_⟩
      exact ⟨⟨cipher, hcipher, hmax⟩, hrecords, by rw [hhash]; exact Option.some_ne_none _,
        hresumption, hrest.1, hrest.2⟩
  · obtain ⟨c, hc, -⟩ := h.cipher
    rw [hcipher] at hc
    cases hc

/-- Outside the Initial space a connection stays as it is. -/
structure OutsideInitial (s t : KeyConn Ctx) : Prop where
  /-- The role. -/
  server : t.server = s.server
  /-- The key schedules of the past. -/
  past : t.past = s.past
  /-- The key schedule. -/
  tls : t.tls = s.tls
  /-- The other cipher spaces. -/
  space : ∀ l d, l ≠ .initial → t.space l d = s.space l d

theorem OutsideInitial.refl (s : KeyConn Ctx) : OutsideInitial s s :=
  ⟨rfl, rfl, rfl, fun _ _ _ => rfl⟩

theorem OutsideInitial.setSpace (h : OutsideInitial s t) (dir : KeyDir)
    (cs : QuicCipherSpace (KeyCtx Ctx)) : OutsideInitial s (t.setSpace .initial dir cs) where
  server := by
    cases dir <;> exact h.server
  past := by
    cases dir <;> exact h.past
  tls := by
    cases dir <;> exact h.tls
  space l d hl :=
    (space_setSpace_of_ne t cs fun heq => hl (congrArg Prod.fst heq)).trans (h.space l d hl)

end KeyConn

/-- The header protection of a cipher space can be prepared, but not its packet protection. -/
def CiphersCalls.PpRefused (lib : CipherLib) (calls : CiphersCalls Ctx)
    (cs : QuicCipherSpace (KeyCtx Ctx)) : Prop :=
  calls.HpReady lib cs ∧ ¬ calls.PpReady lib cs

namespace KeyConn

/-- The packet protection is refused to the receiving side; or to the sending side only, and the
receiving side has no header protection; or to none, and both sides have header protection. -/
def InitialInstalls (lib : CipherLib) (s : KeyConn Ctx) (calls : KeyDir → CiphersCalls Ctx) :
    Prop :=
  let dec := s.space .initial .decrypt
  let enc := s.space .initial .encrypt
  (calls .decrypt).PpRefused lib dec ∨
    ((calls .encrypt).PpRefused lib enc ∧ ¬ (calls .decrypt).HpReady lib dec) ∨
    (¬ (calls .encrypt).PpRefused lib enc ∧ (calls .decrypt).HpReady lib dec ∧
      (calls .encrypt).HpReady lib enc)

variable (lib) in
/-- The flag of a cipher space is wrong. -/
def SpaceWrong (s : KeyConn Ctx) (level : KeyLevel) (dir : KeyDir) : Prop :=
  ((s.space level dir).cipherInited = true ∧ (s.space level dir).Unkeyed) ∨
    ((s.space level dir).cipherInited = false ∧ s.Keyed lib level dir)

variable (lib) in
/-- The Initial keys are made properly under a condition, and leave a wrong flag otherwise. -/
structure InitialEnds (P : Prop) (s t : KeyConn Ctx) : Prop extends OutsideInitial s t where
  /-- Under the condition. -/
  proper : P → ∀ dir, t.SpaceProper lib .initial dir
  /-- Without it. -/
  wrong : ¬ P → ∃ dir, t.SpaceWrong lib .initial dir

/-- The Initial keys are made properly exactly under their condition. -/
theorem quicPrepareEncoderDecoders_ends {s : KeyConn Ctx} {decSecret encSecret : List UInt8}
    (hdec : SecretOf lib s.past .initial (KeyDir.bySrvr .decrypt s.server) .sha256 decSecret)
    (henc : SecretOf lib s.past .initial (KeyDir.bySrvr .encrypt s.server) .sha256 encSecret)
    (hs : ∀ dir, (s.space .initial dir).cipherInited = false ∧ (s.space .initial dir).Unkeyed)
    (calls : KeyDir → CiphersCalls Ctx) :
    InitialEnds lib (InitialInstalls lib s calls) s
      (quicPrepareEncoderDecoders lib .sha256 decSecret encSecret calls s).2 := by
  apply Prog.Post.state
  have hprepareDec := quicCiphersPrepare_post lib .sha256 decSecret (calls .decrypt)
    quicEvpDecrypt (hs .decrypt).2
  have hprepareEnc := quicCiphersPrepare_post lib .sha256 encSecret (calls .encrypt)
    quicEvpEncrypt (hs .encrypt).2
  have hother : ∀ (t : KeyConn Ctx) (cs : QuicCipherSpace (KeyCtx Ctx)),
      (t.setSpace .initial .decrypt cs).space .initial .encrypt = t.space .initial .encrypt :=
    fun t cs => space_setSpace_of_ne t cs (by decide)
  have hother' : ∀ (t : KeyConn Ctx) (cs : QuicCipherSpace (KeyCtx Ctx)),
      (t.setSpace .initial .encrypt cs).space .initial .decrypt = t.space .initial .decrypt :=
    fun t cs => space_setSpace_of_ne t cs (by decide)
  rw [quicPrepareEncoderDecoders, Prog.post_bind, onSpace, Prog.post_zoom]
  refine hprepareDec.mono ?_ ?_
  · rintro _ dec ⟨hdecInited, hdecKeys⟩
    have houtDec := (OutsideInitial.refl s).setSpace .decrypt dec
    rw [Prog.post_bind, onSpace, Prog.post_zoom, hother]
    refine hprepareEnc.mono ?_ ?_
    · rintro _ enc ⟨hencInited, hencKeys⟩
      have houtEnc := houtDec.setSpace .encrypt enc
      rw [Prog.post_bind, setInited, onSpace, Prog.post_zoom, Prog.post_modify, setInited, onSpace,
        Prog.post_zoom, Prog.post_modify, hother, space_setSpace, hother', space_setSpace]
      have hout := (houtEnc.setSpace .decrypt { dec with cipherInited := true }).setSpace .encrypt
        { enc with cipherInited := true }
      have hdecRefused : ¬ (calls .decrypt).PpRefused lib (s.space .initial .decrypt) := fun h =>
        hdecKeys.elim (fun hkeys => h.2 hkeys.2.1) fun hkeys => hkeys.1 h.1
      have hencRefused : ¬ (calls .encrypt).PpRefused lib (s.space .initial .encrypt) := fun h =>
        hencKeys.elim (fun hkeys => h.2 hkeys.2.1) fun hkeys => hkeys.1 h.1
      refine ⟨hout, fun hP dir => .inl ?_, fun hP => ?_⟩
      · obtain ⟨-, hdecReady, hencReady⟩ :=
          (hP.resolve_left hdecRefused).resolve_left fun h => hencRefused h.1
        cases dir with
        | decrypt =>
          rw [Keyed, hother', space_setSpace, hout.past, hout.server]
          rcases hdecKeys with ⟨-, -, hkeyed⟩ | ⟨hnot, -⟩
          · exact ⟨rfl, .sha256, decSecret, hdec, hkeyed⟩
          · exact absurd hdecReady hnot
        | encrypt =>
          rw [Keyed, space_setSpace, hout.past, hout.server]
          rcases hencKeys with ⟨-, -, hkeyed⟩ | ⟨hnot, -⟩
          · exact ⟨rfl, .sha256, encSecret, henc, hkeyed⟩
          · exact absurd hencReady hnot
      · rcases hdecKeys with ⟨hdecReady, -⟩ | ⟨-, hunkeyed⟩
        · rcases hencKeys with ⟨hencReady, -⟩ | ⟨-, hunkeyed⟩
          · exact absurd (.inr (.inr ⟨hencRefused, hdecReady, hencReady⟩)) hP
          · refine ⟨.encrypt, .inl ?_⟩
            rw [space_setSpace]
            exact ⟨rfl, hunkeyed⟩
        · refine ⟨.decrypt, .inl ?_⟩
          rw [hother', space_setSpace]
          exact ⟨rfl, hunkeyed⟩
    · rintro _ enc ⟨hencInited, hready, hrefused, hunkeyed⟩
      have hout := houtDec.setSpace .encrypt enc
      refine ⟨hout, fun hP dir => ?_, fun hP => ⟨.decrypt, .inr ?_⟩⟩
      · cases dir with
        | decrypt =>
          rw [SpaceProper, hother', space_setSpace]
          rcases hdecKeys with ⟨hdecReady, hppReady, -⟩ | ⟨-, hdecUnkeyed⟩
          · rcases hP with hP | hP | hP
            · exact absurd hppReady hP.2
            · exact absurd hdecReady hP.2
            · exact absurd ⟨hready, hrefused⟩ hP.1
          · exact .inr ⟨hdecInited.trans (hs .decrypt).1, hdecUnkeyed⟩
        | encrypt =>
          rw [SpaceProper, space_setSpace]
          exact .inr ⟨hencInited.trans (hs .encrypt).1, hunkeyed⟩
      · rw [Keyed, hother', space_setSpace, hout.past, hout.server]
        rcases hdecKeys with ⟨-, -, hkeyed⟩ | ⟨hdecReady, -⟩
        · exact ⟨hdecInited.trans (hs .decrypt).1, .sha256, decSecret, hdec, hkeyed⟩
        · exact absurd (.inr (.inl ⟨⟨hready, hrefused⟩, hdecReady⟩)) hP
  · rintro _ dec ⟨hinited, hready, hrefused, hunkeyed⟩
    refine ⟨(OutsideInitial.refl s).setSpace .decrypt dec, fun _ dir => .inr ?_,
      fun hP => absurd (.inl ⟨hready, hrefused⟩) hP⟩
    cases dir with
    | decrypt =>
      rw [space_setSpace]
      exact ⟨hinited.trans (hs .decrypt).1, hunkeyed⟩
    | encrypt =>
      rw [hother]
      exact hs .encrypt

end KeyConn

end Install

namespace KeyConn

variable {Ctx : Type} {lib : CipherLib} {evp : EvpOpen Ctx} {s t : KeyConn Ctx}
    {level : KeyLevel} {dir : KeyDir}

/-- The keys of a cipher space stay those of its level when the connection remembers more. -/
theorem Keyed.of_space (hserver : t.server = s.server) (hpast : s.past ⊆ t.past)
    (h : s.Keyed lib level dir)
    (hkeys : ∀ {md secret}, (s.space level dir).KeyedFrom lib md secret →
      (t.space level dir).KeyedFrom lib md secret) : t.Keyed lib level dir := by
  obtain ⟨md, secret, hsecret, hkeyed⟩ := h
  exact ⟨md, secret, hserver ▸ hsecret.mono hpast, hkeys hkeyed⟩

/-- A cipher space that works under the same keys stays proper. -/
theorem SpaceProper.of_sameKeys (hserver : t.server = s.server) (hpast : s.past ⊆ t.past)
    (h : s.SpaceProper lib level dir) (hkeys : SameKeys (s.space level dir) (t.space level dir)) :
    t.SpaceProper lib level dir := by
  have hbind : ∀ o : Option (KeyCtx Ctx), o.bind KeyCtx.key = (o.map KeyCtx.key).join := by
    intro o
    cases o <;> rfl
  have hhp : (t.space level dir).hpCipher.key = (s.space level dir).hpCipher.key := by
    rw [QuicCipher.key, QuicCipher.key, hbind, hbind, hkeys.hp]
  have hpp : (t.space level dir).ppCipher.cipher.key = (s.space level dir).ppCipher.cipher.key := by
    rw [QuicCipher.key, QuicCipher.key, hbind, hbind, hkeys.pp]
  rw [SpaceProper, hkeys.inited]
  rcases h with ⟨hinited, hkeyed⟩ | ⟨hinited, hunkeyed⟩
  · refine .inl ⟨hinited, hkeyed.of_space hserver hpast ?_⟩
    rintro md secret ⟨⟨hpKey, hhpKey, hhpOf⟩, ppKey, hppKey, hppOf⟩
    exact ⟨⟨hpKey, hhp.trans hhpKey, hhpOf⟩, ppKey, hpp.trans hppKey, hppOf⟩
  · exact .inr ⟨hinited, hpp.trans hunkeyed⟩

/-- A cipher space that stays as it is stays proper. -/
theorem SpaceProper.of_eq (hserver : t.server = s.server) (hpast : s.past ⊆ t.past)
    (h : s.SpaceProper lib level dir) (hspace : t.space level dir = s.space level dir) :
    t.SpaceProper lib level dir :=
  h.of_sameKeys hserver hpast (hspace ▸ SameKeys.refl _)

/-- A cipher space with a wrong flag contradicts the flags. -/
theorem SpaceWrong.not_installed (h : s.SpaceWrong lib level dir) : ¬ s.Installed lib := by
  intro hs
  rcases h with ⟨hinited, hunkeyed⟩ | ⟨hinited, hkeyed⟩
  · obtain ⟨md, secret, -, -, hpp⟩ := (hs level dir).mp hinited
    exact hunkeyed.not_keyedFrom hpp
  · rw [(hs level dir).mpr hkeyed] at hinited
    cases hinited

variable (lib) in
/-- What holds of a connection as long as its keys are installed properly. -/
structure KeyInv (s : KeyConn Ctx) : Prop where
  /-- The cipher spaces. -/
  proper : ∀ level dir, s.SpaceProper lib level dir
  /-- The secrets. -/
  remembers : s.Remembers

/-- Proper cipher spaces are those that the flags say. -/
theorem KeyInv.installed (h : s.KeyInv lib) : s.Installed lib := by
  intro level dir
  rcases h.proper level dir with ⟨hinited, hkeyed⟩ | ⟨hinited, hunkeyed⟩
  · exact iff_of_true hinited hkeyed
  · refine iff_of_false ?_ ?_
    · rw [hinited]
      exact Bool.false_ne_true
    · rintro ⟨md, secret, -, -, hpp⟩
      exact hunkeyed.not_keyedFrom hpp

/-- A cipher space without its flag has no key. -/
theorem KeyInv.unkeyed (h : s.KeyInv lib) (hinited : ¬ (s.space level dir).cipherInited = true) :
    (s.space level dir).cipherInited = false ∧ (s.space level dir).Unkeyed :=
  (h.proper level dir).resolve_left fun h => hinited h.1

/-- An installation that ends properly under a condition keeps the keys proper exactly then. -/
theorem KeyInv.of_installEnds {P : Prop} (hs : s.KeyInv lib)
    (h : InstallEnds lib level dir P s t) : (P → t.KeyInv lib) ∧ (t.Installed lib ↔ P) := by
  have hinv : P → t.KeyInv lib := by
    intro hP
    refine ⟨fun l d => ?_, ?_⟩
    · by_cases heq : (l, d) = (level, dir)
      · obtain ⟨rfl, rfl⟩ := Prod.mk.inj heq
        exact h.proper hP
      · exact (hs.proper l d).of_eq h.server (h.past ▸ List.Subset.refl _) (h.space l d heq)
    · obtain ⟨u, hu, hhandshake, hmaster⟩ := hs.remembers
      exact ⟨u, h.past ▸ hu, h.handshakeSecret.trans hhandshake, h.masterSecret.trans hmaster⟩
  refine ⟨hinv, fun hinst => ?_, fun hP => (hinv hP).installed⟩
  by_contra hP
  exact SpaceWrong.not_installed (.inl (h.flagged hP)) hinst

/-- The Initial keys are proper exactly under their condition. -/
theorem KeyInv.of_initialEnds {P : Prop} (hs : s.KeyInv lib) (h : InitialEnds lib P s t) :
    (P → t.KeyInv lib) ∧ (t.Installed lib ↔ P) := by
  have hinv : P → t.KeyInv lib := by
    intro hP
    refine ⟨fun l d => ?_, ?_⟩
    · by_cases hl : l = .initial
      · exact hl ▸ h.proper hP d
      · exact (hs.proper l d).of_eq h.server (h.past ▸ List.Subset.refl _) (h.space l d hl)
    · obtain ⟨u, hu, hsecrets⟩ := hs.remembers
      rw [Remembers, h.past, h.tls]
      exact ⟨u, hu, hsecrets⟩
  refine ⟨hinv, fun hinst => ?_, fun hP => (hinv hP).installed⟩
  by_contra hP
  obtain ⟨dir, hwrong⟩ := h.wrong hP
  exact hwrong.not_installed hinst

/-- A packet number space that works under the same keys stays proper. -/
theorem KeyInv.setCrypto (hs : s.KeyInv lib) {c : QuicCrypto (KeyCtx Ctx)}
    (hdec : SameKeys (s.crypto level).decrypt c.decrypt)
    (henc : SameKeys (s.crypto level).encrypt c.encrypt) : (s.setCrypto level c).KeyInv lib := by
  refine ⟨fun l d => @SpaceProper.of_sameKeys _ lib s _ l d rfl (List.Subset.refl _)
    (hs.proper l d) ?_, hs.remembers⟩
  by_cases hl : l = level
  · subst hl
    cases d <;> simp only [KeyConn.setCrypto, space, if_true] <;> assumption
  · cases d <;> simp only [KeyConn.setCrypto, space, if_neg hl] <;> exact SameKeys.refl _

/-- The arguments of the handshake keys for the packets of one side. -/
def handshakeKeysOf (server : Bool) : TrafficKeys :=
  if server then handshakeServerKeys else handshakeClientKeys

/-- The arguments of the application keys for the packets of one side. -/
def appDataKeysOf (server : Bool) : TrafficKeys :=
  if server then appDataServerKeys else appDataClientKeys

/-- The handshake keys that TLS installs are those of the side that sends the packets. -/
theorem installHandshake_eq (server : Bool) (dir : KeyDir) (calls : InstallCalls Ctx) :
    installHandshake lib server dir calls =
      quicCreateEncryptorDecryptor lib (handshakeKeysOf (dir.bySrvr server)) dir calls := by
  cases server <;> cases dir <;> rfl

/-- The application keys that TLS installs are those of the side that sends the packets. -/
theorem installAppData_eq (server : Bool) (dir : KeyDir) (calls : InstallCalls Ctx) :
    installAppData lib server dir calls =
      quicCreateEncryptorDecryptor lib (appDataKeysOf (dir.bySrvr server)) dir calls := by
  cases server <;> cases dir <;> rfl

theorem handshakeKeysOf_right (server : Bool) :
    (handshakeKeysOf server).Right .handshake server := by
  cases server
  · exact handshakeClientKeys_right
  · exact handshakeServerKeys_right

theorem appDataKeysOf_right (server : Bool) : (appDataKeysOf server).Right .application server := by
  cases server
  · exact appDataClientKeys_right
  · exact appDataServerKeys_right

variable (lib) in
/-- The keys of a direction are installed already, or the header protection can be prepared if the
installation gets to the ciphers. -/
def KeysInstall (s : KeyConn Ctx) (keys : TrafficKeys) (dir : KeyDir) (calls : InstallCalls Ctx) :
    Prop :=
  (s.space keys.level dir).cipherInited = false → HpInstalls lib s keys calls

/-- The installation of keys of TLS keeps the keys proper exactly under its condition. -/
theorem KeyInv.create (hs : s.KeyInv lib) {keys : TrafficKeys}
    (hkeys : keys.Right level (dir.bySrvr s.server)) (calls : InstallCalls Ctx) :
    (KeysInstall lib s keys dir calls →
        (quicCreateEncryptorDecryptor lib keys dir calls s).2.KeyInv lib) ∧
      ((quicCreateEncryptorDecryptor lib keys dir calls s).2.Installed lib ↔
        KeysInstall lib s keys dir calls) := by
  rw [KeysInstall, hkeys.level_eq]
  by_cases hinited : (s.space level dir).cipherInited = true
  · have hrun : quicCreateEncryptorDecryptor lib keys dir calls s = (.ok (), s) := by
      rw [quicCreateEncryptorDecryptor, hkeys.level_eq, Prog.get_bind, if_pos hinited,
        Prog.pure_apply]
    rw [hrun]
    refine ⟨fun _ => hs, fun _ h => ?_, fun _ => hs.installed⟩
    rw [hinited] at h
    cases h
  · obtain ⟨hfalse, hunkeyed⟩ := hs.unkeyed hinited
    have hends := hs.of_installEnds
      (quicCreateEncryptorDecryptor_ends hkeys hs.remembers hfalse hunkeyed calls)
    exact ⟨fun h => hends.1 (h hfalse), hends.2.trans ⟨fun h _ => h, fun h => h hfalse⟩⟩

variable (lib) in
/-- The Initial keys are installed already, or cannot be derived, or the ciphers of both sides can
be prepared as far as their flags will say. -/
def InitialKeysInstall (s : KeyConn Ctx) (version : ℕ) (cid : List UInt8)
    (calls : InitialCalls Ctx) : Prop :=
  ¬ ((s.space .initial .decrypt).cipherInited ∨ (s.space .initial .encrypt).cipherInited) →
    quicDeriveInitialSecrets lib calls.derive version cid ≠ none →
    InitialInstalls lib s calls.space

/-- `QuicCreateInitialDecoders` keeps the keys proper exactly under its condition. -/
theorem KeyInv.createInitial (hs : s.KeyInv lib) (version : ℕ) (cid : List UInt8)
    (calls : InitialCalls Ctx) :
    (InitialKeysInstall lib s version cid calls →
        (quicCreateInitialDecoders lib version cid calls s).2.KeyInv lib) ∧
      ((quicCreateInitialDecoders lib version cid calls s).2.Installed lib ↔
        InitialKeysInstall lib s version cid calls) := by
  rw [quicCreateInitialDecoders, InitialKeysInstall, Prog.get_bind]
  by_cases hinited : (s.space .initial .decrypt).cipherInited = true ∨
      (s.space .initial .encrypt).cipherInited = true
  · rw [if_pos hinited, Prog.pure_apply]
    exact ⟨fun _ => hs, fun _ h => absurd hinited h, fun _ => hs.installed⟩
  · rw [if_neg hinited]
    cases hderive : quicDeriveInitialSecrets lib calls.derive version cid with
    | none =>
      rw [Prog.ofOption_none, Prog.fail_bind, Prog.fail_apply]
      exact ⟨fun _ => hs, fun _ _ h => absurd rfl h, fun _ => hs.installed⟩
    | some secrets =>
      obtain ⟨client, server⟩ := secrets
      have hflags : ∀ dir, (s.space .initial dir).cipherInited = false ∧
          (s.space .initial dir).Unkeyed := by
        intro dir
        cases dir with
        | decrypt => exact hs.unkeyed fun h => hinited (.inl h)
        | encrypt => exact hs.unkeyed fun h => hinited (.inr h)
      have hclient : SecretOf lib s.past .initial false .sha256 client := .initialClient hderive
      have hserver : SecretOf lib s.past .initial true .sha256 server := .initialServer hderive
      have hends : InitialEnds lib (InitialInstalls lib s calls.space) s
          ((if s.server then quicPrepareEncoderDecoders lib .sha256 client server calls.space
            else quicPrepareEncoderDecoders lib .sha256 server client calls.space :
            Prog Fail (KeyConn Ctx) Unit) s).2 := by
        cases hside : s.server with
        | true =>
          exact quicPrepareEncoderDecoders_ends (hside ▸ hclient) (hside ▸ hserver) hflags
            calls.space
        | false =>
          exact quicPrepareEncoderDecoders_ends (hside ▸ hserver) (hside ▸ hclient) hflags
            calls.space
      rw [Prog.ofOption_some, Prog.pure_bind]
      obtain ⟨hinv, hiff⟩ := hs.of_initialEnds hends
      exact ⟨fun h => hinv (h hinited (Option.some_ne_none _)),
        hiff.trans ⟨fun h _ _ => h, fun h => h hinited (Option.some_ne_none _)⟩⟩

/-- A client does not have handshake keys when it frees them. -/
def DoneBeforeKeys (s : KeyConn Ctx) : Prop :=
  s.server = true ∨ ∀ dir, (s.space .handshake dir).cipherInited = false

/-- A `HANDSHAKE_DONE` frame keeps the keys proper exactly when there are none to free. -/
theorem KeyInv.done (hs : s.KeyInv lib) :
    (s.DoneBeforeKeys → (handshakeDone s).KeyInv lib) ∧
      ((handshakeDone s).Installed lib ↔ s.DoneBeforeKeys) := by
  rw [handshakeDone, DoneBeforeKeys]
  by_cases hside : s.server = true
  · rw [if_pos hside]
    exact ⟨fun _ => hs, fun _ => .inl hside, fun _ => hs.installed⟩
  · rw [if_neg hside]
    have hspace : ∀ d, (s.setCrypto .handshake (quicCryptoKeyFree (s.crypto .handshake))).space
        .handshake d = quicCipherCtxFree (s.space .handshake d) := by
      intro d
      cases d <;> rfl
    have hinv : (∀ dir, (s.space .handshake dir).cipherInited = false) →
        (s.setCrypto .handshake (quicCryptoKeyFree (s.crypto .handshake))).KeyInv lib := by
      intro hflags
      refine ⟨fun l d => ?_, hs.remembers⟩
      by_cases hl : l = .handshake
      · subst hl
        rw [SpaceProper, hspace]
        exact .inr ⟨hflags d, rfl⟩
      · refine @SpaceProper.of_eq _ lib s _ l d rfl (List.Subset.refl _) (hs.proper l d) ?_
        cases d <;> simp only [space, KeyConn.setCrypto, if_neg hl]
    refine ⟨fun h => hinv (h.resolve_left hside), fun hinst => .inr fun dir => ?_,
      fun h => (hinv (h.resolve_left hside)).installed⟩
    by_contra hflag
    have hwrong : SpaceWrong lib (s.setCrypto .handshake (quicCryptoKeyFree (s.crypto .handshake)))
        .handshake dir := by
      rw [SpaceWrong, hspace]
      exact .inl ⟨Bool.eq_true_of_not_eq_false hflag, rfl⟩
    exact hwrong.not_installed hinst

variable (lib evp) in
/-- The calls into the cryptographic library do not leave a flag without its contexts or contexts
without their flag, a client gets no `HANDSHAKE_DONE` frame behind its handshake keys, and no packet
whose header can be read arrives where the packet protection has no context. -/
def KeysKept (s : KeyConn Ctx) : KeyEvent Ctx → Prop
  | .initialKeys version cid calls => InitialKeysInstall lib s version cid calls
  | .handshakeKeys dir calls => KeysInstall lib s (handshakeKeysOf (dir.bySrvr s.server)) dir calls
  | .appDataKeys dir calls => KeysInstall lib s (appDataKeysOf (dir.bySrvr s.server)) dir calls
  | .handshakeDone => s.DoneBeforeKeys
  | .decrypt level now _ bitMask pkt =>
    ∀ r t, PktOpen.quicDecryptPktNum evp.keyed now bitMask ⟨s.crypto level, pkt⟩ = (.ok r, t) →
      (s.space level .decrypt).ppCipher.cipher.ctx ≠ none
  | _ => True

/-- The packet number of a packet is read with a context of the header protection only. -/
theorem hpCtx_of_quicDecryptPktNum {now bitMask : ℕ} {p q : PktOpen (KeyCtx Ctx)} {r : ℕ × ℕ}
    (h : PktOpen.quicDecryptPktNum evp.keyed now bitMask p = (.ok r, q)) :
    p.hpCipher.ctx ≠ none := by
  intro hnone
  have hmask : ∀ n l, PktOpen.quicHPMaskGen evp.keyed 16 n l
      { p with crypto.arrivTime := now } = (.error .ret, { p with crypto.arrivTime := now }) := by
    intro n l
    rw [PktOpen.quicHPMaskGen, Prog.get_bind,
      show PktOpen.hpCipher { p with crypto.arrivTime := now } = p.hpCipher from rfl, hnone,
      Prog.ofOption_none, Prog.fail_bind, Prog.fail_apply]
  have hheader : PktOpen.quicDecryptHeader evp.keyed bitMask { p with crypto.arrivTime := now } =
      (.error .ret, { p with crypto.arrivTime := now }) := by
    rw [PktOpen.quicDecryptHeader, Prog.get_bind, Prog.bind_of_error (hmask _ _)]
  rw [PktOpen.quicDecryptPktNum, Prog.modify_bind, Prog.bind_of_error hheader] at h
  cases h

/-- An event is proper exactly under its condition, and keeps the invariant then. -/
theorem KeyInv.act (hs : s.KeyInv lib) (e : KeyEvent Ctx) :
    (s.KeysKept lib evp e → (s.act lib evp e).KeyInv lib) ∧
      (s.KeysProper lib evp e ↔ s.KeysKept lib evp e) := by
  cases e with
  | keySchedule t =>
    have hinv : KeyInv lib (s.act lib evp (.keySchedule t)) :=
      ⟨fun l d => @SpaceProper.of_eq _ lib s _ l d rfl (List.subset_cons_self t s.past)
        (hs.proper l d) (by cases d <;> rfl), t, List.mem_cons_self, rfl, rfl⟩
    exact ⟨fun _ => hinv, iff_of_true ⟨trivial, hinv.installed⟩ trivial⟩
  | initialKeys version cid calls =>
    obtain ⟨hinv, hiff⟩ := hs.createInitial version cid calls
    exact ⟨hinv, (and_iff_right trivial).trans hiff⟩
  | handshakeKeys dir calls =>
    obtain ⟨hinv, hiff⟩ := hs.create (handshakeKeysOf_right (dir.bySrvr s.server)) calls
    rw [← installHandshake_eq] at hinv hiff
    exact ⟨hinv, (and_iff_right trivial).trans hiff⟩
  | appDataKeys dir calls =>
    obtain ⟨hinv, hiff⟩ := hs.create (appDataKeysOf_right (dir.bySrvr s.server)) calls
    rw [← installAppData_eq] at hinv hiff
    exact ⟨hinv, (and_iff_right trivial).trans hiff⟩
  | handshakeDone =>
    obtain ⟨hinv, hiff⟩ := hs.done
    exact ⟨hinv, (and_iff_right trivial).trans hiff⟩
  | counters level c =>
    have hinv : KeyInv lib (s.act lib evp (.counters level c)) :=
      hs.setCrypto (SameKeys.refl _) (SameKeys.refl _)
    exact ⟨fun _ => hinv, iff_of_true ⟨trivial, hinv.installed⟩ trivial⟩
  | build level firstByte pktNumLen mask pkt qb =>
    obtain ⟨henc, hdec⟩ := quicPacketBuild_keys evp.toEvp firstByte pktNumLen mask
      (s.toBuild level pkt qb)
    have hinv : KeyInv lib (s.act lib evp (.build level firstByte pktNumLen mask pkt qb)) :=
      hs.setCrypto (hdec ▸ SameKeys.refl _) henc
    refine ⟨fun _ => hinv, iff_of_true ⟨fun hinited => ?_, hinv.installed⟩ trivial⟩
    obtain ⟨md, secret, -, hkeyed⟩ := (hs.installed level .encrypt).mp hinited
    exact hkeyed.hasContexts
  | decrypt level now outBufLen bitMask pkt =>
    obtain ⟨hdec, henc⟩ := PktOpen.quicDecryptPacket_keys evp now outBufLen bitMask
      ⟨s.crypto level, pkt⟩
    have hinv : KeyInv lib (s.act lib evp (.decrypt level now outBufLen bitMask pkt)) :=
      hs.setCrypto hdec (henc ▸ SameKeys.refl _)
    refine ⟨fun _ => hinv, fun h r t hrun => (h.1 r t hrun).2, fun h => ⟨fun r t hrun => ?_,
      hinv.installed⟩⟩
    exact ⟨hpCtx_of_quicDecryptPktNum hrun, h r t hrun⟩

/-- A new connection has its keys installed properly. -/
theorem start_keyInv (server : Bool) : (start server : KeyConn Ctx).KeyInv lib := by
  refine ⟨fun l d => .inr ?_, .start, List.mem_cons_self, rfl, rfl⟩
  cases l <;> cases d <;> exact ⟨rfl, rfl⟩

/-- In a run of a connection the flags always say which cipher spaces have their keys, and no packet
uses a missing context, exactly when every event keeps the keys. -/
theorem keysProper_along_iff (lib : CipherLib) (evp : EvpOpen Ctx) (server : Bool)
    (es : List (KeyEvent Ctx)) :
    Trace.Along (step lib evp) (KeysProper lib evp) (start server) es ↔
      Trace.Along (step lib evp) (KeysKept lib evp) (start server) es := by
  refine Trace.along_congr_of_invariant (KeyInv lib) (fun s e hs => (hs.act e).2) ?_
    (start_keyInv server)
  intro s e t hs hproper ht
  obtain rfl := Option.some.inj ht
  exact (hs.act e).1 ((hs.act e).2.mp hproper)

end KeyConn

section Done

/-- A digest of zeros has its size. -/
theorem zeroDigest_length (md : QuicDigest) (_bytes : List UInt8) :
    (List.replicate md.size (0 : UInt8)).length = md.size :=
  List.length_replicate

/-- A library that knows the ciphers of 128 bits and whose digests are zeros. -/
def zeroCipherLib : CipherLib where
  tls :=
    { digest := fun md _ => List.replicate md.size 0
      digest_length := zeroDigest_length
      hmac := fun md _ _ => List.replicate md.size 0
      hmac_length := fun _ _ _ => List.length_replicate
      hkdfExtract := fun md _ _ => some (List.replicate md.size 0)
      hkdfExtract_length := fun _ _ _ _ h => Option.some.inj h ▸ List.length_replicate }
  keyLength
    | .aes128Ecb | .aes128Gcm => some 16
    | _ => none

/-- Calls that all succeed. -/
def plainCalls : CipherCalls Unit := ⟨true, true, some (), some ()⟩

/-- An installation of which all calls succeed. -/
def plainInstall : InstallCalls Unit :=
  ⟨true, some ⟨List.replicate 32 0, by decide⟩, true, true, true, ⟨plainCalls, plainCalls⟩⟩

/-- The library without a tag. -/
def plainEvpOpen : EvpOpen Unit where
  toEvp := plainEvp
  setTag _ _ := some ()

/-- A client that negotiated `TLS_AES_128_GCM_SHA256` installs its handshake keys and gets a
`HANDSHAKE_DONE` frame. -/
def doneEvents : List (KeyEvent Unit) :=
  [.keySchedule { KeySchedule.start with handshakeCipher := some ⟨0x1301, 3, .sha256⟩ },
    .handshakeKeys .encrypt plainInstall, .handshakeDone]

/-- Behind a `HANDSHAKE_DONE` frame a client has the flag of its handshake keys but no context. -/
theorem handshakeDone_leaves_flag :
    ¬ Trace.Along (KeyConn.step zeroCipherLib plainEvpOpen)
      (KeyConn.KeysProper zeroCipherLib plainEvpOpen) (KeyConn.start false) doneEvents := by
  intro h
  have hdone := (h.2 _ rfl).2 _ rfl
  have hkeyed := (hdone.1.2 .handshake .encrypt).mp (by decide +kernel)
  obtain ⟨md, secret, -, -, hpp⟩ := hkeyed
  exact hpp.ctx_ne_none (Option.isNone_iff_eq_none.mp (by decide +kernel))

end Done

end Tbquic
