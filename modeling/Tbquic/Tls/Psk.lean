import Mathlib.Algebra.BigOperators.Group.List.Basic
import Tbquic.Packet
import Tbquic.Tls.Session

/-!
# The choice of a pre-shared key by a server

A ClientHello ends with the tickets that the client offers and a binder for each. The server
takes the first ticket that it can open and that fits the negotiated cipher suite. Its loop keeps
the last session that it opened, also one that does not fit.
-/

namespace Tbquic

/-- The fields of a connection that the choice of a pre-shared key writes. -/
structure TlsPsk where
  /-- `hit`. -/
  hit : Bool
  /-- `early_secret`. -/
  earlySecret : TlsSecret
  /-- `ext.tick_identity`. -/
  tickIdentity : ℕ
  /-- `session` of the connection, or `NULL`. -/
  session : Option QuicSession
  deriving DecidableEq, Repr

/-- The part of `TlsPskDoBinder` after the early secret is known. -/
def tlsPskBinder (lib : TlsLib) (md : QuicDigest) (earlySecret msg : List UInt8) :
    Option (List UInt8) := do
  let binderkey ← tls13HkdfExpandLabel lib md earlySecret "res binder" (lib.digest md []) md.size
  let finishedkey ← tlsDeriveFinishedKey lib md binderkey
  some (lib.hmac md finishedkey (lib.digest md msg))

/-- `TlsPskDoBinder`, with the early secret of the connection as state. A binder that was received
is compared. -/
def tlsPskDoBinder (lib : TlsLib) (md : QuicDigest) (msg : List UInt8)
    (binderIn : Option (List UInt8)) (t : QuicSessionTicket) :
    Prog Fail TlsSecret (List UInt8) := do
  let secret ← Prog.ofOption .ret (tlsGenerateSecret lib md none (some t.masterKey))
  Prog.modify (·.set secret)
  let earlySecret ← Prog.get
  let binder ← Prog.ofOption .ret (tlsPskBinder lib md (earlySecret.get md.size) msg)
  Prog.ensure .ret (∀ bytes ∈ binderIn, bytes.take md.size = binder)
  pure binder

/-- The binder of a key for a message. -/
def pskBinder (lib : TlsLib) (md : QuicDigest) (masterKey msg : List UInt8) :
    Option (List UInt8) := do
  let secret ← tlsGenerateSecret lib md none (some masterKey)
  tlsPskBinder lib md secret msg

/-- What a server uses to choose a key: the libraries, its ticket key, the current time and the
cipher suite of the handshake. -/
structure PskServer where
  /-- The digests. -/
  lib : TlsLib
  /-- The tickets. -/
  tl : TlsTicketLib
  /-- `ext.ticket_key`. -/
  ticketKey : TlsTicketKey
  /-- The current time. -/
  now : ℤ
  /-- `handshake_cipher`. -/
  handshakeCipher : TlsCipher

/-- The digest of a session is the one of the handshake. -/
def PskServer.Compatible (srv : PskServer) (sess : QuicSession) : Prop :=
  sess.cipher.map TlsCipher.digest = some srv.handshakeCipher.digest

instance (srv : PskServer) (sess : QuicSession) : Decidable (srv.Compatible sess) :=
  inferInstanceAs (Decidable (_ = _))

/-- The loop of `TlsExtsrvrParsePsk` over the identities, from the identity `id`. The state is the
list of the identities and the session pointer. -/
def parsePskIdentities (srv : PskServer) : ℕ → ℕ → Prog Fail (RPacket × Option QuicSession) ℕ
  | 0, _ => Prog.fail .fuel
  | fuel + 1, id => do
    let locals ← Prog.get
    if locals.1.remaining = 0 then pure id
    else do
      let identity ← Prog.onFst (rPacketGetLengthPrefixed 2)
      let _ ← Prog.onFst rPacketGet4
      let opened ← Prog.onSnd (Prog.attempt
        (tlsDecryptTicket srv.lib srv.tl srv.ticketKey srv.now identity.rest))
      match opened with
      | .error _ => parsePskIdentities srv fuel (id + 1)
      | .ok sess =>
        if srv.Compatible sess then pure id else parsePskIdentities srv fuel (id + 1)

/-- The loop of `TlsExtsrvrParsePsk` over the binders, up to the one with the given index. -/
def parsePskBinder : ℕ → Prog Fail RPacket (List UInt8)
  | 0 => do
    let binder ← rPacketGetLengthPrefixed 1
    pure binder.rest
  | id + 1 => do
    let _ ← rPacketGetLengthPrefixed 1
    parsePskBinder id

/-- The part of `TlsExtsrvrParsePsk` after the loop, with the session that it left. The bytes that
were read start at the head of the message. -/
def parsePskSession (srv : PskServer) (id : ℕ) (sess : QuicSession) :
    Prog Fail (RPacket × TlsPsk) Unit := do
  let s ← Prog.get
  let cipher ← Prog.ofOption .ub sess.cipher
  let binders ← Prog.onFst (rPacketGetLengthPrefixed 2)
  let binder ← Prog.ofExcept (parsePskBinder id binders).1
  Prog.ensure .ret (binder.length = cipher.digest.size)
  let t ← Prog.ofOption .ret (quicSessionTicketPickTail sess)
  let _ ← Prog.onSnd (Prog.zoom TlsPsk.earlySecret
    (fun secret p => { p with earlySecret := secret })
    (tlsPskDoBinder srv.lib cipher.digest s.1.past (some binder) t))
  Prog.onSnd (Prog.modify fun p => { p with session := some sess, hit := true, tickIdentity := id })

/-- `TlsExtsrvrParsePsk`. -/
def tlsExtsrvrParsePsk (srv : PskServer) : Prog Fail (RPacket × TlsPsk) Unit := do
  let identities ← Prog.onFst (rPacketGetLengthPrefixed 2)
  let run := parsePskIdentities srv (identities.remaining + 1) 0 (identities, none)
  let id ← Prog.ofExcept run.1
  match run.2.2 with
  | none => pure ()
  | some sess => parsePskSession srv id sess

/-- An identity as a client sends it. -/
structure PskIdentity where
  /-- The ticket. -/
  identity : List UInt8
  /-- The age of the ticket. -/
  obfuscatedTicketAge : ℕ
  /-- The length of the ticket has 16 bits. -/
  identity_lt : identity.length < 2 ^ 16
  /-- The age has 32 bits. -/
  age_lt : obfuscatedTicketAge < 2 ^ 32

/-- The bytes of an identity. -/
def PskIdentity.encode (i : PskIdentity) : List UInt8 :=
  Bytes.ofNat 2 i.identity.length ++ i.identity ++ Bytes.ofNat 4 i.obfuscatedTicketAge

/-- A binder as a client sends it. -/
structure PskBinder where
  /-- The bytes. -/
  binder : List UInt8
  /-- Their number has 8 bits. -/
  binder_lt : binder.length < 2 ^ 8

/-- The bytes of a binder. -/
def PskBinder.encode (b : PskBinder) : List UInt8 :=
  Bytes.ofNat 1 b.binder.length ++ b.binder

/-- A `pre_shared_key` extension of a ClientHello. -/
structure PskExtension where
  /-- The identities. -/
  identities : List PskIdentity
  /-- The binders. -/
  binders : List PskBinder
  /-- The length of the identities has 16 bits. -/
  identities_lt : (identities.flatMap PskIdentity.encode).length < 2 ^ 16
  /-- The length of the binders has 16 bits. -/
  binders_lt : (binders.flatMap PskBinder.encode).length < 2 ^ 16

namespace PskExtension

/-- The list of the identities with its length, with which the part of the message that the
binders protect ends. -/
def identityBytes (ext : PskExtension) : List UInt8 :=
  let body := ext.identities.flatMap PskIdentity.encode
  Bytes.ofNat 2 body.length ++ body

/-- The list of the binders with its length. -/
def binderBytes (ext : PskExtension) : List UInt8 :=
  let body := ext.binders.flatMap PskBinder.encode
  Bytes.ofNat 2 body.length ++ body

/-- The bytes of the extension. -/
def encode (ext : PskExtension) : List UInt8 := ext.identityBytes ++ ext.binderBytes

end PskExtension

namespace PskServer

variable (srv : PskServer)

/-- The ticket is authentic and decrypts to a session. -/
def Opens (i : PskIdentity) (sess : QuicSession) : Prop :=
  ∃ plain, ticketPlaintext srv.lib srv.tl srv.ticketKey i.identity = some plain ∧
    d2iQuicSession srv.tl srv.now plain = some sess

/-- The ticket is authentic and decrypts, but not to a session. -/
def Undecodable (i : PskIdentity) : Prop :=
  ∃ plain, ticketPlaintext srv.lib srv.tl srv.ticketKey i.identity = some plain ∧
    d2iQuicSession srv.tl srv.now plain = none

/-- The ticket opens to a session that fits the handshake. -/
def Acceptable (i : PskIdentity) : Prop := ∃ sess, srv.Opens i sess ∧ srv.Compatible sess

/-- The ticket opens to a session that does not fit the handshake. -/
def Incompatible (i : PskIdentity) : Prop := ∃ sess, srv.Opens i sess ∧ ¬ srv.Compatible sess

/-- After every ticket of a session that does not fit comes one that does not decode. -/
def Cleared (is : List PskIdentity) : Prop :=
  ∀ before i after, is = before ++ i :: after → srv.Incompatible i → ∃ j ∈ after, srv.Undecodable j

/-- The identity at which the loop stops, counted from `id`, and the session it leaves. -/
def scan : List PskIdentity → ℕ → Option QuicSession → ℕ × Option QuicSession
  | [], id, sess => (id, sess)
  | i :: is, id, sess =>
    match ticketPlaintext srv.lib srv.tl srv.ticketKey i.identity with
    | none => scan is (id + 1) sess
    | some plain =>
      match d2iQuicSession srv.tl srv.now plain with
      | none => scan is (id + 1) none
      | some sess' => if srv.Compatible sess' then (id, some sess') else
          scan is (id + 1) (some sess')

variable {srv}

/-- A ticket opens to one session. -/
theorem Opens.unique {i : PskIdentity} {sess sess' : QuicSession} (h : srv.Opens i sess)
    (h' : srv.Opens i sess') : sess = sess' := by
  obtain ⟨plain, hplain, hsess⟩ := h
  obtain ⟨plain', hplain', hsess'⟩ := h'
  rw [hplain] at hplain'
  cases hplain'
  rw [hsess] at hsess'
  cases hsess'
  rfl

/-- A ticket that opens is not one that does not decode. -/
theorem Opens.not_undecodable {i : PskIdentity} {sess : QuicSession} (h : srv.Opens i sess) :
    ¬ srv.Undecodable i := by
  rintro ⟨plain', hplain', hnone⟩
  obtain ⟨plain, hplain, hsess⟩ := h
  rw [hplain] at hplain'
  cases hplain'
  rw [hsess] at hnone
  cases hnone

/-- A session that does not fit stays in the way until a ticket does not decode. -/
theorem cleared_cons {i : PskIdentity} {is : List PskIdentity} :
    srv.Cleared (i :: is) ↔
      (srv.Incompatible i → ∃ j ∈ is, srv.Undecodable j) ∧ srv.Cleared is := by
  constructor
  · intro h
    refine ⟨h [] i is rfl, ?_⟩
    rintro before j after rfl
    exact h (i :: before) j after rfl
  · rintro ⟨hhead, htail⟩ before j after heq
    cases before with
    | nil =>
      cases heq
      exact hhead
    | cons _ before =>
      cases heq
      exact htail before j after rfl

/-- The loop stops at the first acceptable identity with its session, or it ends with the session
that was not cleared. -/
theorem scan_cases (is : List PskIdentity) (id : ℕ) (sess : Option QuicSession) :
    (∃ before i after sess', is = before ++ i :: after ∧ srv.Opens i sess' ∧
        srv.Compatible sess' ∧ srv.scan is id sess = (id + before.length, some sess')) ∨
      ((∀ i ∈ is, ¬ srv.Acceptable i) ∧ (srv.scan is id sess).1 = id + is.length ∧
        ((srv.scan is id sess).2 = none ↔
          srv.Cleared is ∧ (sess = none ∨ ∃ j ∈ is, srv.Undecodable j))) := by
  induction is generalizing id sess with
  | nil =>
    right
    refine ⟨by simp, rfl, ?_⟩
    constructor
    · intro h
      refine ⟨?_, Or.inl h⟩
      intro before i after heq
      simp at heq
    · rintro ⟨_, hnone | ⟨j, hj, _⟩⟩
      · exact hnone
      · simp at hj
  | cons i is ih =>
    -- One more identity that is passed over, with what its ticket does to the session.
    have hpass (sess' : Option QuicSession)
        (hscan : srv.scan (i :: is) id sess = srv.scan is (id + 1) sess')
        (hnot : ¬ srv.Acceptable i)
        (hclear : srv.Cleared is ∧ (sess' = none ∨ ∃ j ∈ is, srv.Undecodable j) ↔
          srv.Cleared (i :: is) ∧ (sess = none ∨ ∃ j ∈ i :: is, srv.Undecodable j)) :
        (∃ before j after sess', i :: is = before ++ j :: after ∧ srv.Opens j sess' ∧
          srv.Compatible sess' ∧ srv.scan (i :: is) id sess = (id + before.length, some sess')) ∨
        ((∀ j ∈ i :: is, ¬ srv.Acceptable j) ∧
          (srv.scan (i :: is) id sess).1 = id + (i :: is).length ∧
          ((srv.scan (i :: is) id sess).2 = none ↔
            srv.Cleared (i :: is) ∧ (sess = none ∨ ∃ j ∈ i :: is, srv.Undecodable j))) := by
      rw [hscan]
      rcases ih (id + 1) sess' with ⟨before, j, after, found, rfl, hopens, hfits, hrun⟩ |
        ⟨hnone, hid, hleft⟩
      · left
        refine ⟨i :: before, j, after, found, rfl, hopens, hfits, ?_⟩
        rw [hrun, List.length_cons, Nat.add_right_comm, Nat.add_assoc]
      · right
        refine ⟨?_, ?_, hleft.trans hclear⟩
        · intro j hj
          rcases List.mem_cons.mp hj with rfl | hj
          · exact hnot
          · exact hnone j hj
        · rw [hid, List.length_cons]
          omega
    cases hplain : ticketPlaintext srv.lib srv.tl srv.ticketKey i.identity with
    | none =>
      have hopens (found : QuicSession) : ¬ srv.Opens i found := by
        rintro ⟨plain, hplain', _⟩
        rw [hplain] at hplain'
        cases hplain'
      have hdecodes : ¬ srv.Undecodable i := by
        rintro ⟨plain, hplain', _⟩
        rw [hplain] at hplain'
        cases hplain'
      refine hpass sess ?_ (fun ⟨found, h, _⟩ => hopens found h) ?_
      · simp only [scan, hplain]
      · have hhead : ¬ srv.Incompatible i := fun ⟨found, h, _⟩ => hopens found h
        simp [cleared_cons, hhead, hdecodes]
    | some plain =>
      cases hsess : d2iQuicSession srv.tl srv.now plain with
      | none =>
        have hdecodes : srv.Undecodable i := ⟨plain, hplain, hsess⟩
        have hopens (found : QuicSession) : ¬ srv.Opens i found :=
          fun h => h.not_undecodable hdecodes
        refine hpass none ?_ (fun ⟨found, h, _⟩ => hopens found h) ?_
        · simp only [scan, hplain, hsess]
        · have hhead : ¬ srv.Incompatible i := fun ⟨found, h, _⟩ => hopens found h
          simp [cleared_cons, hhead, hdecodes]
      | some found =>
        have hopens : srv.Opens i found := ⟨plain, hplain, hsess⟩
        by_cases hfits : srv.Compatible found
        · left
          refine ⟨[], i, is, found, rfl, hopens, hfits, ?_⟩
          simp only [scan, hplain, hsess, if_pos hfits, List.length_nil, Nat.add_zero]
        · refine hpass (some found) ?_ ?_ ?_
          · simp only [scan, hplain, hsess, if_neg hfits]
          · rintro ⟨found', hopens', hfits'⟩
            rw [hopens'.unique hopens] at hfits'
            exact hfits hfits'
          · have hhead : srv.Incompatible i := ⟨found, hopens, hfits⟩
            have hdecodes := hopens.not_undecodable
            simp [cleared_cons, hhead, hdecodes]
            tauto

end PskServer

/-- `TlsDecryptTicket` keeps the session when the ticket is not authentic, and forgets it when the
ticket does not decode. -/
theorem tlsDecryptTicket_apply (lib : TlsLib) (tl : TlsTicketLib) (tk : TlsTicketKey) (now : ℤ)
    (etick : List UInt8) (sess : Option QuicSession) :
    tlsDecryptTicket lib tl tk now etick sess =
      match ticketPlaintext lib tl tk etick with
      | none => (.error .ret, sess)
      | some plain =>
        match d2iQuicSession tl now plain with
        | none => (.error .ret, none)
        | some sess' => (.ok sess', some sess') := by
  unfold tlsDecryptTicket
  cases ticketPlaintext lib tl tk etick with
  | none => rw [Prog.ofOption_none, Prog.fail_bind, Prog.fail_apply]
  | some plain =>
    rw [Prog.ofOption_some, Prog.pure_bind, Prog.modify_bind]
    cases hsess : d2iQuicSession tl now plain <;> simp only [hsess] <;> rfl

section Parse

variable {srv : PskServer}

/-- The loop over the encoded identities is the scan over the identities. -/
theorem parsePskIdentities_encode {is : List PskIdentity} {fuel : ℕ} (hfuel : is.length < fuel)
    (hlen : (is.flatMap PskIdentity.encode).length < 2 ^ 31) (past : List UInt8) (id : ℕ)
    (sess : Option QuicSession) :
    ∃ pkt, parsePskIdentities srv fuel id ({ past, rest := is.flatMap PskIdentity.encode }, sess) =
      (.ok (srv.scan is id sess).1, (pkt, (srv.scan is id sess).2)) := by
  induction is generalizing fuel past id sess with
  | nil =>
    obtain ⟨fuel, rfl⟩ := Nat.exists_eq_succ_of_ne_zero (Nat.ne_of_gt hfuel)
    refine ⟨{ past, rest := [] }, ?_⟩
    rw [List.flatMap_nil, parsePskIdentities, Prog.get_bind]
    exact congrFun (if_pos rfl) _
  | cons i is ih =>
    obtain ⟨fuel, rfl⟩ := Nat.exists_eq_succ_of_ne_zero (Nat.ne_of_gt (Nat.zero_lt_of_lt hfuel))
    have hrest : (is.flatMap PskIdentity.encode).length < 2 ^ 31 := by
      rw [List.flatMap_cons, List.length_append] at hlen
      omega
    have hage : (Bytes.ofNat 4 i.obfuscatedTicketAge ++ is.flatMap PskIdentity.encode).length <
        2 ^ 31 - 2 := by
      rw [List.flatMap_cons, PskIdentity.encode] at hlen
      simp only [List.length_append, Bytes.ofNat_length] at hlen ⊢
      omega
    have hcons : (i :: is).flatMap PskIdentity.encode =
        Bytes.ofNat 2 i.identity.length ++ (i.identity ++
          (Bytes.ofNat 4 i.obfuscatedTicketAge ++ is.flatMap PskIdentity.encode)) := by
      rw [List.flatMap_cons, PskIdentity.encode]
      simp only [List.append_assoc]
    have hbody : (i.identity ++
        (Bytes.ofNat 4 i.obfuscatedTicketAge ++ is.flatMap PskIdentity.encode)).length
          < 2 ^ 31 := by
      rw [hcons] at hlen
      simp only [List.length_append, Bytes.ofNat_length] at hlen ⊢
      omega
    have hidentity := rPacketGetLengthPrefixed_append past
      (show i.identity.length < 256 ^ 2 from i.identity_lt) hbody
    rw [← hcons] at hidentity
    have hageRun := rPacketGetData_append
      (past ++ (Bytes.ofNat 2 i.identity.length ++ i.identity))
      (show i.obfuscatedTicketAge < 256 ^ 4 from i.age_lt) hrest
    have hremaining : ¬ ({ past, rest := (i :: is).flatMap PskIdentity.encode } :
        RPacket).remaining = 0 := by
      rw [RPacket.remaining, hcons, List.length_append, Bytes.ofNat_length]
      omega
    rw [parsePskIdentities, Prog.get_bind, if_neg hremaining, Prog.onFst_bind_of_ok hidentity,
      rPacketGet4, Prog.onFst_bind_of_ok hageRun]
    have hnext := ih (Nat.lt_of_succ_lt_succ hfuel) hrest
      (past ++ (Bytes.ofNat 2 i.identity.length ++ i.identity) ++
        Bytes.ofNat 4 i.obfuscatedTicketAge) (id + 1)
    have hticket : tlsDecryptTicket srv.lib srv.tl srv.ticketKey srv.now
        (rPacketBufInit i.identity).rest sess = _ :=
      tlsDecryptTicket_apply srv.lib srv.tl srv.ticketKey srv.now i.identity sess
    cases hplain : ticketPlaintext srv.lib srv.tl srv.ticketKey i.identity with
    | none =>
      simp only [hplain] at hticket
      rw [Prog.onSnd_bind_of_ok (Prog.attempt_of_eq hticket)]
      simp only [PskServer.scan, hplain]
      exact hnext sess
    | some plain =>
      cases hsess : d2iQuicSession srv.tl srv.now plain with
      | none =>
        simp only [hplain, hsess] at hticket
        rw [Prog.onSnd_bind_of_ok (Prog.attempt_of_eq hticket)]
        simp only [PskServer.scan, hplain, hsess]
        exact hnext none
      | some found =>
        simp only [hplain, hsess] at hticket
        rw [Prog.onSnd_bind_of_ok (Prog.attempt_of_eq hticket)]
        simp only [PskServer.scan, hplain, hsess]
        by_cases hfits : srv.Compatible found
        · rw [if_pos hfits, if_pos hfits]
          exact ⟨_, rfl⟩
        · rw [if_neg hfits, if_neg hfits]
          exact hnext (some found)

/-- The loop over the encoded binders ends at the one with the index, if there is one. -/
theorem parsePskBinder_encode {bs : List PskBinder}
    (hlen : (bs.flatMap PskBinder.encode).length < 2 ^ 31) (past : List UInt8) (id : ℕ) :
    (parsePskBinder id { past, rest := bs.flatMap PskBinder.encode }).1 =
      match bs[id]? with
      | some b => .ok b.binder
      | none => .error .ret := by
  induction bs generalizing past id with
  | nil =>
    have hget : rPacketGetLengthPrefixed 1 { past, rest := [] } =
        (.error .ret, { past, rest := [] }) := by
      have hread := @rPacketGet1_nil past
      rw [rPacketGet1] at hread
      rw [rPacketGetLengthPrefixed, Prog.bind_of_error hread]
    cases id with
    | zero => rw [List.flatMap_nil, parsePskBinder, Prog.bind_of_error hget]; rfl
    | succ id => rw [List.flatMap_nil, parsePskBinder, Prog.bind_of_error hget]; rfl
  | cons b bs ih =>
    have hcons : (b :: bs).flatMap PskBinder.encode =
        Bytes.ofNat 1 b.binder.length ++ (b.binder ++ bs.flatMap PskBinder.encode) := by
      rw [List.flatMap_cons, PskBinder.encode, List.append_assoc]
    have hbody : (b.binder ++ bs.flatMap PskBinder.encode).length < 2 ^ 31 := by
      rw [hcons, List.length_append] at hlen
      omega
    have hget := rPacketGetLengthPrefixed_append past
      (show b.binder.length < 256 ^ 1 from b.binder_lt) hbody
    rw [hcons]
    cases id with
    | zero => rw [parsePskBinder, Prog.bind_of_ok hget]; rfl
    | succ id =>
      rw [parsePskBinder, Prog.bind_of_ok hget, List.getElem?_cons_succ]
      apply ih
      rw [List.length_append] at hbody
      omega

/-- A binder that is compared is the binder of the key for the message. -/
theorem tlsPskDoBinder_post {lib : TlsLib} {md : QuicDigest} {msg bytes : List UInt8}
    {t : QuicSessionTicket} {secret : TlsSecret} (hlen : bytes.length = md.size) :
    Prog.Post (tlsPskDoBinder lib md msg (some bytes) t)
      (fun _ _ => pskBinder lib md t.masterKey msg = some bytes) (fun _ _ => True) secret := by
  unfold tlsPskDoBinder
  simp only [Prog.post_bind, Prog.post_ofOption, Prog.post_modify, Prog.post_get, Prog.post_ensure,
    Prog.post_pure, implies_true, and_true]
  intro out hout binder hbinder hequal
  have hsize : out.length = md.size := tlsGenerateSecret_length hout
  have hget : (secret.set out).get md.size = out := by
    rw [← hsize]
    exact TlsSecret.get_set (hsize ▸ md.size_le)
  have hbytes : bytes = binder := by
    have h := hequal bytes rfl
    rwa [← hlen, List.take_length] at h
  rw [hget] at hbinder
  rw [pskBinder, hout, hbytes]
  exact hbinder

/-- A session that is taken has the binder of its key at its index. Otherwise the connection keeps
its session. -/
theorem parsePskSession_post {bs : List PskBinder}
    (hlen : (bs.flatMap PskBinder.encode).length < 2 ^ 16) (past : List UInt8) (id : ℕ)
    (sess : QuicSession) (p : TlsPsk) :
    Prog.Post (parsePskSession srv id sess)
      (fun _ t => t.2.hit = true ∧ t.2.tickIdentity = id ∧ t.2.session = some sess ∧
        ∃ cipher ticket b, sess.cipher = some cipher ∧
          quicSessionTicketPickTail sess = some ticket ∧ bs[id]? = some b ∧
          pskBinder srv.lib cipher.digest ticket.masterKey past = some b.binder)
      (fun _ t => t.2.hit = p.hit)
      ({ past, rest := Bytes.ofNat 2 (bs.flatMap PskBinder.encode).length ++
        bs.flatMap PskBinder.encode }, p) := by
  have hbinders := @rPacketGetLengthPrefixed_append past _ [] 2
    (show (bs.flatMap PskBinder.encode).length < 256 ^ 2 from hlen)
    (by rw [List.append_nil]; omega)
  rw [List.append_nil] at hbinders
  unfold parsePskSession
  simp only [Prog.post_bind, Prog.post_get, Prog.post_ofOption]
  refine ⟨fun cipher hcipher => ?_, fun _ => trivial⟩
  rw [Prog.post_of_eq (show Prog.onFst _ _ = _ from Prog.zoom_of_ok hbinders)]
  simp only [Prog.post_ofExcept, Prog.post_ensure, Prog.onSnd, Prog.post_zoom, Prog.post_modify]
  refine ⟨fun binder hbinder => ⟨fun hsize => ⟨fun ticket hticket => ?_, fun _ => trivial⟩,
    fun _ => trivial⟩, fun _ _ => trivial⟩
  rw [rPacketBufInit, parsePskBinder_encode (by omega)] at hbinder
  refine (tlsPskDoBinder_post hsize).mono ?_ fun _ _ _ => trivial
  intro _ _ hverified
  refine ⟨trivial, trivial, trivial, cipher, ticket, ?_⟩
  cases hget : bs[id]? with
  | none =>
    rw [hget] at hbinder
    cases hbinder
  | some b =>
    rw [hget] at hbinder
    cases hbinder
    exact ⟨b, hcipher, hticket, rfl, hverified⟩

/-- The first part of `TlsExtsrvrParsePsk` on an encoded extension ends with the identity and the
session of the scan. -/
theorem tlsExtsrvrParsePsk_encode (ext : PskExtension) (past : List UInt8) (p : TlsPsk) :
    tlsExtsrvrParsePsk srv ({ past, rest := ext.encode }, p) =
      match srv.scan ext.identities 0 none with
      | (_, none) => (.ok (), ({ past := past ++ ext.identityBytes, rest := ext.binderBytes }, p))
      | (id, some sess) => parsePskSession srv id sess
          ({ past := past ++ ext.identityBytes, rest := ext.binderBytes }, p) := by
  have hidentities := ext.identities_lt
  have hbinders := ext.binders_lt
  have hget := @rPacketGetLengthPrefixed_append past _ ext.binderBytes 2
    (show (ext.identities.flatMap PskIdentity.encode).length < 256 ^ 2 from ext.identities_lt) (by
      rw [PskExtension.binderBytes, List.length_append, List.length_append, Bytes.ofNat_length]
      omega)
  have hencode : ext.encode = Bytes.ofNat 2 (ext.identities.flatMap PskIdentity.encode).length ++
      (ext.identities.flatMap PskIdentity.encode ++ ext.binderBytes) := by
    rw [PskExtension.encode, PskExtension.identityBytes, List.append_assoc]
  have hfuel : ext.identities.length < (ext.identities.flatMap PskIdentity.encode).length + 1 := by
    rw [List.length_flatMap, Nat.lt_succ_iff, ← List.length_map]
    apply List.length_le_sum_of_one_le
    intro n hn
    obtain ⟨i, _, rfl⟩ := List.mem_map.mp hn
    rw [PskIdentity.encode, List.length_append, Bytes.ofNat_length]
    omega
  obtain ⟨pkt, hloop⟩ := @parsePskIdentities_encode srv _ _ hfuel (by omega) [] 0 none
  rw [hencode, tlsExtsrvrParsePsk, Prog.onFst_bind_of_ok hget]
  have hrun : parsePskIdentities srv ((rPacketBufInit (ext.identities.flatMap
      PskIdentity.encode)).remaining + 1) 0 (rPacketBufInit (ext.identities.flatMap
      PskIdentity.encode), none) = _ := hloop
  simp only [hrun, Prog.ofExcept_ok, Prog.pure_bind]
  rcases hscan : srv.scan ext.identities 0 none with ⟨id, sess⟩
  cases sess <;> rfl

end Parse

/-- What is required of the choice: a key is taken for an identity whose ticket opens to a session
that fits and whose binder is the one of this session for the message up to the identities, and
without an acceptable identity nothing changes. -/
structure PskChoice (srv : PskServer) (past : List UInt8) (ext : PskExtension) (p : TlsPsk)
    (run : Except Fail Unit × (RPacket × TlsPsk)) : Prop where
  /-- A key that is taken is that of an acceptable identity with its binder. -/
  taken : run.2.2.hit = true → ∃ i sess cipher ticket b,
    ext.identities[run.2.2.tickIdentity]? = some i ∧ srv.Opens i sess ∧ srv.Compatible sess ∧
      run.2.2.session = some sess ∧ sess.cipher = some cipher ∧
      quicSessionTicketPickTail sess = some ticket ∧
      ext.binders[run.2.2.tickIdentity]? = some b ∧
      pskBinder srv.lib cipher.digest ticket.masterKey (past ++ ext.identityBytes) = some b.binder
  /-- Without an acceptable identity a full handshake follows. -/
  refused : (∀ i ∈ ext.identities, ¬ srv.Acceptable i) →
    run.1 = .ok () ∧ run.2.2.hit = false ∧ run.2.2.session = p.session

/-- The server chooses as required exactly when an identity is acceptable or the session of every
ticket that does not fit was forgotten. -/
theorem tlsExtsrvrParsePsk_choice (srv : PskServer) (past : List UInt8) (ext : PskExtension)
    (p : TlsPsk) (hp : p.hit = false) :
    PskChoice srv past ext p (tlsExtsrvrParsePsk srv ({ past, rest := ext.encode }, p)) ↔
      (∃ i ∈ ext.identities, srv.Acceptable i) ∨ srv.Cleared ext.identities := by
  have hpost (id : ℕ) (sess : QuicSession) := @parsePskSession_post srv _ ext.binders_lt
    (past ++ ext.identityBytes) id sess p
  rw [tlsExtsrvrParsePsk_encode]
  rcases srv.scan_cases ext.identities 0 none with
    ⟨before, i, after, sess, hsplit, hopens, hfits, hscan⟩ | ⟨hnone, hid, hleft⟩
  · -- The loop stops at an acceptable identity.
    have hmem : i ∈ ext.identities := by
      rw [hsplit]
      exact List.mem_append_right before List.mem_cons_self
    rw [Nat.zero_add] at hscan
    simp only [hscan]
    refine iff_of_true ⟨?_, ?_⟩ (Or.inl ⟨i, hmem, sess, hopens, hfits⟩)
    · intro hhit
      have h := hpost before.length sess
      rcases hrun : parsePskSession srv before.length sess
        ({ past := past ++ ext.identityBytes, rest := ext.binderBytes }, p) with ⟨r, t⟩
      rw [hrun] at hhit
      cases r with
      | error e =>
        have hkept : t.2.hit = p.hit := h.of_error hrun
        rw [hkept, hp] at hhit
        cases hhit
      | ok u =>
        obtain ⟨_, hindex, hsession, cipher, ticket, b, hcipher, hticket, hb, hbinder⟩ :=
          h.of_ok hrun
        refine ⟨i, sess, cipher, ticket, b, ?_, hopens, hfits, hsession, hcipher, hticket, ?_,
          hbinder⟩
        · rw [hindex, hsplit, List.getElem?_append_right (le_refl _), Nat.sub_self]
          rfl
        · rwa [hindex]
    · intro hrefused
      exact absurd ⟨sess, hopens, hfits⟩ (hrefused i hmem)
  · rcases hscan : srv.scan ext.identities 0 none with ⟨id, left⟩
    rw [hscan] at hleft
    cases left with
    | none =>
      -- Nothing is left, and the extension is ignored.
      refine iff_of_true ⟨?_, ?_⟩ (Or.inr (hleft.mp rfl).1)
      · intro hhit
        rw [hp] at hhit
        cases hhit
      · intro _
        exact ⟨rfl, hp, rfl⟩
    | some sess =>
      -- A session that does not fit is left, and the run fails or takes it.
      refine iff_of_false ?_ ?_
      · intro hchoice
        obtain ⟨hok, hhit, _⟩ := hchoice.refused hnone
        rcases hrun : parsePskSession srv id sess
          ({ past := past ++ ext.identityBytes, rest := ext.binderBytes }, p) with ⟨r, t⟩
        simp only [hrun] at hok hhit
        subst hok
        obtain ⟨htaken, _⟩ := (hpost id sess).of_ok hrun
        rw [htaken] at hhit
        cases hhit
      · rintro (⟨i, hmem, hacceptable⟩ | hcleared)
        · exact hnone i hmem hacceptable
        · have hcontra := hleft.mpr ⟨hcleared, Or.inl rfl⟩
          cases hcontra

/-- The encoding of a session of `TLS_AES_256_GCM_SHA384` whose key and ticket are zeros. -/
def sha384Plain : List UInt8 :=
  Bytes.ofNat 5 0x3081830430 ++ List.replicate 48 0 ++
    Bytes.ofNat 17 0xa00402021302a205020302a300a3420440 ++ List.replicate 64 0

/-- The encryption of this session under a key and an initialisation vector of zeros. -/
def sha384Cipher : List UInt8 :=
  Bytes.ofNat 36 0x792015c884acb9af42f1df3326dbacb57b15cf4478de9235f6d2e380669315dcddd9deeb ++
  Bytes.ofNat 36 0x09320916ba591edae86ab6ed22d8495ff2e6657a8968b8eed3ea22873df9a8d38c417bbf ++
  Bytes.ofNat 36 0xfeae3d4b2c2469f15ea8fb34246e2ef0bace23e0b10701141c5ba5c6392ad77478f6a7bc ++
  Bytes.ofNat 36 0x9e6552ccbf387da7b461351b91fa912da15eb16a6b9cbcfd57371dd98cf95d80b5027638

/-- The encryption of no bytes under the same key. -/
def emptyCipher : List UInt8 := Bytes.ofNat 16 0x1f788fe6d86c317549697fbf0c07fa43

/-- The HMAC with SHA-256 and a key of zeros of the ticket that holds the session. -/
def sha384Mac : List UInt8 :=
  Bytes.ofNat 32 0xe4e9e05e6ddae157b542c53fb3473215d27bd675d6d465d7ab343024bb84e435

/-- The HMAC of the ticket that holds no bytes. -/
def emptyMac : List UInt8 :=
  Bytes.ofNat 32 0x208facd0df10528a4e39016eaacd5cb958a0b3e2073d945b2987f22e2b67af00

/-- A server with a ticket key of zeros and the suite `TLS_AES_128_GCM_SHA256`. Its libraries know
the values on the two tickets. -/
def sha256Server : PskServer where
  lib :=
    { digest := fun md _ => List.replicate md.size 0
      digest_length := fun md _ => List.length_replicate
      hmac := fun md _ bytes =>
        ((if bytes.length = 176 then sha384Mac else emptyMac) ++ List.replicate 32 0).take md.size
      hmac_length := by
        intro md _ bytes
        cases md <;> split <;> rfl
      hkdfExtract := fun _ _ _ => none
      hkdfExtract_length := by
        intro _ _ _ _ h
        cases h }
  tl :=
    { encrypt := fun _ _ bytes => if bytes = [] then emptyCipher else sha384Cipher
      decrypt := fun _ _ bytes => if bytes = emptyCipher then some [] else some sha384Plain
      i2d := fun _ => sha384Plain
      d2i := fun bytes =>
        if bytes = sha384Plain then
          some
            { masterKey := List.replicate 48 0
              cipherId := 0x1302
              tickAgeAdd := 0
              tickLifetimeHint := 172800
              tlsextTick := some (List.replicate 64 0)
              maxEarlyData := 0 }
        else none }
  ticketKey :=
    { hmacKey := List.replicate 32 0
      aesKey := List.replicate 32 0
      keyName := List.replicate 16 0
      keyName_length := List.length_replicate }
  now := 0
  handshakeCipher := ⟨0x1301, 3, .sha256⟩

/-- The identity with the ticket that holds the session. -/
def sha384Identity : PskIdentity where
  identity := List.replicate 32 0 ++ sha384Cipher ++ sha384Mac
  obfuscatedTicketAge := 0
  identity_lt := by decide +kernel
  age_lt := by decide

/-- The identity with the ticket that holds no bytes. -/
def emptyIdentity : PskIdentity where
  identity := List.replicate 32 0 ++ emptyCipher ++ emptyMac
  obfuscatedTicketAge := 0
  identity_lt := by decide +kernel
  age_lt := by decide

/-- A binder of zeros. -/
def zeroBinder : PskBinder where
  binder := List.replicate 32 0
  binder_lt := by decide

/-- The extension that offers the session. -/
def sha384Extension : PskExtension where
  identities := [sha384Identity]
  binders := [zeroBinder]
  identities_lt := by decide +kernel
  binders_lt := by decide +kernel

/-- The extension that offers the ticket that holds no bytes behind the session. -/
def clearedExtension : PskExtension where
  identities := [sha384Identity, emptyIdentity]
  binders := [zeroBinder, zeroBinder]
  identities_lt := by decide +kernel
  binders_lt := by decide +kernel

/-- The ClientHello in front of the extension, which is its only one. -/
def helloStart : List UInt8 :=
  Bytes.ofNat 6 0x0100012a0303 ++ List.replicate 32 0 ++ Bytes.ofNat 15 0x0000021301010000ff002900fb

/-- A connection without a session. -/
def freshPsk : TlsPsk :=
  { hit := false, earlySecret := TlsSecret.zero, tickIdentity := 0, session := none }

/-- A session that does not fit is in the way when no ticket follows it. -/
theorem sha384Identity_opens : ∃ sess, sha256Server.Opens sha384Identity sess ∧
    ¬ sha256Server.Compatible sess := by
  refine ⟨_, ⟨sha384Plain, ?_, rfl⟩, ?_⟩
  · decide +kernel
  · decide +kernel

/-- A client that offers one session of another digest fails the handshake. -/
theorem sha384Extension_not_refused :
    ¬ PskChoice sha256Server helloStart sha384Extension freshPsk
      (tlsExtsrvrParsePsk sha256Server
        ({ past := helloStart, rest := sha384Extension.encode }, freshPsk)) := by
  intro h
  obtain ⟨sess, hopens, hfits⟩ := sha384Identity_opens
  have hnone : ∀ i ∈ sha384Extension.identities, ¬ sha256Server.Acceptable i := by
    intro i hi
    rcases List.mem_singleton.mp hi
    rintro ⟨sess', hopens', hfits'⟩
    rw [hopens'.unique hopens] at hfits'
    exact hfits hfits'
  obtain ⟨hok, _⟩ := h.refused hnone
  have herror : (tlsExtsrvrParsePsk sha256Server
      ({ past := helloStart, rest := sha384Extension.encode }, freshPsk)).1 = .error .ret := by
    decide +kernel
  rw [herror] at hok
  cases hok

/-- With a ticket that does not decode behind it, the session is ignored. -/
theorem tlsExtsrvrParsePsk_choice_cleared :
    PskChoice sha256Server helloStart clearedExtension freshPsk
      (tlsExtsrvrParsePsk sha256Server
        ({ past := helloStart, rest := clearedExtension.encode }, freshPsk)) := by
  apply (tlsExtsrvrParsePsk_choice sha256Server helloStart clearedExtension freshPsk rfl).mpr
  right
  have hempty : sha256Server.Undecodable emptyIdentity := ⟨[], by decide +kernel, by decide +kernel⟩
  rw [clearedExtension, PskServer.cleared_cons, PskServer.cleared_cons]
  refine ⟨fun _ => ⟨emptyIdentity, List.mem_singleton_self _, hempty⟩, ?_, ?_⟩
  · rintro ⟨_, hopens, _⟩
    exact absurd hempty hopens.not_undecodable
  · intro before i after hsplit
    simp at hsplit

end Tbquic
