import Tbquic.Tls.Ciphers
import Tbquic.Tls.ExtBuild
import Tbquic.Tls.Psk

/-!
# Sealing a session in a ticket

A server keeps no state for the sessions that it may resume. A ticket holds the encoding of the
session, encrypted and authenticated with the ticket key, and the server that gets the ticket back
finds the session in it.
-/

namespace Tbquic

/-- `EVP_MAX_BLOCK_LENGTH`. -/
def evpMaxBlockLength : ℕ := 32

/-- The length of an initialisation vector of AES-256-CBC. -/
def ticketIvLength : ℕ := 16

/-- `WPacketReserveBytes`, whose bytes the caller then fills. -/
def wPacketReserve (len : ℕ) : Prog Fail WPacket Unit := fun pkt =>
  if quicLt ((pkt.maxsize : ℤ) - pkt.written) len then (.error .ret, pkt)
  else if pkt.written + len ≤ pkt.maxsize then (.ok (), pkt)
  else (.error .ub, pkt)

/-- The number of bytes that `EVP_EncryptUpdate` writes: those of the full blocks. -/
def encryptUpdateLength (slen : ℕ) : ℕ := 16 * (slen / 16)

/-- `TlsConstructStatelessTicket`, with the initialisation vector of `RAND_bytes`. -/
def tlsConstructStatelessTicket (lib : TlsLib) (tl : TlsTicketLib) (tk : TlsTicketKey)
    (iv : List UInt8) (sess : QuicSession) (tickNonce : List UInt8) : Prog Fail WPacket Unit := do
  let t ← Prog.ofOption .ret (quicSessionTicketPickTail sess)
  let senc ← Prog.ofOption .ret (i2dQuicSession tl sess)
  Prog.ensure .ret (senc ≠ [])
  wPacketPutBytes (t.lifetimeHint % 2 ^ 32) 4
  wPacketPutBytes t.ageAdd 4
  wPacketSubMemcpy tickNonce 1
  wPacketStartSubBytes 2
  let head ← Prog.get
  wPacketMemcpy tk.keyName
  wPacketMemcpy iv
  wPacketReserve (senc.length + evpMaxBlockLength)
  let enc := tl.encrypt tk.aesKey iv senc
  wPacketAppend (enc.take (encryptUpdateLength senc.length))
  wPacketAppend (enc.drop (encryptUpdateLength senc.length))
  Prog.ensure .ret (enc.length ≤ senc.length + evpMaxBlockLength)
  let pkt ← Prog.get
  wPacketReserve evpMaxMdSize
  wPacketAppend (lib.hmac .sha256 tk.hmacKey (pkt.buf.drop head.written))
  wPacketClose

/-- A record whose numbers have the sizes of its fields. -/
structure QuicSessionAsn1.InRange (as : QuicSessionAsn1) : Prop where
  /-- `cipher_id` has 32 bits. -/
  cipherId : as.cipherId < 2 ^ 32
  /-- `tick_age_add` has 32 bits. -/
  tickAgeAdd : as.tickAgeAdd < 2 ^ 32
  /-- `tick_lifetime_hint` has 64 bits. -/
  tickLifetimeHint : as.tickLifetimeHint < 2 ^ 64
  /-- A ticket that is there has a byte. -/
  tlsextTick : as.tlsextTick ≠ some []
  /-- `max_early_data` has 32 bits. -/
  maxEarlyData : as.maxEarlyData < 2 ^ 32

/-- What is documented of the library: decryption undoes encryption and decoding undoes encoding. -/
structure TlsTicketLib.Lawful (tl : TlsTicketLib) : Prop where
  /-- What was encrypted is decrypted. -/
  decrypt_encrypt : ∀ key iv bytes, iv.length = ticketIvLength →
    tl.decrypt key iv (tl.encrypt key iv bytes) = some bytes
  /-- The padding is never empty. -/
  encrypt_ne : ∀ key iv bytes, tl.encrypt key iv bytes ≠ []
  /-- What was encoded is decoded. -/
  d2i_i2d : ∀ as : QuicSessionAsn1, as.InRange → tl.d2i (tl.i2d as) = some as

/-- A ticket: the name of the key, the initialisation vector, the encrypted bytes and the HMAC of
all of them. -/
def sealedTicket (lib : TlsLib) (tk : TlsTicketKey) (iv enc : List UInt8) : List UInt8 :=
  let sealed := tk.keyName ++ (iv ++ enc)
  sealed ++ lib.hmac .sha256 tk.hmacKey sealed

section Seal

variable {lib : TlsLib} {tl : TlsTicketLib} {tk : TlsTicketKey} {iv : List UInt8}

/-- The length of a ticket. -/
theorem sealedTicket_length (lib : TlsLib) (tk : TlsTicketKey) (iv enc : List UInt8) :
    (sealedTicket lib tk iv enc).length = 16 + (iv.length + enc.length) + 32 := by
  rw [sealedTicket, List.length_append, lib.hmac_length, List.length_append, List.length_append,
    tk.keyName_length]
  rfl

/-- A ticket opens exactly when it was made with the key: it is the name of the key, a vector and
some bytes that decrypt, with the HMAC of all of them. -/
theorem ticketPlaintext_eq_some {etick plain : List UInt8} :
    ticketPlaintext lib tl tk etick = some plain ↔
      ∃ iv enc, iv.length = ticketIvLength ∧ enc ≠ [] ∧ etick = sealedTicket lib tk iv enc ∧
        tl.decrypt tk.aesKey iv enc = some plain := by
  have hsize : QuicDigest.sha256.size = 32 := rfl
  constructor
  · intro h
    unfold ticketPlaintext at h
    rw [hsize] at h
    split_ifs at h with hshort hname hlong
    dsimp only at h
    split_ifs at h with hmac
    push Not at hshort hname hlong hmac
    have hn : 32 < etick.length - 32 := by omega
    have hsealed : etick.take (etick.length - 32) = tk.keyName ++
        ((etick.drop 16).take 16 ++ (etick.take (etick.length - 32)).drop (16 + 16)) := by
      have hhead : (etick.take (etick.length - 32)).take 16 = tk.keyName := by
        rw [List.take_take, Nat.min_eq_left (by omega), hname]
      have hiv : ((etick.take (etick.length - 32)).drop 16).take 16 = (etick.drop 16).take 16 := by
        rw [List.drop_take, List.take_take, Nat.min_eq_left (by omega)]
      rw [← hiv, ← List.drop_drop, List.take_append_drop, ← hhead, List.take_append_drop]
    refine ⟨(etick.drop 16).take 16, (etick.take (etick.length - 32)).drop (16 + 16), ?_, ?_, ?_, h⟩
    · rw [List.length_take, List.length_drop, ticketIvLength]
      omega
    · apply List.ne_nil_of_length_pos
      rw [List.length_drop, List.length_take]
      omega
    · rw [sealedTicket, ← hsealed, hmac, List.take_append_drop]
  · rintro ⟨iv, enc, hiv, henc, rfl, hdecrypt⟩
    have hlen := sealedTicket_length lib tk iv enc
    have hpos : 0 < enc.length := List.length_pos_iff.mpr henc
    rw [ticketIvLength] at hiv
    have hsealedLen : (tk.keyName ++ (iv ++ enc)).length =
        (sealedTicket lib tk iv enc).length - 32 := by
      rw [hlen, List.length_append, List.length_append, tk.keyName_length]
      omega
    have htake : (sealedTicket lib tk iv enc).take ((sealedTicket lib tk iv enc).length - 32) =
        tk.keyName ++ (iv ++ enc) := by
      rw [← hsealedLen, sealedTicket, List.take_left]
    have hdrop : (sealedTicket lib tk iv enc).drop ((sealedTicket lib tk iv enc).length - 32) =
        lib.hmac .sha256 tk.hmacKey (tk.keyName ++ (iv ++ enc)) := by
      rw [← hsealedLen, sealedTicket, List.drop_left]
    have hname : (sealedTicket lib tk iv enc).take 16 = tk.keyName := by
      rw [sealedTicket, List.append_assoc, ← tk.keyName_length, List.take_left]
    have hvector : ((sealedTicket lib tk iv enc).drop 16).take 16 = iv := by
      rw [sealedTicket, List.append_assoc, ← tk.keyName_length, List.drop_left, List.append_assoc,
        tk.keyName_length, ← hiv, List.take_left]
    have hbytes : (tk.keyName ++ (iv ++ enc)).drop (16 + 16) = enc := by
      rw [← List.append_assoc]
      exact List.drop_left' (by rw [List.length_append, tk.keyName_length, hiv])
    unfold ticketPlaintext
    rw [hsize, if_neg (by omega), if_neg (not_not.mpr hname), if_neg (by omega)]
    dsimp only
    rw [htake, hdrop, if_neg (not_not.mpr rfl), hvector, hbytes]
    exact hdecrypt

/-- A ticket has a byte. -/
theorem sealedTicket_ne_nil (lib : TlsLib) (tk : TlsTicketKey) (iv enc : List UInt8) :
    sealedTicket lib tk iv enc ≠ [] := by
  apply List.ne_nil_of_length_pos
  rw [sealedTicket_length]
  omega

end Seal

/-- The fixed part of a NewSessionTicket message, whose numbers have the sizes of their fields. -/
structure NewSessionTicket where
  /-- The lifetime in seconds. -/
  lifetimeHint : ℕ
  /-- What the client adds to the age of the ticket. -/
  ageAdd : ℕ
  /-- The nonce of the key. -/
  nonce : List UInt8
  /-- The ticket. -/
  ticket : List UInt8
  /-- The lifetime has 32 bits. -/
  lifetimeHint_lt : lifetimeHint < 2 ^ 32
  /-- The number for the age has 32 bits. -/
  ageAdd_lt : ageAdd < 2 ^ 32
  /-- The length of the nonce has 8 bits. -/
  nonce_lt : nonce.length < 2 ^ 8
  /-- The length of the ticket has 16 bits. -/
  ticket_lt : ticket.length < 2 ^ 16

/-- The bytes of the fixed part. -/
def NewSessionTicket.encode (m : NewSessionTicket) : List UInt8 :=
  Bytes.ofNat 4 m.lifetimeHint ++ (Bytes.ofNat 4 m.ageAdd ++
    (Bytes.ofNat 1 m.nonce.length ++ m.nonce ++ (Bytes.ofNat 2 m.ticket.length ++ m.ticket)))

section Construct

variable {lib : TlsLib} {tl : TlsTicketLib} {tk : TlsTicketKey} {iv tickNonce : List UInt8}
  {sess : QuicSession} {pkt t : WPacket}

/-- Room that was reserved changes nothing. -/
theorem wPacketReserve_eq_ok {len : ℕ} {u : Unit}
    (h : wPacketReserve len pkt = (.ok u, t)) : t = pkt := by
  unfold wPacketReserve at h
  split_ifs at h <;> cases h
  rfl

/-- What `TlsConstructStatelessTicket` writes: the numbers of the last ticket, the nonce and the
sealed encoding of the session. -/
theorem tlsConstructStatelessTicket_wrote (hmax : pkt.maxsize < 2 ^ 31)
    (hrun : tlsConstructStatelessTicket lib tl tk iv sess tickNonce pkt = (.ok (), t)) :
    ∃ last senc, ∃ m : NewSessionTicket, quicSessionTicketPickTail sess = some last ∧
      i2dQuicSession tl sess = some senc ∧ m.lifetimeHint = last.lifetimeHint % 2 ^ 32 ∧
      m.ageAdd = last.ageAdd ∧ m.nonce = tickNonce ∧
      m.ticket = sealedTicket lib tk iv (tl.encrypt tk.aesKey iv senc) ∧
      pkt.Appends m.encode t := by
  obtain ⟨last, hlast, hrun⟩ := Prog.ofOption_bind_eq_ok.mp hrun
  obtain ⟨senc, hsenc, hrun⟩ := Prog.ofOption_bind_eq_ok.mp hrun
  obtain ⟨_, hrun⟩ := Prog.ensure_bind_eq_ok.mp hrun
  obtain ⟨_, p1, hhint, hrun⟩ := Prog.bind_eq_ok.mp hrun
  obtain ⟨_, p2, hage, hrun⟩ := Prog.bind_eq_ok.mp hrun
  obtain ⟨_, p3, hnonce, hrun⟩ := Prog.bind_eq_ok.mp hrun
  obtain ⟨_, p4, hstart, hrun⟩ := Prog.bind_eq_ok.mp hrun
  rw [Prog.get_bind] at hrun
  obtain ⟨_, p5, hname, hrun⟩ := Prog.bind_eq_ok.mp hrun
  obtain ⟨_, p6, hiv, hrun⟩ := Prog.bind_eq_ok.mp hrun
  obtain ⟨_, _, hreserve, hrun⟩ := Prog.bind_eq_ok.mp hrun
  cases wPacketReserve_eq_ok hreserve
  obtain ⟨_, p7, hblocks, hrun⟩ := Prog.bind_eq_ok.mp hrun
  obtain ⟨_, p8, hfinal, hrun⟩ := Prog.bind_eq_ok.mp hrun
  obtain ⟨_, hrun⟩ := Prog.ensure_bind_eq_ok.mp hrun
  rw [Prog.get_bind] at hrun
  obtain ⟨_, _, hreserve, hrun⟩ := Prog.bind_eq_ok.mp hrun
  cases wPacketReserve_eq_ok hreserve
  obtain ⟨_, p9, hmac, hclose⟩ := Prog.bind_eq_ok.mp hrun
  obtain ⟨hhint, hhintLt⟩ := wPacketPutBytes_appends hhint
  obtain ⟨hage, hageLt⟩ := wPacketPutBytes_appends hage
  have hmax2 : p2.maxsize < 2 ^ 31 := by
    rwa [hage.maxsize, hhint.maxsize]
  obtain ⟨hnonce, hnonceLt⟩ := wPacketSubMemcpy_appends hmax2 hnonce
  have hmax3 : p3.maxsize < 2 ^ 31 := by
    rwa [hnonce.maxsize]
  -- What stands behind the length field of the ticket.
  have hopened := wPacketStartSubBytes_opened hstart
  have henc := (wPacketAppend_appends hblocks).trans (wPacketAppend_appends hfinal)
  rw [List.take_append_drop] at henc
  have hsealed := (wPacketMemcpy_appends hname).trans
    ((wPacketMemcpy_appends hiv).trans henc)
  have hdrop : p8.buf.drop p4.written =
      tk.keyName ++ (iv ++ tl.encrypt tk.aesKey iv senc) := by
    rw [hsealed.buf, WPacket.written, List.drop_left]
  rw [hdrop] at hmac
  have hbody := hopened.append (hsealed.trans (wPacketAppend_appends hmac))
  rw [List.nil_append] at hbody
  obtain ⟨hticket, hticketLt⟩ := wPacketClose_appends hbody hmax3 hclose
  refine ⟨last, senc, ⟨last.lifetimeHint % 2 ^ 32, last.ageAdd, tickNonce,
    sealedTicket lib tk iv (tl.encrypt tk.aesKey iv senc), hhintLt, hageLt, hnonceLt, hticketLt⟩,
    hlast, hsenc, rfl, rfl, rfl, rfl, ?_⟩
  exact hhint.trans (hage.trans (hnonce.trans hticket))

end Construct

/-- A session whose numbers have the sizes of their fields. -/
structure QuicSession.InRange (sess : QuicSession) : Prop where
  /-- The cipher suite is one of the table. -/
  cipher : ∀ cipher ∈ sess.cipher, cipher ∈ tlsCiphers
  /-- `max_early_data` has 32 bits. -/
  maxEarlyData : sess.maxEarlyData < 2 ^ 32
  /-- `lifetime_hint` of a ticket was a `uint32_t`. -/
  lifetimeHint : ∀ t ∈ sess.ticketQueue, t.lifetimeHint < 2 ^ 32
  /-- `age_add` of a ticket is a `uint32_t`. -/
  ageAdd : ∀ t ∈ sess.ticketQueue, t.ageAdd < 2 ^ 32

/-- What a ticket keeps of a session: the cipher suite, the limit of the early data and the last
ticket, which gets a new time. -/
def QuicSession.restored (now : ℤ) (sess : QuicSession) (last : QuicSessionTicket) : QuicSession :=
  { cipher := sess.cipher
    tickIdentity := 1
    maxEarlyData := sess.maxEarlyData
    ticketQueue := [{ last with time := now }] }

section Restore

variable {tl : TlsTicketLib} {sess : QuicSession} {last : QuicSessionTicket} {senc : List UInt8}

/-- Decoding an encoded session restores it. -/
theorem d2iQuicSession_i2d (hlib : tl.Lawful) (hsess : sess.InRange)
    (hlast : quicSessionTicketPickTail sess = some last)
    (hsenc : i2dQuicSession tl sess = some senc) (now : ℤ) :
    d2iQuicSession tl now senc = some (sess.restored now last) := by
  have hmem : last ∈ sess.ticketQueue := List.mem_of_getLast? hlast
  obtain ⟨cipher, hcipher, hsenc⟩ := Option.bind_eq_some_iff.mp hsenc
  rw [hlast] at hsenc
  have hfound := quicGetTlsCipherById_of_mem (hsess.cipher cipher hcipher)
  have hid : cipher.id < 2 ^ 32 :=
    (tlsCiphers_id_lt (hsess.cipher cipher hcipher)).trans (by decide)
  have hhint := hsess.lifetimeHint last hmem
  have hage := hsess.ageAdd last hmem
  cases hsenc
  rw [d2iQuicSession, hlib.d2i_i2d]
  · have hticket : (if last.ticket = [] then none else some last.ticket).getD [] = last.ticket := by
      split_ifs with hempty
      · exact hempty.symm
      · rfl
    rw [Option.bind_some, QuicSessionAsn1.session, hfound, Option.bind_eq_bind, Option.bind_some,
      dif_pos last.masterKey_le, hticket]
    simp only [quicSessionTicketNew, Nat.mod_eq_of_lt hhint, Nat.mod_eq_of_lt hage]
    rw [QuicSession.restored, hcipher]
    rfl
  · refine ⟨hid, hage, hhint.trans (by decide), ?_, hsess.maxEarlyData⟩
    dsimp only
    split_ifs with hempty
    · rintro ⟨⟩
    · intro hsome
      exact hempty (Option.some.inj hsome)

/-- A sealed ticket opens to what it keeps of its session. -/
theorem tlsDecryptTicket_sealed {lib : TlsLib} {tk : TlsTicketKey} {iv : List UInt8}
    (hlib : tl.Lawful) (hiv : iv.length = ticketIvLength) (hsess : sess.InRange)
    (hlast : quicSessionTicketPickTail sess = some last)
    (hsenc : i2dQuicSession tl sess = some senc) (now : ℤ) (before : Option QuicSession) :
    tlsDecryptTicket lib tl tk now (sealedTicket lib tk iv (tl.encrypt tk.aesKey iv senc)) before =
      (.ok (sess.restored now last), some (sess.restored now last)) := by
  have hplain : ticketPlaintext lib tl tk (sealedTicket lib tk iv (tl.encrypt tk.aesKey iv senc)) =
      some senc :=
    ticketPlaintext_eq_some.mpr ⟨iv, _, hiv, hlib.encrypt_ne _ _ _, rfl,
      hlib.decrypt_encrypt _ _ _ hiv⟩
  rw [tlsDecryptTicket_apply, hplain]
  dsimp only
  rw [d2iQuicSession_i2d hlib hsess hlast hsenc]

end Restore

/-- Bytes that are each announced by a one, up to a zero. -/
def announced : List UInt8 → List UInt8
  | [] => [0]
  | b :: bytes => 1 :: b :: announced bytes

/-- The announced bytes in front, and what stands behind them. -/
def unannounced : List UInt8 → List UInt8 × List UInt8
  | [] => ([], [])
  | [_] => ([], [])
  | mark :: b :: rest =>
    if mark = 0 then ([], b :: rest)
    else (b :: (unannounced rest).1, (unannounced rest).2)

/-- Announced bytes are found. -/
theorem unannounced_append (bytes : List UInt8) {rest : List UInt8} (hrest : rest ≠ []) :
    unannounced (announced bytes ++ rest) = (bytes, rest) := by
  induction bytes with
  | nil =>
    obtain ⟨b, rest, rfl⟩ := List.exists_cons_of_ne_nil hrest
    rfl
  | cons b bytes ih =>
    have hone : (1 : UInt8) ≠ 0 := by decide
    rw [announced, List.cons_append, List.cons_append, unannounced, if_neg hone, ih]

/-- The record of a session of `TLS_AES_256_GCM_SHA384` whose key and ticket are zeros. -/
def sha384Record : QuicSessionAsn1 where
  masterKey := List.replicate 48 0
  cipherId := 0x1302
  tickAgeAdd := 0
  tickLifetimeHint := 172800
  tlsextTick := some (List.replicate 64 0)
  maxEarlyData := 0

/-- A library that knows the encoding and the encryption of this record, with other encodings for
the rest. -/
def sha384TicketLib : TlsTicketLib where
  encrypt := fun _ _ bytes => if bytes = sha384Plain then sha384Cipher else 0 :: bytes
  decrypt := fun _ _ bytes => if bytes = sha384Cipher then some sha384Plain else some bytes.tail
  i2d := fun as =>
    if as = sha384Record then sha384Plain
    else announced (Bytes.ofNat 8 as.cipherId) ++ (announced (Bytes.ofNat 8 as.tickAgeAdd) ++
      (announced (Bytes.ofNat 8 as.tickLifetimeHint) ++
        (announced (Bytes.ofNat 8 as.maxEarlyData) ++
          (announced as.masterKey ++ 1 :: as.tlsextTick.getD []))))
  d2i := fun bytes =>
    if bytes = sha384Plain then some sha384Record
    else
      let cipherId := unannounced bytes
      let tickAgeAdd := unannounced cipherId.2
      let tickLifetimeHint := unannounced tickAgeAdd.2
      let maxEarlyData := unannounced tickLifetimeHint.2
      let masterKey := unannounced maxEarlyData.2
      some
        { masterKey := masterKey.1
          cipherId := Bytes.toNat cipherId.1
          tickAgeAdd := Bytes.toNat tickAgeAdd.1
          tickLifetimeHint := Bytes.toNat tickLifetimeHint.1
          tlsextTick := if masterKey.2.tail = [] then none else some masterKey.2.tail
          maxEarlyData := Bytes.toNat maxEarlyData.1 }

theorem sha384TicketLib_lawful : sha384TicketLib.Lawful := by
  have hcipher : sha384Cipher.head? = some 0x79 := by decide +kernel
  have hplain : sha384Plain.head? = some 0x30 := by decide +kernel
  constructor
  · intro _ _ bytes _
    by_cases hrecord : bytes = sha384Plain
    · simp only [sha384TicketLib, ite_true, hrecord]
    · have hother : 0 :: bytes ≠ sha384Cipher := by
        intro heq
        rw [← heq, List.head?_cons] at hcipher
        exact absurd (Option.some.inj hcipher) (by decide)
      simp only [sha384TicketLib, if_neg hrecord, if_neg hother, List.tail_cons]
  · intro _ _ bytes
    simp only [sha384TicketLib]
    split_ifs
    · decide +kernel
    · exact List.cons_ne_nil 0 bytes
  · intro as has
    by_cases hrecord : as = sha384Record
    · simp only [sha384TicketLib, ite_true, hrecord]
    · have hsmall {n : ℕ} (h : n < 2 ^ 64) : Bytes.toNat (Bytes.ofNat 8 n) = n :=
        Bytes.toNat_ofNat_of_lt h
      have htick : (if as.tlsextTick.getD [] = [] then none else some (as.tlsextTick.getD [])) =
          as.tlsextTick := by
        cases h : as.tlsextTick with
        | none => rfl
        | some bytes =>
          have hbytes : bytes ≠ [] := by
            rintro rfl
            exact has.tlsextTick h
          exact if_neg hbytes
      have hother (rest : List UInt8) :
          announced (Bytes.ofNat 8 as.cipherId) ++ rest ≠ sha384Plain := by
        intro heq
        have hone : (announced (Bytes.ofNat 8 as.cipherId)).head? = some 1 := rfl
        rw [← heq, List.head?_append, hone] at hplain
        exact absurd (Option.some.inj hplain) (by decide)
      simp only [sha384TicketLib]
      rw [if_neg hrecord, if_neg (hother _)]
      rw [unannounced_append _ (by simp), unannounced_append _ (by simp),
        unannounced_append _ (by simp), unannounced_append _ (by simp),
        unannounced_append _ (by simp), hsmall (has.cipherId.trans (by decide)),
        hsmall (has.tickAgeAdd.trans (by decide)), hsmall has.tickLifetimeHint,
        hsmall (has.maxEarlyData.trans (by decide)), List.tail_cons, htick]

/-- The ticket of this record. -/
def sha384Ticket : QuicSessionTicket where
  lifetimeHint := 172800
  time := 0
  ageAdd := 0
  ticket := List.replicate 64 0
  masterKey := List.replicate 48 0
  masterKey_le := List.length_replicate.trans_le (by decide)

/-- A session with this ticket. -/
def sha384Session : QuicSession where
  cipher := some ⟨0x1302, 5, .sha384⟩
  tickIdentity := 1
  maxEarlyData := 0
  ticketQueue := [sha384Ticket]

/-- The server opens the tickets that it made and nothing without the HMAC of its key. What
`TlsConstructStatelessTicket` writes for a session ends with a ticket from which `TlsDecryptTicket`
restores the cipher suite, the limit of the early data and the last ticket with its key, at any time
and whatever session was there before. A ticket that it opens has the name of the key and ends with
the HMAC of what stands before. -/
theorem tlsDecryptTicket_constructed {lib : TlsLib} {tl : TlsTicketLib} {tk : TlsTicketKey}
    (hlib : tl.Lawful) {iv tickNonce : List UInt8} (hiv : iv.length = ticketIvLength)
    {sess : QuicSession} (hsess : sess.InRange) {pkt t : WPacket} (hmax : pkt.maxsize < 2 ^ 31)
    (hrun : tlsConstructStatelessTicket lib tl tk iv sess tickNonce pkt = (.ok (), t)) :
    (∃ last, ∃ m : NewSessionTicket, quicSessionTicketPickTail sess = some last ∧
      pkt.Appends m.encode t ∧ m.lifetimeHint = last.lifetimeHint ∧ m.ageAdd = last.ageAdd ∧
      m.nonce = tickNonce ∧
      ∀ now before, tlsDecryptTicket lib tl tk now m.ticket before =
        (.ok (sess.restored now last), some (sess.restored now last))) ∧
    ∀ now etick before opened, (tlsDecryptTicket lib tl tk now etick before).1 = .ok opened →
      ∃ iv' enc, iv'.length = ticketIvLength ∧ enc ≠ [] ∧ etick = sealedTicket lib tk iv' enc ∧
        (tl.decrypt tk.aesKey iv' enc).bind (d2iQuicSession tl now) = some opened := by
  constructor
  · obtain ⟨last, senc, m, hlast, hsenc, hhint, hage, hnonce, hticket, happends⟩ :=
      tlsConstructStatelessTicket_wrote hmax hrun
    have hmem : last ∈ sess.ticketQueue := List.mem_of_getLast? hlast
    rw [Nat.mod_eq_of_lt (hsess.lifetimeHint last hmem)] at hhint
    refine ⟨last, m, hlast, happends, hhint, hage, hnonce, ?_⟩
    intro now before
    rw [hticket]
    exact tlsDecryptTicket_sealed hlib hiv hsess hlast hsenc now before
  · intro now etick before opened hok
    rw [tlsDecryptTicket_apply] at hok
    cases hplain : ticketPlaintext lib tl tk etick with
    | none =>
      rw [hplain] at hok
      cases hok
    | some plain =>
      obtain ⟨iv', enc, hiv', henc, hsealed, hdecrypt⟩ := ticketPlaintext_eq_some.mp hplain
      rw [hplain] at hok
      cases hd2i : d2iQuicSession tl now plain with
      | none =>
        simp only [hd2i] at hok
        cases hok
      | some sess' =>
        simp only [hd2i] at hok
        cases hok
        refine ⟨iv', enc, hiv', henc, hsealed, ?_⟩
        rw [hdecrypt, Option.bind_some, hd2i]

/-- The ticket with the session of `TLS_AES_256_GCM_SHA384` opens again. -/
theorem tlsDecryptTicket_constructed_sha384 : ∃ m : NewSessionTicket, ∀ now,
    (tlsDecryptTicket sha256Server.lib sha384TicketLib sha256Server.ticketKey now m.ticket none).1 =
      .ok (sha384Session.restored now sha384Ticket) := by
  have hok {α σ : Type} {r : Except Fail α × σ} {a : α} (h : r.1 = .ok a) : r = (.ok a, r.2) :=
    Prod.ext h rfl
  have hsess : sha384Session.InRange := by
    constructor
    · decide
    · decide
    · decide +kernel
    · decide +kernel
  obtain ⟨⟨last, m, hlast, -, -, -, -, hopens⟩, -⟩ := tlsDecryptTicket_constructed
    sha384TicketLib_lawful (show (List.replicate 16 0).length = ticketIvLength from rfl) hsess
    (show (wPacketStaticBufInit 1024).maxsize < 2 ^ 31 by decide)
    (hok (show (tlsConstructStatelessTicket sha256Server.lib sha384TicketLib sha256Server.ticketKey
      (List.replicate 16 0) sha384Session (List.replicate 8 0) (wPacketStaticBufInit 1024)).1 =
        .ok () by decide +kernel))
  have hticket : sha384Ticket = last := Option.some.inj hlast
  refine ⟨m, ?_⟩
  intro now
  rw [hopens, hticket]

end Tbquic
