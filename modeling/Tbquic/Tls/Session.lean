import Tbquic.Tls.Library

/-!
# Sessions and tickets

The session of a connection holds the tickets under which it may be resumed. A server seals the
session in the ticket itself, and opens it when a client offers the ticket again.
-/

namespace Tbquic

/-- `TLS_MAX_RESUMPTION_PSK_LENGTH`. -/
def tlsMaxResumptionPskLength : ℕ := 256

/-- `QuicSessionTicket`. -/
structure QuicSessionTicket where
  /-- The lifetime in seconds. -/
  lifetimeHint : ℕ
  /-- The time at which the ticket was made or received. -/
  time : ℤ
  /-- What the client adds to the age of the ticket. -/
  ageAdd : ℕ
  /-- The ticket. -/
  ticket : List UInt8
  /-- The first `master_key_length` bytes of `master_key`. -/
  masterKey : List UInt8
  /-- The key fits in its array. -/
  masterKey_le : masterKey.length ≤ tlsMaxResumptionPskLength
  deriving DecidableEq, Repr

/-- `QuicSessionTicketNew`. -/
def quicSessionTicketNew (now : ℤ) (lifetimeHint ageAdd : ℕ) (ticket : List UInt8) :
    QuicSessionTicket where
  lifetimeHint := lifetimeHint % 2 ^ 32
  time := now
  ageAdd := ageAdd % 2 ^ 32
  ticket := ticket
  masterKey := []
  masterKey_le := Nat.zero_le _

/-- `QuicSession`, without its reference count. -/
structure QuicSession where
  /-- The cipher suite, or `NULL`. -/
  cipher : Option TlsCipher
  /-- The number of tickets that were ever added. -/
  tickIdentity : ℕ
  /-- The limit of the early data. -/
  maxEarlyData : ℕ
  /-- The tickets, the oldest first. -/
  ticketQueue : List QuicSessionTicket
  deriving DecidableEq, Repr

/-- `QuicSessionCreate`. -/
def quicSessionCreate : QuicSession :=
  { cipher := none, tickIdentity := 0, maxEarlyData := 0, ticketQueue := [] }

/-- `QuicSessionTicketAdd`. -/
def quicSessionTicketAdd (sess : QuicSession) (t : QuicSessionTicket) : QuicSession :=
  { sess with
    ticketQueue := sess.ticketQueue ++ [t]
    tickIdentity := (sess.tickIdentity + 1) % 2 ^ 32 }

/-- `QuicSessionTicketPickTail`. -/
def quicSessionTicketPickTail (sess : QuicSession) : Option QuicSessionTicket :=
  sess.ticketQueue.getLast?

/-- `QUIC_SESSION_ASN1`, the record that is encoded. -/
structure QuicSessionAsn1 where
  /-- `master_key`. -/
  masterKey : List UInt8
  /-- `cipher_id`. -/
  cipherId : ℕ
  /-- `tick_age_add`. -/
  tickAgeAdd : ℕ
  /-- `tick_lifetime_hint`. -/
  tickLifetimeHint : ℕ
  /-- `tlsext_tick`, which is optional. -/
  tlsextTick : Option (List UInt8)
  /-- `max_early_data`. -/
  maxEarlyData : ℕ
  deriving DecidableEq, Repr

/-- The functions of the cryptographic library on tickets. -/
structure TlsTicketLib where
  /-- AES-256-CBC with padding, for a key, an initialisation vector and the bytes. -/
  encrypt : List UInt8 → List UInt8 → List UInt8 → List UInt8
  /-- The decryption, which checks the padding. -/
  decrypt : List UInt8 → List UInt8 → List UInt8 → Option (List UInt8)
  /-- `i2d_QUIC_SESSION_ASN1`. -/
  i2d : QuicSessionAsn1 → List UInt8
  /-- `d2i_QUIC_SESSION_ASN1`. -/
  d2i : List UInt8 → Option QuicSessionAsn1

/-- `TlsTicketKey`. -/
structure TlsTicketKey where
  /-- `tick_hmac_key`. -/
  hmacKey : List UInt8
  /-- `tick_aes_key`. -/
  aesKey : List UInt8
  /-- `tick_key_name`. -/
  keyName : List UInt8
  /-- The name has `TLSEXT_KEYNAME_LENGTH` bytes. -/
  keyName_length : keyName.length = 16
  deriving DecidableEq, Repr

/-- `i2dQuicSession`. -/
def i2dQuicSession (tl : TlsTicketLib) (sess : QuicSession) : Option (List UInt8) := do
  let cipher ← sess.cipher
  let t ← quicSessionTicketPickTail sess
  some (tl.i2d
    { masterKey := t.masterKey
      cipherId := cipher.id
      tickAgeAdd := t.ageAdd
      tickLifetimeHint := t.lifetimeHint
      tlsextTick := if t.ticket = [] then none else some t.ticket
      maxEarlyData := sess.maxEarlyData })

/-- The session of a decoded record, if its cipher suite is known and its key fits. -/
def QuicSessionAsn1.session (now : ℤ) (as : QuicSessionAsn1) : Option QuicSession := do
  let cipher ← quicGetTlsCipherById as.cipherId
  if hkey : as.masterKey.length ≤ tlsMaxResumptionPskLength then
    let t := quicSessionTicketNew now as.tickLifetimeHint as.tickAgeAdd (as.tlsextTick.getD [])
    some (quicSessionTicketAdd
      { quicSessionCreate with cipher := some cipher, maxEarlyData := as.maxEarlyData }
      { t with masterKey := as.masterKey, masterKey_le := hkey })
  else none

/-- `d2iQuicSession`. -/
def d2iQuicSession (tl : TlsTicketLib) (now : ℤ) (bytes : List UInt8) : Option QuicSession :=
  (tl.d2i bytes).bind (QuicSessionAsn1.session now)

/-- The part of `TlsDecryptTicket` that checks the name of the key and the HMAC and decrypts. -/
def ticketPlaintext (lib : TlsLib) (tl : TlsTicketLib) (tk : TlsTicketKey) (etick : List UInt8) :
    Option (List UInt8) :=
  if etick.length < 16 + 16 then none
  else if etick.take 16 ≠ tk.keyName then none
  else if etick.length ≤ 16 + 16 + QuicDigest.sha256.size then none
  else
    let sealed := etick.take (etick.length - QuicDigest.sha256.size)
    if lib.hmac .sha256 tk.hmacKey sealed ≠ etick.drop (etick.length - QuicDigest.sha256.size) then
      none
    else tl.decrypt tk.aesKey ((etick.drop 16).take 16) (sealed.drop (16 + 16))

/-- `TlsDecryptTicket`. The state is the pointer to the session, which is overwritten once the
ticket is decrypted. -/
def tlsDecryptTicket (lib : TlsLib) (tl : TlsTicketLib) (tk : TlsTicketKey) (now : ℤ)
    (etick : List UInt8) : Prog Fail (Option QuicSession) QuicSession := do
  let plain ← Prog.ofOption .ret (ticketPlaintext lib tl tk etick)
  Prog.modify fun _ => d2iQuicSession tl now plain
  Prog.ofOption .ret (d2iQuicSession tl now plain)

/-- A decoded session has a cipher suite and one ticket. -/
theorem d2iQuicSession_eq_some {tl : TlsTicketLib} {now : ℤ} {bytes : List UInt8}
    {sess : QuicSession} (h : d2iQuicSession tl now bytes = some sess) :
    ∃ cipher t, sess.cipher = some cipher ∧ sess.ticketQueue = [t] := by
  obtain ⟨as, _, hsess⟩ := Option.bind_eq_some_iff.mp h
  obtain ⟨cipher, _, hsess⟩ := Option.bind_eq_some_iff.mp hsess
  split at hsess
  · cases hsess
    exact ⟨cipher, _, rfl, rfl⟩
  · cases hsess

end Tbquic
