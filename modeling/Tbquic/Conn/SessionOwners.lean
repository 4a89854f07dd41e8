import Tbquic.Frame.Endpoint
import Tbquic.Lib.RefHeap
import Tbquic.Lib.Trace
import Tbquic.Tls.Psk

/-!
# The owners of sessions

Connections share their sessions, and the application may hold references to them as well. Every
session counts its owners. `QUIC_set_session` takes a reference only where there is no session to
take it on, and the server forgets sessions that it opens from tickets and does not use.
-/

namespace Tbquic

/-- The sessions with the `session` pointer of a connection. -/
structure SessionConn where
  /-- The sessions. -/
  heap : RefHeap QuicSession
  /-- `session`, or `NULL`. -/
  session : Option ℕ

/-- `QuicSessionUpRef`. The counter is an `int`, and one more than `INT_MAX` overflows. -/
def quicSessionUpRef (sess : Option ℕ) : Prog Fail (RefHeap QuicSession) Unit := do
  let a ← Prog.ofOption .ub sess
  let h ← Prog.get
  let t ← Prog.ofOption .ub (h.upRef a)
  Prog.ensure .ub (h.references a < 2 ^ 31 - 1)
  Prog.modify fun _ => t

/-- `QuicSessionFree`. -/
def quicSessionFree : Option ℕ → Prog Fail (RefHeap QuicSession) Unit
  | none => pure ()
  | some a => do
    let h ← Prog.get
    let t ← Prog.ofOption .ub (h.release a)
    Prog.modify fun _ => t

namespace SessionConn

/-- An operation on the sessions. -/
def onHeap {α : Type} (m : Prog Fail (RefHeap QuicSession) α) : Prog Fail SessionConn α :=
  Prog.zoom SessionConn.heap (fun heap s => { s with heap }) m

/-- Set the pointer. -/
def setPointer (session : Option ℕ) : Prog Fail SessionConn Unit :=
  Prog.modify fun s => { s with session }

end SessionConn

open SessionConn

/-- `QuicGetSession` for the cipher suite of the handshake. The flag says whether there is memory
for a session. -/
def quicGetSession (mem : Bool) (cipher : Option TlsCipher) : Prog Fail SessionConn Unit := do
  let s ← Prog.get
  if s.session ≠ none then pure ()
  else do
    Prog.ensure .ret (mem = true)
    Prog.modify fun s =>
      { heap := s.heap.alloc { quicSessionCreate with cipher }, session := some s.heap.next }

/-- `QUIC_get1_session`. -/
def quicGet1Session : Prog Fail SessionConn (Option ℕ) := do
  let s ← Prog.get
  if s.session ≠ none then do
    onHeap (quicSessionUpRef s.session)
    pure s.session
  else pure s.session

/-- `QUIC_set_session`. -/
def quicSetSession (sess : Option ℕ) : Prog Fail SessionConn Unit := do
  if sess = none then onHeap (quicSessionUpRef sess)
  let s ← Prog.get
  onHeap (quicSessionFree s.session)
  setPointer sess

/-- The local variables of `TlsExtsrvrParsePsk` in its loop, with the sessions. -/
structure PskLocals where
  /-- `identities`. -/
  identities : RPacket
  /-- `sess`, or `NULL`. -/
  sess : Option ℕ
  /-- The sessions. -/
  heap : RefHeap QuicSession

/-- `TlsDecryptTicket`, which creates the session. -/
def PskServer.decryptTicket (srv : PskServer) (etick : List UInt8) :
    Prog Fail PskLocals QuicSession := do
  let plain ← Prog.ofOption .ret (ticketPlaintext srv.lib srv.tl srv.ticketKey etick)
  match d2iQuicSession srv.tl srv.now plain with
  | none => do
    Prog.modify fun s => { s with sess := none }
    Prog.fail .ret
  | some sess => do
    Prog.modify fun s => { s with sess := some s.heap.next, heap := s.heap.alloc sess }
    pure sess

/-- The next identity, of which the ticket is used. -/
def readPskIdentity : Prog Fail RPacket (List UInt8) := do
  let identity ← rPacketGetLengthPrefixed 2
  let _ ← rPacketGet4
  pure identity.rest

/-- The loop of `TlsExtsrvrParsePsk` over the identities, from the identity `id`. -/
def PskServer.identityLoop (srv : PskServer) : ℕ → ℕ → Prog Fail PskLocals ℕ
  | 0, _ => Prog.fail .fuel
  | fuel + 1, id => do
    let s ← Prog.get
    if s.identities.remaining = 0 then pure id
    else do
      let ticket ← Prog.zoom PskLocals.identities (fun identities s => { s with identities })
        readPskIdentity
      let opened ← Prog.attempt (srv.decryptTicket ticket)
      match opened with
      | .error _ => srv.identityLoop fuel (id + 1)
      | .ok sess => if srv.Compatible sess then pure id else srv.identityLoop fuel (id + 1)

/-- The part of `TlsExtsrvrParsePsk` behind the loop, for the session at an address. -/
def PskServer.acceptSession (srv : PskServer) (tls : TlsPsk) (pkt : RPacket) (id a : ℕ) :
    Prog Fail SessionConn Unit := do
  let s ← Prog.get
  let o ← Prog.ofOption .ub (s.heap.obj a)
  match (parsePskSession srv id o.content (pkt, tls)).1 with
  | .ok () => do
    onHeap (quicSessionFree s.session)
    setPointer (some a)
  | .error .ret => do
    onHeap (quicSessionFree (some a))
    Prog.fail .ret
  | .error e => Prog.fail e

/-- `TlsExtsrvrParsePsk` for the extension in `pkt`, with the other fields of the connection that it
uses. -/
def PskServer.parsePsk (srv : PskServer) (tls : TlsPsk) (pkt : RPacket) :
    Prog Fail SessionConn Unit := do
  let identities ← Prog.ofExcept (rPacketGetLengthPrefixed 2 pkt).1
  let s ← Prog.get
  let run := srv.identityLoop (identities.remaining + 1) 0 ⟨identities, none, s.heap⟩
  Prog.modify fun s => { s with heap := run.2.heap }
  let id ← Prog.ofExcept run.1
  match run.2.sess with
  | none => pure ()
  | some a => srv.acceptSession tls (rPacketGetLengthPrefixed 2 pkt).2 id a

/-- The connections of a program with their sessions. -/
structure SessionWorld where
  /-- The sessions. -/
  heap : RefHeap QuicSession
  /-- The `session` pointers of the connections. A connection that was freed has none. -/
  conns : List (Option (Option ℕ))
  /-- The references that were returned to the application and not yet freed. -/
  app : List ℕ

/-- What happens to the sessions. -/
inductive SessionEvent
  /-- `QuicNew`. -/
  | connNew
  /-- `QuicGetSession`. -/
  | getSession (c : ℕ) (mem : Bool) (cipher : Option TlsCipher)
  /-- `QUIC_get1_session`. -/
  | get1Session (c : ℕ)
  /-- The application gives a reference back with `QuicSessionFree`. -/
  | sessionFree (a : ℕ)
  /-- `QUIC_set_session`. -/
  | setSession (c : ℕ) (sess : Option ℕ)
  /-- A server parses a `pre_shared_key` extension. -/
  | parsePsk (c : ℕ) (srv : PskServer) (tls : TlsPsk) (pkt : RPacket)
  /-- `QuicFree`. -/
  | connFree (c : ℕ)

namespace SessionWorld

/-- No connection. -/
def start : SessionWorld := ⟨RefHeap.empty, [], []⟩

/-- The number of owners of a session: the connections that hold it and the references of the
application. -/
def owners (s : SessionWorld) (a : ℕ) : ℕ := s.conns.count (some (some a)) + s.app.count a

/-- The connection is not freed. -/
def Open (s : SessionWorld) (c : ℕ) : Prop := s.conns[c]?.join ≠ none

instance (s : SessionWorld) (c : ℕ) : Decidable (s.Open c) := inferInstanceAs (Decidable (_ ≠ _))

/-- The application uses connections that are not freed, frees references that it got, and sets
sessions that have an owner. -/
def Allowed (s : SessionWorld) : SessionEvent → Prop
  | .connNew => True
  | .getSession c _ _ => s.Open c
  | .get1Session c => s.Open c
  | .sessionFree a => a ∈ s.app
  | .setSession c sess => s.Open c ∧ ∀ a ∈ sess, 0 < s.owners a
  | .parsePsk c _ _ _ => s.Open c
  | .connFree c => s.Open c

instance decidableAllowed (s : SessionWorld) : ∀ e : SessionEvent, Decidable (s.Allowed e)
  | .connNew => inferInstanceAs (Decidable True)
  | .getSession c _ _ => inferInstanceAs (Decidable (s.Open c))
  | .get1Session c => inferInstanceAs (Decidable (s.Open c))
  | .sessionFree a => inferInstanceAs (Decidable (a ∈ s.app))
  | .setSession c sess => inferInstanceAs (Decidable (s.Open c ∧ ∀ a ∈ sess, 0 < s.owners a))
  | .parsePsk c _ _ _ => inferInstanceAs (Decidable (s.Open c))
  | .connFree c => inferInstanceAs (Decidable (s.Open c))

/-- A routine on a connection that returns. -/
def onConn {α : Type} (s : SessionWorld) (c : ℕ) (m : Prog Fail SessionConn α) :
    Option SessionWorld := do
  let p ← s.conns[c]?.join
  let t ← returned (m ⟨s.heap, p⟩)
  some { s with heap := t.heap, conns := s.conns.set c (some t.session) }

/-- The state behind an event that returns. -/
def act (s : SessionWorld) : SessionEvent → Option SessionWorld
  | .connNew => some { s with conns := s.conns ++ [some none] }
  | .getSession c mem cipher => s.onConn c (quicGetSession mem cipher)
  | .get1Session c => do
    let p ← s.conns[c]?.join
    match quicGet1Session ⟨s.heap, p⟩ with
    | (.ok sess, t) => some { s with heap := t.heap, app := sess.toList ++ s.app }
    | (.error _, _) => none
  | .sessionFree a => do
    let t ← returned (quicSessionFree (some a) s.heap)
    some { s with heap := t, app := s.app.erase a }
  | .setSession c sess => s.onConn c (quicSetSession sess)
  | .parsePsk c srv tls pkt => s.onConn c (srv.parsePsk tls pkt)
  | .connFree c => do
    let p ← s.conns[c]?.join
    let t ← returned (quicSessionFree p s.heap)
    some { s with heap := t, conns := s.conns.set c none }

/-- The state behind an event that is allowed and returns. -/
def step (s : SessionWorld) (e : SessionEvent) : Option SessionWorld :=
  if s.Allowed e then s.act e else none

/-- An event that is allowed returns, and behind it every session counts its owners and is allocated
as long as it has some. -/
def SessionsProper (s : SessionWorld) (e : SessionEvent) : Prop :=
  s.Allowed e → ∃ t, s.step e = some t ∧ t.heap.Counts t.owners

end SessionWorld

section Read

/-- A request for fewer than `2 ^ 31` bytes takes them, or is refused. -/
theorem rPacketGetBytes_takes {len : ℕ} (hlen : len ≤ 2 ^ 31) (pkt : RPacket) :
    Prog.Post (rPacketGetBytes len)
      (fun bytes t => bytes.length = len ∧ t.rest.length + len = pkt.rest.length)
      (fun e _ => e = .ret) pkt := by
  rw [rPacketGetBytes, Prog.post_bind]
  unfold Prog.Post rPacketPeekBytes
  by_cases hcheck : quicLt pkt.remaining len
  · rw [if_pos hcheck]
  · have hbound : ¬ pkt.remaining < len := fun hshort =>
      hcheck ((quicLt_iff (by omega) (by omega)).mpr (Int.ofNat_lt.mpr hshort))
    rw [if_neg hcheck, if_neg hbound]
    dsimp only
    rw [Prog.modify_bind]
    unfold RPacket.remaining at hbound
    refine ⟨List.length_take_of_le (not_lt.mp hbound), ?_⟩
    change (pkt.rest.drop len).length + len = _
    rw [List.length_drop]
    omega

/-- A number is read from its bytes, or refused. -/
theorem rPacketGetData_takes {size : ℕ} (hsize : size ≤ 4) (pkt : RPacket) :
    Prog.Post (rPacketGetData size)
      (fun n t => n < 256 ^ size ∧ t.rest.length + size = pkt.rest.length)
      (fun e _ => e = .ret) pkt := by
  rw [rPacketGetData, Prog.post_bind]
  refine (rPacketGetBytes_takes (by omega) pkt).mono (fun bytes t h => ?_) fun _ _ h => h
  obtain ⟨hlength, hrest⟩ := h
  exact ⟨hlength ▸ Bytes.toNat_lt bytes, hrest⟩

/-- Bytes behind a length of one or two bytes are read, or refused. -/
theorem rPacketGetLengthPrefixed_takes {size : ℕ} (hsize : size ≤ 2) (pkt : RPacket) :
    Prog.Post (rPacketGetLengthPrefixed size)
      (fun _ t => t.rest.length + size ≤ pkt.rest.length) (fun e _ => e = .ret) pkt := by
  rw [rPacketGetLengthPrefixed, Prog.post_bind]
  refine (rPacketGetData_takes (by omega) pkt).mono (fun n t h => ?_) fun _ _ h => h
  obtain ⟨hn, hrest⟩ := h
  have hlen : n ≤ 2 ^ 31 := by
    have hpow : (256 : ℕ) ^ size ≤ 256 ^ 2 := Nat.pow_le_pow_right (by decide) hsize
    omega
  rw [Prog.post_bind]
  refine (rPacketGetBytes_takes hlen t).mono (fun bytes u h => ?_) fun _ _ h => h
  rw [Prog.post_pure]
  omega

/-- An identity is read from its bytes, or refused. -/
theorem readPskIdentity_takes (pkt : RPacket) :
    Prog.Post readPskIdentity (fun _ t => t.rest.length < pkt.rest.length)
      (fun e _ => e = .ret) pkt := by
  rw [readPskIdentity, Prog.post_bind]
  refine (rPacketGetLengthPrefixed_takes (le_refl 2) pkt).mono (fun identity t h => ?_)
    fun _ _ h => h
  rw [Prog.post_bind]
  refine (rPacketGetData_takes (le_refl 4) t).mono (fun n u hu => ?_) fun _ _ h => h
  rw [Prog.post_pure]
  omega

/-- A binder is read, or refused. -/
theorem parsePskBinder_ret (id : ℕ) (pkt : RPacket) :
    Prog.Post (parsePskBinder id) (fun _ _ => True) (fun e _ => e = .ret) pkt := by
  induction id generalizing pkt with
  | zero =>
    rw [parsePskBinder, Prog.post_bind]
    exact (rPacketGetLengthPrefixed_takes (by decide) pkt).mono (fun _ _ _ => trivial)
      fun _ _ h => h
  | succ id ih =>
    rw [parsePskBinder, Prog.post_bind]
    exact (rPacketGetLengthPrefixed_takes (by decide) pkt).mono (fun _ t _ => ih t)
      fun _ _ h => h

/-- The part of `TlsExtsrvrParsePsk` behind the loop returns for a session with a cipher suite. -/
theorem parsePskSession_returns (srv : PskServer) (id : ℕ) {sess : QuicSession}
    (hcipher : sess.cipher ≠ none) (s : RPacket × TlsPsk) :
    Prog.Post (parsePskSession srv id sess) (fun _ _ => True) (fun e _ => e = .ret) s := by
  obtain ⟨cipher, hcipher⟩ := Option.ne_none_iff_exists'.mp hcipher
  rw [parsePskSession, hcipher]
  simp only [Prog.post_bind, Prog.post_get, Prog.post_ofOption, Prog.post_ofExcept,
    Prog.post_ensure, Prog.post_modify, Prog.onFst, Prog.onSnd, Prog.post_zoom]
  refine ⟨fun a _ => ?_, fun h => (by cases h)⟩
  refine (rPacketGetLengthPrefixed_takes (le_refl 2) s.1).mono (fun binders t _ => ?_)
    fun _ _ h => h
  refine ⟨fun binder _ => ⟨fun _ => ⟨fun t _ => ?_, fun _ => trivial⟩, fun _ => trivial⟩,
    fun e he => ?_⟩
  · unfold tlsPskDoBinder
    simp only [Prog.post_bind, Prog.post_get, Prog.post_ofOption, Prog.post_ensure,
      Prog.post_modify, Prog.post_pure]
    tauto
  · have hpost := parsePskBinder_ret id binders
    unfold Prog.Post at hpost
    split at hpost
    · rename_i heq
      rw [heq] at he
      cases he
    · rename_i heq
      rw [heq] at he
      cases he
      exact hpost

end Read

/-- The tickets of the identities, and whether an identity behind them is truncated. -/
def pskTickets : ℕ → RPacket → List (List UInt8) × Bool
  | 0, _ => ([], false)
  | fuel + 1, identities =>
    if identities.remaining = 0 then ([], false)
    else
      match readPskIdentity identities with
      | (.ok ticket, rest) => (ticket :: (pskTickets fuel rest).1, (pskTickets fuel rest).2)
      | (.error _, _) => ([], true)

/-- A session is forgotten: one was opened that does not fit the handshake, and another ticket
decrypts or an identity is truncated behind it. The flag `held` says whether one was opened. -/
def PskServer.LosesSession (srv : PskServer) (truncated : Bool) : Bool → List (List UInt8) → Prop
  | held, [] => held = true ∧ truncated = true
  | held, ticket :: tickets =>
    match ticketPlaintext srv.lib srv.tl srv.ticketKey ticket with
    | none => srv.LosesSession truncated held tickets
    | some plain => held = true ∨
      match d2iQuicSession srv.tl srv.now plain with
      | none => srv.LosesSession truncated false tickets
      | some sess => ¬ srv.Compatible sess ∧ srv.LosesSession truncated true tickets

/-- A session is forgotten while the extension in `pkt` is parsed. -/
def PskServer.Loses (srv : PskServer) (pkt : RPacket) : Prop :=
  match (rPacketGetLengthPrefixed 2 pkt).1 with
  | .ok identities => srv.LosesSession (pskTickets (identities.remaining + 1) identities).2 false
      (pskTickets (identities.remaining + 1) identities).1
  | .error _ => False

section Loop

open RefHeap

variable {srv : PskServer} {s : PskLocals} {n : ℕ → ℕ}

/-- What `TlsDecryptTicket` does with the session pointer. -/
theorem decryptTicket_apply (ticket : List UInt8) :
    srv.decryptTicket ticket s =
      match ticketPlaintext srv.lib srv.tl srv.ticketKey ticket with
      | none => (.error .ret, s)
      | some plain =>
        match d2iQuicSession srv.tl srv.now plain with
        | none => (.error .ret, { s with sess := none })
        | some sess =>
          (.ok sess, { s with sess := some s.heap.next, heap := s.heap.alloc sess }) := by
  unfold PskServer.decryptTicket
  cases ticketPlaintext srv.lib srv.tl srv.ticketKey ticket with
  | none => rw [Prog.ofOption_none, Prog.fail_bind, Prog.fail_apply]
  | some plain =>
    rw [Prog.ofOption_some, Prog.pure_bind]
    dsimp only
    cases d2iQuicSession srv.tl srv.now plain with
    | none =>
      dsimp only
      rw [Prog.modify_bind, Prog.fail_apply]
    | some sess =>
      dsimp only
      rw [Prog.modify_bind, Prog.pure_apply]

/-- The heap of the loop counts the session pointer besides the owners `n`, and the session behind
the pointer has a cipher suite. -/
structure PskLocals.Counts (s : PskLocals) (n : ℕ → ℕ) : Prop where
  /-- The counts. -/
  counts : s.heap.Counts fun a => n a + held s.sess a
  /-- The next address is free. -/
  fresh : s.heap.Fresh
  /-- The cipher suite. -/
  cipher (a : ℕ) : s.sess = some a → ∃ o, s.heap.obj a = some o ∧ o.content.cipher ≠ none

/-- A session that is opened takes the place of the one before, which is counted on. -/
theorem PskLocals.Counts.opened {sess : QuicSession} (h : s.Counts n)
    (hcipher : sess.cipher ≠ none) :
    ({ s with sess := some s.heap.next, heap := s.heap.alloc sess } : PskLocals).Counts
      fun a => n a + held s.sess a := by
  refine ⟨h.counts.alloc h.fresh sess, h.fresh.alloc, fun a ha => ?_⟩
  cases ha
  exact ⟨_, alloc_obj_next, hcipher⟩

/-- The pointer is set to `NULL`, and the session before is counted on. -/
theorem PskLocals.Counts.cleared (h : s.Counts n) :
    ({ s with sess := none } : PskLocals).Counts fun a => n a + held s.sess a := by
  refine ⟨?_, h.fresh, fun a ha => (by cases ha)⟩
  simp only [held_none, Nat.add_zero]
  exact h.counts

/-- The pointer counts as a list of one session or none. -/
theorem held_eq_count (p : Option ℕ) (a : ℕ) : held p a = List.count a p.toList := by
  cases p with
  | none => rfl
  | some b =>
    rw [Option.toList_some, List.count_singleton]
    by_cases hb : a = b
    · rw [hb, held_self, beq_self_eq_true, if_pos rfl]
    · rw [held_of_ne hb, if_neg fun h => hb (eq_of_beq h).symm]

/-- A forgotten session is one that the pointer held. -/
theorem forgotten_iff {p : Option ℕ} {lost : List ℕ} {rest loses : Prop}
    (h : (lost = [] ∧ rest) ↔ ¬ loses) :
    (p.toList ++ lost = [] ∧ rest) ↔ ¬ (p.isSome = true ∨ loses) := by
  cases p with
  | none => simpa using h
  | some a => simp

/-- The loop counts the sessions that it forgets on. -/
theorem identityLoop_counts {fuel id : ℕ} (hfuel : s.identities.remaining < fuel)
    (hs : s.Counts n) :
    ∃ r t lost, srv.identityLoop fuel id s = (r, t) ∧ (∀ e, r = .error e → e = .ret) ∧
      t.Counts (fun a => n a + List.count a lost) ∧
      ((lost = [] ∧ ((∃ e, r = .error e) → t.sess = none)) ↔
        ¬ srv.LosesSession (pskTickets fuel s.identities).2 s.sess.isSome
          (pskTickets fuel s.identities).1) := by
  induction fuel generalizing id s n with
  | zero => exact absurd hfuel (Nat.not_lt_zero _)
  | succ fuel ih =>
    rw [PskServer.identityLoop, Prog.get_bind, pskTickets]
    by_cases hend : s.identities.remaining = 0
    · rw [if_pos hend, if_pos hend]
      refine ⟨_, s, [], rfl, fun e he => (by cases he), hs, ?_⟩
      refine iff_of_true ⟨rfl, fun h => ?_⟩ fun h => Bool.false_ne_true h.2
      obtain ⟨e, he⟩ := h
      cases he
    rw [if_neg hend, if_neg hend]
    have htakes := readPskIdentity_takes s.identities
    rcases hread : readPskIdentity s.identities with ⟨r, rest⟩
    cases r with
    | error e =>
      have he := htakes.of_error hread
      subst he
      rw [Prog.bind_of_error (Prog.zoom_of_error hread)]
      refine ⟨_, _, [], rfl, fun e he => (by cases he; rfl), ⟨hs.counts, hs.fresh, hs.cipher⟩, ?_⟩
      dsimp only [PskServer.LosesSession]
      rw [and_iff_left rfl, Bool.not_eq_true, Option.isSome_eq_false_iff, Option.isNone_iff_eq_none]
      exact ⟨fun h => h.2 ⟨_, rfl⟩, fun h => ⟨rfl, fun _ => h⟩⟩
    | ok ticket =>
      have hless : rest.remaining < fuel := by
        have hlt := htakes.of_ok hread
        unfold RPacket.remaining at hfuel ⊢
        omega
      have hs' : ({ s with identities := rest } : PskLocals).Counts n :=
        ⟨hs.counts, hs.fresh, hs.cipher⟩
      have hcounts {t : PskLocals} {lost : List ℕ}
          (h : t.Counts fun a => n a + held s.sess a + List.count a lost) :
          t.Counts fun a => n a + List.count a (s.sess.toList ++ lost) := by
        simp only [List.count_append, ← held_eq_count, ← Nat.add_assoc]
        exact h
      rw [Prog.bind_of_ok (Prog.zoom_of_ok hread), Prog.attempt_bind, decryptTicket_apply]
      dsimp only [PskServer.LosesSession]
      cases ticketPlaintext srv.lib srv.tl srv.ticketKey ticket with
      | none => exact ih hless hs'
      | some plain =>
        dsimp only
        cases hsess : d2iQuicSession srv.tl srv.now plain with
        | none =>
          obtain ⟨r, t, lost, hrun, hret, ht, hlost⟩ := @ih _ _ (id + 1) hless hs'.cleared
          exact ⟨r, t, s.sess.toList ++ lost, hrun, hret, hcounts ht, forgotten_iff hlost⟩
        | some sess =>
          obtain ⟨cipher, -, hcipher, -⟩ := d2iQuicSession_eq_some hsess
          have hknown : sess.cipher ≠ none := hcipher ▸ Option.some_ne_none _
          have hopened := hs'.opened hknown
          dsimp only
          by_cases hfits : srv.Compatible sess
          · rw [if_pos hfits]
            refine ⟨_, _, s.sess.toList ++ [], rfl, fun e he => (by cases he), hcounts hopened,
              forgotten_iff (iff_of_true ⟨rfl, fun h => ?_⟩ fun h => h.1 hfits)⟩
            obtain ⟨e, he⟩ := h
            cases he
          · rw [if_neg hfits, and_iff_right hfits]
            obtain ⟨r, t, lost, hrun, hret, ht, hlost⟩ := @ih _ _ (id + 1) hless hopened
            exact ⟨r, t, s.sess.toList ++ lost, hrun, hret, hcounts ht, forgotten_iff hlost⟩

end Loop

section Routines

open RefHeap

variable {h : RefHeap QuicSession} {n : ℕ → ℕ} {p : Option ℕ} {a : ℕ} {s : SessionConn}

/-- An owner gives its reference back. -/
theorem quicSessionFree_counts (hc : h.Counts fun a => n a + held p a) (hf : h.Fresh) :
    ∃ t, quicSessionFree p h = (.ok (), t) ∧ t.Counts n ∧ t.Fresh := by
  cases p with
  | none => exact ⟨h, rfl, hc, hf⟩
  | some a =>
    obtain ⟨t, ht, hcounts⟩ := hc.release
    refine ⟨t, ?_, hcounts, hf.release ht⟩
    rw [quicSessionFree, Prog.get_bind, ht, Prog.ofOption_some, Prog.pure_bind]
    rfl

/-- An owner passes on another reference, as long as the counter holds it. -/
theorem quicSessionUpRef_counts (hc : h.Counts n) (hf : h.Fresh) (ha : 0 < n a)
    (hlt : h.references a < 2 ^ 31 - 1) :
    ∃ t, quicSessionUpRef (some a) h = (.ok (), t) ∧
      t.Counts (fun b => n b + held (some a) b) ∧ t.Fresh := by
  obtain ⟨t, ht, hcounts⟩ := hc.upRef ha
  refine ⟨t, ?_, hcounts, hf.upRef ht⟩
  rw [quicSessionUpRef, Prog.ofOption_some, Prog.pure_bind, Prog.get_bind, ht, Prog.ofOption_some,
    Prog.pure_bind, Prog.ensure_of_pos hlt, Prog.pure_bind]
  rfl

/-- The counter of a session with `INT_MAX` references overflows. -/
theorem quicSessionUpRef_overflow (hlt : ¬ h.references a < 2 ^ 31 - 1) :
    quicSessionUpRef (some a) h = (.error .ub, h) := by
  rw [quicSessionUpRef, Prog.ofOption_some, Prog.pure_bind, Prog.get_bind]
  cases h.upRef a with
  | none =>
    rw [Prog.ofOption_none, Prog.fail_bind]
    rfl
  | some t =>
    rw [Prog.ofOption_some, Prog.pure_bind, Prog.ensure_of_neg hlt, Prog.fail_bind]
    rfl

/-- The sessions count the connection besides the owners `n`. -/
structure SessionConn.Counts (s : SessionConn) (n : ℕ → ℕ) : Prop where
  /-- The counts. -/
  counts : s.heap.Counts fun a => n a + held s.session a
  /-- The next address is free. -/
  fresh : s.heap.Fresh

/-- `QuicGetSession` keeps the counts. -/
theorem quicGetSession_counts (mem : Bool) (cipher : Option TlsCipher) (hs : s.Counts n) :
    ∃ r t, quicGetSession mem cipher s = (r, t) ∧ (∀ e, r = .error e → e = .ret) ∧
      t.Counts n := by
  rw [quicGetSession, Prog.get_bind]
  by_cases hheld : s.session ≠ none
  · rw [if_pos hheld]
    exact ⟨_, s, rfl, fun e he => (by cases he), hs⟩
  rw [if_neg hheld]
  by_cases hmem : mem = true
  · rw [Prog.ensure_of_pos hmem, Prog.pure_bind]
    refine ⟨_, _, rfl, fun e he => (by cases he), ?_, hs.fresh.alloc⟩
    have hnone : s.session = none := not_not.mp hheld
    have hcounts := hs.counts
    rw [hnone] at hcounts
    exact hcounts.alloc hs.fresh _
  · rw [Prog.ensure_of_neg hmem, Prog.fail_bind]
    exact ⟨_, s, rfl, fun e he => (by cases he; rfl), hs⟩

/-- `QUIC_get1_session` counts the reference that it returns, as long as the counter holds it. -/
theorem quicGet1Session_counts (hs : s.Counts n)
    (hlt : ∀ a, s.session = some a → s.heap.references a < 2 ^ 31 - 1) :
    ∃ t, quicGet1Session s = (.ok s.session, t) ∧ t.session = s.session ∧
      t.Counts fun a => n a + held s.session a := by
  rw [quicGet1Session, Prog.get_bind]
  cases hsession : s.session with
  | none =>
    refine ⟨s, rfl, hsession, ?_, hs.fresh⟩
    simp only [held_none, Nat.add_zero]
    exact hs.counts
  | some a =>
    have hpos : 0 < n a + held s.session a := by
      rw [hsession, held_self]
      exact Nat.succ_pos _
    obtain ⟨t, ht, hcounts, hfresh⟩ :=
      quicSessionUpRef_counts hs.counts hs.fresh hpos (hlt a hsession)
    have hstep : SessionConn.onHeap (quicSessionUpRef (some a)) s =
        (.ok (), { s with heap := t }) :=
      Prog.zoom_of_ok ht
    rw [if_pos (Option.some_ne_none a), Prog.bind_of_ok hstep]
    refine ⟨_, rfl, hsession, ?_, hfresh⟩
    rw [hsession] at hcounts ⊢
    exact hcounts

/-- `QUIC_get1_session` of a session with `INT_MAX` references overflows its counter. -/
theorem quicGet1Session_overflow (hsession : s.session = some a)
    (hlt : ¬ s.heap.references a < 2 ^ 31 - 1) : quicGet1Session s = (.error .ub, s) := by
  have hstep : SessionConn.onHeap (quicSessionUpRef (some a)) s = (.error .ub, s) :=
    Prog.zoom_of_error (quicSessionUpRef_overflow hlt)
  rw [quicGet1Session, Prog.get_bind, hsession, if_pos (Option.some_ne_none a),
    Prog.bind_of_error hstep]

/-- `QUIC_set_session` takes a reference to the session that is not there. -/
theorem quicSetSession_null : quicSetSession none s = (.error .ub, s) := by
  have hstep : SessionConn.onHeap (quicSessionUpRef none) s = (.error .ub, s) := by
    refine Prog.zoom_of_error ?_
    rw [quicSessionUpRef, Prog.ofOption_none, Prog.fail_bind]
    rfl
  rw [quicSetSession, if_pos rfl, Prog.bind_of_error hstep]

/-- `QUIC_set_session` takes no reference to the session that it sets. -/
theorem quicSetSession_counts (hs : s.Counts n) (a : ℕ) :
    ∃ t, quicSetSession (some a) s = (.ok (), t) ∧ t.session = some a ∧ t.heap.Counts n ∧
      t.heap.Fresh := by
  obtain ⟨t, ht, hcounts, hfresh⟩ := quicSessionFree_counts hs.counts hs.fresh
  have hstep : SessionConn.onHeap (quicSessionFree s.session) s = (.ok (), { s with heap := t }) :=
    Prog.zoom_of_ok ht
  refine ⟨{ heap := t, session := some a }, ?_, rfl, hcounts, hfresh⟩
  rw [quicSetSession, if_neg (Option.some_ne_none a)]
  change (Prog.get >>= fun u : SessionConn => do
    SessionConn.onHeap (quicSessionFree u.session)
    SessionConn.setPointer (some a)) s = _
  rw [Prog.get_bind, Prog.bind_of_ok hstep]
  rfl

/-- Behind the loop the session of the ticket is set or freed. -/
theorem acceptSession_counts {srv : PskServer} {tls : TlsPsk} {pkt : RPacket} {id : ℕ}
    {o : Counted QuicSession} (hc : s.heap.Counts fun b => n b + held s.session b + held (some a) b)
    (hf : s.heap.Fresh) (ho : s.heap.obj a = some o) (hcipher : o.content.cipher ≠ none) :
    ∃ r t, srv.acceptSession tls pkt id a s = (r, t) ∧ (∀ e, r = .error e → e = .ret) ∧
      t.Counts n := by
  have hreturns := parsePskSession_returns srv id hcipher (pkt, tls)
  rw [PskServer.acceptSession, Prog.get_bind, ho, Prog.ofOption_some, Prog.pure_bind]
  rcases hrun : parsePskSession srv id o.content (pkt, tls) with ⟨r, u⟩
  cases r with
  | ok v =>
    cases v
    have hold : s.heap.Counts fun b => n b + held (some a) b + held s.session b := by
      simp only [Nat.add_right_comm]
      exact hc
    obtain ⟨t, ht, hcounts, hfresh⟩ := quicSessionFree_counts hold hf
    have hstep : SessionConn.onHeap (quicSessionFree s.session) s =
        (.ok (), { s with heap := t }) :=
      Prog.zoom_of_ok ht
    dsimp only
    rw [Prog.bind_of_ok hstep]
    exact ⟨_, _, rfl, fun e he => (by cases he), hcounts, hfresh⟩
  | error e =>
    have he := hreturns.of_error hrun
    subst he
    obtain ⟨t, ht, hcounts, hfresh⟩ := quicSessionFree_counts hc hf
    have hstep : SessionConn.onHeap (quicSessionFree (some a)) s = (.ok (), { s with heap := t }) :=
      Prog.zoom_of_ok ht
    dsimp only
    rw [Prog.bind_of_ok hstep]
    exact ⟨_, _, rfl, fun e he => (by cases he; rfl), hcounts, hfresh⟩

/-- `TlsExtsrvrParsePsk` counts the sessions that it forgets on. -/
theorem parsePsk_counts (srv : PskServer) (tls : TlsPsk) (pkt : RPacket) (hs : s.Counts n) :
    ∃ r t lost, srv.parsePsk tls pkt s = (r, t) ∧ (∀ e, r = .error e → e = .ret) ∧
      t.Counts (fun a => n a + List.count a lost) ∧ (lost = [] ↔ ¬ srv.Loses pkt) := by
  have htakes := rPacketGetLengthPrefixed_takes (le_refl 2) pkt
  rw [PskServer.parsePsk, PskServer.Loses]
  rcases hread : rPacketGetLengthPrefixed 2 pkt with ⟨r, rest⟩
  cases r with
  | error e =>
    have he := htakes.of_error hread
    subst he
    dsimp only
    rw [Prog.ofExcept_error, Prog.fail_bind]
    refine ⟨_, s, [], rfl, fun e he => (by cases he; rfl), ?_, iff_of_true rfl not_false⟩
    simp only [List.count_nil, Nat.add_zero]
    exact hs
  | ok identities =>
    dsimp only
    rw [Prog.ofExcept_ok, Prog.pure_bind, Prog.get_bind, Prog.modify_bind]
    have hstart : (⟨identities, none, s.heap⟩ : PskLocals).Counts
        fun a => n a + held s.session a := by
      refine ⟨?_, hs.fresh, fun a ha => (by cases ha)⟩
      simp only [held_none, Nat.add_zero]
      exact hs.counts
    obtain ⟨r, t, lost, hrun, hret, ht, hlost⟩ := @identityLoop_counts srv _ _
      (identities.remaining + 1) 0 (Nat.lt_succ_self _) hstart
    rw [hrun]
    dsimp only
    cases r with
    | error e =>
      have he := hret e rfl
      subst he
      rw [Prog.ofExcept_error, Prog.fail_bind]
      refine ⟨_, _, t.sess.toList ++ lost, rfl, fun e he => (by cases he; rfl), ⟨?_, ht.fresh⟩, ?_⟩
      · have hcounts := ht.counts
        simp only [held_eq_count, List.count_append] at hcounts ⊢
        simp only [Nat.add_assoc, Nat.add_comm, Nat.add_left_comm] at hcounts ⊢
        exact hcounts
      · refine Iff.trans ?_ hlost
        rw [List.append_eq_nil_iff, Option.toList_eq_nil_iff]
        exact ⟨fun h => ⟨h.2, fun _ => h.1⟩, fun h => ⟨h.2 ⟨_, rfl⟩, h.1⟩⟩
    | ok id =>
      have hiff : lost = [] ↔ ¬ srv.LosesSession
          (pskTickets (identities.remaining + 1) identities).2 false
          (pskTickets (identities.remaining + 1) identities).1 := by
        refine Iff.trans (and_iff_left ?_).symm hlost
        rintro ⟨e, he⟩
        cases he
      rw [Prog.ofExcept_ok, Prog.pure_bind]
      cases hsess : t.sess with
      | none =>
        refine ⟨_, _, lost, rfl, fun e he => (by cases he), ⟨?_, ht.fresh⟩, hiff⟩
        have hcounts := ht.counts
        simp only [hsess, held_none, Nat.add_zero, Nat.add_right_comm] at hcounts ⊢
        exact hcounts
      | some a =>
        obtain ⟨o, ho, hcipher⟩ := ht.cipher a hsess
        have hcounts := ht.counts
        simp only [hsess] at hcounts
        obtain ⟨r, u, hrun, hret, hu⟩ := @acceptSession_counts
          (fun b => n b + List.count b lost) a { s with heap := t.heap } srv tls rest id o (by
            simp only [Nat.add_right_comm] at hcounts ⊢
            exact hcounts) ht.fresh ho hcipher
        exact ⟨r, u, lost, hrun, hret, hu, hiff⟩

end Routines

namespace SessionWorld

open RefHeap

/-- No session is set by the application, none is forgotten by a server, and the application gets
none that has `INT_MAX` references. -/
def KeepsOwners (s : SessionWorld) : SessionEvent → Prop
  | .get1Session c => ∀ a, s.conns[c]?.join = some (some a) → s.heap.references a < 2 ^ 31 - 1
  | .setSession c sess => ¬ s.Allowed (.setSession c sess)
  | .parsePsk c srv _ pkt => s.Open c → ¬ srv.Loses pkt
  | _ => True

/-- The sessions count their owners. -/
structure Counts (s : SessionWorld) : Prop where
  /-- The counts. -/
  counts : s.heap.Counts s.owners
  /-- The next address is free. -/
  fresh : s.heap.Fresh

variable {s : SessionWorld} {c : ℕ} {p : Option ℕ}

theorem counts_start : start.Counts := ⟨counts_empty, fresh_empty⟩

/-- The owners when a connection changes its pointer or is freed. -/
theorem owners_set (hc : s.conns[c]?.join = some p) (x : Option (Option ℕ))
    (heap : RefHeap QuicSession) (a : ℕ) :
    ({ s with heap, conns := s.conns.set c x } : SessionWorld).owners a + held p a =
      s.owners a + x.elim 0 (held · a) := by
  have hget : s.conns[c]? = some (some p) := Option.join_eq_some_iff.mp hc
  obtain ⟨hlt, hat⟩ := List.getElem?_eq_some_iff.mp hget
  have hone (y : Option (Option ℕ)) :
      (if (y == some (some a)) = true then 1 else 0) = y.elim 0 (held · a) := by
    cases y with
    | none => rfl
    | some q =>
      change _ = if q = some a then 1 else 0
      simp only [beq_iff_eq, Option.some.injEq]
  have hcount := @List.count_set _ _ x (some (some a)) s.conns c hlt
  rw [hat, hone, hone] at hcount
  change _ = _ - held p a + _ at hcount
  have hle : held p a ≤ s.conns.count (some (some a)) := by
    unfold held
    split_ifs with hp
    · rw [hp] at hat
      exact List.count_pos_iff.mpr (hat ▸ List.getElem_mem hlt)
    · exact Nat.zero_le _
  unfold owners
  dsimp only
  omega

/-- A connection is one of the owners. -/
theorem held_le_owners (hc : s.conns[c]?.join = some p) (a : ℕ) : held p a ≤ s.owners a := by
  have hset := owners_set hc none s.heap a
  change _ = s.owners a + 0 at hset
  omega

/-- The sessions count a connection besides the other owners. -/
theorem Counts.conn (hs : s.Counts) (hc : s.conns[c]?.join = some p) :
    (⟨s.heap, p⟩ : SessionConn).Counts fun a => s.owners a - held p a := by
  refine ⟨?_, hs.fresh⟩
  have hsame : (fun a => s.owners a - held p a + held p a) = s.owners :=
    funext fun a => Nat.sub_add_cancel (held_le_owners hc a)
  rw [hsame]
  exact hs.counts

/-- The owners when a connection changes its pointer. -/
theorem owners_set_some (hc : s.conns[c]?.join = some p) (q : Option ℕ)
    (heap : RefHeap QuicSession) :
    ({ s with heap, conns := s.conns.set c (some q) } : SessionWorld).owners =
      fun a => s.owners a - held p a + held q a := by
  funext a
  have hset := owners_set hc (some q) heap a
  have hle := held_le_owners hc a
  change _ = s.owners a + held q a at hset
  omega

/-- A routine on a connection keeps the counts if it forgets no session. -/
theorem onConn_counts {α : Type} {m : Prog Fail SessionConn α} {r : Except Fail α}
    {t : SessionConn} {lost : List ℕ} (hc : s.conns[c]?.join = some p)
    (hrun : m ⟨s.heap, p⟩ = (r, t)) (hret : ∀ e, r = .error e → e = .ret)
    (ht : t.Counts fun a => s.owners a - held p a + List.count a lost) :
    ∃ u, s.onConn c m = some u ∧ (u.heap.Counts u.owners ↔ lost = []) ∧ u.heap.Fresh := by
  have hreturned : returned (r, t) = some t := by
    cases r with
    | ok a => rfl
    | error e =>
      rw [hret e rfl]
      rfl
  refine ⟨{ s with heap := t.heap, conns := s.conns.set c (some t.session) }, ?_, ?_, ht.fresh⟩
  · rw [onConn, hc, Option.bind_eq_bind, Option.bind_some, hrun, hreturned]
    rfl
  · rw [owners_set_some hc]
    constructor
    · intro hcounts
      have hsame := hcounts.unique ht.counts
      refine List.eq_nil_iff_forall_not_mem.mpr fun a ha => ?_
      have hpos := List.count_pos_iff.mpr ha
      have hat := congrFun hsame a
      omega
    · rintro rfl
      have hcounts := ht.counts
      simp only [List.count_nil, Nat.add_zero] at hcounts
      exact hcounts

/-- An open connection has a pointer. -/
theorem Open.pointer (h : s.Open c) : ∃ p, s.conns[c]?.join = some p :=
  Option.ne_none_iff_exists'.mp h

/-- What an allowed event does: it returns and keeps the counts exactly under the condition, or does
not return. -/
theorem act_cases (hs : s.Counts) (e : SessionEvent) (ha : s.Allowed e) :
    (∃ u, s.act e = some u ∧ (u.heap.Counts u.owners ↔ s.KeepsOwners e) ∧ u.heap.Fresh) ∨
      (s.act e = none ∧ ¬ s.KeepsOwners e) := by
  cases e with
  | connNew =>
    refine .inl ⟨_, rfl, iff_of_true ?_ trivial, hs.fresh⟩
    have hsame : ({ s with conns := s.conns ++ [some none] } : SessionWorld).owners = s.owners := by
      funext a
      unfold owners
      rw [List.count_append]
      rfl
    rw [hsame]
    exact hs.counts
  | getSession c mem cipher =>
    obtain ⟨p, hp⟩ := Open.pointer ha
    obtain ⟨r, t, hrun, hret, ht⟩ := quicGetSession_counts mem cipher (hs.conn hp)
    obtain ⟨u, hu, hcounts, hfresh⟩ := @onConn_counts _ _ _ _ _ _ _ [] hp hrun hret ht
    exact .inl ⟨u, hu, hcounts.trans (iff_of_true rfl trivial), hfresh⟩
  | get1Session c =>
    obtain ⟨p, hp⟩ := Open.pointer ha
    by_cases hlt : s.KeepsOwners (.get1Session c)
    swap
    · have hover := hlt
      unfold KeepsOwners at hover
      push Not at hover
      obtain ⟨a, ha', hge⟩ := hover
      obtain rfl : p = some a := Option.some.inj (hp.symm.trans ha')
      refine .inr ⟨?_, hlt⟩
      rw [act, hp, Option.bind_eq_bind, Option.bind_some,
        quicGet1Session_overflow rfl (not_lt.mpr hge)]
    obtain ⟨t, hrun, hsession, ht⟩ := quicGet1Session_counts (hs.conn hp) fun a ha' =>
      hlt a (hp.trans (congrArg some ha'))
    refine .inl ⟨{ s with heap := t.heap, app := p.toList ++ s.app }, ?_, iff_of_true ?_ hlt,
      ht.fresh⟩
    · rw [act, hp, Option.bind_eq_bind, Option.bind_some, hrun]
    · have hcounts := ht.counts
      rw [hsession] at hcounts
      have howners : ({ s with heap := t.heap, app := p.toList ++ s.app } : SessionWorld).owners =
          fun a => s.owners a - held p a + held p a + held p a := by
        funext a
        have hle := held_le_owners hp a
        rw [Nat.sub_add_cancel hle]
        unfold owners
        dsimp only
        rw [List.count_append, held_eq_count]
        omega
      rw [howners]
      exact hcounts
  | sessionFree a =>
    have hmem : a ∈ s.app := ha
    have hpos := List.count_pos_iff.mpr hmem
    have howners : s.owners =
        fun b => ({ s with app := s.app.erase a } : SessionWorld).owners b + held (some a) b := by
      funext b
      unfold owners
      dsimp only
      by_cases hb : b = a
      · subst hb
        rw [List.count_erase_self, held_self]
        omega
      · rw [List.count_erase_of_ne hb, held_of_ne hb]
        rfl
    have hcounts := hs.counts
    rw [howners] at hcounts
    obtain ⟨t, ht, hcounts, hfresh⟩ := quicSessionFree_counts hcounts hs.fresh
    refine .inl ⟨{ s with heap := t, app := s.app.erase a }, ?_, iff_of_true hcounts trivial,
      hfresh⟩
    rw [act, ht]
    rfl
  | setSession c sess =>
    have hnot : ¬ s.KeepsOwners (.setSession c sess) := fun h => h ha
    obtain ⟨p, hp⟩ := Open.pointer ha.1
    cases sess with
    | none =>
      refine .inr ⟨?_, hnot⟩
      rw [act, onConn, hp, Option.bind_eq_bind, Option.bind_some, quicSetSession_null]
      rfl
    | some a =>
      obtain ⟨t, hrun, hsession, hcounts, hfresh⟩ := quicSetSession_counts (hs.conn hp) a
      refine .inl ⟨{ s with heap := t.heap, conns := s.conns.set c (some t.session) }, ?_,
        iff_of_false (fun h => ?_) hnot, hfresh⟩
      · rw [act, onConn, hp, Option.bind_eq_bind, Option.bind_some, hrun]
        rfl
      · rw [owners_set_some hp, hsession] at h
        have hat := congrFun (h.unique hcounts) a
        rw [held_self] at hat
        omega
  | parsePsk c srv tls pkt =>
    obtain ⟨p, hp⟩ := Open.pointer ha
    obtain ⟨r, t, lost, hrun, hret, ht, hlost⟩ := parsePsk_counts srv tls pkt (hs.conn hp)
    obtain ⟨u, hu, hcounts, hfresh⟩ := onConn_counts hp hrun hret ht
    refine .inl ⟨u, hu, (hcounts.trans hlost).trans ⟨fun h _ => h, fun h => h ha⟩, hfresh⟩
  | connFree c =>
    obtain ⟨p, hp⟩ := Open.pointer ha
    obtain ⟨t, ht, hcounts, hfresh⟩ := quicSessionFree_counts (hs.conn hp).counts hs.fresh
    refine .inl ⟨{ s with heap := t, conns := s.conns.set c none }, ?_, iff_of_true ?_ trivial,
      hfresh⟩
    · rw [act, hp, Option.bind_eq_bind, Option.bind_some, ht]
      rfl
    · have howners : ({ s with heap := t, conns := s.conns.set c none } : SessionWorld).owners =
          fun a => s.owners a - held p a := by
        funext a
        have hset := owners_set hp none t a
        change _ = s.owners a + 0 at hset
        omega
      rw [howners]
      exact hcounts

/-- In every run on any number of connections every allowed event returns and leaves the sessions
with the numbers of their owners as counts, allocated exactly as long as these are positive, if and
only if the application never sets a session and gets none that has `INT_MAX` references, and no
server forgets one. -/
theorem sessionsProper_along_iff (events : List SessionEvent) :
    Trace.Along step SessionsProper start events ↔ Trace.Along step KeepsOwners start events := by
  have hproper (s : SessionWorld) (e : SessionEvent) (hs : s.Counts) :
      s.SessionsProper e ↔ s.KeepsOwners e := by
    by_cases ha : s.Allowed e
    swap
    · refine iff_of_true (fun h => absurd h ha) ?_
      cases e with
      | get1Session c =>
        intro a hget
        exact absurd (show s.conns[c]?.join ≠ none from hget ▸ Option.some_ne_none _) ha
      | setSession c sess => exact ha
      | parsePsk c srv tls pkt => exact fun h => absurd h ha
      | _ => trivial
    have hstep : s.step e = s.act e := if_pos ha
    unfold SessionsProper
    rw [hstep]
    rcases act_cases hs e ha with ⟨u, hu, hcounts, -⟩ | ⟨hnone, hnot⟩
    · rw [hu, ← hcounts]
      constructor
      · intro h
        obtain ⟨t, ht, hcounts⟩ := h ha
        cases ht
        exact hcounts
      · exact fun h _ => ⟨u, rfl, h⟩
    · rw [hnone]
      refine iff_of_false (fun h => ?_) hnot
      obtain ⟨t, ht, -⟩ := h ha
      cases ht
  refine Trace.along_congr_of_invariant Counts (fun s e hs => hproper s e hs)
    (fun s e t hs hok ht => ?_) counts_start
  by_cases ha : s.Allowed e
  · have hstep : s.step e = s.act e := if_pos ha
    rw [hstep] at ht
    rcases act_cases hs e ha with ⟨u, hu, hcounts, hfresh⟩ | ⟨hnone, -⟩
    · rw [hu] at ht
      cases ht
      exact ⟨hcounts.mpr ((hproper s e hs).mp hok), hfresh⟩
    · rw [hnone] at ht
      cases ht
  · rw [step, if_neg ha] at ht
    cases ht

/-- A session that the application got from one connection and sets on another has one owner more
than it counts. -/
theorem set_session_uncounted : ¬ Trace.Along step SessionsProper start
    ([.connNew, .connNew, .getSession 0 true none, .get1Session 0] ++
      [.setSession 1 (some 0)]) := by
  intro h
  have hrun : (Trace.run step start
      ([.connNew, .connNew, .getSession 0 true none, .get1Session 0] ++
        [.setSession 1 (some 0)])).map (fun t => (t.heap.references 0, t.owners 0)) =
      some (2, 3) := by
    decide +kernel
  obtain ⟨u, hu, hcounts⟩ := Option.map_eq_some_iff.mp hrun
  obtain ⟨t, ht, hlast⟩ := Trace.run_concat_eq_some.mp hu
  have hallowed : t.Allowed (.setSession 1 (some 0)) := by
    by_contra hnot
    rw [step, if_neg hnot] at hlast
    cases hlast
  obtain ⟨v, hv, hproper⟩ := (h.of_append ht).1 hallowed
  rw [hlast] at hv
  cases hv
  have hcount := hproper.count 0
  rw [Prod.mk.injEq] at hcounts
  omega

end SessionWorld

end Tbquic
