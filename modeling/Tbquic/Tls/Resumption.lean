import Tbquic.Lib.Simulation
import Tbquic.Lib.Trace
import Tbquic.Tls.Ticket

/-!
# Issuing tickets over a connection

After a handshake the server sends two tickets. Each has a nonce, from which both ends derive the
key of the ticket. The server seals its key in the ticket and forgets it, and the client keeps its
own beside the ticket.
-/

namespace Tbquic

/-- What an end of a connection has when tickets are issued. -/
structure TicketHost where
  /-- `session` of the connection. -/
  session : QuicSession
  /-- `resumption_master_secret`. -/
  resumptionMasterSecret : TlsSecret
  /-- `handshake_cipher`, or `NULL`. -/
  handshakeCipher : Option TlsCipher
  deriving DecidableEq, Repr

/-- The fields of a server for its tickets. -/
structure TicketServer extends TicketHost where
  /-- `lifetime_hint`. -/
  lifetimeHint : ℕ
  /-- `max_early_data`. -/
  maxEarlyData : ℕ
  /-- `next_ticket_nonce`. -/
  nextTicketNonce : ℕ
  /-- Whether `handshake_state` is `TLS_ST_SW_HANDSHAKE_DONE`. -/
  done : Bool
  deriving DecidableEq, Repr

/-- The key of a ticket with a nonce. -/
def TicketHost.resumptionKey (lib : TlsLib) (h : TicketHost) (nonce : List UInt8) :
    Option (List UInt8) := do
  let cipher ← h.handshakeCipher
  tls13HkdfExpandLabel lib cipher.digest (h.resumptionMasterSecret.get cipher.digest.size)
    "resumption" nonce cipher.digest.size

/-- `QuicSessionMasterKeyGen`. The size of a digest fits in the array of the key. -/
def quicSessionMasterKeyGen (lib : TlsLib) (h : TicketHost) (t : QuicSessionTicket)
    (nonce : List UInt8) : Option QuicSessionTicket := do
  let key ← h.resumptionKey lib nonce
  if hkey : key.length ≤ tlsMaxResumptionPskLength then
    some { t with masterKey := key, masterKey_le := hkey }
  else none

/-- `TICKET_NONCE_SIZE`. -/
def ticketNonceSize : ℕ := 8

/-- `TLS_NEW_SESS_TICKET_NUM`. -/
def tlsNewSessTicketNum : ℕ := 2

/-- The random numbers of a ticket. -/
structure TicketDraw where
  /-- The bytes of `age_add`, as a number. -/
  ageAdd : ℕ
  /-- `ticket`. -/
  ticket : List UInt8
  /-- `iv`. -/
  iv : List UInt8
  /-- `age_add` has 32 bits. -/
  ageAdd_lt : ageAdd < 2 ^ 32
  /-- The initialisation vector is one of the cipher. -/
  iv_length : iv.length = ticketIvLength

/-- The nonce of the next ticket, in the order of the network. -/
def TicketServer.tickNonce (s : TicketServer) : List UInt8 :=
  Bytes.ofNat ticketNonceSize s.nextTicketNonce

/-- The ticket that a server makes, with its key. -/
def TicketServer.newTicket (lib : TlsLib) (now : ℤ) (draw : TicketDraw) (s : TicketServer) :
    Option QuicSessionTicket :=
  quicSessionMasterKeyGen lib s.toTicketHost
    (quicSessionTicketNew now s.lifetimeHint draw.ageAdd draw.ticket) s.tickNonce

section Build

variable (lib : TlsLib) (tl : TlsTicketLib) (tk : TlsTicketKey) (now : ℤ) (draw : TicketDraw)

/-- The part of `TlsSrvrNewSessionTicketBuild` that writes, with the row of `server_ext_construct`
for the message. -/
def newSessionTicketWrite (sess : QuicSession) (tickNonce : List UInt8) :
    Prog Fail (TicketServer × WPacket) Unit := do
  Prog.onSnd (tlsConstructStatelessTicket lib tl tk draw.iv sess tickNonce)
  tlsConstructExtensions tlsextNewSessionTicket [serverEarlyData TicketServer.maxEarlyData]
  Prog.modify fun p =>
    ({ p.1 with nextTicketNonce := (p.1.nextTicketNonce + 1) % 2 ^ 64 }, p.2)

/-- `TlsSrvrNewSessionTicketBuild` up to its label. -/
def newSessionTicketBuild : Prog Fail (TicketServer × WPacket) Unit := do
  let s ← Prog.get
  let t ← Prog.ofOption .ret (s.1.newTicket lib now draw)
  let sess := quicSessionTicketAdd s.1.session t
  Prog.modify fun p => ({ p.1 with session := sess }, p.2)
  newSessionTicketWrite lib tl tk draw sess s.1.tickNonce

/-- The server has sent all its tickets. -/
def TicketServer.settle (s : TicketServer) : TicketServer :=
  if tlsNewSessTicketNum ≤ s.nextTicketNonce then { s with done := true } else s

/-- `TlsSrvrNewSessionTicketBuild`. -/
def tlsSrvrNewSessionTicketBuild : Prog Fail (TicketServer × WPacket) Unit := do
  let ret ← Prog.attempt (newSessionTicketBuild lib tl tk now draw)
  Prog.modify fun p => (p.1.settle, p.2)
  Prog.ofExcept ret

end Build

/-- The key of the last ticket of a session is set. -/
def QuicSession.setLast (sess : QuicSession) (t : QuicSessionTicket) : QuicSession :=
  { sess with ticketQueue := sess.ticketQueue.dropLast ++ [t] }

/-- The session gets a limit for the early data. -/
def TicketHost.setMaxEarlyData (n : ℕ) (h : TicketHost) : TicketHost :=
  { h with session.maxEarlyData := n }

/-- The row of `client_ext_parse` for a NewSessionTicket message. -/
def ticketExtParse : List (TlsExtParse TicketHost) :=
  [clientEarlyData TicketHost.setMaxEarlyData tlsextNewSessionTicket]

/-- `TlsClntParseExtensions` on a NewSessionTicket message, with the memory behind the message. -/
def tlsClntParseTicketExtensions (behind : List UInt8) : Prog Fail (RPacket × TicketHost) Unit := do
  let s ← Prog.get
  let run := tlsParseExtensions behind tlsextNewSessionTicket ticketExtParse
    { host := s.2, pkt := s.1, calls := [] }
  Prog.modify fun _ => (run.2.pkt, run.2.host)
  Prog.ofExcept run.1

/-- `TlsClntNewSessionTicketProc` behind the length of the ticket. -/
def newSessionTicketProc (lib : TlsLib) (now : ℤ) (behind : List UInt8) (lifetimeHint ageAdd : ℕ)
    (nonce : List UInt8) (ticketLen : ℕ) : Prog Fail (RPacket × TicketHost) Unit := do
  let ticket ← Prog.onFst (rPacketGetBytes ticketLen)
  let t := quicSessionTicketNew now lifetimeHint ageAdd ticket
  Prog.onSnd (Prog.modify fun h => { h with session := quicSessionTicketAdd h.session t })
  tlsClntParseTicketExtensions behind
  let s ← Prog.get
  let t ← Prog.ofOption .ret (quicSessionMasterKeyGen lib s.2 t nonce)
  -- The ticket is already the last of the session.
  Prog.onSnd (Prog.modify fun h => { h with session := h.session.setLast t })

/-- `TlsClntNewSessionTicketProc`. A ticket without bytes is ignored. -/
def tlsClntNewSessionTicketProc (lib : TlsLib) (now : ℤ) (behind : List UInt8) :
    Prog Fail (RPacket × TicketHost) Unit := do
  let lifetimeHint ← Prog.onFst rPacketGet4
  let ageAdd ← Prog.onFst rPacketGet4
  let nonce ← Prog.onFst (rPacketGetLengthPrefixed 1)
  let ticketLen ← Prog.onFst rPacketGet2
  if ticketLen = 0 then pure ()
  else newSessionTicketProc lib now behind lifetimeHint ageAdd nonce.rest ticketLen

section Key

variable {lib : TlsLib} {h : TicketHost} {t t' : QuicSessionTicket} {nonce key : List UInt8}

/-- The blocks of an expansion are cut at its length. -/
theorem hkdfExpand_length_le {md : QuicDigest} {prk info out : List UInt8} {len : ℕ}
    (hout : hkdfExpand lib md prk info len = some out) : out.length ≤ len := by
  rw [hkdfExpand] at hout
  split_ifs at hout
  all_goals
    cases hout
    exact List.length_take_le _ _

/-- An expansion with a label is at most as long as asked for. -/
theorem tls13HkdfExpandLabel_length_le {md : QuicDigest} {secret data out : List UInt8}
    {label : String} {len : ℕ}
    (hout : tls13HkdfExpandLabel lib md secret label data len = some out) : out.length ≤ len := by
  rw [tls13HkdfExpandLabel] at hout
  split_ifs at hout
  exact hkdfExpand_length_le hout

/-- The key of a ticket fits in its array. -/
theorem TicketHost.resumptionKey_length_le (hkey : h.resumptionKey lib nonce = some key) :
    key.length ≤ tlsMaxResumptionPskLength := by
  obtain ⟨cipher, _, hexpand⟩ := Option.bind_eq_some_iff.mp hkey
  have hle := tls13HkdfExpandLabel_length_le hexpand
  have hsize := cipher.digest.size_le
  rw [tlsMaxResumptionPskLength]
  rw [evpMaxMdSize] at hsize
  omega

/-- A ticket gets the key of its nonce and keeps the rest. -/
theorem quicSessionMasterKeyGen_eq_some :
    quicSessionMasterKeyGen lib h t nonce = some t' ↔
      ∃ key, ∃ hkey : h.resumptionKey lib nonce = some key,
        t' = { t with
          masterKey := key, masterKey_le := TicketHost.resumptionKey_length_le hkey } := by
  rw [quicSessionMasterKeyGen, Option.bind_eq_bind, Option.bind_eq_some_iff]
  constructor
  · rintro ⟨key, hkey, hset⟩
    rw [dif_pos (TicketHost.resumptionKey_length_le hkey)] at hset
    cases hset
    exact ⟨key, hkey, rfl⟩
  · rintro ⟨key, hkey, rfl⟩
    exact ⟨key, hkey, dif_pos (TicketHost.resumptionKey_length_le hkey)⟩

/-- Two hosts that finished one handshake derive the same keys. -/
theorem TicketHost.resumptionKey_congr {h' : TicketHost}
    (hcipher : h'.handshakeCipher = h.handshakeCipher)
    (hsecret : ∀ cipher ∈ h.handshakeCipher,
      h'.resumptionMasterSecret.get cipher.digest.size =
        h.resumptionMasterSecret.get cipher.digest.size) (nonce : List UInt8) :
    h'.resumptionKey lib nonce = h.resumptionKey lib nonce := by
  rw [TicketHost.resumptionKey, TicketHost.resumptionKey, hcipher]
  cases hsuite : h.handshakeCipher with
  | none => rfl
  | some cipher =>
    simp only [Option.bind_eq_bind, Option.bind_some, hsecret cipher hsuite]

end Key

section Server

variable {lib : TlsLib} {tl : TlsTicketLib} {tk : TlsTicketKey} {now : ℤ} {draw : TicketDraw}
  {s s' : TicketServer} {pkt t : WPacket}

/-- The extensions of a NewSessionTicket message: the limit of the early data, if there is one. -/
def ticketEntries (maxEarlyData : ℕ) (es : List ExtEntry) : Prop :=
  (maxEarlyData = 0 ∧ es = []) ∨ ∃ e : ExtEntry, maxEarlyData ≠ 0 ∧ maxEarlyData < 256 ^ 4 ∧
    e.type = 42 ∧ e.body = Bytes.ofNat 4 maxEarlyData ∧ es = [e]

/-- What the row for early data writes. -/
theorem rowsWrote_earlyData {es : List ExtEntry}
    (h : RowsWrote tlsextNewSessionTicket [serverEarlyData TicketServer.maxEarlyData] s es s') :
    s' = s ∧ ticketEntries s.maxEarlyData es := by
  have happlies (host : TicketServer) :
      (serverEarlyData TicketServer.maxEarlyData).applies tlsextNewSessionTicket host =
        some (tlsExtSrvrConstructEarlyData TicketServer.maxEarlyData) := rfl
  have hcontext : tlsextNewSessionTicket = tlsextNewSessionTicket := rfl
  cases h with
  | skip hskip _ =>
    rw [happlies] at hskip
    cases hskip
  | notSent hrow hrun hrest =>
    rw [happlies] at hrow
    cases hrow
    cases hrest
    rw [tlsExtSrvrConstructEarlyData, if_pos hcontext, Prog.get_bind] at hrun
    split_ifs at hrun with hzero
    · cases hrun
      exact ⟨rfl, .inl ⟨hzero, rfl⟩⟩
    · obtain ⟨_, _, _, hpure⟩ := Prog.onSnd_bind_eq_ok.mp hrun
      cases hpure
  | @sent _ _ _ _ _ e es construct pkt t hrow hrun hbody htype hrest =>
    rw [happlies] at hrow
    cases hrow
    cases hrest
    rw [tlsExtSrvrConstructEarlyData, if_pos hcontext, Prog.get_bind] at hrun
    split_ifs at hrun with hzero
    · cases hrun
    · obtain ⟨_, _, hput, hpure⟩ := Prog.onSnd_bind_eq_ok.mp hrun
      cases hpure
      obtain ⟨happends, hlt⟩ := wPacketPutBytes_appends hput
      exact ⟨rfl, .inr ⟨e, hzero, hlt, htype, hbody.unique happends, rfl⟩⟩

/-- The connection is as before. -/
def SameHost {τ : Type} (s t : τ × WPacket) : Prop := t.1 = s.1

/-- A block of extensions whose constructors leave the connection alone leaves it alone. -/
theorem tlsConstructExtensions_keeps {τ : Type} {context : ℕ} {rows : List (TlsExtConstruct τ)}
    (hrows : ∀ row ∈ rows, ∀ construct ∈ row.construct, Prog.Keeps SameHost (construct context)) :
    Prog.Keeps SameHost (tlsConstructExtensions context rows) := by
  have hrefl (s : τ × WPacket) : SameHost s s := rfl
  have htrans {s t u : τ × WPacket} (h : SameHost s t) (h' : SameHost t u) : SameHost s u :=
    h'.trans h
  have hsnd {α : Type} (m : Prog Fail WPacket α) :
      Prog.Keeps SameHost (Prog.onSnd m : Prog Fail (τ × WPacket) α) := fun s => rfl
  have hloop : Prog.Keeps SameHost (tlsConstructExts context rows) := by
    induction rows with
    | nil => exact Prog.keeps_pure hrefl _
    | cons row rows ih =>
      refine Prog.Keeps.bind htrans ?_ fun _ => ih fun r hr => hrows r (List.mem_cons_of_mem _ hr)
      apply Prog.keeps_get_bind
      intro s
      cases happlies : row.applies context s.1 with
      | none => rfl
      | some construct =>
        have hconstruct := hrows row List.mem_cons_self construct
          (row.construct_of_applies happlies)
        have hround : Prog.Keeps SameHost (do
            Prog.onSnd (wPacketPutBytes row.type 2)
            Prog.onSnd (wPacketStartSubBytes 2)
            let ret ← construct context
            Prog.ensure .ret (ret ≠ .fail)
            let closed ← Prog.onSnd (succeeds wPacketClose)
            Prog.ensure .ret (closed = true ∨ ret = .notSent)
            if ret = .notSent then Prog.onSnd (Prog.modify fun _ => s.2) else pure ()) := by
          refine (hsnd _).bind htrans fun _ => (hsnd _).bind htrans fun _ =>
            hconstruct.bind htrans fun ret => (Prog.keeps_ensure hrefl _ _).bind htrans fun _ =>
              (hsnd _).bind htrans fun _ => (Prog.keeps_ensure hrefl _ _).bind htrans fun _ => ?_
          split
          · exact hsnd _
          · exact Prog.keeps_pure hrefl _
        exact hround s
  exact (hsnd _).bind htrans fun _ => hloop.bind htrans fun _ => hsnd _

/-- The constructor for early data leaves the connection alone. -/
theorem tlsExtSrvrConstructEarlyData_keeps {τ : Type} (maxEarlyData : τ → ℕ) (context : ℕ) :
    Prog.Keeps SameHost (tlsExtSrvrConstructEarlyData maxEarlyData context) := by
  have hrefl (s : τ × WPacket) : SameHost s s := rfl
  have htrans {s t u : τ × WPacket} (h : SameHost s t) (h' : SameHost t u) : SameHost s u :=
    h'.trans h
  unfold tlsExtSrvrConstructEarlyData
  split
  · apply Prog.keeps_get_bind
    intro s
    split
    · rfl
    · have hput : Prog.Keeps SameHost (Prog.onSnd (wPacketPutBytes (maxEarlyData s.1) 4) :
          Prog Fail (τ × WPacket) Unit) := fun s => rfl
      have hsent : Prog.Keeps SameHost (pure .sent : Prog Fail (τ × WPacket) ExtReturn) :=
        Prog.keeps_pure hrefl _
      have hbind : Prog.Keeps SameHost (do
          Prog.onSnd (wPacketPutBytes (maxEarlyData s.1) 4)
          pure .sent : Prog Fail (τ × WPacket) ExtReturn) := hput.bind htrans fun _ => hsent
      exact hbind s
  · exact Prog.keeps_pure hrefl _

/-- The extensions of the message leave the server alone. -/
theorem ticketExtensions_keeps : Prog.Keeps SameHost (tlsConstructExtensions
    tlsextNewSessionTicket [serverEarlyData TicketServer.maxEarlyData]) := by
  apply tlsConstructExtensions_keeps
  intro row hrow construct hconstruct
  rw [List.mem_singleton.mp hrow] at hconstruct
  cases hconstruct
  exact tlsExtSrvrConstructEarlyData_keeps _ _

/-- Writing that fails leaves the server as it was. -/
theorem newSessionTicketWrite_error {sess : QuicSession} {tickNonce : List UInt8} {e : Fail}
    (h : newSessionTicketWrite lib tl tk draw sess tickNonce (s, pkt) = (.error e, (s', t))) :
    s' = s := by
  rw [newSessionTicketWrite] at h
  rcases hticket : tlsConstructStatelessTicket lib tl tk draw.iv sess tickNonce pkt with ⟨r, u⟩
  cases r with
  | error e' =>
    rw [Prog.onSnd_bind_of_error hticket] at h
    cases h
    rfl
  | ok _ =>
    rw [Prog.onSnd_bind_of_ok hticket] at h
    have hkeeps := ticketExtensions_keeps (s, u)
    rcases hext : tlsConstructExtensions tlsextNewSessionTicket
      [serverEarlyData TicketServer.maxEarlyData] (s, u) with ⟨r, v⟩
    rw [hext] at hkeeps
    cases r with
    | error e' =>
      rw [Prog.bind_of_error hext] at h
      cases h
      exact hkeeps
    | ok _ =>
      rw [Prog.bind_of_ok hext] at h
      cases h

/-- A call that fails leaves at most a ticket in the session. -/
theorem tlsSrvrNewSessionTicketBuild_error {e : Fail}
    (h : tlsSrvrNewSessionTicketBuild lib tl tk now draw (s, pkt) = (.error e, (s', t))) :
    s' = s.settle ∨ ∃ tick, s.newTicket lib now draw = some tick ∧
      s' = { s with session := quicSessionTicketAdd s.session tick }.settle := by
  rw [tlsSrvrNewSessionTicketBuild, Prog.attempt_bind] at h
  rcases hbuild : newSessionTicketBuild lib tl tk now draw (s, pkt) with ⟨r, v, w⟩
  rw [hbuild, Prog.modify_bind] at h
  cases r with
  | ok _ => cases h
  | error e' =>
    cases h
    rw [newSessionTicketBuild, Prog.get_bind] at hbuild
    cases htick : s.newTicket lib now draw with
    | none =>
      simp only [htick] at hbuild
      rw [Prog.ofOption_none, Prog.fail_bind] at hbuild
      cases hbuild
      exact .inl rfl
    | some tick =>
      simp only [htick] at hbuild
      rw [Prog.ofOption_some, Prog.pure_bind, Prog.modify_bind] at hbuild
      have hsame := newSessionTicketWrite_error hbuild
      exact .inr ⟨tick, rfl, by rw [hsame]⟩

/-- A message of a server: the fixed part, the extensions and the key of the ticket. -/
structure TicketMessage where
  /-- The fixed part. -/
  fixed : NewSessionTicket
  /-- The extensions. -/
  block : ExtBlock
  /-- The key, which is not sent. -/
  key : List UInt8

/-- The bytes of the message. -/
def TicketMessage.bytes (m : TicketMessage) : List UInt8 := m.fixed.encode ++ m.block.bytes

/-- A call that succeeds adds a ticket to the session and writes its message. -/
theorem tlsSrvrNewSessionTicketBuild_ok (hmax : pkt.maxsize < 2 ^ 31)
    (h : tlsSrvrNewSessionTicketBuild lib tl tk now draw (s, pkt) = (.ok (), (s', t))) :
    ∃ tick senc, ∃ m : TicketMessage, s.newTicket lib now draw = some tick ∧
      i2dQuicSession tl (quicSessionTicketAdd s.session tick) = some senc ∧
      s' = { s with
        session := quicSessionTicketAdd s.session tick
        nextTicketNonce := (s.nextTicketNonce + 1) % 2 ^ 64 }.settle ∧
      m.fixed.lifetimeHint = tick.lifetimeHint % 2 ^ 32 ∧ m.fixed.ageAdd = tick.ageAdd ∧
      m.fixed.nonce = s.tickNonce ∧
      m.fixed.ticket = sealedTicket lib tk draw.iv (tl.encrypt tk.aesKey draw.iv senc) ∧
      ticketEntries s.maxEarlyData m.block.entries ∧ m.key = tick.masterKey ∧
      pkt.Appends m.bytes t := by
  rw [tlsSrvrNewSessionTicketBuild, Prog.attempt_bind] at h
  rcases hbuild : newSessionTicketBuild lib tl tk now draw (s, pkt) with ⟨r, v, w⟩
  rw [hbuild, Prog.modify_bind] at h
  cases r with
  | error e => cases h
  | ok _ =>
    cases h
    rw [newSessionTicketBuild, Prog.get_bind] at hbuild
    obtain ⟨tick, htick, hbuild⟩ := Prog.ofOption_bind_eq_ok.mp hbuild
    rw [Prog.modify_bind] at hbuild
    obtain ⟨_, u, hticket, hbuild⟩ := Prog.onSnd_bind_eq_ok.mp hbuild
    obtain ⟨_, ⟨s₂, u₂⟩, hext, hmodify⟩ := Prog.bind_eq_ok.mp hbuild
    cases hmodify
    obtain ⟨last, senc, fixed, hlast, hsenc, hhint, hage, hnonce, hsealed, happends⟩ :=
      tlsConstructStatelessTicket_wrote hmax hticket
    have htail : quicSessionTicketPickTail (quicSessionTicketAdd s.session tick) = some tick :=
      List.getLast?_concat
    obtain rfl : tick = last := Option.some.inj (htail.symm.trans hlast)
    have hmax' : u.maxsize < 2 ^ 31 := by
      rwa [happends.maxsize]
    obtain ⟨block, hrows, hwrote⟩ := tlsConstructExtensions_wrote hmax' (fun row hrow =>
      List.mem_singleton.mp hrow ▸ serverEarlyData_appends TicketServer.maxEarlyData _) hext
    obtain ⟨hsame, hentries⟩ := rowsWrote_earlyData hrows
    refine ⟨tick, senc, ⟨fixed, block, tick.masterKey⟩, htick, hsenc, ?_, hhint, hage, hnonce,
      hsealed, hentries, rfl, happends.trans hwrote⟩
    rw [hsame]

end Server

section Client

variable {lib : TlsLib} {now : ℤ} {behind : List UInt8} {h : TicketHost}

/-- The limit of the early data that the extensions announce, or the one of before. -/
def TicketHost.announced (n : ℕ) (h : TicketHost) : TicketHost :=
  if n = 0 then h else h.setMaxEarlyData n

/-- The client takes the limit of the early data from the extensions. -/
theorem tlsClntParseTicketExtensions_block {n : ℕ} {b : ExtBlock} (hes : ticketEntries n b.entries)
    (past : List UInt8) :
    ∃ pkt, tlsClntParseTicketExtensions behind ({ past, rest := b.bytes }, h) =
      (.ok (), (pkt, h.announced n)) := by
  have hparse := @tlsParseExtensions_handOut TicketHost tlsextNewSessionTicket behind
    ticketExtParse (clientEarlyData_ignorePast _ _) b
    { host := h, pkt := { past, rest := b.bytes }, calls := [] } rfl
  have hhand : handOut tlsextNewSessionTicket b.entries ticketExtParse h =
      (.ok (), h.announced n) := by
    rw [ticketExtParse, handOut, handOut, Prog.bind_pure_unit, handOutRow, if_neg (by decide)]
    rcases hes with ⟨rfl, hes⟩ | ⟨e, hzero, hlt, htype, hbody, hes⟩
    · rw [hes]
      rfl
    · have hget := TlsInput.get_append [] (Bytes.ofNat 4 n) [] (by decide)
      rw [List.append_nil, Bytes.ofNat_length] at hget
      have hne : e.body ≠ [] := by
        apply List.ne_nil_of_length_pos
        rw [hbody, Bytes.ofNat_length]
        decide
      have hfind : b.entries.find? (fun e => e.type = 42 ∧ e.body ≠ []) = some e := by
        rw [hes]
        exact List.find?_cons_of_pos (decide_eq_true ⟨htype, hne⟩)
      have hrow : (clientEarlyData TicketHost.setMaxEarlyData tlsextNewSessionTicket).type = 42 :=
        rfl
      rw [hrow, hfind]
      dsimp only [clientEarlyData]
      rw [tlsExtClntParseEarlyData, if_pos rfl, hbody, hget, Prog.ofExcept_ok, Prog.pure_bind,
        Prog.modify_apply, Bytes.toNat_ofNat_of_lt hlt, TicketHost.announced, if_neg hzero]
  rw [hhand] at hparse
  refine ⟨(tlsParseExtensions behind tlsextNewSessionTicket ticketExtParse
    { host := h, pkt := { past, rest := b.bytes }, calls := [] }).2.pkt, ?_⟩
  rw [tlsClntParseTicketExtensions, Prog.get_bind, Prog.modify_bind, hparse.1, hparse.2]
  rfl

/-- What the extensions announce does not change the rest of a connection. -/
theorem TicketHost.announced_eq (n : ℕ) (h : TicketHost) :
    h.announced n = { h with session.maxEarlyData := (h.announced n).session.maxEarlyData } := by
  rw [TicketHost.announced]
  split_ifs <;> rfl

/-- The ticket of a message, as a client keeps it. -/
structure TicketMessage.Kept (m : TicketMessage) (now : ℤ) (t : QuicSessionTicket) : Prop where
  /-- The lifetime. -/
  lifetimeHint : t.lifetimeHint = m.fixed.lifetimeHint
  /-- The time of its arrival. -/
  time : t.time = now
  /-- The number for its age. -/
  ageAdd : t.ageAdd = m.fixed.ageAdd
  /-- The ticket. -/
  ticket : t.ticket = m.fixed.ticket
  /-- The key. -/
  masterKey : t.masterKey = m.key

/-- The client keeps the ticket of a message with the key of its nonce. -/
theorem tlsClntNewSessionTicketProc_bytes {n : ℕ} {m : TicketMessage}
    (hes : ticketEntries n m.block.entries) (hticket : m.fixed.ticket ≠ [])
    (hkey : h.resumptionKey lib m.fixed.nonce = some m.key) (past : List UInt8) :
    ∃ pkt t, m.Kept now t ∧
      tlsClntNewSessionTicketProc lib now behind ({ past, rest := m.bytes }, h) =
        (.ok (), (pkt, { h with
          session := quicSessionTicketAdd (h.announced n).session t })) := by
  have hnonceLt := m.fixed.nonce_lt
  have hticketLt := m.fixed.ticket_lt
  have hblock := m.block.length_lt
  have hblockLen : m.block.bytes.length = 2 + (extWire m.block.entries).length := by
    rw [ExtBlock.bytes, List.length_append, Bytes.ofNat_length]
  have hbytes : m.bytes = Bytes.ofNat 4 m.fixed.lifetimeHint ++ (Bytes.ofNat 4 m.fixed.ageAdd ++
      (Bytes.ofNat 1 m.fixed.nonce.length ++ (m.fixed.nonce ++
        (Bytes.ofNat 2 m.fixed.ticket.length ++ (m.fixed.ticket ++ m.block.bytes))))) := by
    rw [TicketMessage.bytes, NewSessionTicket.encode]
    simp only [List.append_assoc]
  have htail : (m.fixed.ticket ++ m.block.bytes).length < 2 ^ 31 := by
    rw [List.length_append]
    omega
  have hafterNonce : (m.fixed.nonce ++ (Bytes.ofNat 2 m.fixed.ticket.length ++
      (m.fixed.ticket ++ m.block.bytes))).length < 2 ^ 20 := by
    rw [List.length_append, List.length_append, List.length_append, Bytes.ofNat_length]
    omega
  have hafterAge : (Bytes.ofNat 1 m.fixed.nonce.length ++ (m.fixed.nonce ++ (Bytes.ofNat 2
      m.fixed.ticket.length ++ (m.fixed.ticket ++ m.block.bytes)))).length < 2 ^ 21 := by
    rw [List.length_append, Bytes.ofNat_length]
    omega
  have hafterHint : (Bytes.ofNat 4 m.fixed.ageAdd ++ (Bytes.ofNat 1 m.fixed.nonce.length ++
      (m.fixed.nonce ++ (Bytes.ofNat 2 m.fixed.ticket.length ++
        (m.fixed.ticket ++ m.block.bytes))))).length < 2 ^ 22 := by
    rw [List.length_append, Bytes.ofNat_length]
    omega
  have hhint := rPacketGetData_append past (show m.fixed.lifetimeHint < 256 ^ 4 from
    m.fixed.lifetimeHint_lt) (hafterHint.trans (by decide))
  have hage := rPacketGetData_append (past ++ Bytes.ofNat 4 m.fixed.lifetimeHint)
    (show m.fixed.ageAdd < 256 ^ 4 from m.fixed.ageAdd_lt) (hafterAge.trans (by decide))
  have hnonce := rPacketGetLengthPrefixed_append (past ++ Bytes.ofNat 4 m.fixed.lifetimeHint ++
    Bytes.ofNat 4 m.fixed.ageAdd) (show m.fixed.nonce.length < 256 ^ 1 from hnonceLt)
    (hafterNonce.trans (by decide))
  have hlen := rPacketGetData_append (past ++ Bytes.ofNat 4 m.fixed.lifetimeHint ++
    Bytes.ofNat 4 m.fixed.ageAdd ++ (Bytes.ofNat 1 m.fixed.nonce.length ++ m.fixed.nonce))
    (show m.fixed.ticket.length < 256 ^ 2 from hticketLt) htail
  have hget := rPacketGetBytes_append (past ++ Bytes.ofNat 4 m.fixed.lifetimeHint ++
    Bytes.ofNat 4 m.fixed.ageAdd ++ (Bytes.ofNat 1 m.fixed.nonce.length ++ m.fixed.nonce) ++
      Bytes.ofNat 2 m.fixed.ticket.length) m.fixed.ticket
    (show m.block.bytes.length < 2 ^ 31 by omega)
  have hne : m.fixed.ticket.length ≠ 0 := fun hzero => hticket (List.length_eq_zero_iff.mp hzero)
  -- The ticket without its key.
  let t₀ := quicSessionTicketNew now m.fixed.lifetimeHint m.fixed.ageAdd m.fixed.ticket
  let added : TicketHost := { h with session := quicSessionTicketAdd h.session t₀ }
  obtain ⟨pkt, hext⟩ := @tlsClntParseTicketExtensions_block behind added n m.block hes
    (past ++ Bytes.ofNat 4 m.fixed.lifetimeHint ++ Bytes.ofNat 4 m.fixed.ageAdd ++
      (Bytes.ofNat 1 m.fixed.nonce.length ++ m.fixed.nonce) ++
        Bytes.ofNat 2 m.fixed.ticket.length ++ m.fixed.ticket)
  have hkey' : (added.announced n).resumptionKey lib m.fixed.nonce = some m.key := by
    rw [TicketHost.announced_eq]
    exact hkey
  obtain ⟨t, ht⟩ : ∃ t, quicSessionMasterKeyGen lib (added.announced n) t₀ m.fixed.nonce = some t :=
    ⟨_, quicSessionMasterKeyGen_eq_some.mpr ⟨_, hkey', rfl⟩⟩
  have hkept : m.Kept now t := by
    obtain ⟨key, hkey'', rfl⟩ := quicSessionMasterKeyGen_eq_some.mp ht
    obtain rfl : m.key = key := Option.some.inj (hkey'.symm.trans hkey'')
    exact ⟨Nat.mod_eq_of_lt m.fixed.lifetimeHint_lt, rfl, Nat.mod_eq_of_lt m.fixed.ageAdd_lt, rfl,
      rfl⟩
  refine ⟨pkt, t, hkept, ?_⟩
  rw [hbytes, tlsClntNewSessionTicketProc, rPacketGet4, Prog.onFst_bind_of_ok hhint,
    Prog.onFst_bind_of_ok hage, Prog.onFst_bind_of_ok hnonce, rPacketGet2,
    Prog.onFst_bind_of_ok hlen, if_neg hne, newSessionTicketProc, Prog.onFst_bind_of_ok hget,
    Prog.onSnd_modify_bind, Prog.bind_of_ok hext, Prog.get_bind, rPacketBufInit]
  have hlast : ((added.announced n).session.setLast t) =
      quicSessionTicketAdd (h.announced n).session t := by
    rw [TicketHost.announced, TicketHost.announced, QuicSession.setLast]
    split_ifs <;> simp [added, TicketHost.setMaxEarlyData, quicSessionTicketAdd]
  have hhost : { added.announced n with session := (added.announced n).session.setLast t } =
      { h with session := quicSessionTicketAdd (h.announced n).session t } := by
    rw [hlast, TicketHost.announced]
    split_ifs <;> rfl
  dsimp only
  rw [ht, Prog.ofOption_some, Prog.pure_bind, Prog.onSnd_apply, Prog.modify_apply]
  dsimp only
  rw [hhost]

end Client

/-- A server that issues tickets and its client, with the messages that are under way. -/
structure ResumeNet where
  /-- The server. -/
  server : TicketServer
  /-- The client. -/
  client : TicketHost
  /-- The messages that the client has not processed, in the order of the stream. -/
  wire : List (List UInt8)
  /-- The number of the messages that the client has processed. No routine reads it. -/
  delivered : ℕ

/-- What can happen. -/
inductive ResumeEvent
  /-- The server is to issue a ticket at a time, with a packet to write to. -/
  | issue (now : ℤ) (draw : TicketDraw) (pkt : WPacket)
  /-- The client processes the next message at a time. Bytes stand around the message. -/
  | deliver (now : ℤ) (past behind : List UInt8)

/-- A step. The server issues tickets until it is done, and its packets have an ordinary size. The
partial bytes of a message whose build fails, which `TlsHandshake` sends as well, are left out. -/
def ResumeNet.step (lib : TlsLib) (tl : TlsTicketLib) (tk : TlsTicketKey) (s : ResumeNet) :
    ResumeEvent → Option ResumeNet
  | .issue now draw pkt =>
    if s.server.done = true ∨ 2 ^ 31 ≤ pkt.maxsize then none
    else
      let run := tlsSrvrNewSessionTicketBuild lib tl tk now draw (s.server, pkt)
      match run.1 with
      | .ok _ => some { s with
          server := run.2.1, wire := s.wire ++ [run.2.2.buf.drop pkt.written] }
      | .error _ => some { s with server := run.2.1 }
  | .deliver now past behind =>
    match s.wire with
    | [] => none
    | body :: wire =>
      let run := tlsClntNewSessionTicketProc lib now behind ({ past, rest := body }, s.client)
      some { s with client := run.2.2, wire, delivered := s.delivered + 1 }

/-- The ends after a handshake: they have the same cipher suite and the same secret, and the server
has issued no ticket. -/
structure ResumeNet.Fresh (s : ResumeNet) : Prop where
  /-- The first nonce is zero. -/
  nonce : s.server.nextTicketNonce = 0
  /-- No message is under way. -/
  wire : s.wire = []
  /-- No message was processed. -/
  delivered : s.delivered = 0
  /-- The cipher suites are the same. -/
  cipher : s.client.handshakeCipher = s.server.handshakeCipher
  /-- The secrets are the same. -/
  secret : ∀ cipher ∈ s.server.handshakeCipher,
    s.client.resumptionMasterSecret.get cipher.digest.size =
      s.server.resumptionMasterSecret.get cipher.digest.size
  /-- The session of the server is well formed. -/
  inRange : s.server.session.InRange

/-- A server with the ticket key opens a ticket, at any time, to a session with a cipher suite and
the numbers and the key that the client has beside the ticket. -/
def OpensTo (lib : TlsLib) (tl : TlsTicketLib) (tk : TlsTicketKey) (cipher : Option TlsCipher)
    (t : QuicSessionTicket) : Prop :=
  ∀ now before, ∃ sess last,
    tlsDecryptTicket lib tl tk now t.ticket before = (.ok sess, some sess) ∧ sess.cipher = cipher ∧
    sess.ticketQueue = [last] ∧ last.masterKey = t.masterKey ∧
    last.lifetimeHint = t.lifetimeHint ∧ last.ageAdd = t.ageAdd

/-- The key of the ticket with a number. -/
def ResumeNet.keyOf (lib : TlsLib) (s : ResumeNet) (i : ℕ) : Option (List UInt8) :=
  s.server.resumptionKey lib (Bytes.ofNat ticketNonceSize i)

section Run

variable {lib : TlsLib} {tl : TlsTicketLib} {tk : TlsTicketKey} {s₀ s s' : ResumeNet}

/-- What is required of a message with a number. -/
structure TicketMessage.Numbered (lib : TlsLib) (tl : TlsTicketLib) (tk : TlsTicketKey)
    (s₀ : ResumeNet) (i : ℕ) (m : TicketMessage) : Prop where
  /-- The nonce is the number. -/
  nonce : m.fixed.nonce = Bytes.ofNat ticketNonceSize i
  /-- The key is that of the number. -/
  key : s₀.keyOf lib i = some m.key
  /-- The extensions. -/
  entries : ticketEntries s₀.server.maxEarlyData m.block.entries
  /-- The ticket has a byte. -/
  ticket_ne : m.fixed.ticket ≠ []
  /-- What a client keeps of the message opens at the server. -/
  opens : ∀ now t, m.Kept now t → OpensTo lib tl tk s₀.server.session.cipher t

/-- The state of a run: the tickets of the client and the messages under way are numbered in one
sequence, which ends with the next nonce of the server. -/
structure ResumeNet.Numbered (lib : TlsLib) (tl : TlsTicketLib) (tk : TlsTicketKey)
    (s s₀ : ResumeNet) : Prop where
  /-- The session of the server is well formed. -/
  inRange : s.server.session.InRange
  /-- Its cipher suite. -/
  sessionCipher : s.server.session.cipher = s₀.server.session.cipher
  /-- The secret of the server. -/
  serverKey : ∀ nonce, s.server.resumptionKey lib nonce = s₀.server.resumptionKey lib nonce
  /-- The secret of the client. -/
  clientKey : ∀ nonce, s.client.resumptionKey lib nonce = s₀.server.resumptionKey lib nonce
  /-- The limit of the early data. -/
  maxEarlyData : s.server.maxEarlyData = s₀.server.maxEarlyData
  /-- The cipher suite of the session of the client. -/
  clientCipher : s.client.session.cipher = s₀.client.session.cipher
  /-- The server does not go on after its last ticket. -/
  done : tlsNewSessTicketNum ≤ s.server.nextTicketNonce → s.server.done = true
  /-- The number of the tickets. -/
  le : s.server.nextTicketNonce ≤ tlsNewSessTicketNum
  /-- The messages under way. -/
  wire : ∃ ms : List TicketMessage, s.wire = ms.map TicketMessage.bytes ∧
    s.delivered + ms.length = s.server.nextTicketNonce ∧
    ∀ i (m : TicketMessage), ms[i]? = some m → m.Numbered lib tl tk s₀ (s.delivered + i)
  /-- The tickets of the client. -/
  queue : ∃ ts, s.client.session.ticketQueue = s₀.client.session.ticketQueue ++ ts ∧
    ts.length = s.delivered ∧ ∀ i t, ts[i]? = some t →
      s₀.keyOf lib i = some t.masterKey ∧ OpensTo lib tl tk s₀.server.session.cipher t

/-- The state after a handshake is numbered. -/
theorem ResumeNet.Fresh.numbered (h : s.Fresh) : s.Numbered lib tl tk s := by
  refine ⟨h.inRange, rfl, fun _ => rfl, ?_, rfl, rfl, ?_, ?_, ⟨[], h.wire, ?_, ?_⟩,
    ⟨[], (List.append_nil _).symm, h.delivered.symm, ?_⟩⟩
  · exact TicketHost.resumptionKey_congr h.cipher h.secret
  · intro hle
    rw [h.nonce] at hle
    exact absurd hle (by decide)
  · rw [h.nonce]
    exact Nat.zero_le _
  · rw [h.delivered, h.nonce]
    rfl
  · intro i m hm
    simp at hm
  · intro i t ht
    simp at ht

/-- A server that is settled keeps its fields. -/
theorem TicketServer.settle_eq (s : TicketServer) :
    s.settle = { s with done := s.done || decide (tlsNewSessTicketNum ≤ s.nextTicketNonce) } := by
  rw [TicketServer.settle]
  split_ifs with hle
  · simp [hle]
  · simp [hle]

/-- The key of a ticket that the server makes. -/
theorem TicketServer.newTicket_eq_some {s : TicketServer} {now : ℤ} {draw : TicketDraw}
    {tick : QuicSessionTicket} (h : s.newTicket lib now draw = some tick) :
    s.resumptionKey lib s.tickNonce = some tick.masterKey ∧ tick.lifetimeHint < 2 ^ 32 ∧
      tick.ageAdd < 2 ^ 32 := by
  obtain ⟨key, hkey, rfl⟩ := quicSessionMasterKeyGen_eq_some.mp h
  exact ⟨hkey, Nat.mod_lt _ (by decide), Nat.mod_lt _ (by decide)⟩

/-- A session with one more ticket of the server is well formed. -/
theorem QuicSession.InRange.add {sess : QuicSession} (h : sess.InRange) {tick : QuicSessionTicket}
    (hhint : tick.lifetimeHint < 2 ^ 32) (hage : tick.ageAdd < 2 ^ 32) :
    (quicSessionTicketAdd sess tick).InRange := by
  refine ⟨h.cipher, h.maxEarlyData, ?_, ?_⟩
  · intro t ht
    rcases List.mem_append.mp ht with ht | ht
    · exact h.lifetimeHint t ht
    · rw [List.mem_singleton.mp ht]
      exact hhint
  · intro t ht
    rcases List.mem_append.mp ht with ht | ht
    · exact h.ageAdd t ht
    · rw [List.mem_singleton.mp ht]
      exact hage

/-- The message that a successful call writes has the number of the nonce. -/
theorem ResumeNet.Numbered.message (h : s.Numbered lib tl tk s₀) (hlib : tl.Lawful)
    {now : ℤ} {draw : TicketDraw} {tick : QuicSessionTicket} {senc : List UInt8} {m : TicketMessage}
    (htick : s.server.newTicket lib now draw = some tick)
    (hsenc : i2dQuicSession tl (quicSessionTicketAdd s.server.session tick) = some senc)
    (hhint : m.fixed.lifetimeHint = tick.lifetimeHint % 2 ^ 32)
    (hage : m.fixed.ageAdd = tick.ageAdd) (hnonce : m.fixed.nonce = s.server.tickNonce)
    (hticket : m.fixed.ticket = sealedTicket lib tk draw.iv (tl.encrypt tk.aesKey draw.iv senc))
    (hes : ticketEntries s.server.maxEarlyData m.block.entries) (hkey : m.key = tick.masterKey) :
    m.Numbered lib tl tk s₀ s.server.nextTicketNonce := by
  obtain ⟨htickKey, htickHint, htickAge⟩ := TicketServer.newTicket_eq_some htick
  refine ⟨hnonce, ?_, h.maxEarlyData ▸ hes, ?_, ?_⟩
  · rw [ResumeNet.keyOf, hkey, ← htickKey, h.serverKey]
    rfl
  · rw [hticket]
    exact sealedTicket_ne_nil _ _ _ _
  · intro now' t hkept now'' before
    have hopens := @tlsDecryptTicket_sealed tl _ tick senc lib tk draw.iv hlib draw.iv_length
      (h.inRange.add htickHint htickAge) List.getLast?_concat hsenc now'' before
    refine ⟨(quicSessionTicketAdd s.server.session tick).restored now'' tick,
      { tick with time := now'' }, ?_, h.sessionCipher, rfl, ?_, ?_, ?_⟩
    · rw [hkept.ticket, hticket]
      exact hopens
    · exact (hkept.masterKey.trans hkey).symm
    · rw [hkept.lifetimeHint, hhint, Nat.mod_eq_of_lt htickHint]
    · exact (hkept.ageAdd.trans hage).symm

/-- An entry of a list with one entry more. -/
theorem getElem?_concat_cases {α : Type} {l : List α} {a b : α} {i : ℕ}
    (h : (l ++ [a])[i]? = some b) : l[i]? = some b ∨ i = l.length ∧ b = a := by
  rcases Nat.lt_or_ge i l.length with hlt | hge
  · exact .inl ((List.getElem?_append_left hlt).symm.trans h)
  · rw [List.getElem?_append_right hge] at h
    obtain ⟨hzero, hb⟩ := List.getElem?_eq_some_iff.mp h
    rw [List.length_singleton, Nat.lt_one_iff] at hzero
    refine .inr ⟨by omega, ?_⟩
    rw [← hb]
    exact List.getElem_singleton _

/-- Issuing a ticket keeps the numbers. -/
theorem ResumeNet.Numbered.issue (h : s.Numbered lib tl tk s₀) (hlib : tl.Lawful) {now : ℤ}
    {draw : TicketDraw} {pkt : WPacket}
    (hstep : s.step lib tl tk (.issue now draw pkt) = some s') : s'.Numbered lib tl tk s₀ := by
  rw [ResumeNet.step] at hstep
  split_ifs at hstep with hdone
  obtain ⟨hdone, hmax⟩ := not_or.mp hdone
  have hlt : s.server.nextTicketNonce < tlsNewSessTicketNum := by
    by_contra hle
    exact hdone (h.done (not_lt.mp hle))
  have hle := h.le
  rcases hrun : tlsSrvrNewSessionTicketBuild lib tl tk now draw (s.server, pkt) with ⟨r, srv, t⟩
  simp only [hrun] at hstep
  cases r with
  | error e =>
    cases hstep
    rcases tlsSrvrNewSessionTicketBuild_error hrun with hsrv | ⟨tick, htick, hsrv⟩
    · rw [TicketServer.settle, if_neg (not_le.mpr hlt)] at hsrv
      exact hsrv ▸ h
    · obtain ⟨_, hhint, hage⟩ := TicketServer.newTicket_eq_some htick
      rw [TicketServer.settle, if_neg (not_le.mpr hlt)] at hsrv
      subst hsrv
      exact ⟨h.inRange.add hhint hage, h.sessionCipher, h.serverKey, h.clientKey, h.maxEarlyData,
        h.clientCipher, h.done, h.le, h.wire, h.queue⟩
  | ok _ =>
    cases hstep
    obtain ⟨tick, senc, m, htick, hsenc, hsrv, hmhint, hmage, hnonce, hticket, hes, hkey,
      happends⟩ := tlsSrvrNewSessionTicketBuild_ok (not_le.mp hmax) hrun
    obtain ⟨_, hhint, hage⟩ := TicketServer.newTicket_eq_some htick
    have hm := h.message hlib htick hsenc hmhint hmage hnonce hticket hes hkey
    have hnext : (s.server.nextTicketNonce + 1) % 2 ^ 64 = s.server.nextTicketNonce + 1 := by
      apply Nat.mod_eq_of_lt
      rw [tlsNewSessTicketNum] at hlt
      omega
    rw [hnext, TicketServer.settle_eq] at hsrv
    have hbody : t.buf.drop pkt.written = m.bytes := by
      rw [happends.buf, WPacket.written, List.drop_left]
    obtain ⟨ms, hwire, hcount, hms⟩ := h.wire
    subst hsrv
    refine ⟨h.inRange.add hhint hage, h.sessionCipher, h.serverKey, h.clientKey, h.maxEarlyData,
      h.clientCipher, ?_, hlt, ⟨ms ++ [m], ?_, ?_, ?_⟩, h.queue⟩
    · intro hge
      exact Bool.or_eq_true_iff.mpr (.inr (decide_eq_true hge))
    · rw [List.map_append, List.map_singleton, hbody, hwire]
    · rw [List.length_append, ← Nat.add_assoc, hcount]
      rfl
    · intro i m' hi
      rcases getElem?_concat_cases hi with hi | ⟨rfl, rfl⟩
      · exact hms i m' hi
      · rwa [hcount]

/-- Processing a message keeps the numbers. -/
theorem ResumeNet.Numbered.deliver (h : s.Numbered lib tl tk s₀) {now : ℤ}
    {past behind : List UInt8}
    (hstep : s.step lib tl tk (.deliver now past behind) = some s') : s'.Numbered lib tl tk s₀ := by
  obtain ⟨ms, hwire, hcount, hms⟩ := h.wire
  obtain ⟨ts, hqueue, hlength, hts⟩ := h.queue
  rw [ResumeNet.step] at hstep
  cases ms with
  | nil =>
    rw [hwire] at hstep
    cases hstep
  | cons m ms =>
    rw [hwire] at hstep
    have hm := hms 0 m rfl
    have hkey : s.client.resumptionKey lib m.fixed.nonce = some m.key := by
      rw [h.clientKey, hm.nonce]
      exact hm.key
    obtain ⟨pkt, t, hkept, hrun⟩ := @tlsClntNewSessionTicketProc_bytes lib now behind s.client _ m
      hm.entries hm.ticket_ne hkey past
    simp only [List.map_cons, hrun] at hstep
    cases hstep
    refine ⟨h.inRange, h.sessionCipher, h.serverKey, h.clientKey, h.maxEarlyData, ?_, h.done, h.le,
      ⟨ms, rfl, ?_, ?_⟩, ⟨ts ++ [t], ?_, ?_, ?_⟩⟩
    · rw [← h.clientCipher, TicketHost.announced]
      split_ifs <;> rfl
    · rw [← hcount, List.length_cons]
      dsimp only
      omega
    · intro i m' hi
      have hnext := hms (i + 1) m' hi
      rwa [Nat.add_comm i 1, ← Nat.add_assoc] at hnext
    · rw [← List.append_assoc, ← hqueue, TicketHost.announced]
      split_ifs <;> rfl
    · rw [List.length_append, hlength]
      rfl
    · intro i t' hi
      rcases getElem?_concat_cases hi with hi | ⟨rfl, rfl⟩
      · exact hts i t' hi
      · refine ⟨?_, hm.opens now t' hkept⟩
        rw [hlength, hkept.masterKey]
        exact hm.key

/-- A run keeps the numbers. -/
theorem ResumeNet.Fresh.run (hlib : tl.Lawful) (hs : s₀.Fresh) {es : List ResumeEvent}
    (hrun : Trace.run (ResumeNet.step lib tl tk) s₀ es = some s) : s.Numbered lib tl tk s₀ := by
  apply Trace.run_invariant (fun s => s.Numbered lib tl tk s₀) _ hs.numbered hrun
  intro s e t hnumbered hstep
  cases e with
  | issue now draw pkt => exact hnumbered.issue hlib hstep
  | deliver now past behind => exact hnumbered.deliver hstep

/-- In every run after a handshake, in which the server issues tickets and the client processes
their messages in the order of the stream, the client gets exactly one ticket for each message that
it processes, at most two in all. The ticket with a number has the key that both ends derive from
this number, and a server with the ticket key opens it at any time to a session with its cipher
suite, with the same key and with the lifetime and the age that the client was told. -/
theorem resumption_tickets (hlib : tl.Lawful) (hs : s₀.Fresh) {es : List ResumeEvent}
    (hrun : Trace.run (ResumeNet.step lib tl tk) s₀ es = some s) :
    s.delivered + s.wire.length = s.server.nextTicketNonce ∧
    s.server.nextTicketNonce ≤ tlsNewSessTicketNum ∧
    ∃ ts, s.client.session.ticketQueue = s₀.client.session.ticketQueue ++ ts ∧
      ts.length = s.delivered ∧ ∀ i t, ts[i]? = some t →
        s₀.keyOf lib i = some t.masterKey ∧ OpensTo lib tl tk s₀.server.session.cipher t := by
  have h := hs.run hlib hrun
  obtain ⟨ms, hwire, hcount, _⟩ := h.wire
  refine ⟨?_, h.le, h.queue⟩
  rw [hwire, List.length_map, hcount]

end Run

/-- Two ends with `TLS_AES_256_GCM_SHA384` after a handshake whose secret is zero. -/
def sha384Net : ResumeNet where
  server :=
    { session := { quicSessionCreate with cipher := some ⟨0x1302, 5, .sha384⟩ }
      resumptionMasterSecret := TlsSecret.zero
      handshakeCipher := some ⟨0x1302, 5, .sha384⟩
      lifetimeHint := 172800
      maxEarlyData := 16384
      nextTicketNonce := 0
      done := false }
  client :=
    { session := { quicSessionCreate with cipher := some ⟨0x1302, 5, .sha384⟩ }
      resumptionMasterSecret := TlsSecret.zero
      handshakeCipher := some ⟨0x1302, 5, .sha384⟩ }
  wire := []
  delivered := 0

theorem sha384Net_fresh : sha384Net.Fresh := by
  refine ⟨rfl, rfl, rfl, rfl, fun _ _ => rfl, ?_, by decide, ?_, ?_⟩
  · decide
  · intro t ht
    cases ht
  · intro t ht
    cases ht

/-- Random numbers that are zero. -/
def zeroDraw : TicketDraw where
  ageAdd := 0
  ticket := List.replicate 64 0
  iv := List.replicate ticketIvLength 0
  ageAdd_lt := Nat.two_pow_pos 32
  iv_length := List.length_replicate

/-- Two tickets are issued before the client gets them. -/
theorem resumption_tickets_two : ∃ s, Trace.run (ResumeNet.step sha256Server.lib sha384TicketLib
      sha256Server.ticketKey) sha384Net
      [.issue 0 zeroDraw (wPacketStaticBufInit 1024), .issue 0 zeroDraw (wPacketStaticBufInit 1024),
        .deliver 1 [] [], .deliver 2 [] []] = some s ∧
    s.client.session.ticketQueue.length = 2 ∧
    ∀ t ∈ s.client.session.ticketQueue, OpensTo sha256Server.lib sha384TicketLib
      sha256Server.ticketKey (some ⟨0x1302, 5, .sha384⟩) t := by
  have hany : (Trace.run (ResumeNet.step sha256Server.lib sha384TicketLib
      sha256Server.ticketKey) sha384Net
      [.issue 0 zeroDraw (wPacketStaticBufInit 1024), .issue 0 zeroDraw (wPacketStaticBufInit 1024),
        .deliver 1 [] [], .deliver 2 [] []]).any (fun s => decide (s.delivered = 2)) = true := by
    decide +kernel
  obtain ⟨s, hrun, htwo⟩ := (Option.any_eq_true _ _).mp hany
  have htwo : s.delivered = 2 := of_decide_eq_true htwo
  obtain ⟨_, _, ts, hqueue, hlength, hts⟩ := resumption_tickets sha384TicketLib_lawful
    sha384Net_fresh hrun
  have hqueue : s.client.session.ticketQueue = ts := hqueue
  refine ⟨s, hrun, by rw [hqueue, hlength, htwo], ?_⟩
  intro t ht
  rw [hqueue] at ht
  obtain ⟨i, hi⟩ := List.mem_iff_getElem?.mp ht
  exact (hts i t hi).2

end Tbquic
