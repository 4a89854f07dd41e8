import Tbquic.Tls.KeyShare
import Tbquic.Tls.Resumption

/-!
# Offering a ticket

A client that has a ticket offers it in the last extension of its ClientHello. Its constructor
closes all length fields of the message, so that it can write the binder over the message up to the
list of the binders.
-/

namespace Tbquic

/-- The obfuscated age that `QuicSessionTicketGet` computes from an age in seconds. The product is
one of `int`. -/
def quicObfuscatedAge (ageSec : ℤ) (ageAdd : ℕ) : Except Fail ℕ :=
  if 2 ^ 31 ≤ ageSec * 1000 then .error .ub else .ok ((ageSec * 1000 + ageAdd) % 2 ^ 32).toNat

/-- `QuicSessionTicketGet` over the queue: the first ticket that did not expire, with its obfuscated
age, and the queue without the tickets in front of it. -/
def quicSessionTicketGet (now : ℤ) :
    List QuicSessionTicket →
      Except Fail (Option (QuicSessionTicket × ℕ)) × List QuicSessionTicket
  | [] => (.ok none, [])
  | t :: n =>
    let ageSec := toInt (now - t.time)
    if 0 ≤ ageSec ∧ quicGe t.lifetimeHint ageSec then
      ((quicObfuscatedAge ageSec t.ageAdd).map fun ageMs => some (t, ageMs), t :: n)
    else quicSessionTicketGet now n

/-- `TlsExtClntCheckPreSharedKey`. -/
def tlsExtClntCheckPreSharedKey (s : TlsPsk) : Bool :=
  s.session.any fun sess => !sess.ticketQueue.isEmpty

/-- The loop of `WPacketForceClose`. A round closes a length field, so there are no more rounds than
fields. -/
def wPacketForceCloseLoop : ℕ → Prog Fail WPacket Unit
  | 0 => Prog.fail .fuel
  | fuel + 1 => do
    let pkt ← Prog.get
    if pkt.subs = [] then pure ()
    else do
      wPacketClose
      wPacketForceCloseLoop fuel

/-- `WPacketForceClose`. -/
def wPacketForceClose : Prog Fail WPacket Unit := do
  let pkt ← Prog.get
  wPacketForceCloseLoop (pkt.subs.length + 1)
  Prog.modify fun pkt => { pkt with closed := true }

/-- `WPacketSubAllocBytes`, with the offset of the stretch as result. -/
def wPacketSubAllocBytes (len lenbytes : ℕ) : Prog Fail WPacket ℕ := do
  wPacketStartSubBytes lenbytes
  let allocbytes ← wPacketAllocateBytes len
  wPacketClose
  pure allocbytes

/-- The identities of `TlsExtClntConstructPreSharedKey`. -/
def constructPskIdentity (t : QuicSessionTicket) (ageMs : ℕ) : Prog Fail WPacket Unit := do
  wPacketStartSubBytes 2
  wPacketSubMemcpy t.ticket 2
  wPacketPutBytes ageMs 4
  wPacketClose

/-- The binders of `TlsExtClntConstructPreSharedKey`, with the offset of the one that is still to be
filled in as result. All length fields of the message are closed. -/
def constructPskBinder (hashsize : ℕ) : Prog Fail WPacket ℕ := do
  wPacketStartSubBytes 2
  let binder ← wPacketSubAllocBytes hashsize 1
  wPacketClose
  wPacketForceClose
  pure binder

/-- The part of `TlsExtClntConstructPreSharedKey` with a ticket. -/
def constructPskTicket (lib : TlsLib) (md : QuicDigest) (t : QuicSessionTicket) (ageMs : ℕ) :
    Prog Fail (TlsPsk × WPacket) ExtReturn := do
  Prog.onSnd (constructPskIdentity t ageMs)
  let s ← Prog.get
  let binder ← Prog.onSnd (constructPskBinder md.size)
  let closed ← Prog.get
  let binderOut ← Prog.onFst (Prog.zoom TlsPsk.earlySecret
    (fun secret p => { p with earlySecret := secret })
    (tlsPskDoBinder lib md (closed.2.buf.take s.2.written) none t))
  Prog.onSnd (Prog.modify (·.overwrite binder binderOut))
  pure .sent

/-- `TlsExtClntConstructPreSharedKey`. -/
def tlsExtClntConstructPreSharedKey (lib : TlsLib) (now : ℤ) :
    Prog Fail (TlsPsk × WPacket) ExtReturn := do
  let s ← Prog.get
  let sess ← Prog.ofOption .ub s.1.session
  let cipher ← Prog.ofOption .ret sess.cipher
  let got := quicSessionTicketGet now sess.ticketQueue
  Prog.onFst (Prog.modify fun s => { s with session := some { sess with ticketQueue := got.2 } })
  match ← Prog.ofExcept got.1 with
  | none => pure .notSent
  | some (t, ageMs) => constructPskTicket lib cipher.digest t ageMs

section Close

variable {pkt t : WPacket}

/-- Closing a length field changes the field. -/
theorem wPacketClose_cons_eq_ok {sub : WPacketSub} {parent : List WPacketSub}
    (hsubs : pkt.subs = sub :: parent) (h : wPacketClose pkt = (.ok (), t)) :
    t.subs = parent ∧ t.maxsize = pkt.maxsize ∧ ∃ n,
      t.buf = Bytes.overwrite pkt.buf sub.value (Bytes.ofNat sub.valLen n) := by
  rw [wPacketClose, Prog.get_bind, hsubs] at h
  dsimp only at h
  rw [Prog.ensure_bind_eq_ok, Prog.modify_bind, Prog.ensure_bind_eq_ok] at h
  obtain ⟨_, _, h⟩ := h
  cases h
  exact ⟨rfl, rfl, _, rfl⟩

/-- Closing all length fields leaves the bytes behind them. -/
theorem wPacketForceClose_eq_ok (h : wPacketForceClose pkt = (.ok (), t)) :
    t.subs = [] ∧ t.closed = true ∧ t.maxsize = pkt.maxsize ∧ t.buf.length = pkt.buf.length ∧
      ∀ n, (∀ sub ∈ pkt.subs, sub.value + sub.valLen ≤ n) → t.buf.drop n = pkt.buf.drop n := by
  have hloop (fuel : ℕ) (pkt t : WPacket) (h : wPacketForceCloseLoop fuel pkt = (.ok (), t)) :
      t.subs = [] ∧ t.maxsize = pkt.maxsize ∧ t.buf.length = pkt.buf.length ∧
        ∀ n, (∀ sub ∈ pkt.subs, sub.value + sub.valLen ≤ n) → t.buf.drop n = pkt.buf.drop n := by
    induction fuel generalizing pkt with
    | zero => cases h
    | succ fuel ih =>
      rw [wPacketForceCloseLoop, Prog.get_bind] at h
      cases hsubs : pkt.subs with
      | nil =>
        rw [if_pos hsubs] at h
        cases h
        exact ⟨hsubs, rfl, rfl, fun _ _ => rfl⟩
      | cons sub parent =>
        rw [if_neg (by rw [hsubs]; exact List.cons_ne_nil _ _)] at h
        obtain ⟨_, mid, hclose, hrest⟩ := Prog.bind_eq_ok.mp h
        obtain ⟨hparent, hmax, len, hbuf⟩ := wPacketClose_cons_eq_ok hsubs hclose
        obtain ⟨hend, hmax', hlength, hdrop⟩ := ih mid hrest
        refine ⟨hend, hmax'.trans hmax, ?_, ?_⟩
        · rw [hlength, hbuf, Bytes.overwrite_length]
        · intro n hn
          rw [hdrop n ?_, hbuf, Bytes.drop_overwrite]
          · rw [Bytes.ofNat_length]
            exact hn sub List.mem_cons_self
          · intro sub' hsub'
            rw [hparent] at hsub'
            exact hn sub' (List.mem_cons_of_mem _ hsub')
  rw [wPacketForceClose, Prog.get_bind] at h
  obtain ⟨_, mid, hrun, hmodify⟩ := Prog.bind_eq_ok.mp h
  obtain ⟨hsubs, hmax, hlength, hdrop⟩ := hloop _ pkt mid hrun
  cases hmodify
  exact ⟨hsubs, rfl, hmax, hlength, hdrop⟩

/-- A packet whose length fields were all closed can be closed once more. -/
theorem wPacketClose_of_closed (hsubs : pkt.subs = []) (hclosed : pkt.closed = true) :
    wPacketClose pkt = (.ok (), pkt) := by
  rw [wPacketClose, Prog.get_bind, hsubs]
  dsimp only
  rw [Prog.ensure_of_pos hclosed]
  rfl

/-- A stretch that was allocated stands behind its length. -/
theorem wPacketSubAllocBytes_appends {len lenbytes off : ℕ} (hmax : pkt.maxsize < 2 ^ 31)
    (h : wPacketSubAllocBytes len lenbytes pkt = (.ok off, t)) :
    pkt.Appends (Bytes.ofNat lenbytes len ++ List.replicate len 0) t ∧ len < 256 ^ lenbytes ∧
      off = pkt.written + lenbytes := by
  obtain ⟨_, opened, hstart, h⟩ := Prog.bind_eq_ok.mp h
  obtain ⟨off', filled, halloc, h⟩ := Prog.bind_eq_ok.mp h
  obtain ⟨_, closed, hclose, hpure⟩ := Prog.bind_eq_ok.mp h
  cases hpure
  rw [wPacketAllocateBytes, Prog.get_bind] at halloc
  obtain ⟨_, filled', happend, hpure⟩ := Prog.bind_eq_ok.mp halloc
  cases hpure
  have hopened := wPacketStartSubBytes_opened hstart
  have hbody := hopened.append (wPacketAppend_appends happend)
  rw [List.nil_append] at hbody
  obtain ⟨happends, hlt⟩ := wPacketClose_appends hbody hmax hclose
  rw [List.length_replicate] at happends hlt
  refine ⟨happends, hlt, ?_⟩
  rw [hopened.extends.written, List.append_nil, List.length_replicate]
  rfl

end Close

section Binder

variable {lib : TlsLib} {md : QuicDigest} {msg out : List UInt8} {t : QuicSessionTicket}
  {es es' : TlsSecret}

/-- A binder that was written is the one of the key, from which the early secret was made. -/
theorem tlsPskDoBinder_eq_ok (h : tlsPskDoBinder lib md msg none t es = (.ok out, es')) :
    ∃ secret, tlsGenerateSecret lib md none (some t.masterKey) = some secret ∧
      es' = es.set secret ∧ tlsPskBinder lib md secret msg = some out := by
  obtain ⟨secret, hsecret, h⟩ := Prog.ofOption_bind_eq_ok.mp h
  rw [Prog.modify_bind, Prog.get_bind] at h
  obtain ⟨binder, hbinder, h⟩ := Prog.ofOption_bind_eq_ok.mp h
  obtain ⟨_, h⟩ := Prog.ensure_bind_eq_ok.mp h
  cases h
  have hsize := tlsGenerateSecret_length hsecret
  have hget : (es.set secret).get md.size = secret := by
    rw [← hsize]
    exact TlsSecret.get_set (hsize ▸ md.size_le)
  rw [hget] at hbinder
  exact ⟨secret, hsecret, rfl, hbinder⟩

/-- The binder of the key is accepted. -/
theorem tlsPskDoBinder_of_binder {secret : List UInt8}
    (hsecret : tlsGenerateSecret lib md none (some t.masterKey) = some secret)
    (hbinder : tlsPskBinder lib md secret msg = some out) (hout : out.length = md.size)
    (es : TlsSecret) :
    tlsPskDoBinder lib md msg (some out) t es = (.ok out, es.set secret) := by
  have hsize := tlsGenerateSecret_length hsecret
  have hget : (es.set secret).get md.size = secret := by
    rw [← hsize]
    exact TlsSecret.get_set (hsize ▸ md.size_le)
  have hequal : ∀ bytes ∈ some out, bytes.take md.size = out := by
    intro bytes hbytes
    rw [← Option.some.inj hbytes, ← hout, List.take_length]
  rw [tlsPskDoBinder, hsecret, Prog.ofOption_some, Prog.pure_bind, Prog.modify_bind, Prog.get_bind,
    hget, hbinder, Prog.ofOption_some, Prog.pure_bind, Prog.ensure_of_pos hequal, Prog.pure_bind]
  rfl

/-- A binder has the size of the digest. -/
theorem tlsPskBinder_length {secret : List UInt8}
    (h : tlsPskBinder lib md secret msg = some out) : out.length = md.size := by
  obtain ⟨_, _, h⟩ := Option.bind_eq_some_iff.mp h
  obtain ⟨_, _, h⟩ := Option.bind_eq_some_iff.mp h
  cases h
  exact lib.hmac_length _ _ _

end Binder

section Offer

variable {lib : TlsLib} {md : QuicDigest} {tick : QuicSessionTicket} {ageMs : ℕ} {c c' : TlsPsk}
  {pkt t : WPacket} {ret : ExtReturn}

/-- What `constructPskIdentity` writes. -/
theorem constructPskIdentity_appends (hmax : pkt.maxsize < 2 ^ 31)
    (h : constructPskIdentity tick ageMs pkt = (.ok (), t)) :
    ∃ i : PskIdentity, i.identity = tick.ticket ∧ i.obfuscatedTicketAge = ageMs ∧
      i.encode.length < 2 ^ 16 ∧ pkt.Appends (Bytes.ofNat 2 i.encode.length ++ i.encode) t := by
  obtain ⟨_, p₁, hstart, h⟩ := Prog.bind_eq_ok.mp h
  obtain ⟨_, p₂, hticket, h⟩ := Prog.bind_eq_ok.mp h
  obtain ⟨_, p₃, hage, hclose⟩ := Prog.bind_eq_ok.mp h
  have hopened := wPacketStartSubBytes_opened hstart
  have hmax₁ : p₁.maxsize < 2 ^ 31 := by
    rw [hopened.maxsize]
    exact hmax
  obtain ⟨hticket, hticketLt⟩ := wPacketSubMemcpy_appends hmax₁ hticket
  obtain ⟨hage, hageLt⟩ := wPacketPutBytes_appends hage
  have hbody := (hopened.append hticket).append hage
  rw [List.nil_append] at hbody
  obtain ⟨happends, hlt⟩ := wPacketClose_appends hbody hmax hclose
  exact ⟨⟨tick.ticket, ageMs, hticketLt, hageLt⟩, rfl, rfl, hlt, happends⟩

/-- What `constructPskBinder` leaves: all length fields are closed, and behind what was written
before stand the lengths and a stretch for the binder. -/
theorem constructPskBinder_eq_ok {hashsize off n : ℕ} (hmax : pkt.maxsize < 2 ^ 31)
    (hsubs : ∀ sub ∈ pkt.subs, sub.value + sub.valLen ≤ n) (hn : n ≤ pkt.written)
    (h : constructPskBinder hashsize pkt = (.ok off, t)) :
    t.subs = [] ∧ t.closed = true ∧ hashsize < 2 ^ 8 ∧ off = pkt.written + 3 ∧
      t.written = pkt.written + 3 + hashsize ∧
      t.buf.drop n = pkt.buf.drop n ++ (Bytes.ofNat 2 (1 + hashsize) ++
        (Bytes.ofNat 1 hashsize ++ List.replicate hashsize 0)) := by
  obtain ⟨_, p₁, hstart, h⟩ := Prog.bind_eq_ok.mp h
  obtain ⟨off', p₂, halloc, h⟩ := Prog.bind_eq_ok.mp h
  obtain ⟨_, p₃, hclose, h⟩ := Prog.bind_eq_ok.mp h
  obtain ⟨_, p₄, hforce, hpure⟩ := Prog.bind_eq_ok.mp h
  cases hpure
  have hopened := wPacketStartSubBytes_opened hstart
  have hmax₁ : p₁.maxsize < 2 ^ 31 := by
    rw [hopened.maxsize]
    exact hmax
  obtain ⟨halloc, hlt, hoff⟩ := wPacketSubAllocBytes_appends hmax₁ halloc
  have hbody := hopened.append halloc
  rw [List.nil_append] at hbody
  have hlen : (Bytes.ofNat 1 hashsize ++ List.replicate hashsize (0 : UInt8)).length =
      1 + hashsize := by
    rw [List.length_append, Bytes.ofNat_length, List.length_replicate]
  obtain ⟨happends, _⟩ := wPacketClose_appends hbody hmax hclose
  rw [hlen] at happends
  obtain ⟨hnone, hclosed, _, hlength, hdrop⟩ := wPacketForceClose_eq_ok hforce
  refine ⟨hnone, hclosed, hlt, ?_, ?_, ?_⟩
  · rw [hoff, hopened.extends.written, List.append_nil, List.length_replicate]
    rfl
  · have hwritten : p₃.written = _ := happends.extends.written
    rw [List.length_append, hlen, Bytes.ofNat_length] at hwritten
    rw [WPacket.written, hlength]
    exact hwritten.trans (by omega)
  · rw [hdrop n (happends.subs ▸ hsubs), happends.buf, List.drop_append_of_le_length hn]

/-- A ticket that is offered: the message ends with the extension, and its binder is the one of the
key of the ticket for the message up to the identities. -/
structure PskOffered (lib : TlsLib) (md : QuicDigest) (tick : QuicSessionTicket) (ageMs : ℕ)
    (secret past : List UInt8) (ext : PskExtension) : Prop where
  /-- The identity is the ticket with its age. -/
  identity : ∃ i : PskIdentity, ext.identities = [i] ∧ i.identity = tick.ticket ∧
    i.obfuscatedTicketAge = ageMs
  /-- The early secret is made from the key. -/
  generated : tlsGenerateSecret lib md none (some tick.masterKey) = some secret
  /-- The binder covers what stands before it. -/
  binder : ∃ b : PskBinder, ext.binders = [b] ∧
    tlsPskBinder lib md secret (past ++ ext.identityBytes) = some b.binder

/-- What `constructPskTicket` leaves. -/
theorem constructPskTicket_eq_ok (hmax : pkt.maxsize < 2 ^ 31)
    (hsubs : ∀ sub ∈ pkt.subs, sub.value + sub.valLen ≤ pkt.written)
    (h : constructPskTicket lib md tick ageMs (c, pkt) = (.ok ret, (c', t))) :
    ∃ secret past ext, PskOffered lib md tick ageMs secret past ext ∧ ret = .sent ∧
      past.length = pkt.written ∧ t.buf = past ++ ext.encode ∧ t.subs = [] ∧ t.closed = true ∧
      c' = { c with earlySecret := c.earlySecret.set secret } := by
  obtain ⟨_, p₁, hidentity, h⟩ := Prog.onSnd_bind_eq_ok.mp h
  rw [Prog.get_bind] at h
  obtain ⟨off, p₂, hbinders, h⟩ := Prog.onSnd_bind_eq_ok.mp h
  rw [Prog.get_bind] at h
  obtain ⟨out, c₂, hbinder, h⟩ := Prog.onFst_bind_eq_ok.mp h
  rw [Prog.onSnd_modify_bind] at h
  cases h
  obtain ⟨i, hi, hage, hilt, hwrote⟩ := constructPskIdentity_appends hmax hidentity
  have hwritten : p₁.written = pkt.written + _ := hwrote.extends.written
  have hmax₁ : p₁.maxsize < 2 ^ 31 := by
    rw [hwrote.maxsize]
    exact hmax
  have hsubs₁ : ∀ sub ∈ p₁.subs, sub.value + sub.valLen ≤ pkt.written := by
    rw [hwrote.subs]
    exact hsubs
  have hle : pkt.written ≤ p₁.written := by
    rw [hwritten]
    exact Nat.le_add_right _ _
  obtain ⟨hnone, hclosed, hsize, hoff, hend, hdrop⟩ := constructPskBinder_eq_ok hmax₁ hsubs₁ hle
    hbinders
  have hidBytes : p₁.buf.drop pkt.written = Bytes.ofNat 2 i.encode.length ++ i.encode := by
    rw [hwrote.buf, WPacket.written, List.drop_left]
  rw [Prog.zoom_apply, Prod.mk.injEq] at hbinder
  obtain ⟨hok, rfl⟩ := hbinder
  obtain ⟨secret, hsecret, hset, hout⟩ := tlsPskDoBinder_eq_ok (Prod.ext hok rfl)
  have hlen := tlsPskBinder_length hout
  have hbinderLt : out.length < 2 ^ 8 := hlen ▸ hsize
  -- The buffer before the binder is filled in.
  obtain ⟨past, hpast, hbuf⟩ : ∃ past, past.length = pkt.written ∧
      p₂.buf = past ++ (Bytes.ofNat 2 i.encode.length ++ i.encode ++
        (Bytes.ofNat 2 (1 + md.size) ++ (Bytes.ofNat 1 md.size ++ List.replicate md.size 0))) := by
    refine ⟨p₂.buf.take pkt.written, ?_, ?_⟩
    · rw [List.length_take]
      apply min_eq_left
      rw [WPacket.written] at hend
      omega
    · rw [← hidBytes, ← hdrop, List.take_append_drop]
  let ext : PskExtension :=
    { identities := [i]
      binders := [⟨out, hbinderLt⟩]
      identities_lt := by
        rw [List.flatMap_singleton]
        exact hilt
      binders_lt := by
        rw [List.flatMap_singleton, PskBinder.encode, List.length_append, Bytes.ofNat_length]
        exact Nat.lt_of_lt_of_le (Nat.add_lt_add_left hbinderLt 1) (by decide) }
  have hids : ext.identityBytes = Bytes.ofNat 2 i.encode.length ++ i.encode := by
    rw [PskExtension.identityBytes, List.flatMap_singleton]
  have hbinders' : ext.binderBytes =
      Bytes.ofNat 2 (1 + md.size) ++ (Bytes.ofNat 1 md.size ++ out) := by
    rw [PskExtension.binderBytes, List.flatMap_singleton, PskBinder.encode, List.length_append,
      Bytes.ofNat_length, hlen]
  have htake : p₂.buf.take p₁.written = past ++ ext.identityBytes := by
    have hfront : (past ++ ext.identityBytes).length = p₁.written := by
      rw [List.length_append, hpast, hids, hwritten]
    rw [← hfront, hbuf, ← hids, ← List.append_assoc, List.take_left]
  have hfilled : Bytes.overwrite p₂.buf off out = past ++ ext.encode := by
    have hfront : (past ++ (ext.identityBytes ++
        (Bytes.ofNat 2 (1 + md.size) ++ Bytes.ofNat 1 md.size))).length = off := by
      rw [List.length_append, List.length_append, List.length_append, hpast, hids, hoff, hwritten,
        Bytes.ofNat_length, Bytes.ofNat_length]
      omega
    have hover := @Bytes.overwrite_append (past ++ (ext.identityBytes ++
      (Bytes.ofNat 2 (1 + md.size) ++ Bytes.ofNat 1 md.size))) (List.replicate md.size 0) out []
      (by rw [hlen, List.length_replicate])
    rw [hfront, List.append_nil, List.append_nil] at hover
    have hwhole : p₂.buf = past ++ (ext.identityBytes ++
        (Bytes.ofNat 2 (1 + md.size) ++ Bytes.ofNat 1 md.size)) ++ List.replicate md.size 0 := by
      rw [hids, hbuf]
      simp only [List.append_assoc]
    rw [← hwhole] at hover
    rw [hover, PskExtension.encode, hbinders']
    simp only [List.append_assoc]
  refine ⟨secret, past, ext, ⟨⟨i, rfl, hi, hage⟩, hsecret, ⟨_, rfl, ?_⟩⟩, rfl, hpast, hfilled,
    hnone, hclosed, ?_⟩
  · rw [← htake]
    exact hout
  · rw [← hset]

end Offer

section Accept

variable {srv : PskServer} {md : QuicDigest} {tick : QuicSessionTicket} {ageMs : ℕ}
  {secret past : List UInt8} {ext : PskExtension} {cipher : Option TlsCipher}

/-- A ticket that opens is found by the loop of the server. -/
theorem scan_of_opensTo {i : PskIdentity}
    (hopens : OpensTo srv.lib srv.tl srv.ticketKey cipher tick) (hi : i.identity = tick.ticket)
    (hfits : cipher.map TlsCipher.digest = some srv.handshakeCipher.digest) :
    ∃ sess last, srv.scan [i] 0 none = (0, some sess) ∧ sess.cipher = cipher ∧
      quicSessionTicketPickTail sess = some last ∧ last.masterKey = tick.masterKey := by
  obtain ⟨sess, last, hdecrypt, hcipher, hqueue, hkey, _⟩ := hopens srv.now none
  have htail : quicSessionTicketPickTail sess = some last := by
    rw [quicSessionTicketPickTail, hqueue]
    rfl
  refine ⟨sess, last, ?_, hcipher, htail, hkey⟩
  have hcompatible : srv.Compatible sess := by
    rw [PskServer.Compatible, hcipher]
    exact hfits
  rw [tlsDecryptTicket_apply] at hdecrypt
  rw [PskServer.scan, hi]
  cases hplain : ticketPlaintext srv.lib srv.tl srv.ticketKey tick.ticket with
  | none =>
    rw [hplain] at hdecrypt
    cases hdecrypt
  | some plain =>
    cases hsess : d2iQuicSession srv.tl srv.now plain with
    | none =>
      simp only [hplain, hsess] at hdecrypt
      cases hdecrypt
    | some found =>
      simp only [hplain, hsess] at hdecrypt
      cases hdecrypt
      simp only [hsess, if_pos hcompatible]

/-- The server accepts a ticket that is offered and that it opens, and has the early secret of the
client. -/
theorem tlsExtsrvrParsePsk_offered (hoffer : PskOffered srv.lib md tick ageMs secret past ext)
    (hopens : OpensTo srv.lib srv.tl srv.ticketKey cipher tick)
    (hcipher : cipher.map TlsCipher.digest = some md)
    (hmd : srv.handshakeCipher.digest = md) (p : TlsPsk) :
    ∃ pkt sess, sess.cipher = cipher ∧ tlsExtsrvrParsePsk srv ({ past, rest := ext.encode }, p) =
      (.ok (), (pkt, { p with
        hit := true
        earlySecret := p.earlySecret.set secret
        tickIdentity := 0
        session := some sess })) := by
  obtain ⟨i, hids, hi, _⟩ := hoffer.identity
  obtain ⟨b, hbs, hbinder⟩ := hoffer.binder
  obtain ⟨sess, last, hscan, hsess, htail, hkey⟩ := scan_of_opensTo hopens hi
    (hmd ▸ hcipher)
  obtain ⟨suite, hsuite, hdigest⟩ := Option.map_eq_some_iff.mp hcipher
  have hlen := tlsPskBinder_length hbinder
  have hbLt := ext.binders_lt
  rw [hbs] at hbLt
  have hget := @rPacketGetLengthPrefixed_append (past ++ ext.identityBytes)
    ([b].flatMap PskBinder.encode) [] 2 hbLt (by rw [List.append_nil]; omega)
  rw [List.append_nil] at hget
  have hfirst : (parsePskBinder 0 ⟨[], [b].flatMap PskBinder.encode⟩).1 = .ok b.binder :=
    @parsePskBinder_encode [b] (by omega) [] 0
  have hsecret : tlsGenerateSecret srv.lib md none (some last.masterKey) = some secret :=
    hkey ▸ hoffer.generated
  have hdo := tlsPskDoBinder_of_binder hsecret hbinder hlen p.earlySecret
  have hbytes : ext.binderBytes =
      Bytes.ofNat 2 ([b].flatMap PskBinder.encode).length ++ [b].flatMap PskBinder.encode := by
    rw [PskExtension.binderBytes, hbs]
  refine ⟨⟨past ++ ext.identityBytes ++ ext.binderBytes, []⟩, sess, hsess, ?_⟩
  rw [tlsExtsrvrParsePsk_encode, hids, hscan]
  dsimp only
  rw [parsePskSession, Prog.get_bind, hsess, hsuite, Prog.ofOption_some, Prog.pure_bind, hbytes,
    Prog.onFst_bind_of_ok hget, rPacketBufInit, hfirst]
  rw [Prog.ofExcept_ok, Prog.pure_bind, hdigest, Prog.ensure_of_pos hlen, Prog.pure_bind, htail,
    Prog.ofOption_some, Prog.pure_bind, Prog.onSnd_bind_of_ok (Prog.zoom_of_ok hdo)]
  rfl

end Accept

/-- The ticket did not expire. -/
def QuicSessionTicket.Fresh (now : ℤ) (t : QuicSessionTicket) : Prop :=
  0 ≤ toInt (now - t.time) ∧ quicGe t.lifetimeHint (toInt (now - t.time))

section Resume

variable {lib : TlsLib} {tl : TlsTicketLib} {tk : TlsTicketKey} {now : ℤ}

/-- The ticket that is got is the first one that did not expire. -/
theorem quicSessionTicketGet_eq_some {ts : List QuicSessionTicket} {t : QuicSessionTicket}
    {ageMs : ℕ} (h : (quicSessionTicketGet now ts).1 = .ok (some (t, ageMs))) :
    t.Fresh now ∧ ∃ expired after, ts = expired ++ t :: after ∧ ∀ e ∈ expired, ¬ e.Fresh now := by
  induction ts with
  | nil => cases h
  | cons t' ts ih =>
    rw [quicSessionTicketGet] at h
    by_cases hfresh : 0 ≤ toInt (now - t'.time) ∧ quicGe t'.lifetimeHint (toInt (now - t'.time))
    · rw [if_pos hfresh] at h
      obtain ⟨ms, hms⟩ := Except.map_eq_ok h
      rw [hms] at h
      cases h
      exact ⟨hfresh, [], ts, rfl, fun e he => absurd he List.not_mem_nil⟩
    · rw [if_neg hfresh] at h
      obtain ⟨ht, expired, after, rfl, hexpired⟩ := ih h
      refine ⟨ht, t' :: expired, after, rfl, ?_⟩
      intro e he
      rcases List.mem_cons.mp he with rfl | he
      · exact hfresh
      · exact hexpired e he

/-- What `TlsExtClntConstructPreSharedKey` leaves when the extension is sent. -/
theorem tlsExtClntConstructPreSharedKey_sent {c c' : TlsPsk} {sess : QuicSession} {pkt t : WPacket}
    (hsess : c.session = some sess) (hmax : pkt.maxsize < 2 ^ 31)
    (hsubs : ∀ sub ∈ pkt.subs, sub.value + sub.valLen ≤ pkt.written)
    (h : tlsExtClntConstructPreSharedKey lib now (c, pkt) = (.ok .sent, (c', t))) :
    ∃ suite tick ageMs secret past ext, sess.cipher = some suite ∧ tick ∈ sess.ticketQueue ∧
      tick.Fresh now ∧ PskOffered lib suite.digest tick ageMs secret past ext ∧
      past.length = pkt.written ∧ t.buf = past ++ ext.encode ∧ wPacketClose t = (.ok (), t) ∧
      c'.earlySecret = c.earlySecret.set secret := by
  rw [tlsExtClntConstructPreSharedKey, Prog.get_bind, hsess, Prog.ofOption_some,
    Prog.pure_bind] at h
  obtain ⟨suite, hsuite, h⟩ := Prog.ofOption_bind_eq_ok.mp h
  obtain ⟨_, c₁, hmodify, h⟩ := Prog.onFst_bind_eq_ok.mp h
  cases hmodify
  cases hgot : (quicSessionTicketGet now sess.ticketQueue).1 with
  | error e =>
    rw [hgot, Prog.ofExcept_error, Prog.fail_bind] at h
    cases h
  | ok got =>
    rw [hgot, Prog.ofExcept_ok, Prog.pure_bind] at h
    cases got with
    | none => cases h
    | some got =>
      obtain ⟨tick, ageMs⟩ := got
      obtain ⟨hfresh, expired, after, hqueue, _⟩ := quicSessionTicketGet_eq_some hgot
      obtain ⟨secret, past, ext, hoffer, _, hpast, hbuf, hnone, hclosed, hc'⟩ :=
        constructPskTicket_eq_ok hmax hsubs h
      refine ⟨suite, tick, ageMs, secret, past, ext, hsuite, ?_, hfresh, hoffer, hpast, hbuf,
        wPacketClose_of_closed hnone hclosed, ?_⟩
      · rw [hqueue]
        exact List.mem_append_right _ List.mem_cons_self
      · rw [hc']

/-- A session is resumed. A server issues tickets in a connection, the client processes some of
them, and offers a ticket in a later one: the message ends with the extension that the client
writes, the ticket in it is one that did not expire, closing the outer length fields changes nothing
any more, and a server with the same ticket key whose handshake has a suite with the same digest
accepts it at any time, restores a session with the suite of the first connection and gets the early
secret of the client. -/
theorem resumption_accepted (hlib : tl.Lawful) {s₀ s : ResumeNet} (hs : s₀.Fresh)
    (hnone : s₀.client.session.ticketQueue = []) {md : QuicDigest}
    (hclient : s₀.client.session.cipher.map TlsCipher.digest = some md)
    (hserver : s₀.server.session.cipher.map TlsCipher.digest = some md) {es : List ResumeEvent}
    (hrun : Trace.run (ResumeNet.step lib tl tk) s₀ es = some s) {c c' : TlsPsk}
    (hsess : c.session = some s.client.session) {pkt t : WPacket} (hmax : pkt.maxsize < 2 ^ 31)
    (hsubs : ∀ sub ∈ pkt.subs, sub.value + sub.valLen ≤ pkt.written)
    (hoffer : tlsExtClntConstructPreSharedKey lib now (c, pkt) = (.ok .sent, (c', t)))
    {suite : TlsCipher} (hsuite : suite.digest = md) :
    ∃ past, ∃ ext : PskExtension, ∃ tick, past.length = pkt.written ∧ t.buf = past ++ ext.encode ∧
      wPacketClose t = (.ok (), t) ∧ tick ∈ s.client.session.ticketQueue ∧ tick.Fresh now ∧
      ext.identities.map PskIdentity.identity = [tick.ticket] ∧
      ∀ now' p, ∃ pkt' p' sess, tlsExtsrvrParsePsk ⟨lib, tl, tk, now', suite⟩
          ({ past, rest := ext.encode }, p) = (.ok (), (pkt', p')) ∧ p'.hit = true ∧
        p'.session = some sess ∧ sess.cipher = s₀.server.session.cipher ∧
        p'.earlySecret.get md.size = c'.earlySecret.get md.size := by
  have h := hs.run hlib hrun
  obtain ⟨ts, hqueue, _, hts⟩ := h.queue
  rw [hnone, List.nil_append] at hqueue
  obtain ⟨suite', tick, ageMs, secret, past, ext, hsuite', htick, hfresh, hoffered, hpast, hbuf,
    hclose, hsecret⟩ := tlsExtClntConstructPreSharedKey_sent hsess hmax hsubs hoffer
  have hmd : suite'.digest = md := by
    rw [← h.clientCipher, hsuite'] at hclient
    exact Option.some.inj hclient
  rw [hmd] at hoffered
  obtain ⟨i, hids, hi, _⟩ := hoffered.identity
  refine ⟨past, ext, tick, hpast, hbuf, hclose, htick, hfresh, ?_, ?_⟩
  · rw [hids, List.map_singleton, hi]
  · intro now' p
    rw [hqueue] at htick
    obtain ⟨n, hn⟩ := List.mem_iff_getElem?.mp htick
    obtain ⟨_, hopens⟩ := hts n tick hn
    obtain ⟨pkt', sess, hcipher, hparse⟩ := @tlsExtsrvrParsePsk_offered ⟨lib, tl, tk, now', suite⟩
      md tick ageMs secret past ext _ hoffered hopens hserver hsuite p
    have hsize := tlsGenerateSecret_length hoffered.generated
    have hget (es : TlsSecret) : (es.set secret).get md.size = secret := by
      rw [← hsize]
      exact TlsSecret.get_set (hsize ▸ md.size_le)
    refine ⟨pkt', _, sess, hparse, rfl, rfl, hcipher, ?_⟩
    rw [hsecret, hget, hget]

end Resume

/-- A ticket that is offered after two seconds is accepted whatever the clock of the server says. -/
theorem resumption_accepted_sha384 : ∃ s c t,
    Trace.run (ResumeNet.step firstBytesLib sha384TicketLib sha256Server.ticketKey) sha384Net
      [.issue 0 zeroDraw (wPacketStaticBufInit 1024), .deliver 1 [] []] = some s ∧
    tlsExtClntConstructPreSharedKey firstBytesLib 3
      (⟨false, TlsSecret.zero, 0, some s.client.session⟩, wPacketStaticBufInit 1024) =
        (.ok .sent, (c, t)) ∧
    ∀ now p, ∃ pkt p' sess, tlsExtsrvrParsePsk ⟨firstBytesLib, sha384TicketLib,
        sha256Server.ticketKey, now, ⟨0x1302, 5, .sha384⟩⟩ (rPacketBufInit t.buf, p) =
          (.ok (), (pkt, p')) ∧
      p'.hit = true ∧ p'.session = some sess ∧ sess.cipher = some ⟨0x1302, 5, .sha384⟩ ∧
      p'.earlySecret.get 48 = c.earlySecret.get 48 := by
  have hany : (Trace.run (ResumeNet.step firstBytesLib sha384TicketLib sha256Server.ticketKey)
      sha384Net [.issue 0 zeroDraw (wPacketStaticBufInit 1024), .deliver 1 [] []]).any
      (fun s => decide ((tlsExtClntConstructPreSharedKey firstBytesLib 3
        (⟨false, TlsSecret.zero, 0, some s.client.session⟩, wPacketStaticBufInit 1024)).1 =
          .ok .sent)) = true := by
    decide +kernel
  obtain ⟨s, hrun, hsent⟩ := (Option.any_eq_true _ _).mp hany
  have hsent := of_decide_eq_true hsent
  obtain ⟨⟨c, t⟩, hoffer⟩ : ∃ u, tlsExtClntConstructPreSharedKey firstBytesLib 3
      (⟨false, TlsSecret.zero, 0, some s.client.session⟩, wPacketStaticBufInit 1024) =
        (.ok .sent, u) := ⟨_, Prod.ext hsent rfl⟩
  have hclient : sha384Net.client.session.cipher.map TlsCipher.digest = some .sha384 := rfl
  have hsuite : TlsCipher.digest ⟨0x1302, 5, .sha384⟩ = .sha384 := rfl
  obtain ⟨past, ext, _, hpast, hbuf, _, _, _, _, haccepted⟩ := resumption_accepted
    sha384TicketLib_lawful sha384Net_fresh rfl hclient rfl hrun rfl (by decide) (by decide) hoffer
    hsuite
  obtain rfl : past = [] := List.eq_nil_of_length_eq_zero hpast
  refine ⟨s, c, t, hrun, hoffer, ?_⟩
  intro now p
  obtain ⟨pkt, p', sess, hparse, hhit, hsess, hcipher, hsecret⟩ := haccepted now p
  refine ⟨pkt, p', sess, ?_, hhit, hsess, hcipher, hsecret⟩
  rw [hbuf, List.nil_append]
  exact hparse

end Tbquic
