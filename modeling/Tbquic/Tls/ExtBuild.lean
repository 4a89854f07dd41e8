import Tbquic.Tls.ExtParse

/-!
# Building a block of extensions

`TlsConstructExtensions` goes through a table of constructors, each of which writes the body of its
extension behind a length. A constructor can decide that its extension is not sent. The block that
results is what `TlsParseExtensions` of the peer takes apart again.
-/

namespace Tbquic

/-- `ExtReturn`. -/
inductive ExtReturn
  /-- `EXT_RETURN_FAIL`. -/
  | fail
  /-- `EXT_RETURN_SENT`. -/
  | sent
  /-- `EXT_RETURN_NOT_SENT`. -/
  | notSent
  deriving DecidableEq, Repr

/-- `TlsExtConstruct`. -/
structure TlsExtConstruct (τ : Type) extends ExtKind where
  /-- `check`, if it is not `NULL`. The result is whether the extension may be sent. -/
  check : Option (τ → Bool)
  /-- `construct`, if it is not `NULL`, for a message. -/
  construct : Option (ℕ → Prog Fail (τ × WPacket) ExtReturn)

/-- `TlsShouldAddExtension`. -/
def tlsShouldAddExtension (extctx thisctx : ℕ) : Bool := extctx &&& thisctx ≠ 0

/-- The result of a call whose error code is tested: whether it succeeds. -/
def succeeds {σ : Type} (m : Prog Fail σ Unit) : Prog Fail σ Bool := do
  let r ← Prog.attempt m
  match r with
  | .ok _ => pure true
  | .error .ret => pure false
  | .error e => Prog.fail e

/-- A call whose error code is tested. -/
theorem succeeds_eq_ok {σ : Type} {m : Prog Fail σ Unit} {s t : σ} {ok : Bool}
    (h : succeeds m s = (.ok ok, t)) : (m s).2 = t ∧ (ok = true ↔ (m s).1 = .ok ()) := by
  rw [succeeds, Prog.attempt_bind] at h
  rcases hrun : m s with ⟨r, u⟩
  rw [hrun] at h
  cases r with
  | ok _ =>
    cases h
    exact ⟨rfl, by simp⟩
  | error e =>
    cases e <;> cases h
    exact ⟨rfl, by simp⟩

section Construct

variable {τ : Type}

/-- The constructor of a row that is to be called: the row is for the message at hand, and its check
passes. -/
def TlsExtConstruct.applies (context : ℕ) (thisexd : TlsExtConstruct τ) (host : τ) :
    Option (ℕ → Prog Fail (τ × WPacket) ExtReturn) :=
  if tlsShouldAddExtension thisexd.context context = false then none
  else if thisexd.check.any (fun check => !check host) then none
  else thisexd.construct

/-- A round of the loop of `TlsConstructExtensions`. An extension that is not sent leaves the packet
as it was. -/
def tlsConstructExt (context : ℕ) (thisexd : TlsExtConstruct τ) :
    Prog Fail (τ × WPacket) Unit := do
  let s ← Prog.get
  match thisexd.applies context s.1 with
  | none => pure ()
  | some construct => do
    Prog.onSnd (wPacketPutBytes thisexd.type 2)
    Prog.onSnd (wPacketStartSubBytes 2)
    let ret ← construct context
    Prog.ensure .ret (ret ≠ .fail)
    let closed ← Prog.onSnd (succeeds wPacketClose)
    Prog.ensure .ret (closed = true ∨ ret = .notSent)
    if ret = .notSent then Prog.onSnd (Prog.modify fun _ => s.2) else pure ()

/-- The loop of `TlsConstructExtensions`. -/
def tlsConstructExts (context : ℕ) : List (TlsExtConstruct τ) → Prog Fail (τ × WPacket) Unit
  | [] => pure ()
  | thisexd :: ext => do
    tlsConstructExt context thisexd
    tlsConstructExts context ext

/-- `TlsConstructExtensions`. -/
def tlsConstructExtensions (context : ℕ) (ext : List (TlsExtConstruct τ)) :
    Prog Fail (τ × WPacket) Unit := do
  Prog.onSnd (wPacketStartSubBytes 2)
  tlsConstructExts context ext
  Prog.onSnd wPacketClose

end Construct

section Written

variable {pkt t u : WPacket} {bytes body : List UInt8} {size val : ℕ}

/-- A packet in which a length field was opened and a body written behind it. -/
def WPacket.Opened (pkt : WPacket) (size : ℕ) (body : List UInt8) (t : WPacket) : Prop :=
  WPacket.Appends { pkt with subs := { value := pkt.written, valLen := size } :: pkt.subs }
    (List.replicate size 0 ++ body) t

/-- Bytes that were appended stand behind those of before. -/
theorem wPacketAppend_appends (h : wPacketAppend bytes pkt = (.ok (), t)) :
    pkt.Appends bytes t := by
  unfold wPacketAppend at h
  split at h
  · cases h
  · split at h
    · cases h
      exact ⟨rfl, rfl, rfl, rfl⟩
    · cases h

/-- What was written between two states of a packet is unique. -/
theorem WPacket.Appends.unique {bytes' : List UInt8} (h : pkt.Appends bytes t)
    (h' : pkt.Appends bytes' t) : bytes = bytes' :=
  List.append_cancel_left (h.buf.symm.trans h'.buf)

/-- A number that was put stands behind the bytes of before. -/
theorem wPacketPutBytes_appends (h : wPacketPutBytes val size pkt = (.ok (), t)) :
    pkt.Appends (Bytes.ofNat size val) t ∧ val < 256 ^ size := by
  obtain ⟨_, mid, happend, hensure⟩ := Prog.bind_eq_ok.mp h
  by_cases hval : val / 256 ^ size = 0
  · rw [Prog.ensure_of_pos hval] at hensure
    cases hensure
    exact ⟨wPacketAppend_appends happend, Nat.lt_of_div_eq_zero (Nat.pow_pos (by decide)) hval⟩
  · rw [Prog.ensure_of_neg hval] at hensure
    cases hensure

/-- Bytes that were copied stand behind those of before. -/
theorem wPacketMemcpy_appends (h : wPacketMemcpy bytes pkt = (.ok (), t)) :
    pkt.Appends bytes t := by
  unfold wPacketMemcpy at h
  split at h
  · rename_i hempty
    cases h
    rw [List.length_eq_zero_iff.mp hempty]
    exact ⟨(List.append_nil _).symm, rfl, rfl, rfl⟩
  · exact wPacketAppend_appends h

/-- A length field that was opened has no body. -/
theorem wPacketStartSubBytes_opened (h : wPacketStartSubBytes size pkt = (.ok (), t)) :
    pkt.Opened size [] t := by
  rw [wPacketStartSubBytes, Prog.modify_bind] at h
  have happends := wPacketAppend_appends h
  rw [WPacket.Opened, List.append_nil]
  exact happends

/-- What is written behind an open length field belongs to its body. -/
theorem WPacket.Opened.append {more : List UInt8} (h : pkt.Opened size body t)
    (happends : t.Appends more u) : pkt.Opened size (body ++ more) u := by
  have htrans := WPacket.Appends.trans h happends
  rw [List.append_assoc] at htrans
  exact htrans

/-- The number of bytes behind the field that is closed. -/
theorem WPacket.Opened.dataLen (h : pkt.Opened size body t) (hmax : pkt.maxsize < 2 ^ 31) :
    (((t.written : ℤ) - (pkt.written + size)) % 2 ^ 64).toNat = body.length ∧
      body.length < 2 ^ 31 := by
  have hwritten : t.written = pkt.written + size + body.length := by
    rw [h.extends.written, List.length_append, List.length_replicate, ← Nat.add_assoc]
    rfl
  have hfits : t.written ≤ t.maxsize := t.fits
  have hmaxsize : t.maxsize = pkt.maxsize := h.maxsize
  omega

/-- Closing a length field puts the number of the bytes behind it in front of them. It fails only
when the number does not fit. -/
theorem wPacketClose_opened (h : pkt.Opened size body t) (hmax : pkt.maxsize < 2 ^ 31) :
    if body.length < 256 ^ size then
      ∃ u, wPacketClose t = (.ok (), u) ∧
        pkt.Appends (Bytes.ofNat size body.length ++ body) u
    else ∃ u, wPacketClose t = (.error .ret, u) := by
  obtain ⟨hlen, hbody⟩ := h.dataLen hmax
  have hsubs : t.subs = { value := pkt.written, valLen := size } :: pkt.subs := h.subs
  have hge : quicGe ((body.length : ℕ) : ℤ) 0 := by
    rw [quicGe_iff] <;> omega
  have hrun : wPacketClose t = (do
      Prog.ensure .ret (body.length / 256 ^ size = 0)
      Prog.modify fun pkt' => { pkt' with subs := pkt.subs } : Prog Fail WPacket Unit)
        (t.overwrite pkt.written (Bytes.ofNat size body.length)) := by
    rw [wPacketClose, Prog.get_bind, hsubs]
    dsimp only
    rw [hlen, Prog.ensure_of_pos hge, Prog.pure_bind, Prog.modify_bind]
  split_ifs with hsize
  · have hbuf : t.buf = pkt.buf ++ List.replicate size 0 ++ body := by
      rw [h.buf, List.append_assoc]
    have hover := @Bytes.overwrite_append pkt.buf (List.replicate size 0)
      (Bytes.ofNat size body.length) body (by simp)
    refine ⟨{ t.overwrite pkt.written (Bytes.ofNat size body.length) with subs := pkt.subs }, ?_,
      ?_, h.maxsize, rfl, h.closed⟩
    · rw [hrun, Prog.ensure_of_pos (Nat.div_eq_of_lt hsize), Prog.pure_bind]
      rfl
    · rw [← List.append_assoc, ← hover, ← hbuf]
      rfl
  · have hlarge : ¬ body.length / 256 ^ size = 0 := by
      intro hzero
      exact hsize (Nat.lt_of_div_eq_zero (Nat.pow_pos (by decide)) hzero)
    refine ⟨t.overwrite pkt.written (Bytes.ofNat size body.length), ?_⟩
    rw [hrun, Prog.ensure_of_neg hlarge, Prog.fail_bind]
    rfl

/-- A length field that was closed stands in front of its body. -/
theorem wPacketClose_appends (h : pkt.Opened size body t) (hmax : pkt.maxsize < 2 ^ 31)
    (hrun : wPacketClose t = (.ok (), u)) :
    pkt.Appends (Bytes.ofNat size body.length ++ body) u ∧ body.length < 256 ^ size := by
  have hclose := wPacketClose_opened h hmax
  split_ifs at hclose with hsize
  · obtain ⟨v, hv, happends⟩ := hclose
    rw [hrun] at hv
    cases hv
    exact ⟨happends, hsize⟩
  · obtain ⟨v, hv⟩ := hclose
    rw [hrun] at hv
    cases hv

/-- Bytes that were copied stand behind their number. -/
theorem wPacketSubMemcpy_appends (hmax : pkt.maxsize < 2 ^ 31)
    (h : wPacketSubMemcpy bytes size pkt = (.ok (), t)) :
    pkt.Appends (Bytes.ofNat size bytes.length ++ bytes) t ∧ bytes.length < 256 ^ size := by
  obtain ⟨_, opened, hstart, h⟩ := Prog.bind_eq_ok.mp h
  obtain ⟨_, filled, hcopy, hclose⟩ := Prog.bind_eq_ok.mp h
  have hopened := (wPacketStartSubBytes_opened hstart).append (wPacketMemcpy_appends hcopy)
  rw [List.nil_append] at hopened
  exact wPacketClose_appends hopened hmax hclose

end Written

section Rows

variable {τ : Type} {context : ℕ} {host host' : τ} {pkt t : WPacket}
  {ext : List (TlsExtConstruct τ)}

/-- A constructor that only writes behind what stands in the packet. -/
def Appending (construct : Prog Fail (τ × WPacket) ExtReturn) : Prop :=
  ∀ host pkt host' t ret, construct (host, pkt) = (.ok ret, (host', t)) → ret ≠ .fail →
    ∃ body, pkt.Appends body t

/-- The constructor of a row only writes behind what stands in the packet. -/
def TlsExtConstruct.Appends (context : ℕ) (row : TlsExtConstruct τ) : Prop :=
  ∀ construct ∈ row.construct, Appending (construct context)

/-- What the rows of a table write from a state of the connection: an extension for each row that
applies and is sent, with the body of its constructor. -/
inductive RowsWrote (context : ℕ) : List (TlsExtConstruct τ) → τ → List ExtEntry → τ → Prop
  /-- No row is left. -/
  | nil (host : τ) : RowsWrote context [] host [] host
  /-- A row that does not apply is passed over. -/
  | skip {row : TlsExtConstruct τ} {ext : List (TlsExtConstruct τ)} {host host' : τ}
      {es : List ExtEntry} (happlies : row.applies context host = none)
      (hrest : RowsWrote context ext host es host') : RowsWrote context (row :: ext) host es host'
  /-- A constructor decides that its extension is not sent. -/
  | notSent {row : TlsExtConstruct τ} {ext : List (TlsExtConstruct τ)} {host mid host' : τ}
      {es : List ExtEntry} {construct : ℕ → Prog Fail (τ × WPacket) ExtReturn} {pkt t : WPacket}
      (happlies : row.applies context host = some construct)
      (hrun : construct context (host, pkt) = (.ok .notSent, (mid, t)))
      (hrest : RowsWrote context ext mid es host') : RowsWrote context (row :: ext) host es host'
  /-- A constructor writes the body of its extension. -/
  | sent {row : TlsExtConstruct τ} {ext : List (TlsExtConstruct τ)} {host mid host' : τ}
      {e : ExtEntry} {es : List ExtEntry} {construct : ℕ → Prog Fail (τ × WPacket) ExtReturn}
      {pkt t : WPacket} (happlies : row.applies context host = some construct)
      (hrun : construct context (host, pkt) = (.ok .sent, (mid, t)))
      (hbody : pkt.Appends e.body t) (htype : e.type = row.type)
      (hrest : RowsWrote context ext mid es host') :
      RowsWrote context (row :: ext) host (e :: es) host'

/-- The types stand in the order of the table. -/
theorem RowsWrote.sublist {es : List ExtEntry} (h : RowsWrote context ext host es host') :
    (es.map ExtEntry.type).Sublist (ext.map (·.type)) := by
  induction h with
  | nil host => exact List.Sublist.slnil
  | skip _ _ ih => exact ih.cons _
  | notSent _ _ _ ih => exact ih.cons _
  | sent _ _ _ htype _ ih =>
    rw [List.map_cons, List.map_cons, htype]
    exact ih.cons_cons _

/-- A constructor that applies belongs to its row. -/
theorem TlsExtConstruct.construct_of_applies {row : TlsExtConstruct τ}
    {construct : ℕ → Prog Fail (τ × WPacket) ExtReturn}
    (h : row.applies context host = some construct) : row.construct = some construct := by
  unfold applies at h
  split_ifs at h
  exact h

/-- What a round writes. -/
theorem tlsConstructExt_wrote {row : TlsExtConstruct τ} (hmax : pkt.maxsize < 2 ^ 31)
    (hrow : row.Appends context)
    (hrun : tlsConstructExt context row (host, pkt) = (.ok (), (host', t))) :
    (row.applies context host = none ∧ host' = host ∧ t = pkt) ∨
    ∃ construct opened filled, row.applies context host = some construct ∧
      ((construct context (host, opened) = (.ok .notSent, (host', filled)) ∧ t = pkt) ∨
      ∃ e : ExtEntry, construct context (host, opened) = (.ok .sent, (host', filled)) ∧
        opened.Appends e.body filled ∧ e.type = row.type ∧ pkt.Appends e.wire t) := by
  rw [tlsConstructExt, Prog.get_bind] at hrun
  cases happlies : row.applies context host with
  | none =>
    rw [happlies] at hrun
    cases hrun
    exact .inl ⟨rfl, rfl, rfl⟩
  | some construct =>
    rw [happlies] at hrun
    dsimp only at hrun
    obtain ⟨_, typed, htype, hrun⟩ := Prog.onSnd_bind_eq_ok.mp hrun
    obtain ⟨_, opened, hstart, hrun⟩ := Prog.onSnd_bind_eq_ok.mp hrun
    obtain ⟨ret, ⟨mid, filled⟩, hconstruct, hrun⟩ := Prog.bind_eq_ok.mp hrun
    obtain ⟨hret, hrun⟩ := Prog.ensure_bind_eq_ok.mp hrun
    obtain ⟨closed, end', hclose, hrun⟩ := Prog.onSnd_bind_eq_ok.mp hrun
    obtain ⟨hclosed, hrun⟩ := Prog.ensure_bind_eq_ok.mp hrun
    obtain ⟨hend, hok⟩ := succeeds_eq_ok hclose
    refine .inr ⟨construct, opened, filled, rfl, ?_⟩
    by_cases hnot : ret = .notSent
    · rw [if_pos hnot] at hrun
      cases hrun
      exact .inl ⟨hnot ▸ hconstruct, rfl⟩
    · rw [if_neg hnot] at hrun
      cases hrun
      have hsent : ret = .sent := by
        cases ret
        · exact absurd rfl hret
        · rfl
        · exact absurd rfl hnot
      obtain ⟨body, hbody⟩ := hrow construct (row.construct_of_applies happlies) host opened _
        filled ret hconstruct hret
      obtain ⟨htyped, hlt⟩ := wPacketPutBytes_appends htype
      have hopened := (wPacketStartSubBytes_opened hstart).append hbody
      have hrunClose : wPacketClose filled = (.ok (), t) :=
        Prod.ext (hok.mp (hclosed.resolve_right hnot)) hend
      obtain ⟨happends, hsize⟩ := wPacketClose_appends hopened
        (htyped.maxsize ▸ hmax) hrunClose
      rw [List.nil_append] at happends hsize
      exact .inr ⟨⟨row.type, body, hlt, hsize⟩, hsent ▸ hconstruct, hbody, rfl,
        htyped.trans happends⟩

/-- What the loop writes: the extensions of the rows, one after the other. -/
theorem tlsConstructExts_wrote (hmax : pkt.maxsize < 2 ^ 31)
    (hext : ∀ row ∈ ext, row.Appends context)
    (hrun : tlsConstructExts context ext (host, pkt) = (.ok (), (host', t))) :
    ∃ es, RowsWrote context ext host es host' ∧ pkt.Appends (extWire es) t := by
  induction ext generalizing host pkt with
  | nil =>
    cases hrun
    exact ⟨[], .nil _, (List.append_nil _).symm, rfl, rfl, rfl⟩
  | cons row ext ih =>
    obtain ⟨_, ⟨mid, next⟩, hround, hloop⟩ := Prog.bind_eq_ok.mp hrun
    have hrest : ∀ row ∈ ext, row.Appends context := fun row hrow =>
      hext row (List.mem_cons_of_mem _ hrow)
    rcases tlsConstructExt_wrote hmax (hext row List.mem_cons_self) hround with
      ⟨happlies, rfl, rfl⟩ | ⟨construct, opened, filled, happlies, ⟨hrow, rfl⟩ |
        ⟨e, hrow, hbody, htype, hwire⟩⟩
    · obtain ⟨es, hes, happends⟩ := ih hmax hrest hloop
      exact ⟨es, .skip happlies hes, happends⟩
    · obtain ⟨es, hes, happends⟩ := ih hmax hrest hloop
      exact ⟨es, .notSent happlies hrow hes, happends⟩
    · obtain ⟨es, hes, happends⟩ := ih (hwire.maxsize ▸ hmax) hrest hloop
      exact ⟨e :: es, .sent happlies hrow hbody htype hes, hwire.trans happends⟩

/-- What `TlsConstructExtensions` writes is the block of the extensions of the rows. -/
theorem tlsConstructExtensions_wrote (hmax : pkt.maxsize < 2 ^ 31)
    (hext : ∀ row ∈ ext, row.Appends context)
    (hrun : tlsConstructExtensions context ext (host, pkt) = (.ok (), (host', t))) :
    ∃ b : ExtBlock, RowsWrote context ext host b.entries host' ∧ pkt.Appends b.bytes t := by
  obtain ⟨_, opened, hstart, hrun⟩ := Prog.onSnd_bind_eq_ok.mp hrun
  obtain ⟨_, ⟨mid, filled⟩, hloop, hclose⟩ := Prog.bind_eq_ok.mp hrun
  have hopened := wPacketStartSubBytes_opened hstart
  obtain ⟨es, hes, happends⟩ := tlsConstructExts_wrote (hopened.maxsize ▸ hmax) hext hloop
  rw [Prog.onSnd_apply, Prod.mk.injEq] at hclose
  obtain ⟨hok, hpair⟩ := hclose
  cases hpair
  obtain ⟨hwritten, hsize⟩ := wPacketClose_appends (hopened.append happends) hmax
    (Prod.ext hok rfl)
  rw [List.nil_append] at hwritten hsize
  exact ⟨⟨es, hsize⟩, hes, hwritten⟩

end Rows

section Transport

variable {σ τ : Type} {context : ℕ} {behind : List UInt8} {es : List ExtEntry}
  {ext : List (TlsExtParse σ)}

/-- What the parser of a row does with the first extension of its type that has a body. -/
def handOutRow (context : ℕ) (es : List ExtEntry) (p : TlsExtParse σ) : Prog Fail σ Unit :=
  if tlsShouldParseExtension p.context context = false then pure ()
  else match es.find? fun e => e.type = p.type ∧ e.body ≠ [] with
    | none => pure ()
    | some e => p.parse ⟨[], e.body, 0⟩

/-- What the parsers of a table do with extensions that are looked up by their types. -/
def handOut (context : ℕ) (es : List ExtEntry) : List (TlsExtParse σ) → Prog Fail σ Unit
  | [] => pure ()
  | p :: ext => do
    handOutRow context es p
    handOut context es ext

/-- A round over a block of complete extensions looks one type up. -/
theorem tlsParseExt_handOutRow {p : TlsExtParse σ}
    (hignore : ∀ past past' rest beyond,
      p.parse ⟨past, rest, beyond⟩ = p.parse ⟨past', rest, beyond⟩)
    (hsize : (extWire es).length < 2 ^ 31) {past : List UInt8} {i : ℕ} {s : TlsExtState σ}
    (hs : s.pkt = ⟨past, extWire es⟩) :
    (tlsParseExt behind context i p s).1 = (handOutRow context es p s.host).1 ∧
      (tlsParseExt behind context i p s).2.host = (handOutRow context es p s.host).2 := by
  rw [handOutRow]
  by_cases hshould : tlsShouldParseExtension p.context context = false
  · rw [tlsParseExt_of_not hshould, if_pos hshould]
    exact ⟨rfl, rfl⟩
  · rw [tlsParseExt_eq (Bool.of_not_eq_false hshould) hs hsize, if_neg hshould]
    rcases @extFound_extWire behind es past p.type with ⟨hfind, hfound⟩ | ⟨e, head, hfind, hfound⟩
    · rw [hfound, hfind]
      exact ⟨rfl, rfl⟩
    · rw [hfound, hfind]
      dsimp only
      rw [hignore [] head]
      exact ⟨rfl, rfl⟩

/-- The rounds over a block of complete extensions hand out their bodies. -/
theorem tlsParseExts_handOut (hignore : IgnorePast ext) (hsize : (extWire es).length < 2 ^ 31)
    {past : List UInt8} {i : ℕ} {s : TlsExtState σ} (hs : s.pkt = ⟨past, extWire es⟩) :
    (tlsParseExts behind context i ext s).1 = (handOut context es ext s.host).1 ∧
      (tlsParseExts behind context i ext s).2.host = (handOut context es ext s.host).2 := by
  induction ext generalizing i s with
  | nil => exact ⟨rfl, rfl⟩
  | cons p ext ih =>
    have hrest : IgnorePast ext := fun q hq => hignore q (List.mem_cons_of_mem _ hq)
    have hpkt := (@tlsParseExt_round σ behind past _ context i s p hs hsize).pkt
    have hround := @tlsParseExt_handOutRow σ context behind es p (hignore p List.mem_cons_self)
      hsize past i s hs
    rw [tlsParseExts, handOut]
    rcases hrun : tlsParseExt behind context i p s with ⟨r, t⟩
    rcases hlook : handOutRow context es p s.host with ⟨r', host⟩
    rw [hrun, hlook] at hround
    obtain ⟨rfl, rfl⟩ := hround
    cases r with
    | error e =>
      rw [Prog.bind_of_error hrun, Prog.bind_of_error hlook]
      exact ⟨rfl, rfl⟩
    | ok u =>
      rw [Prog.bind_of_ok hrun, Prog.bind_of_ok hlook]
      rw [hrun] at hpkt
      exact ih hrest (hpkt.trans hs)

/-- `TlsParseExtensions` hands out the bodies of a block. -/
theorem tlsParseExtensions_handOut (hignore : IgnorePast ext) (b : ExtBlock) {s : TlsExtState σ}
    (hs : s.pkt.rest = b.bytes) :
    (tlsParseExtensions behind context ext s).1 = (handOut context b.entries ext s.host).1 ∧
      (tlsParseExtensions behind context ext s).2.host =
        (handOut context b.entries ext s.host).2 := by
  obtain ⟨hresult, _, hhost⟩ := @tlsParseExtensions_of_block σ behind _ context s ext b.length_lt hs
  have hrun := @tlsParseExts_handOut σ context behind b.entries ext hignore
    (b.length_lt.trans (by decide)) _ 0 (s.behindLength (extWire b.entries)) rfl
  exact ⟨hresult.trans hrun.1, hhost.trans hrun.2⟩

/-- `TLSEXT_NEW_SESSION_TICKET`. -/
def tlsextNewSessionTicket : ℕ := 0x0010

/-- `TlsExtSrvrConstructEarlyData`, with the limit of the connection. -/
def tlsExtSrvrConstructEarlyData (maxEarlyData : τ → ℕ) (context : ℕ) :
    Prog Fail (τ × WPacket) ExtReturn := do
  if context = tlsextNewSessionTicket then do
    let s ← Prog.get
    if maxEarlyData s.1 = 0 then pure .notSent
    else do
      Prog.onSnd (wPacketPutBytes (maxEarlyData s.1) 4)
      pure .sent
  else pure .sent

/-- The row of `server_ext_construct` for `EXT_TYPE_EARLY_DATA`. -/
def serverEarlyData (maxEarlyData : τ → ℕ) : TlsExtConstruct τ where
  type := 42
  context := tlsextNewSessionTicket
  check := none
  construct := some (tlsExtSrvrConstructEarlyData maxEarlyData)

/-- `TlsExtClntParseEarlyData`, with the field of the session that it stores to. -/
def tlsExtClntParseEarlyData (store : ℕ → σ → σ) (context : ℕ) (data : TlsInput) :
    Prog Fail σ Unit := do
  if context = tlsextNewSessionTicket then do
    let bytes ← Prog.ofExcept (TlsInput.get 4 data).1
    Prog.modify (store (Bytes.toNat bytes))
  else pure ()

/-- The row of `client_ext_parse` for `EXT_TYPE_EARLY_DATA`. -/
def clientEarlyData (store : ℕ → σ → σ) (context : ℕ) : TlsExtParse σ where
  type := 42
  context := tlsextNewSessionTicket
  parse := tlsExtClntParseEarlyData store context

/-- The constructor for early data only appends. -/
theorem serverEarlyData_appends (maxEarlyData : τ → ℕ) (context : ℕ) :
    (serverEarlyData maxEarlyData).Appends context := by
  rintro _ ⟨⟩ host pkt host' t ret hrun _
  rw [tlsExtSrvrConstructEarlyData] at hrun
  split at hrun
  · rw [Prog.get_bind] at hrun
    split at hrun
    · cases hrun
      exact ⟨[], (List.append_nil _).symm, rfl, rfl, rfl⟩
    · obtain ⟨_, _, hput, hpure⟩ := Prog.onSnd_bind_eq_ok.mp hrun
      cases hpure
      exact ⟨_, (wPacketPutBytes_appends hput).1⟩
  · cases hrun
    exact ⟨[], (List.append_nil _).symm, rfl, rfl, rfl⟩

/-- The parser for early data does not look at what stands before its body. -/
theorem clientEarlyData_ignorePast (store : ℕ → σ → σ) (context : ℕ) :
    IgnorePast [clientEarlyData store context] := by
  intro p hp past past' rest beyond
  rw [List.mem_singleton.mp hp]
  have hget : (TlsInput.get 4 ⟨past, rest, beyond⟩).1 =
      (TlsInput.get 4 ⟨past', rest, beyond⟩).1 := by
    unfold TlsInput.get TlsInput.remaining
    split_ifs <;> rfl
  change tlsExtClntParseEarlyData store context _ = tlsExtClntParseEarlyData store context _
  rw [tlsExtClntParseEarlyData, tlsExtClntParseEarlyData, hget]

/-- An extension block carries what the constructors of one end wrote to the parsers of the other:
what `TlsConstructExtensions` writes behind the packet is a block with an extension for each row of
its table that applied and was sent, and `TlsParseExtensions` does with it exactly what its parsers
do with the bodies looked up by their types. An extension with an empty body reaches no parser. -/
theorem tlsConstructExtensions_transport {rows : List (TlsExtConstruct τ)} {pkt t : WPacket}
    {host host' : τ} (hmax : pkt.maxsize < 2 ^ 31) (hrows : ∀ row ∈ rows, row.Appends context)
    (hrun : tlsConstructExtensions context rows (host, pkt) = (.ok (), (host', t))) :
    ∃ b : ExtBlock, RowsWrote context rows host b.entries host' ∧ pkt.Appends b.bytes t ∧
      ∀ (context' : ℕ) (behind : List UInt8) (ext : List (TlsExtParse σ)) (s : TlsExtState σ),
        IgnorePast ext → s.pkt.rest = b.bytes →
        (tlsParseExtensions behind context' ext s).1 =
            (handOut context' b.entries ext s.host).1 ∧
          (tlsParseExtensions behind context' ext s).2.host =
            (handOut context' b.entries ext s.host).2 := by
  obtain ⟨b, hes, happends⟩ := tlsConstructExtensions_wrote hmax hrows hrun
  refine ⟨b, hes, happends, ?_⟩
  intro context' behind ext s hignore hs
  exact tlsParseExtensions_handOut hignore b hs

/-- The limit of the early data in a ticket message reaches the session of the client. -/
theorem tlsConstructExtensions_transport_earlyData : ∃ b : ExtBlock,
    b.bytes = [0, 8, 0, 42, 0, 4, 0, 0, 64, 0] ∧
    ∀ s : TlsExtState ℕ, s.pkt.rest = b.bytes → s.host = 0 →
      (tlsParseExtensions [] tlsextNewSessionTicket
        [clientEarlyData (fun n _ => n) tlsextNewSessionTicket] s).2.host = 16384 := by
  have hrun : ∃ t, tlsConstructExtensions tlsextNewSessionTicket [serverEarlyData id]
      (16384, wPacketStaticBufInit 100) = (.ok (), (16384, t)) ∧
        t.buf = [0, 8, 0, 42, 0, 4, 0, 0, 64, 0] := by
    refine ⟨(tlsConstructExtensions tlsextNewSessionTicket [serverEarlyData id]
      (16384, wPacketStaticBufInit 100)).2.2, ?_, ?_⟩
    · refine Prod.ext ?_ (Prod.ext ?_ rfl)
      · decide +kernel
      · decide +kernel
    · decide +kernel
  obtain ⟨t, hrun, ht⟩ := hrun
  obtain ⟨b, -, happends, hparse⟩ := @tlsConstructExtensions_transport ℕ ℕ _ _ _ _ _ _
    (show (wPacketStaticBufInit 100).maxsize < 2 ^ 31 by decide)
    (fun row hrow => List.mem_singleton.mp hrow ▸ serverEarlyData_appends id _) hrun
  have hbytes : b.bytes = [0, 8, 0, 42, 0, 4, 0, 0, 64, 0] := happends.buf.symm.trans ht
  have hentries : b.entries = [⟨42, [0, 0, 64, 0], by decide, by decide⟩] := by
    have hwire : Bytes.ofNat 2 8 ++ extWire [⟨42, [0, 0, 64, 0], by decide, by decide⟩] =
        [0, 8, 0, 42, 0, 4, 0, 0, 64, 0] := by
      decide +kernel
    exact extWire_injective (block_eq (hbytes.trans hwire.symm))
  refine ⟨b, hbytes, ?_⟩
  intro s hs hhost
  rw [(hparse tlsextNewSessionTicket [] _ s (clientEarlyData_ignorePast _ _) hs).2, hentries, hhost]
  decide +kernel

end Transport

end Tbquic
