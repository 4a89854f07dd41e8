import Tbquic.Packet

/-!
# The negotiation of a protocol

A client offers a list of protocol names, and a server stores one of them and sends it back. The
list has three encodings: that of `QUIC_set_alpn_protos`, the body of the extension, and the stored
name.
-/

namespace Tbquic

/-- The part of a client that negotiates. -/
structure AlpnClient where
  /-- `ext.alpn`, or nothing where it is empty. -/
  alpn : List UInt8
  /-- `alpn_sent`. -/
  alpnSent : Bool
  /-- `alpn_selected`. -/
  alpnSelected : List UInt8
  deriving DecidableEq, Repr

/-- The part of a server that negotiates. -/
structure AlpnServer where
  /-- `alpn_proposed`. -/
  alpnProposed : List UInt8
  /-- `alpn_selected`. -/
  alpnSelected : List UInt8
  deriving DecidableEq, Repr

/-- `QUIC_set_alpn_protos`. -/
def quicSetAlpnProtos (protos : List UInt8) (c : AlpnClient) : AlpnClient :=
  { c with alpn := protos }

/-- `TlsExtConstructAlpn`. -/
def tlsExtConstructAlpn (alpn : List UInt8) : Prog Fail WPacket Unit := do
  wPacketStartSubBytes 2
  wPacketSubMemcpy alpn 1
  wPacketClose

/-- `TlsExtClntCheckAlpn`, behind which the extension is sent. -/
def tlsExtClntCheckAlpn (c : AlpnClient) : Bool := c.alpn ≠ []

/-- `TlsExtClntConstructAlpn`. -/
def tlsExtClntConstructAlpn : Prog Fail (AlpnClient × WPacket) Unit := do
  Prog.onFst (Prog.modify fun c => { c with alpnSent := false })
  let s ← Prog.get
  Prog.onSnd (tlsExtConstructAlpn s.1.alpn)
  Prog.onFst (Prog.modify fun c => { c with alpnSent := true })

/-- The loop of `TlsExtSrvrParseAlpn` over the list. Each round reads a byte, so there are no more
rounds than bytes. -/
def tlsAlpnNames : ℕ → Prog Fail RPacket Unit
  | 0 => Prog.fail .fuel
  | fuel + 1 => do
    let protocol ← rPacketGetLengthPrefixed 1
    Prog.ensure .ret (protocol.remaining ≠ 0)
    let list ← Prog.get
    if list.remaining = 0 then pure () else tlsAlpnNames fuel

/-- The part of `TlsExtSrvrParseAlpn` that reads. The result is the list. -/
def tlsAlpnList : Prog Fail RPacket (List UInt8) := do
  let list ← rPacketGetLengthPrefixed 2
  Prog.ensure .ret (¬ list.remaining < 2)
  Prog.ofExcept (tlsAlpnNames list.remaining list).1
  pure list.rest

/-- `TlsExtSrvrParseAlpn`. -/
def tlsExtSrvrParseAlpn : Prog Fail (AlpnServer × RPacket) Unit := do
  let list ← Prog.onSnd tlsAlpnList
  Prog.onFst (Prog.modify fun s => { s with alpnProposed := list })
  Prog.onFst (Prog.modify fun s => { s with alpnSelected := s.alpnProposed.drop 1 })

/-- `TlsExtSrvrCheckAlpn`, behind which the extension is sent. -/
def tlsExtSrvrCheckAlpn (s : AlpnServer) : Bool := s.alpnSelected ≠ []

/-- `TlsExtSrvrConstructAlpn`. -/
def tlsExtSrvrConstructAlpn : Prog Fail (AlpnServer × WPacket) Unit := do
  let s ← Prog.get
  Prog.onSnd (tlsExtConstructAlpn s.1.alpnSelected)

/-- The part of `TlsExtClntParseAlpn` that reads. The result is the bytes that remain. -/
def tlsAlpnName : Prog Fail RPacket (List UInt8) := do
  let len ← rPacketGet2
  let pkt ← Prog.get
  Prog.ensure .ret (pkt.remaining = len)
  let len ← rPacketGet1
  let pkt ← Prog.get
  Prog.ensure .ret (pkt.remaining = len)
  pure pkt.rest

/-- `TlsExtClntParseAlpn`. -/
def tlsExtClntParseAlpn : Prog Fail (AlpnClient × RPacket) Unit := do
  let c ← Prog.onFst Prog.get
  Prog.ensure .ret (c.alpnSent = true)
  let name ← Prog.onSnd tlsAlpnName
  Prog.onFst (Prog.modify fun c => { c with alpnSelected := name })
  Prog.onSnd (rPacketPull name.length)

/-- A protocol name has between one and 255 bytes. -/
structure AlpnName where
  /-- The bytes. -/
  bytes : List UInt8
  /-- There is one. -/
  ne_nil : bytes ≠ []
  /-- Their number fits in a byte. -/
  length_lt : bytes.length < 256

/-- The wire format of a list of names. -/
def alpnWire (names : List AlpnName) : List UInt8 :=
  names.flatMap fun name => Bytes.ofNat 1 name.bytes.length ++ name.bytes

/-- The body of the extension for a list of names. -/
def alpnBody (names : List AlpnName) : List UInt8 :=
  Bytes.ofNat 2 (alpnWire names).length ++ alpnWire names

/-- The wire format of one name more. -/
theorem alpnWire_cons (name : AlpnName) (names : List AlpnName) :
    alpnWire (name :: names) =
      Bytes.ofNat 1 name.bytes.length ++ (name.bytes ++ alpnWire names) := by
  rw [alpnWire, List.flatMap_cons, List.append_assoc]
  rfl

/-- A name has a byte for its length. -/
theorem alpnWire_cons_length (name : AlpnName) (names : List AlpnName) :
    (alpnWire (name :: names)).length = 1 + name.bytes.length + (alpnWire names).length := by
  rw [alpnWire_cons, List.length_append, List.length_append, Bytes.ofNat_length]
  omega

/-- The ClientHello carries the list that an application has set, in a packet that is large enough.
Without a name there is no extension. -/
def AlpnCarried (names : List AlpnName) : Prop :=
  ∀ c : AlpnClient,
    if tlsExtClntCheckAlpn (quicSetAlpnProtos (alpnWire names) c) = true then
      ∃ pkt t, tlsExtClntConstructAlpn (quicSetAlpnProtos (alpnWire names) c, pkt) = (.ok (), t) ∧
        pkt.Extends (alpnBody names) t.2
    else names = []

/-- The list of names in an extension. -/
structure AlpnOffer where
  /-- The names. -/
  names : List AlpnName
  /-- There is one. -/
  ne_nil : names ≠ []
  /-- The list has its length in two bytes. -/
  length_lt : (alpnWire names).length < 2 ^ 16

/-- The server stores a name that the client has offered, and the client stores it too when it is
sent back. -/
def AlpnOffer.Agreed (offer : AlpnOffer) : Prop :=
  ∀ s : AlpnServer, ∃ s' rest,
    tlsExtSrvrParseAlpn (s, rPacketBufInit (alpnBody offer.names)) = (.ok (), (s', rest)) ∧
    (∃ name ∈ offer.names, s'.alpnSelected = name.bytes) ∧ tlsExtSrvrCheckAlpn s' = true ∧
    ∀ pkt : WPacket, pkt.maxsize < 2 ^ 31 → pkt.written + s'.alpnSelected.length + 3 ≤ pkt.maxsize →
      ∃ t body, tlsExtSrvrConstructAlpn (s', pkt) = (.ok (), t) ∧ pkt.Extends body t.2 ∧
        ∀ c : AlpnClient, c.alpnSent = true → ∃ c' rest,
          tlsExtClntParseAlpn (c, rPacketBufInit body) = (.ok (), (c', rest)) ∧
          c'.alpnSelected = s'.alpnSelected

/-- Appended bytes make the packet longer. -/
theorem wPacketAppend_post (bytes : List UInt8) (pkt : WPacket) :
    Prog.Post (wPacketAppend bytes)
      (fun _ t => t.buf.length = pkt.buf.length + bytes.length) (fun _ _ => True) pkt := by
  unfold Prog.Post
  cases h : wPacketAppend bytes pkt with
  | mk r t =>
    cases r with
    | ok u =>
      change t.buf.length = _
      rw [(wPacketAppend_eq_ok h).1, List.length_append]
    | error e => trivial

/-- A length field that is closed stays as long as it was. -/
theorem wPacketClose_post (pkt : WPacket) :
    Prog.Post wPacketClose (fun _ t => t.buf.length = pkt.buf.length) (fun _ _ => True) pkt := by
  rw [wPacketClose, Prog.post_bind, Prog.post_get]
  cases pkt.subs with
  | nil =>
    rw [Prog.post_ensure]
    exact ⟨fun _ => rfl, fun _ => trivial⟩
  | cons sub parent =>
    rw [Prog.post_bind, Prog.post_ensure]
    refine ⟨fun _ => ?_, fun _ => trivial⟩
    rw [Prog.post_bind, Prog.post_modify, Prog.post_bind, Prog.post_ensure]
    exact ⟨fun _ => Bytes.overwrite_length _ _ _, fun _ => trivial⟩

/-- A length field that is opened has its size. -/
theorem wPacketStartSubBytes_post (len : ℕ) (pkt : WPacket) :
    Prog.Post (wPacketStartSubBytes len) (fun _ t => t.buf.length = pkt.buf.length + len)
      (fun _ _ => True) pkt := by
  rw [wPacketStartSubBytes, Prog.post_bind, Prog.post_modify]
  refine (wPacketAppend_post _ _).mono (fun _ t h => ?_) fun _ _ h => h
  rw [List.length_replicate] at h
  exact h

/-- Copied bytes make the packet longer. -/
theorem wPacketMemcpy_post (src : List UInt8) (pkt : WPacket) :
    Prog.Post (wPacketMemcpy src) (fun _ t => t.buf.length = pkt.buf.length + src.length)
      (fun _ _ => True) pkt := by
  rw [wPacketMemcpy, Prog.post_ite]
  refine ⟨fun hempty => ?_, fun _ => wPacketAppend_post src pkt⟩
  rw [Prog.post_pure, hempty, Nat.add_zero]

/-- `TlsExtConstructAlpn` writes three bytes beside its argument. -/
theorem tlsExtConstructAlpn_post (alpn : List UInt8) (pkt : WPacket) :
    Prog.Post (tlsExtConstructAlpn alpn)
      (fun _ t => t.buf.length = pkt.buf.length + alpn.length + 3) (fun _ _ => True) pkt := by
  rw [tlsExtConstructAlpn, Prog.post_bind]
  refine (wPacketStartSubBytes_post 2 pkt).mono (fun _ t ht => ?_) fun _ _ h => h
  rw [wPacketSubMemcpy, Prog.bind_assoc, Prog.post_bind]
  refine (wPacketStartSubBytes_post 1 t).mono (fun _ u hu => ?_) fun _ _ h => h
  rw [Prog.bind_assoc, Prog.post_bind]
  refine (wPacketMemcpy_post alpn u).mono (fun _ v hv => ?_) fun _ _ h => h
  rw [Prog.post_bind]
  refine (wPacketClose_post v).mono (fun _ w hw => ?_) fun _ _ h => h
  refine (wPacketClose_post w).mono (fun _ x hx => ?_) fun _ _ h => h
  omega

/-- `TlsExtConstructAlpn` writes its argument behind two lengths. -/
theorem tlsExtConstructAlpn_of_fits {alpn : List UInt8} {pkt : WPacket}
    (hmax : pkt.maxsize < 2 ^ 31) (hlen : alpn.length < 256)
    (hroom : pkt.written + alpn.length + 3 ≤ pkt.maxsize) :
    ∃ t, tlsExtConstructAlpn alpn pkt = (.ok (), t) ∧
      pkt.Extends (Bytes.ofNat 2 (alpn.length + 1) ++ (Bytes.ofNat 1 alpn.length ++ alpn)) t := by
  obtain ⟨t, hstart, ht, htsubs⟩ := @wPacketStartSubBytes_of_fits pkt 2 hmax (by omega)
  have hwritten : t.written = pkt.written + 2 := by
    rw [ht.written, List.length_replicate]
  have hmaxsize : t.maxsize = pkt.maxsize := ht.2
  obtain ⟨u, hcopy, hu, husubs⟩ := @wPacketSubMemcpy_of_fits t alpn 1 (by omega) hlen (by omega)
  have hbuf : u.buf = pkt.buf ++ List.replicate 2 0 ++ (Bytes.ofNat 1 alpn.length ++ alpn) := by
    rw [hu.1, ht.1]
  have hbody : (Bytes.ofNat 1 alpn.length ++ alpn).length = alpn.length + 1 := by
    rw [List.length_append, Bytes.ofNat_length, Nat.add_comm]
  obtain ⟨v, hclose, hv, hvmax, -⟩ := wPacketClose_of_subs hbuf (husubs.trans htsubs)
    (by omega) (show (Bytes.ofNat 1 alpn.length ++ alpn).length < 256 ^ 2 by omega)
  refine ⟨v, ?_, ?_, hvmax.trans (hu.2.trans hmaxsize)⟩
  · rw [tlsExtConstructAlpn, Prog.bind_of_ok hstart, Prog.bind_of_ok hcopy, hclose]
  · rw [hv, hbody, List.append_assoc]

/-- A ClientHello carries the list that an application has set exactly when it is empty: the
extension gets one more length. -/
theorem alpnCarried_iff (names : List AlpnName) : AlpnCarried names ↔ names = [] := by
  constructor
  · intro h
    by_contra hne
    obtain ⟨name, rest, rfl⟩ := List.exists_cons_of_ne_nil hne
    have hlen := alpnWire_cons_length name rest
    have hwire : alpnWire (name :: rest) ≠ [] := List.ne_nil_of_length_pos (by omega)
    have hcarried := h ⟨[], false, []⟩
    have hcheck : tlsExtClntCheckAlpn
        (quicSetAlpnProtos (alpnWire (name :: rest)) ⟨[], false, []⟩) = true :=
      decide_eq_true hwire
    rw [if_pos hcheck] at hcarried
    obtain ⟨pkt, ⟨c, t⟩, hrun, ht⟩ := hcarried
    rw [tlsExtClntConstructAlpn, Prog.onFst_bind_of_ok (Prog.modify_apply _ _),
      Prog.get_bind] at hrun
    obtain ⟨_, ⟨c', u⟩, hconstruct, hrun⟩ := Prog.bind_eq_ok.mp hrun
    cases hrun
    rw [Prog.onSnd_apply, Prod.mk.injEq, Prod.mk.injEq] at hconstruct
    obtain ⟨hok, -, hu⟩ := hconstruct
    have hrun' : tlsExtConstructAlpn (alpnWire (name :: rest)) pkt = (.ok (), u) :=
      Prod.ext hok hu
    have hpost := (tlsExtConstructAlpn_post _ pkt).of_ok hrun'
    rw [show u.buf = _ from ht.1, List.length_append, alpnBody, List.length_append,
      Bytes.ofNat_length] at hpost
    omega
  · rintro rfl c
    rw [if_neg (by simp [tlsExtClntCheckAlpn, quicSetAlpnProtos, alpnWire])]

namespace AlpnName

variable (name : AlpnName)

/-- A name is read behind its length. -/
theorem get_append (past : List UInt8) {rest : List UInt8}
    (hrest : (name.bytes ++ rest).length < 2 ^ 31) :
    rPacketGetLengthPrefixed 1
        { past, rest := Bytes.ofNat 1 name.bytes.length ++ (name.bytes ++ rest) } =
      (.ok (rPacketBufInit name.bytes),
        { past := past ++ (Bytes.ofNat 1 name.bytes.length ++ name.bytes), rest }) :=
  rPacketGetLengthPrefixed_append past name.length_lt hrest

/-- It has a byte. -/
theorem length_pos : 0 < name.bytes.length := List.length_pos_iff.mpr name.ne_nil

end AlpnName

/-- Every well-formed list is read to its end. -/
theorem tlsAlpnNames_wire {names : List AlpnName} (hne : names ≠ []) {fuel : ℕ}
    (hfuel : names.length ≤ fuel) (past : List UInt8)
    (hlength : (alpnWire names).length < 2 ^ 31) :
    ∃ past', tlsAlpnNames fuel { past, rest := alpnWire names } = (.ok (), ⟨past', []⟩) := by
  induction names generalizing fuel past with
  | nil => exact absurd rfl hne
  | cons name names ih =>
    rw [List.length_cons] at hfuel
    obtain ⟨fuel, rfl⟩ := Nat.exists_eq_succ_of_ne_zero (Nat.ne_of_gt (Nat.zero_lt_of_lt hfuel))
    rw [alpnWire_cons_length] at hlength
    have hget := name.get_append past (show (name.bytes ++ alpnWire names).length < 2 ^ 31 by
      rw [List.length_append]
      omega)
    have hname : (rPacketBufInit name.bytes).remaining ≠ 0 := Nat.ne_of_gt name.length_pos
    rw [alpnWire_cons, tlsAlpnNames, Prog.bind_of_ok hget, Prog.ensure_of_pos hname,
      Prog.pure_bind, Prog.get_bind, RPacket.remaining]
    cases names with
    | nil =>
      rw [if_pos (show (alpnWire []).length = 0 from rfl)]
      exact ⟨_, rfl⟩
    | cons second names =>
      have hlen := alpnWire_cons_length second names
      rw [if_neg (show ¬ (alpnWire (second :: names)).length = 0 by omega)]
      exact ih (List.cons_ne_nil _ _) (Nat.le_of_succ_le_succ hfuel) _ (by omega)

/-- There are no more names than bytes. -/
theorem length_le_alpnWire (names : List AlpnName) : names.length ≤ (alpnWire names).length := by
  induction names with
  | nil => exact le_refl _
  | cons name names ih =>
    rw [alpnWire_cons_length, List.length_cons]
    omega

/-- A name is shorter than the list that it is in. -/
theorem AlpnName.length_lt_alpnWire {name : AlpnName} {names : List AlpnName} (h : name ∈ names) :
    name.bytes.length < (alpnWire names).length := by
  induction names with
  | nil => exact absurd h List.not_mem_nil
  | cons first names ih =>
    rw [alpnWire_cons_length]
    rcases List.mem_cons.mp h with rfl | h
    · omega
    · have hrest := ih h
      omega

namespace AlpnOffer

variable (offer : AlpnOffer)

/-- The list of an offer has two bytes. -/
theorem two_le_length : 2 ≤ (alpnWire offer.names).length := by
  obtain ⟨name, rest, hnames⟩ := List.exists_cons_of_ne_nil offer.ne_nil
  have hpos := name.length_pos
  rw [hnames, alpnWire_cons_length]
  omega

/-- The server reads every offer and stores the list without its first byte. -/
theorem tlsExtSrvrParseAlpn_eq (s : AlpnServer) :
    ∃ rest, tlsExtSrvrParseAlpn (s, rPacketBufInit (alpnBody offer.names)) =
      (.ok (), (⟨alpnWire offer.names, (alpnWire offer.names).drop 1⟩, rest)) := by
  have hlt := offer.length_lt
  have hget := @rPacketGetLengthPrefixed_append [] (alpnWire offer.names) [] 2 hlt
    (by rw [List.append_nil]; omega)
  rw [List.append_nil] at hget
  obtain ⟨past, hnames⟩ := tlsAlpnNames_wire offer.ne_nil (length_le_alpnWire offer.names) []
    (by omega)
  have hshort : ¬ (rPacketBufInit (alpnWire offer.names)).remaining < 2 :=
    not_lt.mpr offer.two_le_length
  have hrounds : (tlsAlpnNames (rPacketBufInit (alpnWire offer.names)).remaining
      (rPacketBufInit (alpnWire offer.names))).1 = .ok () := congrArg Prod.fst hnames
  have hlist : tlsAlpnList (rPacketBufInit (alpnBody offer.names)) =
      (.ok (alpnWire offer.names), ⟨[] ++ alpnBody offer.names, []⟩) := by
    rw [tlsAlpnList, rPacketBufInit, alpnBody, Prog.bind_of_ok hget, Prog.ensure_of_pos hshort,
      Prog.pure_bind, hrounds, Prog.ofExcept_ok, Prog.pure_bind]
    rfl
  refine ⟨⟨[] ++ alpnBody offer.names, []⟩, ?_⟩
  rw [tlsExtSrvrParseAlpn, Prog.onSnd_bind_of_ok hlist,
    Prog.onFst_bind_of_ok (Prog.modify_apply _ _)]
  rfl

/-- The client reads a name behind two lengths. -/
theorem tlsExtClntParseAlpn_eq (name : AlpnName) {c : AlpnClient} (hsent : c.alpnSent = true) :
    ∃ rest, tlsExtClntParseAlpn (c, rPacketBufInit (Bytes.ofNat 2 (name.bytes.length + 1) ++
        (Bytes.ofNat 1 name.bytes.length ++ name.bytes))) =
      (.ok (), ({ c with alpnSelected := name.bytes }, rest)) := by
  have hlt := name.length_lt
  have hbody : (Bytes.ofNat 1 name.bytes.length ++ name.bytes).length = name.bytes.length + 1 := by
    rw [List.length_append, Bytes.ofNat_length, Nat.add_comm]
  have hget2 := @rPacketGetData_append [] (Bytes.ofNat 1 name.bytes.length ++ name.bytes) 2
    (name.bytes.length + 1) (by omega) (by omega)
  have hget1 := @rPacketGetData_append ([] ++ Bytes.ofNat 2 (name.bytes.length + 1)) name.bytes 1
    name.bytes.length hlt (by omega)
  have hpull := @rPacketPull_append ([] ++ Bytes.ofNat 2 (name.bytes.length + 1) ++
    Bytes.ofNat 1 name.bytes.length) name.bytes [] (by decide)
  rw [List.append_nil] at hpull
  refine ⟨⟨[] ++ Bytes.ofNat 2 (name.bytes.length + 1) ++ Bytes.ofNat 1 name.bytes.length ++
    name.bytes, []⟩, ?_⟩
  have hend : (⟨[] ++ Bytes.ofNat 2 (name.bytes.length + 1) ++ Bytes.ofNat 1 name.bytes.length,
      name.bytes⟩ : RPacket).remaining = name.bytes.length := rfl
  have hname : tlsAlpnName (rPacketBufInit (Bytes.ofNat 2 (name.bytes.length + 1) ++
      (Bytes.ofNat 1 name.bytes.length ++ name.bytes))) =
      (.ok name.bytes, ⟨[] ++ Bytes.ofNat 2 (name.bytes.length + 1) ++
        Bytes.ofNat 1 name.bytes.length, name.bytes⟩) := by
    rw [tlsAlpnName, rPacketBufInit, rPacketGet2, Prog.bind_of_ok hget2, Prog.get_bind,
      RPacket.remaining, Prog.ensure_of_pos hbody, Prog.pure_bind, rPacketGet1,
      Prog.bind_of_ok hget1, Prog.get_bind, Prog.ensure_of_pos hend, Prog.pure_bind]
    rfl
  rw [tlsExtClntParseAlpn, Prog.onFst_bind_of_ok (Prog.get_apply c), Prog.ensure_of_pos hsent,
    Prog.pure_bind, Prog.onSnd_bind_of_ok hname, Prog.onFst_bind_of_ok (Prog.modify_apply _ _),
    Prog.onSnd_apply, hpull]

/-- An offer of one name is agreed on. -/
theorem agreed_of_length (hone : offer.names.length = 1) : offer.Agreed := by
  obtain ⟨name, hnames⟩ := List.length_eq_one_iff.mp hone
  have hlt := name.length_lt
  have hwire : (alpnWire offer.names).drop 1 = name.bytes := by
    rw [hnames, alpnWire_cons, alpnWire, List.flatMap_nil, List.append_nil]
    exact List.drop_left' (Bytes.ofNat_length 1 _)
  intro s
  obtain ⟨rest, hparse⟩ := offer.tlsExtSrvrParseAlpn_eq s
  rw [hwire] at hparse
  refine ⟨_, rest, hparse, ⟨name, ?_, rfl⟩, decide_eq_true name.ne_nil, fun pkt hmax hroom => ?_⟩
  · rw [hnames]
    exact List.mem_singleton_self name
  · obtain ⟨t, hrun, ht⟩ := tlsExtConstructAlpn_of_fits hmax hlt hroom
    refine ⟨(⟨alpnWire offer.names, name.bytes⟩, t), _, ?_, ht, fun c hsent => ?_⟩
    · rw [tlsExtSrvrConstructAlpn, Prog.get_bind, Prog.onSnd_apply, hrun]
    · obtain ⟨rest', hclient⟩ := tlsExtClntParseAlpn_eq name hsent
      exact ⟨_, rest', hclient, rfl⟩

/-- An offer of several names is not: the server stores all of them behind the first length. -/
theorem not_agreed_of_length (hmore : offer.names.length ≠ 1) : ¬ offer.Agreed := by
  intro h
  obtain ⟨first, names, hnames⟩ := List.exists_cons_of_ne_nil offer.ne_nil
  rw [hnames, List.length_cons] at hmore
  obtain ⟨second, names, rfl⟩ := List.exists_cons_of_ne_nil
    (List.ne_nil_of_length_pos (show 0 < names.length by omega))
  obtain ⟨s', rest, hrun, ⟨name, hmem, hselected⟩, -⟩ := h ⟨[], []⟩
  obtain ⟨rest', hparse⟩ := offer.tlsExtSrvrParseAlpn_eq ⟨[], []⟩
  rw [hparse, Prod.mk.injEq, Prod.mk.injEq] at hrun
  obtain ⟨-, rfl, -⟩ := hrun
  have hlength := congrArg List.length hselected
  rw [List.length_drop, hnames, alpnWire_cons_length, alpnWire_cons_length] at hlength
  have hfirst := first.length_pos
  have hsecond := second.length_pos
  rw [hnames, List.mem_cons, List.mem_cons] at hmem
  rcases hmem with rfl | rfl | hmem
  · omega
  · omega
  · have hrest := AlpnName.length_lt_alpnWire hmem
    omega

end AlpnOffer

/-- The ClientHello carries the list that was set exactly when it is empty, and a name is agreed on
exactly when one was offered. -/
theorem alpn_iff (names : List AlpnName) (offer : AlpnOffer) :
    (AlpnCarried names ↔ names = []) ∧ (offer.Agreed ↔ offer.names.length = 1) := by
  refine ⟨alpnCarried_iff names, fun h => ?_, offer.agreed_of_length⟩
  by_contra hmore
  exact offer.not_agreed_of_length hmore h

/-- The name `h3`. -/
def h3Name : AlpnName := ⟨[0x68, 0x33], by decide, by decide⟩

/-- The name `h2`. -/
def h2Name : AlpnName := ⟨[0x68, 0x32], by decide, by decide⟩

/-- A list of one name is not carried, and an offer of two names is not agreed on. -/
theorem alpn_h3_h2 : ¬ AlpnCarried [h3Name] ∧
    ¬ (⟨[h3Name, h2Name], by decide, by decide⟩ : AlpnOffer).Agreed :=
  ⟨fun h => absurd ((alpnCarried_iff _).mp h) (List.cons_ne_nil _ _),
    AlpnOffer.not_agreed_of_length _ (by decide)⟩

end Tbquic
