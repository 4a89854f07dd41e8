import Tbquic.Tls.ExtBuild
import Tbquic.Tls.Library

/-!
# The key exchange

A client offers groups and the public key of one of them, a server takes the first share of a group
that it supports, and both derive the handshake secret. A client has one key, which it sends in each
of its shares.
-/

namespace Tbquic

/-- The public key of a peer, an `EVP_PKEY` with parameters and an encoded point. -/
structure TlsPeerKey where
  /-- The group of the parameters. -/
  group : ℕ
  /-- The encoded point, which is empty where none is set. -/
  point : List UInt8
  deriving DecidableEq, Repr

/-- The functions of the cryptographic library on the keys of an exchange. -/
structure TlsKexLib (Key : Type) where
  /-- The group of the parameters of a key. -/
  group : Key → ℕ
  /-- `EVP_PKEY_get1_tls_encodedpoint`, empty where it fails. -/
  encodedPoint : Key → List UInt8
  /-- `TlsGenerateParamGroup` finds parameters of the group. -/
  hasParams : ℕ → Bool
  /-- `EVP_PKEY_set1_tls_encodedpoint` on parameters of the group. -/
  accepts : ℕ → List UInt8 → Bool
  /-- `EVP_PKEY_derive` with the key of the peer. -/
  derive : Key → TlsPeerKey → Option (List UInt8)

/-- The public key that belongs to a key. -/
def TlsKexLib.peerKey {Key : Type} (kex : TlsKexLib Key) (key : Key) : TlsPeerKey :=
  ⟨kex.group key, kex.encodedPoint key⟩

/-- What is documented of the library: an encoded point is accepted for its group only, and two keys
of a group derive the same secret. -/
structure TlsKexLib.Lawful {Key : Type} (kex : TlsKexLib Key) : Prop where
  /-- The points of a group have a length of their own. -/
  accepts_iff : ∀ key group, kex.accepts group (kex.encodedPoint key) = true ↔ kex.group key = group
  /-- The exchange is symmetric. -/
  derive_comm : ∀ a b, kex.group a = kex.group b →
    kex.derive a (kex.peerKey b) = kex.derive b (kex.peerKey a)

/-- The fields of a connection that the key exchange reads and writes. -/
structure TlsKex (Key : Type) where
  /-- `ext.supported_groups`. -/
  supportedGroups : List ℕ
  /-- `ext.key_share_max_group_idx`. -/
  keyShareMaxGroupIdx : ℕ
  /-- `ext.peer_supported_groups`. -/
  peerSupportedGroups : List ℕ
  /-- `kexch_key`, or `NULL`. -/
  kexchKey : Option Key
  /-- `peer_kexch_key`, or `NULL`. -/
  peerKexchKey : Option TlsPeerKey
  /-- `group_id`. -/
  groupId : ℕ
  /-- `handshake_cipher`, or `NULL`. -/
  handshakeCipher : Option TlsCipher
  /-- `hit`. -/
  hit : Bool
  /-- `early_secret`. -/
  earlySecret : TlsSecret
  /-- `handshake_secret`. -/
  handshakeSecret : TlsSecret

/-- `eccurves_default`. -/
def eccurvesDefault : List ℕ := [29, 23, 30, 25, 24]

namespace TlsKex

variable {Key : Type}

/-- `TlsGetSupportedGroups`. -/
def groups (s : TlsKex Key) : List ℕ :=
  if s.supportedGroups = [] then eccurvesDefault else s.supportedGroups

/-- The groups up to `max_idx` of `TlsExtClntConstructKeyShare` and `TlsExtClntParseKeyShare`. -/
def shareGroups (s : TlsKex Key) : List ℕ :=
  s.groups.take (min s.keyShareMaxGroupIdx (s.groups.length - 1) + 1)

end TlsKex

section Routines

variable {Key : Type} (lib : TlsLib) (kex : TlsKexLib Key)

/-- The part of `TlsKeyDerive` that makes an early secret without a pre-shared key. -/
def deriveEarlySecret (md : QuicDigest) : Prog Fail (TlsKex Key) Unit := do
  let s ← Prog.get
  if s.hit = true then pure ()
  else do
    let secret ← Prog.ofOption .ret (tlsGenerateSecret lib md none none)
    Prog.modify fun s => { s with earlySecret := s.earlySecret.set secret }

/-- The part of `TlsKeyDerive` that makes the handshake secret. -/
def deriveHandshakeSecret (md : QuicDigest) (pms : List UInt8) : Prog Fail (TlsKex Key) Unit := do
  let s ← Prog.get
  let secret ← Prog.ofOption .ret
    (tlsGenerateSecret lib md (some (s.earlySecret.get md.size)) (some pms))
  Prog.modify fun s => { s with handshakeSecret := s.handshakeSecret.set secret }

/-- `TlsKeyDerive`. -/
def tlsKeyDerive (privkey : Key) (pubkey : TlsPeerKey) : Prog Fail (TlsKex Key) Unit := do
  let pms ← Prog.ofOption .ret (kex.derive privkey pubkey)
  let s ← Prog.get
  let md ← Prog.ofOption .ret (s.handshakeCipher.map TlsCipher.digest)
  deriveEarlySecret lib md
  deriveHandshakeSecret lib md pms

/-- The loop of `TlsExtClntConstructSupportedGroups`. -/
def putGroups : List ℕ → Prog Fail WPacket Unit
  | [] => pure ()
  | id :: pgroups => do
    wPacketPutBytes id 2
    putGroups pgroups

/-- `TlsExtClntConstructSupportedGroups`. -/
def tlsExtClntConstructSupportedGroups : Prog Fail (TlsKex Key × WPacket) ExtReturn := do
  Prog.onSnd (wPacketStartSubBytes 2)
  let s ← Prog.get
  Prog.onSnd (putGroups s.1.groups)
  Prog.onSnd wPacketClose
  pure .sent

/-- `TlsExtClntAddKeyShare`, with the key that `TlsGeneratePkeyGroup` makes for a group. -/
def tlsExtClntAddKeyShare (generate : ℕ → Option Key) (id : ℕ) :
    Prog Fail (TlsKex Key × WPacket) Unit := do
  let s ← Prog.get
  let key ← Prog.ofOption .ret (match s.1.kexchKey with
    | none => generate id
    | some key => some key)
  Prog.ensure .ret (kex.encodedPoint key ≠ [])
  Prog.onSnd (wPacketPutBytes id 2)
  Prog.onSnd (wPacketSubMemcpy (kex.encodedPoint key) 2)
  Prog.onFst (Prog.modify fun s => { s with kexchKey := some key, groupId := id })

/-- The loop of `TlsExtClntConstructKeyShare`. -/
def addKeyShares (generate : ℕ → Option Key) : List ℕ → Prog Fail (TlsKex Key × WPacket) Unit
  | [] => pure ()
  | id :: ids => do
    tlsExtClntAddKeyShare kex generate id
    addKeyShares generate ids

/-- `TlsExtClntConstructKeyShare`. -/
def tlsExtClntConstructKeyShare (generate : ℕ → Option Key) :
    Prog Fail (TlsKex Key × WPacket) ExtReturn := do
  Prog.onSnd (wPacketStartSubBytes 2)
  let s ← Prog.get
  Prog.ensure .assert (s.1.groups.length ≠ 0)
  addKeyShares kex generate s.1.shareGroups
  Prog.onSnd wPacketClose
  pure .sent

/-- The loop of `RPacketSaveU16`, for a number of elements. -/
def saveU16 : ℕ → Prog Fail RPacket (List ℕ)
  | 0 => pure []
  | size + 1 => do
    let stmp ← rPacketGet2
    let rest ← saveU16 size
    pure (stmp :: rest)

/-- `RPacketSaveU16`. -/
def rPacketSaveU16 : Prog Fail RPacket (List ℕ) := do
  let pkt ← Prog.get
  Prog.ensure .ret (pkt.remaining ≠ 0 ∧ pkt.remaining % 2 = 0)
  saveU16 (pkt.remaining / 2)

/-- `TlsExtSrvrParseSupportedGroups`. -/
def tlsExtSrvrParseSupportedGroups : Prog Fail (TlsKex Key × RPacket) Unit := do
  let supportedGroups ← Prog.onSnd (rPacketGetLengthPrefixed 2)
  let groups ← Prog.ofExcept (rPacketSaveU16 supportedGroups).1
  Prog.onFst (Prog.modify fun s => { s with peerSupportedGroups := groups })

/-- The part of `TlsExtSrvrParseKeyShare` that stores the key of the client. -/
def setPeerKey (groupId : ℕ) (encodedPt : List UInt8) : Prog Fail (TlsKex Key) Unit := do
  Prog.modify fun s => { s with peerKexchKey := none }
  Prog.ensure .ret (kex.hasParams groupId = true)
  Prog.modify fun s => { s with peerKexchKey := some ⟨groupId, []⟩, groupId := groupId }
  Prog.ensure .ret (kex.accepts groupId encodedPt = true)
  Prog.modify fun s => { s with peerKexchKey := some ⟨groupId, encodedPt⟩ }

/-- The loop of `TlsExtSrvrParseKeyShare` over the list of the shares, with the groups of both ends.
Each round reads bytes, so there are no more rounds than bytes. -/
def keyShareLoop (clntgroups srvrgroups : List ℕ) :
    ℕ → Bool → Prog Fail (TlsKex Key × RPacket) Unit
  | 0, _ => Prog.fail .fuel
  | fuel + 1, found => do
    let s ← Prog.get
    if s.2.remaining = 0 then pure ()
    else do
      let groupId ← Prog.onSnd rPacketGet2
      let encodedPt ← Prog.onSnd (rPacketGetLengthPrefixed 2)
      Prog.ensure .ret (encodedPt.remaining ≠ 0)
      if found = true then keyShareLoop clntgroups srvrgroups fuel true
      else do
        Prog.ensure .ret (groupId ∈ clntgroups)
        if groupId ∉ srvrgroups then keyShareLoop clntgroups srvrgroups fuel false
        else do
          Prog.onFst (setPeerKey kex groupId encodedPt.rest)
          keyShareLoop clntgroups srvrgroups fuel true

/-- `TlsExtSrvrParseKeyShare`. -/
def tlsExtSrvrParseKeyShare : Prog Fail (TlsKex Key × RPacket) Unit := do
  let keyShareList ← Prog.onSnd (rPacketGetLengthPrefixed 2)
  let s ← Prog.get
  Prog.ensure .ret (s.1.peerSupportedGroups.length ≠ 0)
  let run := keyShareLoop kex s.1.peerSupportedGroups s.1.groups (keyShareList.remaining + 1) false
    (s.1, keyShareList)
  Prog.onFst (Prog.modify fun _ => run.2.1)
  Prog.ofExcept run.1

/-- `TlsExtSrvrCheckKeyShare`, behind which the extension is sent. -/
def tlsExtSrvrCheckKeyShare (s : TlsKex Key) : Bool := s.peerKexchKey.isSome

/-- `TlsExtSrvrConstructKeyShare`, with the key that `TlsGeneratePkey` makes for parameters. -/
def tlsExtSrvrConstructKeyShare (generate : ℕ → Option Key) :
    Prog Fail (TlsKex Key × WPacket) ExtReturn := do
  let s ← Prog.get
  let ckey ← Prog.ofOption .ret s.1.peerKexchKey
  Prog.onSnd (wPacketPutBytes s.1.groupId 2)
  let skey ← Prog.ofOption .ret (generate ckey.group)
  Prog.ensure .ret (kex.encodedPoint skey ≠ [])
  Prog.onSnd (wPacketSubMemcpy (kex.encodedPoint skey) 2)
  Prog.onFst (Prog.modify fun s => { s with kexchKey := some skey })
  Prog.onFst (tlsKeyDerive lib kex skey ckey)
  pure .sent

/-- `TlsExtClntParseKeyShare`. -/
def tlsExtClntParseKeyShare : Prog Fail (TlsKex Key × RPacket) Unit := do
  let s ← Prog.get
  let ckey ← Prog.ofOption .ret s.1.kexchKey
  let groupId ← Prog.onSnd rPacketGet2
  Prog.ensure .assert (s.1.groups.length ≠ 0)
  Prog.ensure .ret (groupId ∈ s.1.shareGroups)
  Prog.ensure .ret (groupId = s.1.groupId)
  let keyExLen ← Prog.onSnd rPacketGet2
  let s ← Prog.get
  Prog.onSnd (rPacketPull keyExLen)
  let keyExData := s.2.rest.take keyExLen
  Prog.ensure .ret (kex.accepts (kex.group ckey) keyExData = true)
  Prog.onFst (tlsKeyDerive lib kex ckey ⟨kex.group ckey, keyExData⟩)
  Prog.onFst (Prog.modify fun s => { s with peerKexchKey := some ⟨kex.group ckey, keyExData⟩ })

end Routines

section Groups

variable {Key : Type} {pkt t : WPacket}

/-- The bytes of a list of groups. -/
def groupsWire (ids : List ℕ) : List UInt8 := ids.flatMap (Bytes.ofNat 2)

/-- Each group has two bytes. -/
theorem groupsWire_length (ids : List ℕ) : (groupsWire ids).length = 2 * ids.length := by
  induction ids with
  | nil => rfl
  | cons id ids ih =>
    rw [groupsWire, List.flatMap_cons, List.length_append, Bytes.ofNat_length, List.length_cons]
    rw [groupsWire] at ih
    omega

/-- The groups that were put stand one after the other. -/
theorem putGroups_appends {ids : List ℕ} (h : putGroups ids pkt = (.ok (), t)) :
    pkt.Appends (groupsWire ids) t ∧ ∀ id ∈ ids, id < 2 ^ 16 := by
  induction ids generalizing pkt with
  | nil =>
    cases h
    exact ⟨⟨(List.append_nil _).symm, rfl, rfl, rfl⟩, nofun⟩
  | cons id ids ih =>
    obtain ⟨_, mid, hput, hrest⟩ := Prog.bind_eq_ok.mp h
    obtain ⟨happends, hlt⟩ := wPacketPutBytes_appends hput
    obtain ⟨hmore, hall⟩ := ih hrest
    refine ⟨?_, ?_⟩
    · rw [groupsWire, List.flatMap_cons]
      exact happends.trans hmore
    · intro id' hid
      rcases List.mem_cons.mp hid with rfl | hid
      · exact hlt
      · exact hall id' hid

/-- The extension of the groups is their list behind its length. -/
theorem tlsExtClntConstructSupportedGroups_wrote {c c' : TlsKex Key} {ret : ExtReturn}
    (hmax : pkt.maxsize < 2 ^ 31)
    (h : tlsExtClntConstructSupportedGroups (c, pkt) = (.ok ret, (c', t))) :
    ret = .sent ∧ c' = c ∧ (∀ id ∈ c.groups, id < 2 ^ 16) ∧
      (groupsWire c.groups).length < 2 ^ 16 ∧
      pkt.Appends (Bytes.ofNat 2 (groupsWire c.groups).length ++ groupsWire c.groups) t := by
  obtain ⟨_, opened, hstart, h⟩ := Prog.onSnd_bind_eq_ok.mp h
  rw [Prog.get_bind] at h
  obtain ⟨_, filled, hput, h⟩ := Prog.onSnd_bind_eq_ok.mp h
  obtain ⟨_, closed, hclose, h⟩ := Prog.onSnd_bind_eq_ok.mp h
  cases h
  obtain ⟨happends, hlt⟩ := putGroups_appends hput
  obtain ⟨hwritten, hsize⟩ := wPacketClose_appends
    ((wPacketStartSubBytes_opened hstart).append happends) hmax hclose
  rw [List.nil_append] at hwritten hsize
  exact ⟨rfl, rfl, hlt, hsize, hwritten⟩

/-- Groups that were sent are read back. -/
theorem saveU16_wire {ids : List ℕ} (hids : ∀ id ∈ ids, id < 2 ^ 16) (past : List UInt8)
    (hlen : (groupsWire ids).length < 2 ^ 31) :
    (saveU16 ids.length ⟨past, groupsWire ids⟩).1 = .ok ids := by
  induction ids generalizing past with
  | nil => rfl
  | cons id ids ih =>
    have hcons : groupsWire (id :: ids) = Bytes.ofNat 2 id ++ groupsWire ids := List.flatMap_cons
    have hrest : (groupsWire ids).length < 2 ^ 31 := by
      rw [hcons, List.length_append] at hlen
      omega
    have hget := rPacketGetData_append past
      (show id < 256 ^ 2 from hids id List.mem_cons_self) hrest
    have hnext := ih (fun id' hid => hids id' (List.mem_cons_of_mem _ hid))
      (past ++ Bytes.ofNat 2 id) hrest
    rw [hcons, List.length_cons, saveU16, rPacketGet2, Prog.bind_of_ok hget]
    rcases hrun : saveU16 ids.length ⟨past ++ Bytes.ofNat 2 id, groupsWire ids⟩ with ⟨r, u⟩
    rw [hrun] at hnext
    obtain rfl : r = .ok ids := hnext
    rw [Prog.bind_of_ok hrun]
    rfl

/-- The server stores the groups that the client offers. -/
theorem tlsExtSrvrParseSupportedGroups_wire {ids : List ℕ} (hne : ids ≠ [])
    (hids : ∀ id ∈ ids, id < 2 ^ 16) (hlen : (groupsWire ids).length < 2 ^ 16)
    (v : TlsKex Key) (past : List UInt8) :
    ∃ pkt', tlsExtSrvrParseSupportedGroups
        (v, ⟨past, Bytes.ofNat 2 (groupsWire ids).length ++ groupsWire ids⟩) =
      (.ok (), ({ v with peerSupportedGroups := ids }, pkt')) := by
  have hget := @rPacketGetLengthPrefixed_append past (groupsWire ids) [] 2 hlen
    (by rw [List.append_nil]; omega)
  rw [List.append_nil] at hget
  have hpos : 0 < ids.length := List.length_pos_iff.mpr hne
  have hremaining : (groupsWire ids).length = 2 * ids.length := groupsWire_length ids
  have hsave : (rPacketSaveU16 (rPacketBufInit (groupsWire ids))).1 = .ok ids := by
    have hread := saveU16_wire hids [] (by omega)
    rw [rPacketSaveU16, Prog.get_bind, RPacket.remaining, rPacketBufInit, hremaining,
      Prog.ensure_of_pos (by omega), Prog.pure_bind, Nat.mul_div_cancel_left _ (by decide)]
    exact hread
  rw [tlsExtSrvrParseSupportedGroups, Prog.onSnd_bind_of_ok hget, hsave, Prog.ofExcept_ok,
    Prog.pure_bind]
  exact ⟨_, rfl⟩

end Groups

section Derive

variable {Key : Type} {lib : TlsLib} {kex : TlsKexLib Key} {s : TlsKex Key} {privkey : Key}
  {pubkey : TlsPeerKey} {cipher : TlsCipher}

/-- The early secret with which the handshake secret is derived: that of the key that was chosen
when a session is resumed. -/
def TlsKex.early (lib : TlsLib) (md : QuicDigest) (s : TlsKex Key) : Option (List UInt8) :=
  if s.hit = true then some (s.earlySecret.get md.size) else tlsGenerateSecret lib md none none

/-- The handshake secret of a shared secret. -/
def TlsKex.secretOf (lib : TlsLib) (md : QuicDigest) (s : TlsKex Key) (pms : List UInt8) :
    Option (List UInt8) := do
  let early ← s.early lib md
  tlsGenerateSecret lib md (some early) (some pms)

/-- A secret that was stored is read back. -/
theorem tlsGenerateSecret_get {md : QuicDigest} {prev input : Option (List UInt8)}
    {out : List UInt8} (h : tlsGenerateSecret lib md prev input = some out) (secret : TlsSecret) :
    (secret.set out).get md.size = out := by
  have hsize : out.length = md.size := tlsGenerateSecret_length h
  rw [← hsize]
  exact TlsSecret.get_set (hsize ▸ md.size_le)

/-- The early secret is there before the handshake secret is made. -/
theorem deriveEarlySecret_eq {md : QuicDigest} {early : List UInt8}
    (h : s.early lib md = some early) : ∃ secret,
    deriveEarlySecret lib md s = (.ok (), { s with earlySecret := secret }) ∧
      secret.get md.size = early := by
  rw [deriveEarlySecret, Prog.get_bind]
  unfold TlsKex.early at h
  split_ifs at h with hhit
  · cases h
    exact ⟨s.earlySecret, if_pos hhit ▸ rfl, rfl⟩
  · refine ⟨s.earlySecret.set early, ?_, tlsGenerateSecret_get h _⟩
    rw [if_neg hhit, h]
    exact Prog.bind_of_ok rfl

/-- Without an early secret nothing is derived. -/
theorem deriveEarlySecret_of_none {md : QuicDigest} (h : s.early lib md = none) :
    deriveEarlySecret lib md s = (.error .ret, s) := by
  rw [deriveEarlySecret, Prog.get_bind]
  unfold TlsKex.early at h
  split_ifs at h with hhit
  rw [if_neg hhit, h]
  exact Prog.bind_of_error rfl

/-- `TlsKeyDerive` stores the handshake secret of the shared secret. -/
theorem tlsKeyDerive_of_some {pms secret : List UInt8} (hcipher : s.handshakeCipher = some cipher)
    (hderive : kex.derive privkey pubkey = some pms)
    (hsecret : s.secretOf lib cipher.digest pms = some secret) : ∃ t,
    tlsKeyDerive lib kex privkey pubkey s = (.ok (), t) ∧
      t.handshakeSecret.get cipher.digest.size = secret ∧
      t = { s with earlySecret := t.earlySecret, handshakeSecret := t.handshakeSecret } := by
  obtain ⟨early, hearly, hsecret⟩ := Option.bind_eq_some_iff.mp hsecret
  obtain ⟨stored, hrun, hstored⟩ := deriveEarlySecret_eq hearly
  have hmd : s.handshakeCipher.map TlsCipher.digest = some cipher.digest := by
    rw [hcipher]
    rfl
  refine ⟨{ s with earlySecret := stored, handshakeSecret := s.handshakeSecret.set secret }, ?_,
    tlsGenerateSecret_get hsecret _, rfl⟩
  rw [tlsKeyDerive, hderive, Prog.ofOption_some, Prog.pure_bind, Prog.get_bind, hmd,
    Prog.ofOption_some, Prog.pure_bind, Prog.bind_of_ok hrun, deriveHandshakeSecret, Prog.get_bind]
  dsimp only
  rw [hstored, hsecret]
  exact Prog.bind_of_ok rfl

/-- A run of `TlsKeyDerive` that succeeds has derived the handshake secret. -/
theorem tlsKeyDerive_eq_ok {t : TlsKex Key}
    (h : tlsKeyDerive lib kex privkey pubkey s = (.ok (), t)) : ∃ cipher pms,
    s.handshakeCipher = some cipher ∧ kex.derive privkey pubkey = some pms ∧
      s.secretOf lib cipher.digest pms = some (t.handshakeSecret.get cipher.digest.size) ∧
      t = { s with earlySecret := t.earlySecret, handshakeSecret := t.handshakeSecret } := by
  obtain ⟨pms, hderive, hrun⟩ := Prog.ofOption_bind_eq_ok.mp h
  rw [Prog.get_bind] at hrun
  obtain ⟨md, hmd, hrun⟩ := Prog.ofOption_bind_eq_ok.mp hrun
  obtain ⟨cipher, hcipher, rfl⟩ := Option.map_eq_some_iff.mp hmd
  cases hearly : s.early lib cipher.digest with
  | none =>
    rw [Prog.bind_of_error (deriveEarlySecret_of_none hearly)] at hrun
    cases hrun
  | some early =>
    obtain ⟨stored, hstore, hstored⟩ := deriveEarlySecret_eq hearly
    rw [Prog.bind_of_ok hstore, deriveHandshakeSecret, Prog.get_bind] at hrun
    obtain ⟨secret, hsecret, _⟩ := Prog.ofOption_bind_eq_ok.mp hrun
    rw [hstored] at hsecret
    have hof : s.secretOf lib cipher.digest pms = some secret := by
      rw [TlsKex.secretOf, hearly]
      exact hsecret
    obtain ⟨u, hu, hget, hframe⟩ := tlsKeyDerive_of_some hcipher hderive hof
    rw [h] at hu
    cases hu
    exact ⟨cipher, pms, hcipher, hderive, hget.symm ▸ hof, hframe⟩

end Derive

/-- A share of a key exchange. -/
structure KeyShareEntry where
  /-- The group. -/
  group : ℕ
  /-- The encoded point. -/
  point : List UInt8
  /-- A group has two bytes. -/
  group_lt : group < 256 ^ 2
  /-- There is a point. -/
  point_ne : point ≠ []
  /-- Its length has two bytes. -/
  point_lt : point.length < 256 ^ 2

namespace KeyShareEntry

/-- The bytes of a share. -/
def wire (e : KeyShareEntry) : List UInt8 :=
  Bytes.ofNat 2 e.group ++ (Bytes.ofNat 2 e.point.length ++ e.point)

/-- The bytes of some shares. -/
def wires (es : List KeyShareEntry) : List UInt8 := es.flatMap wire

/-- The bytes of one share more. -/
theorem wires_cons (e : KeyShareEntry) (es : List KeyShareEntry) :
    wires (e :: es) = Bytes.ofNat 2 e.group ++ (Bytes.ofNat 2 e.point.length ++
      (e.point ++ wires es)) := by
  rw [wires, List.flatMap_cons, wire, List.append_assoc, List.append_assoc]
  rfl

end KeyShareEntry

section Client

variable {Key : Type} {kex : TlsKexLib Key} {generate : ℕ → Option Key} {c c' : TlsKex Key}
  {pkt t : WPacket} {id : ℕ} {ids : List ℕ}

/-- The key that a client sends in a share: the one it has, or a new one of the group. -/
def TlsKex.shareKey (generate : ℕ → Option Key) (id : ℕ) (c : TlsKex Key) : Option Key :=
  match c.kexchKey with
  | none => generate id
  | some key => some key

/-- A share that was added holds the key of the client. -/
theorem tlsExtClntAddKeyShare_wrote (hmax : pkt.maxsize < 2 ^ 31)
    (h : tlsExtClntAddKeyShare kex generate id (c, pkt) = (.ok (), (c', t))) :
    ∃ key, c.shareKey generate id = some key ∧
      c' = { c with kexchKey := some key, groupId := id } ∧
      ∃ e : KeyShareEntry, e.group = id ∧ e.point = kex.encodedPoint key ∧
        pkt.Appends e.wire t := by
  rw [tlsExtClntAddKeyShare, Prog.get_bind] at h
  obtain ⟨key, hkey, h⟩ := Prog.ofOption_bind_eq_ok.mp h
  obtain ⟨hpoint, h⟩ := Prog.ensure_bind_eq_ok.mp h
  obtain ⟨_, mid, hput, h⟩ := Prog.onSnd_bind_eq_ok.mp h
  obtain ⟨_, written, hcopy, h⟩ := Prog.onSnd_bind_eq_ok.mp h
  cases h
  obtain ⟨hid, hlt⟩ := wPacketPutBytes_appends hput
  obtain ⟨hbytes, hlen⟩ := wPacketSubMemcpy_appends (hid.maxsize ▸ hmax) hcopy
  exact ⟨key, hkey, rfl, ⟨id, kex.encodedPoint key, hlt, hpoint, hlen⟩, rfl, rfl,
    hid.trans hbytes⟩

/-- The shares of a client have one key, that of the first group unless it had one before. -/
theorem addKeyShares_wrote (hmax : pkt.maxsize < 2 ^ 31)
    (h : addKeyShares kex generate (id :: ids) (c, pkt) = (.ok (), (c', t))) :
    ∃ key, c.shareKey generate id = some key ∧
      c' = { c with kexchKey := some key, groupId := (id :: ids).getLast (List.cons_ne_nil _ _) } ∧
      ∃ es : List KeyShareEntry, es.map KeyShareEntry.group = id :: ids ∧
        (∀ e ∈ es, e.point = kex.encodedPoint key) ∧ pkt.Appends (KeyShareEntry.wires es) t := by
  induction ids generalizing c pkt id with
  | nil =>
    obtain ⟨_, ⟨mid, next⟩, hadd, hrest⟩ := Prog.bind_eq_ok.mp h
    cases hrest
    obtain ⟨key, hkey, hmid, e, hgroup, hpoint, happends⟩ := tlsExtClntAddKeyShare_wrote hmax hadd
    refine ⟨key, hkey, hmid, [e], congrArg (fun g => [g]) hgroup, ?_, ?_⟩
    · intro e' he'
      rw [List.mem_singleton.mp he', hpoint]
    · rw [KeyShareEntry.wires, List.flatMap_singleton]
      exact happends
  | cons id' ids ih =>
    obtain ⟨_, ⟨mid, next⟩, hadd, hrest⟩ := Prog.bind_eq_ok.mp h
    obtain ⟨key, hkey, hmid, e, hgroup, hpoint, happends⟩ := tlsExtClntAddKeyShare_wrote hmax hadd
    obtain ⟨key', hkey', hc', es, hgroups, hpoints, hmore⟩ := ih (happends.maxsize ▸ hmax) hrest
    rw [hmid] at hkey' hc'
    obtain rfl : key = key' := Option.some.inj hkey'
    refine ⟨key, hkey, hc', e :: es, ?_, ?_, ?_⟩
    · rw [List.map_cons, hgroup, hgroups]
    · intro e' he'
      rcases List.mem_cons.mp he' with rfl | he'
      · exact hpoint
      · exact hpoints e' he'
    · rw [KeyShareEntry.wires, List.flatMap_cons]
      exact happends.trans hmore

/-- The groups with a share are a start of the list of groups. -/
theorem TlsKex.shareGroups_eq (hne : c.groups ≠ []) : ∃ ids, c.shareGroups =
    c.groups.head hne :: ids := by
  obtain ⟨id, ids, hgroups⟩ := List.exists_cons_of_ne_nil hne
  simp only [TlsKex.shareGroups, hgroups, List.take_succ_cons, List.head_cons]
  exact ⟨_, rfl⟩

/-- The supported groups are never empty. -/
theorem TlsKex.groups_ne_nil (c : TlsKex Key) : c.groups ≠ [] := by
  rw [TlsKex.groups]
  split_ifs with h
  · decide
  · exact h

end Client

section Server

variable {Key : Type} {kex : TlsKexLib Key} {clntgroups srvrgroups : List ℕ}
  {es : List KeyShareEntry}

/-- A round of the loop reads a share. -/
theorem keyShare_read (past : List UInt8) (e : KeyShareEntry) (es : List KeyShareEntry)
    (hlen : (KeyShareEntry.wires (e :: es)).length < 2 ^ 31) : ∃ mid after,
    rPacketGet2 ⟨past, KeyShareEntry.wires (e :: es)⟩ = (.ok e.group, mid) ∧
      rPacketGetLengthPrefixed 2 mid =
        (.ok (rPacketBufInit e.point), ⟨after, KeyShareEntry.wires es⟩) := by
  rw [KeyShareEntry.wires_cons] at hlen ⊢
  rw [List.length_append, List.length_append] at hlen
  exact ⟨_, _, rPacketGetData_append past e.group_lt (by rw [List.length_append]; omega),
    rPacketGetLengthPrefixed_append _ e.point_lt (by omega)⟩

/-- What the loop makes of the shares of a client that supports their groups: the key of the first
share of a group that the server supports too. -/
def TlsKex.chosen (kex : TlsKexLib Key) (srvrgroups : List ℕ) (es : List KeyShareEntry)
    (v : TlsKex Key) : Except Fail (TlsKex Key) :=
  match es.find? fun e => e.group ∈ srvrgroups with
  | none => .ok v
  | some e =>
    if kex.hasParams e.group = true ∧ kex.accepts e.group e.point = true then
      .ok { v with peerKexchKey := some ⟨e.group, e.point⟩, groupId := e.group }
    else .error .ret

/-- The loop ends with the list. -/
theorem keyShareLoop_nil {fuel : ℕ} (hfuel : 0 < fuel) (found : Bool) (past : List UInt8)
    (v : TlsKex Key) :
    keyShareLoop kex clntgroups srvrgroups fuel found (v, ⟨past, []⟩) =
      (.ok (), (v, ⟨past, []⟩)) := by
  obtain ⟨fuel, rfl⟩ := Nat.exists_eq_succ_of_ne_zero (Nat.ne_of_gt hfuel)
  rw [keyShareLoop, Prog.get_bind]
  exact congrFun (if_pos rfl) _

/-- A round over a share. -/
theorem keyShareLoop_cons (fuel : ℕ) (found : Bool) (past : List UInt8) (e : KeyShareEntry)
    (es : List KeyShareEntry) (hlen : (KeyShareEntry.wires (e :: es)).length < 2 ^ 31)
    (v : TlsKex Key) : ∃ after,
    keyShareLoop kex clntgroups srvrgroups (fuel + 1) found
        (v, ⟨past, KeyShareEntry.wires (e :: es)⟩) =
      (if found = true then keyShareLoop kex clntgroups srvrgroups fuel true
      else do
        Prog.ensure .ret (e.group ∈ clntgroups)
        if e.group ∉ srvrgroups then keyShareLoop kex clntgroups srvrgroups fuel false
        else do
          Prog.onFst (setPeerKey kex e.group e.point)
          keyShareLoop kex clntgroups srvrgroups fuel true :
            Prog Fail (TlsKex Key × RPacket) Unit) (v, ⟨after, KeyShareEntry.wires es⟩) := by
  have hremaining : ¬ (⟨past, KeyShareEntry.wires (e :: es)⟩ : RPacket).remaining = 0 := by
    rw [RPacket.remaining, KeyShareEntry.wires_cons, List.length_append, Bytes.ofNat_length]
    omega
  have hpoint : (rPacketBufInit e.point).remaining ≠ 0 :=
    Nat.ne_of_gt (List.length_pos_iff.mpr e.point_ne)
  obtain ⟨mid, after, hgroup, hread⟩ := keyShare_read past e es hlen
  refine ⟨after, ?_⟩
  rw [keyShareLoop, Prog.get_bind, if_neg hremaining, Prog.onSnd_bind_of_ok hgroup,
    Prog.onSnd_bind_of_ok hread, Prog.ensure_of_pos hpoint, Prog.pure_bind]
  rfl

/-- The shares behind the one that was taken are read and ignored. -/
theorem keyShareLoop_found {fuel : ℕ} (hfuel : es.length < fuel) (past : List UInt8)
    (hlen : (KeyShareEntry.wires es).length < 2 ^ 31) (v : TlsKex Key) : ∃ pkt',
    keyShareLoop kex clntgroups srvrgroups fuel true (v, ⟨past, KeyShareEntry.wires es⟩) =
      (.ok (), (v, pkt')) := by
  induction es generalizing fuel past with
  | nil => exact ⟨_, keyShareLoop_nil (Nat.zero_lt_of_lt hfuel) true past v⟩
  | cons e es ih =>
    obtain ⟨fuel, rfl⟩ := Nat.exists_eq_succ_of_ne_zero (Nat.ne_of_gt (Nat.zero_lt_of_lt hfuel))
    obtain ⟨after, hround⟩ := @keyShareLoop_cons Key kex clntgroups srvrgroups fuel true past e es
      hlen v
    rw [hround, if_pos rfl]
    apply ih (Nat.lt_of_succ_lt_succ hfuel)
    rw [KeyShareEntry.wires_cons] at hlen
    simp only [List.length_append] at hlen
    omega

/-- A key with an accepted point is stored. -/
theorem setPeerKey_eq {group : ℕ} {point : List UInt8} (v : TlsKex Key)
    (h : kex.hasParams group = true ∧ kex.accepts group point = true) :
    setPeerKey kex group point v =
      (.ok (), { v with peerKexchKey := some ⟨group, point⟩, groupId := group }) := by
  rw [setPeerKey, Prog.modify_bind, Prog.ensure_of_pos h.1, Prog.pure_bind, Prog.modify_bind,
    Prog.ensure_of_pos h.2, Prog.pure_bind]
  rfl

/-- A key without parameters or with a point that is not accepted is refused. -/
theorem setPeerKey_of_not {group : ℕ} {point : List UInt8} (v : TlsKex Key)
    (h : ¬ (kex.hasParams group = true ∧ kex.accepts group point = true)) :
    ∃ v', setPeerKey kex group point v = (.error .ret, v') := by
  rw [setPeerKey, Prog.modify_bind]
  by_cases hparams : kex.hasParams group = true
  · rw [Prog.ensure_of_pos hparams, Prog.pure_bind, Prog.modify_bind,
      Prog.ensure_of_neg (fun haccepts => h ⟨hparams, haccepts⟩), Prog.fail_bind]
    exact ⟨_, rfl⟩
  · rw [Prog.ensure_of_neg hparams, Prog.fail_bind]
    exact ⟨_, rfl⟩

/-- The loop takes the first share of a group that both ends support. -/
theorem keyShareLoop_wires {fuel : ℕ} (hfuel : es.length < fuel) (past : List UInt8)
    (hlen : (KeyShareEntry.wires es).length < 2 ^ 31)
    (hclnt : ∀ e ∈ es, e.group ∈ clntgroups) (v : TlsKex Key) : ∃ v' pkt' r,
    keyShareLoop kex clntgroups srvrgroups fuel false (v, ⟨past, KeyShareEntry.wires es⟩) =
      (r, (v', pkt')) ∧ r.map (fun _ => v') = v.chosen kex srvrgroups es := by
  induction es generalizing fuel past with
  | nil => exact ⟨v, _, _, keyShareLoop_nil (Nat.zero_lt_of_lt hfuel) false past v, rfl⟩
  | cons e es ih =>
    obtain ⟨fuel, rfl⟩ := Nat.exists_eq_succ_of_ne_zero (Nat.ne_of_gt (Nat.zero_lt_of_lt hfuel))
    have hfuel := Nat.lt_of_succ_lt_succ hfuel
    have hrest : (KeyShareEntry.wires es).length < 2 ^ 31 := by
      rw [KeyShareEntry.wires_cons] at hlen
      simp only [List.length_append] at hlen
      omega
    obtain ⟨after, hround⟩ := @keyShareLoop_cons Key kex clntgroups srvrgroups fuel false past e es
      hlen v
    rw [hround, if_neg (by decide), Prog.ensure_of_pos (hclnt e List.mem_cons_self),
      Prog.pure_bind, TlsKex.chosen, List.find?_cons]
    by_cases hsrvr : e.group ∈ srvrgroups
    · rw [if_neg (not_not.mpr hsrvr), decide_eq_true hsrvr]
      dsimp only
      by_cases hset : kex.hasParams e.group = true ∧ kex.accepts e.group e.point = true
      · obtain ⟨pkt', hloop⟩ := @keyShareLoop_found Key kex clntgroups srvrgroups es fuel hfuel
          after hrest { v with peerKexchKey := some ⟨e.group, e.point⟩, groupId := e.group }
        rw [Prog.onFst_bind_of_ok (setPeerKey_eq v hset), hloop, if_pos hset]
        exact ⟨_, _, _, rfl, rfl⟩
      · obtain ⟨v', hrefused⟩ := setPeerKey_of_not v hset
        have hfst : Prog.onFst (setPeerKey kex e.group e.point)
            (v, (⟨after, KeyShareEntry.wires es⟩ : RPacket)) =
              (.error .ret, (v', ⟨after, KeyShareEntry.wires es⟩)) := by
          rw [Prog.onFst_apply, hrefused]
        rw [Prog.bind_of_error hfst, if_neg hset]
        exact ⟨_, _, _, rfl, rfl⟩
    · rw [if_pos hsrvr, decide_eq_false hsrvr]
      obtain ⟨v', pkt', r, hloop, hmap⟩ := ih hfuel after hrest fun e' he' =>
        hclnt e' (List.mem_cons_of_mem _ he')
      exact ⟨v', pkt', r, hloop, hmap⟩

/-- The number of shares is less than that of their bytes. -/
theorem KeyShareEntry.length_le_wires (es : List KeyShareEntry) :
    es.length ≤ (KeyShareEntry.wires es).length := by
  induction es with
  | nil => exact le_refl _
  | cons e es ih =>
    rw [KeyShareEntry.wires_cons, List.length_cons]
    simp only [List.length_append, Bytes.ofNat_length]
    omega

/-- The server takes the first share of a group that it supports. -/
theorem tlsExtSrvrParseKeyShare_wires (hne : es ≠ [])
    (hlen : (KeyShareEntry.wires es).length < 2 ^ 16) {v : TlsKex Key}
    (hclnt : ∀ e ∈ es, e.group ∈ v.peerSupportedGroups) (past : List UInt8) : ∃ v' pkt' r,
    tlsExtSrvrParseKeyShare kex (v, ⟨past, Bytes.ofNat 2 (KeyShareEntry.wires es).length ++
      KeyShareEntry.wires es⟩) = (r, (v', pkt')) ∧
      r.map (fun _ => v') = v.chosen kex v.groups es := by
  have hget := @rPacketGetLengthPrefixed_append past (KeyShareEntry.wires es) [] 2 hlen
    (by rw [List.append_nil]; omega)
  rw [List.append_nil] at hget
  have hgroups : v.peerSupportedGroups.length ≠ 0 := by
    obtain ⟨e, es, rfl⟩ := List.exists_cons_of_ne_nil hne
    exact Nat.ne_of_gt (List.length_pos_of_mem (hclnt e List.mem_cons_self))
  obtain ⟨v', pkt', r, hloop, hmap⟩ := @keyShareLoop_wires Key kex v.peerSupportedGroups v.groups
    es _ (Nat.lt_succ_of_le (KeyShareEntry.length_le_wires es)) [] (by omega) hclnt v
  rw [tlsExtSrvrParseKeyShare, Prog.onSnd_bind_of_ok hget, Prog.get_bind,
    Prog.ensure_of_pos hgroups, Prog.pure_bind]
  have hrun : keyShareLoop kex v.peerSupportedGroups v.groups
      ((rPacketBufInit (KeyShareEntry.wires es)).remaining + 1) false
      (v, rPacketBufInit (KeyShareEntry.wires es)) = (r, (v', pkt')) := hloop
  simp only [hrun]
  rw [Prog.onFst_bind_of_ok (Prog.modify_apply _ _)]
  refine ⟨v', ⟨past ++ (Bytes.ofNat 2 (KeyShareEntry.wires es).length ++ KeyShareEntry.wires es),
    []⟩, r, ?_, hmap⟩
  cases r <;> rfl

/-- A server that sends a share has derived the handshake secret. -/
theorem tlsExtSrvrConstructKeyShare_wrote {lib : TlsLib} {generate : ℕ → Option Key}
    {v v' : TlsKex Key} {pkt t : WPacket} {ret : ExtReturn} (hmax : pkt.maxsize < 2 ^ 31)
    (h : tlsExtSrvrConstructKeyShare lib kex generate (v, pkt) = (.ok ret, (v', t))) :
    ∃ ckey skey cipher pms, v.peerKexchKey = some ckey ∧ generate ckey.group = some skey ∧
      v.handshakeCipher = some cipher ∧ kex.derive skey ckey = some pms ∧
      v.secretOf lib cipher.digest pms = some (v'.handshakeSecret.get cipher.digest.size) ∧
      v'.groupId = v.groupId ∧ v'.handshakeCipher = v.handshakeCipher ∧
      ∃ e : KeyShareEntry, e.group = v.groupId ∧ e.point = kex.encodedPoint skey ∧
        pkt.Appends e.wire t := by
  rw [tlsExtSrvrConstructKeyShare, Prog.get_bind] at h
  obtain ⟨ckey, hckey, h⟩ := Prog.ofOption_bind_eq_ok.mp h
  obtain ⟨_, mid, hput, h⟩ := Prog.onSnd_bind_eq_ok.mp h
  obtain ⟨skey, hskey, h⟩ := Prog.ofOption_bind_eq_ok.mp h
  obtain ⟨hpoint, h⟩ := Prog.ensure_bind_eq_ok.mp h
  obtain ⟨_, written, hcopy, h⟩ := Prog.onSnd_bind_eq_ok.mp h
  rw [Prog.onFst_bind_of_ok (Prog.modify_apply _ _)] at h
  obtain ⟨_, derived, hderive, h⟩ := Prog.onFst_bind_eq_ok.mp h
  cases h
  obtain ⟨cipher, pms, hcipher, hpms, hsecret, hframe⟩ := tlsKeyDerive_eq_ok hderive
  obtain ⟨hgroup, hlt⟩ := wPacketPutBytes_appends hput
  obtain ⟨hbytes, hlen⟩ := wPacketSubMemcpy_appends (hgroup.maxsize ▸ hmax) hcopy
  refine ⟨ckey, skey, cipher, pms, hckey, hskey, hcipher, hpms, hsecret, ?_, ?_,
    ⟨v.groupId, kex.encodedPoint skey, hlt, hpoint, hlen⟩, rfl, rfl, hgroup.trans hbytes⟩
  · rw [hframe]
  · rw [hframe]

end Server

section Agreement

variable {Key : Type} {lib : TlsLib} {kex : TlsKexLib Key}

/-- The client refuses a share of another group than that of its last share. -/
theorem tlsExtClntParseKeyShare_of_ne {c : TlsKex Key} {e : KeyShareEntry}
    (hgroup : e.group ≠ c.groupId) (past : List UInt8) :
    (tlsExtClntParseKeyShare lib kex (c, ⟨past, e.wire⟩)).1 = .error .ret := by
  have hpoint := e.point_lt
  rw [tlsExtClntParseKeyShare, Prog.get_bind]
  cases hkey : c.kexchKey with
  | none =>
    rw [Prog.ofOption_none, Prog.fail_bind]
    rfl
  | some ckey =>
    have hget := @rPacketGetData_append past (Bytes.ofNat 2 e.point.length ++ e.point) 2 _
      e.group_lt (by rw [List.length_append, Bytes.ofNat_length]; omega)
    have hgroups : c.groups.length ≠ 0 := fun hzero =>
      c.groups_ne_nil (List.length_eq_zero_iff.mp hzero)
    rw [Prog.ofOption_some, Prog.pure_bind, KeyShareEntry.wire, rPacketGet2,
      Prog.onSnd_bind_of_ok hget, Prog.ensure_of_pos hgroups, Prog.pure_bind]
    by_cases hmem : e.group ∈ c.shareGroups
    · rw [Prog.ensure_of_pos hmem, Prog.pure_bind, Prog.ensure_of_neg hgroup, Prog.fail_bind]
      rfl
    · rw [Prog.ensure_of_neg hmem, Prog.fail_bind]
      rfl

/-- The client derives the handshake secret from a share of its last group. -/
theorem tlsExtClntParseKeyShare_of_eq {c : TlsKex Key} {ckey : Key} {e : KeyShareEntry}
    {cipher : TlsCipher} {pms secret : List UInt8} (hkey : c.kexchKey = some ckey)
    (hmem : e.group ∈ c.shareGroups) (hgroup : e.group = c.groupId)
    (haccepts : kex.accepts (kex.group ckey) e.point = true)
    (hcipher : c.handshakeCipher = some cipher)
    (hderive : kex.derive ckey ⟨kex.group ckey, e.point⟩ = some pms)
    (hsecret : c.secretOf lib cipher.digest pms = some secret) (past : List UInt8) : ∃ c' pkt',
    tlsExtClntParseKeyShare lib kex (c, ⟨past, e.wire⟩) = (.ok (), (c', pkt')) ∧
      c'.handshakeSecret.get cipher.digest.size = secret ∧ c'.groupId = c.groupId := by
  have hpoint := e.point_lt
  have hget := @rPacketGetData_append past (Bytes.ofNat 2 e.point.length ++ e.point) 2 _
    e.group_lt (by rw [List.length_append, Bytes.ofNat_length]; omega)
  have hlen := @rPacketGetData_append (past ++ Bytes.ofNat 2 e.group) e.point 2 _ e.point_lt
    (by omega)
  have hpull := @rPacketPull_append (past ++ Bytes.ofNat 2 e.group ++ Bytes.ofNat 2 e.point.length)
    e.point [] (by simp)
  have hgroups : c.groups.length ≠ 0 := fun hzero =>
    c.groups_ne_nil (List.length_eq_zero_iff.mp hzero)
  obtain ⟨c', hrun, hget', hframe⟩ := tlsKeyDerive_of_some hcipher hderive hsecret
  rw [List.append_nil] at hpull
  rw [tlsExtClntParseKeyShare, Prog.get_bind, hkey, Prog.ofOption_some, Prog.pure_bind,
    KeyShareEntry.wire, rPacketGet2, Prog.onSnd_bind_of_ok hget, Prog.ensure_of_pos hgroups,
    Prog.pure_bind, Prog.ensure_of_pos hmem, Prog.pure_bind, Prog.ensure_of_pos hgroup,
    Prog.pure_bind, Prog.onSnd_bind_of_ok hlen, Prog.get_bind, Prog.onSnd_bind_of_ok hpull,
    List.take_length, Prog.ensure_of_pos haccepts, Prog.pure_bind, Prog.onFst_bind_of_ok hrun]
  refine ⟨_, _, rfl, hget', ?_⟩
  rw [hframe]
  rfl

/-- The extension of a client that has no key yet holds a share of a new key of its first group for
each group that it sends. -/
theorem tlsExtClntConstructKeyShare_wrote {generate : ℕ → Option Key} {c c' : TlsKex Key}
    {pkt t : WPacket} {ret : ExtReturn} (hmax : pkt.maxsize < 2 ^ 31) (hfresh : c.kexchKey = none)
    (h : tlsExtClntConstructKeyShare kex generate (c, pkt) = (.ok ret, (c', t))) :
    ∃ key id es, generate (c.groups.head c.groups_ne_nil) = some key ∧
      c.shareGroups.getLast? = some id ∧ c' = { c with kexchKey := some key, groupId := id } ∧
      es.map KeyShareEntry.group = c.shareGroups ∧
      (∀ e ∈ es, e.point = kex.encodedPoint key) ∧
      (KeyShareEntry.wires es).length < 2 ^ 16 ∧
      pkt.Appends (Bytes.ofNat 2 (KeyShareEntry.wires es).length ++ KeyShareEntry.wires es) t := by
  obtain ⟨ids, hids⟩ := TlsKex.shareGroups_eq c.groups_ne_nil
  obtain ⟨_, opened, hstart, h⟩ := Prog.onSnd_bind_eq_ok.mp h
  rw [Prog.get_bind] at h
  obtain ⟨_, h⟩ := Prog.ensure_bind_eq_ok.mp h
  obtain ⟨_, ⟨mid, filled⟩, hadd, h⟩ := Prog.bind_eq_ok.mp h
  obtain ⟨_, closed, hclose, h⟩ := Prog.onSnd_bind_eq_ok.mp h
  cases h
  have hopened := wPacketStartSubBytes_opened hstart
  dsimp only at hadd
  rw [hids] at hadd
  obtain ⟨key, hkey, hc', es, hgroups, hpoints, happends⟩ :=
    addKeyShares_wrote (hopened.maxsize ▸ hmax) hadd
  obtain ⟨hwritten, hsize⟩ := wPacketClose_appends (hopened.append happends) hmax hclose
  rw [List.nil_append] at hwritten hsize
  rw [TlsKex.shareKey, hfresh] at hkey
  refine ⟨key, (c.groups.head c.groups_ne_nil :: ids).getLast (List.cons_ne_nil _ _), es, hkey, ?_,
    hc', ?_, hpoints, hsize, hwritten⟩
  · rw [hids]
    exact List.getLast?_eq_getLast_of_ne_nil _
  · rw [hids]
    exact hgroups

/-- A later state of the same connection: routines in between do not touch its keys and groups. -/
structure TlsKex.Later (s t : TlsKex Key) : Prop where
  /-- The groups. -/
  groups : t.groups = s.groups
  /-- The groups with a share. -/
  shareGroups : t.shareGroups = s.shareGroups
  /-- The own key. -/
  kexchKey : t.kexchKey = s.kexchKey
  /-- The key of the peer. -/
  peerKexchKey : t.peerKexchKey = s.peerKexchKey
  /-- The group. -/
  groupId : t.groupId = s.groupId

/-- Two ends derive from the same digest and early secret. -/
structure TlsKex.SameSchedule (lib : TlsLib) (c v : TlsKex Key) : Prop where
  /-- The digest of the cipher suite. -/
  digest : c.handshakeCipher.map TlsCipher.digest = v.handshakeCipher.map TlsCipher.digest
  /-- The early secret. -/
  early : ∀ md, c.early lib md = v.early lib md

/-- A server that chose a share chose the first one, because the key belongs to its group. -/
theorem TlsKex.chosen_eq_ok {srvrgroups : List ℕ} {es : List KeyShareEntry} {v v' : TlsKex Key}
    {key : Key} (hkex : kex.Lawful) (hpoints : ∀ e ∈ es, e.point = kex.encodedPoint key)
    (hnone : v.peerKexchKey = none) (hsome : v'.peerKexchKey.isSome)
    (h : v.chosen kex srvrgroups es = .ok v') :
    v' = { v with peerKexchKey := some (kex.peerKey key), groupId := kex.group key } := by
  unfold chosen at h
  split at h
  · cases h
    rw [hnone] at hsome
    cases hsome
  · rename_i e hfind
    split_ifs at h with haccepts
    cases h
    have hpoint := hpoints e (List.mem_of_find?_eq_some hfind)
    rw [hpoint, hkex.accepts_iff] at haccepts
    rw [hpoint, ← haccepts.2]
    rfl

/-- What is required of an exchange in which the server has chosen a share: it took the first group
of the client, and a client that accepts the share of the server has the same secret. -/
structure KeyAgreement (lib : TlsLib) (c v₃ : TlsKex Key)
    (run : Except Fail Unit × (TlsKex Key × RPacket)) : Prop where
  /-- The group is the first one of the client. -/
  group : v₃.groupId = c.groups.head c.groups_ne_nil
  /-- The client accepts the share exactly when its last share is one of this group. -/
  accepted : run.1 = .ok () ↔ c.shareGroups.getLast? = some (c.groups.head c.groups_ne_nil)
  /-- Both ends have the same handshake secret and group. -/
  secret : run.1 = .ok () → run.2.1.groupId = v₃.groupId ∧
    ∀ cipher, v₃.handshakeCipher = some cipher →
      run.2.1.handshakeSecret.get cipher.digest.size =
        v₃.handshakeSecret.get cipher.digest.size

/-- The key exchange from the extensions of the client to its secret. A server that accepts the
extensions of a new client and sends a share has chosen the first group of the client. The client
accepts the share exactly when the last group that it sent a share for is also the first one, since
it has one key for all of them, and then both ends have the same handshake secret. -/
theorem keyShare_agreement {generate generate' : ℕ → Option Key}
    {c c₁ c₂ v v₁ v₂ v₃ v₄ : TlsKex Key} {pkt t pkt' t' pkt'' t'' : WPacket}
    {groups shares share past past' past'' : List UInt8} {p p' : RPacket}
    {ret ret' ret'' : ExtReturn} (hkex : kex.Lawful)
    (hgenerate : ∀ group key, generate group = some key → kex.group key = group)
    (hgenerate' : ∀ group key, generate' group = some key → kex.group key = group)
    (hmax : pkt.maxsize < 2 ^ 31) (hmax' : pkt'.maxsize < 2 ^ 31) (hmax'' : pkt''.maxsize < 2 ^ 31)
    (hfresh : c.kexchKey = none) (hfresh' : v.peerKexchKey = none)
    (hgroups : tlsExtClntConstructSupportedGroups (c, pkt) = (.ok ret, (c, t)))
    (hgroupsBytes : pkt.Appends groups t)
    (hshares : tlsExtClntConstructKeyShare kex generate (c, pkt') = (.ok ret', (c₁, t')))
    (hsharesBytes : pkt'.Appends shares t')
    (hparse : tlsExtSrvrParseSupportedGroups (v, ⟨past, groups⟩) = (.ok (), (v₁, p)))
    (hchoose : tlsExtSrvrParseKeyShare kex (v₁, ⟨past', shares⟩) = (.ok (), (v₂, p')))
    (hlater : v₂.Later v₃)
    (hshare : tlsExtSrvrConstructKeyShare lib kex generate' (v₃, pkt'') = (.ok ret'', (v₄, t'')))
    (hshareBytes : pkt''.Appends share t'') (hlater' : c₁.Later c₂)
    (hsame : c₂.SameSchedule lib v₃) :
    KeyAgreement lib c v₄ (tlsExtClntParseKeyShare lib kex (c₂, ⟨past'', share⟩)) := by
  obtain ⟨-, -, hids, hgroupsLen, hgroupsWrote⟩ :=
    tlsExtClntConstructSupportedGroups_wrote hmax hgroups
  obtain ⟨key, id, es, hkey, hlast, hc₁, hes, hpoints, hsharesLen, hsharesWrote⟩ :=
    tlsExtClntConstructKeyShare_wrote hmax' hfresh hshares
  obtain rfl := hgroupsBytes.unique hgroupsWrote
  obtain rfl := hsharesBytes.unique hsharesWrote
  have hkeyGroup : kex.group key = c.groups.head c.groups_ne_nil := hgenerate _ _ hkey
  -- The server has stored the groups of the client.
  obtain ⟨_, hstored⟩ := tlsExtSrvrParseSupportedGroups_wire c.groups_ne_nil hids hgroupsLen v past
  rw [hparse] at hstored
  cases hstored
  have hmem : ∀ e ∈ es, e.group ∈ c.groups := by
    intro e he
    have hgroup : e.group ∈ c.shareGroups := hes ▸ List.mem_map_of_mem he
    exact List.mem_of_mem_take hgroup
  have hesNe : es ≠ [] := by
    rintro rfl
    rw [← hes] at hlast
    cases hlast
  -- It has chosen the key of the client.
  obtain ⟨ckey, skey, cipher, pms, hckey, hskey, hcipher, hpms, hsecret, hgroup₄, hcipher₄, e,
    he, hepoint, heWrote⟩ := tlsExtSrvrConstructKeyShare_wrote hmax'' hshare
  obtain ⟨_, _, r, hrun, hchosen⟩ := @tlsExtSrvrParseKeyShare_wires Key kex es hesNe hsharesLen
    { v with peerSupportedGroups := c.groups } hmem past'
  rw [hchoose] at hrun
  cases hrun
  have hpeer : v₂.peerKexchKey = some ckey := hlater.peerKexchKey.symm.trans hckey
  have hsome : v₂.peerKexchKey.isSome := by
    rw [hpeer]
    rfl
  have hv₂ := TlsKex.chosen_eq_ok hkex hpoints
    (show ({ v with peerSupportedGroups := c.groups } : TlsKex Key).peerKexchKey = none from
      hfresh') hsome (show TlsKex.chosen kex _ es _ = .ok v₂ from hchosen.symm)
  rw [hv₂] at hpeer
  obtain rfl : kex.peerKey key = ckey := Option.some.inj hpeer
  have hskeyGroup : kex.group skey = kex.group key := hgenerate' _ _ hskey
  have hgroup₃ : v₃.groupId = kex.group key := by
    rw [hlater.groupId, hv₂]
  obtain rfl := hshareBytes.unique heWrote
  have hc₂Group : c₂.groupId = id := by
    rw [hlater'.groupId, hc₁]
  -- The client derives the same secret, or it refuses the group.
  by_cases hid : id = c.groups.head c.groups_ne_nil
  · have hc₂Cipher : c₂.handshakeCipher.map TlsCipher.digest = some cipher.digest := by
      rw [hsame.digest, hcipher]
      rfl
    obtain ⟨cipher', hcipher', hdigest⟩ := Option.map_eq_some_iff.mp hc₂Cipher
    have hmemShare : e.group ∈ c₂.shareGroups := by
      rw [hlater'.shareGroups, hc₁, he, hgroup₃, hkeyGroup]
      exact hid ▸ List.mem_of_getLast? hlast
    have haccepts : kex.accepts (kex.group key) e.point = true := by
      rw [hepoint, hkex.accepts_iff]
      exact hskeyGroup
    have hderive : kex.derive key ⟨kex.group key, e.point⟩ = some pms := by
      rw [hepoint, ← hskeyGroup, ← hpms]
      exact hkex.derive_comm key skey hskeyGroup.symm
    have hsecret' : c₂.secretOf lib cipher'.digest pms =
        some (v₄.handshakeSecret.get cipher.digest.size) := by
      rw [← hsecret, hdigest, TlsKex.secretOf, TlsKex.secretOf, hsame.early]
    have hkey₂ : c₂.kexchKey = some key := by
      rw [hlater'.kexchKey, hc₁]
    have hgroup : e.group = c₂.groupId := by
      rw [he, hgroup₃, hkeyGroup, hc₂Group, hid]
    obtain ⟨c', pkt', hrun, hget, hgroup'⟩ := tlsExtClntParseKeyShare_of_eq hkey₂ hmemShare hgroup
      haccepts hcipher' hderive hsecret' past''
    rw [hrun]
    refine ⟨(hgroup₄.trans hgroup₃).trans hkeyGroup, iff_of_true rfl (hid ▸ hlast), ?_⟩
    intro _
    refine ⟨by rw [hgroup', ← hgroup, he, hgroup₄], ?_⟩
    intro cipher'' hcipher''
    obtain rfl : cipher = cipher'' := Option.some.inj (hcipher.symm.trans (hcipher₄ ▸ hcipher''))
    rw [← hdigest]
    exact hdigest ▸ hget
  · have hgroup : e.group ≠ c₂.groupId := by
      rw [he, hgroup₃, hkeyGroup, hc₂Group]
      exact Ne.symm hid
    have herror := @tlsExtClntParseKeyShare_of_ne Key lib kex c₂ e hgroup past''
    refine ⟨(hgroup₄.trans hgroup₃).trans hkeyGroup, iff_of_false ?_ ?_, ?_⟩
    · rw [herror]
      exact nofun
    · intro hlast'
      exact hid (Option.some.inj (hlast.symm.trans hlast'))
    · intro hok
      rw [herror] at hok
      cases hok

end Agreement

/-- The length of an encoded point, as it is for the groups of the source. -/
def pointLength : ℕ → ℕ
  | 29 => 32
  | 23 => 65
  | 30 => 56
  | 25 => 133
  | 24 => 97
  | group => 200 + group

theorem pointLength_injective : Function.Injective pointLength := by
  intro a b h
  unfold pointLength at h
  split at h <;> split at h <;> omega

/-- A library whose keys are their groups, with points of their lengths and one secret for each
group. -/
def lengthKex : TlsKexLib ℕ where
  group := id
  encodedPoint := fun key => List.replicate (pointLength key) 4
  hasParams := fun group => decide (group < 31)
  accepts := fun group point => decide (point.length = pointLength group)
  derive := fun key peer =>
    if peer.group = key then some (List.replicate 32 (UInt8.ofNat key)) else none

theorem lengthKex_lawful : lengthKex.Lawful := by
  constructor
  · intro key group
    change decide ((List.replicate (pointLength key) (4 : UInt8)).length = pointLength group) =
      true ↔ key = group
    rw [List.length_replicate, decide_eq_true_iff]
    exact pointLength_injective.eq_iff
  · intro a b (hgroup : a = b)
    rw [hgroup]

/-- The first bytes of an input, as many as a digest has. A short input is continued with ones. -/
def firstBytes (md : QuicDigest) (bytes : List UInt8) : List UInt8 :=
  (bytes ++ List.replicate md.size 1).take md.size

theorem firstBytes_length (md : QuicDigest) (bytes : List UInt8) :
    (firstBytes md bytes).length = md.size := by
  rw [firstBytes, List.length_take, List.length_append, List.length_replicate]
  exact min_eq_left (Nat.le_add_left _ _)

/-- A library whose digests and keys are the first bytes of their inputs. -/
def firstBytesLib : TlsLib where
  digest := firstBytes
  digest_length := fun md bytes => firstBytes_length md bytes
  hmac := fun md key bytes => firstBytes md (key ++ bytes)
  hmac_length := fun md key bytes => firstBytes_length md (key ++ bytes)
  hkdfExtract := fun md salt key => some (firstBytes md (salt ++ key))
  hkdfExtract_length := by
    intro md salt key out h
    cases h
    exact firstBytes_length md (salt ++ key)

/-- An end with the default groups, before its handshake. -/
def defaultKex : TlsKex ℕ where
  supportedGroups := []
  keyShareMaxGroupIdx := 0
  peerSupportedGroups := []
  kexchKey := none
  peerKexchKey := none
  groupId := 0
  handshakeCipher := some ⟨0x1301, 3, .sha256⟩
  hit := false
  earlySecret := TlsSecret.zero
  handshakeSecret := TlsSecret.zero

/-- Two ends with the default groups agree on X25519. -/
theorem keyShare_agreement_x25519 : ∃ v₄ run, KeyAgreement firstBytesLib defaultKex v₄ run ∧
    run.1 = .ok () ∧ v₄.groupId = 29 := by
  have hok {α σ : Type} {r : Except Fail α × σ} {a : α} (h : r.1 = .ok a) : r = (.ok a, r.2) :=
    Prod.ext h rfl
  let pkt := wPacketStaticBufInit 100
  let groups := tlsExtClntConstructSupportedGroups (defaultKex, pkt)
  let shares := tlsExtClntConstructKeyShare lengthKex some (defaultKex, pkt)
  let stored := tlsExtSrvrParseSupportedGroups (defaultKex, ⟨[], groups.2.2.buf⟩)
  let chosen := tlsExtSrvrParseKeyShare lengthKex (stored.2.1, ⟨[], shares.2.2.buf⟩)
  let share := tlsExtSrvrConstructKeyShare firstBytesLib lengthKex some (chosen.2.1, pkt)
  have hgroups : groups = (.ok .sent, (defaultKex, groups.2.2)) := by
    have hrun : groups = (.ok .sent, (groups.2.1, groups.2.2)) := hok (by decide +kernel)
    obtain ⟨-, hsame, -⟩ := tlsExtClntConstructSupportedGroups_wrote (by decide) hrun
    exact hsame ▸ hrun
  have hagree := @keyShare_agreement ℕ firstBytesLib lengthKex some some defaultKex shares.2.1
    shares.2.1 defaultKex stored.2.1 chosen.2.1 chosen.2.1 share.2.1 pkt groups.2.2 pkt shares.2.2
    pkt share.2.2 groups.2.2.buf shares.2.2.buf share.2.2.buf [] [] [] stored.2.2 chosen.2.2
    .sent .sent .sent lengthKex_lawful (fun group key h => (Option.some.inj h).symm)
    (fun group key h => (Option.some.inj h).symm) (by decide) (by decide) (by decide) rfl rfl
    hgroups ⟨rfl, by decide +kernel, by decide +kernel, by decide +kernel⟩
    (hok (by decide +kernel)) ⟨rfl, by decide +kernel, by decide +kernel, by decide +kernel⟩
    (hok (by decide +kernel)) (hok (by decide +kernel)) ⟨rfl, rfl, rfl, rfl, rfl⟩
    (hok (by decide +kernel)) ⟨rfl, by decide +kernel, by decide +kernel, by decide +kernel⟩
    ⟨rfl, rfl, rfl, rfl, rfl⟩ ⟨by decide +kernel, fun md => ?_⟩
  · exact ⟨_, _, hagree, hagree.accepted.mpr (by decide +kernel), hagree.group.trans (by decide)⟩
  · have hc : ¬ shares.2.1.hit = true := by decide +kernel
    have hv : ¬ chosen.2.1.hit = true := by decide +kernel
    rw [TlsKex.early, TlsKex.early, if_neg hc, if_neg hv]

end Tbquic
