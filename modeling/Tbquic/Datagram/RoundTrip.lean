import Tbquic.Datagram.Coalesced
import Tbquic.Datagram.Sender
import Tbquic.Lib.Trace

/-!
# Long headers between two endpoints

An endpoint reads the long headers that its peer writes. It takes over the connection IDs that it
has not yet agreed on, and compares the others. A client does not read a long header once its peer
has chosen an empty connection ID.
-/

namespace Tbquic

namespace PktRecv

variable {κ : Type} (calls : PacketCalls κ)

/-- `QuicPacketRead` with a packet that has nothing behind its header. -/
def quicHeaderRead : Prog Fail (PktRecv κ) QuicPktType := do
  let flags ← onPkt rPacketGet1
  let (type, chosen) ← quicPktHeaderParse calls flags
  quicUpdateDcid chosen type
  pure type

/-- The decoders of Initial packets can be created for the version and the connection ID of a
sender. -/
def CreatesDecoders (sender : HeaderSource) : Prop :=
  ∀ other, ∃ other', calls.createInitialDecoders other sender.version sender.dcid = some other'

end PktRecv

/-- The length of a connection ID. -/
def CidLength (cid : List UInt8) : Prop :=
  cid = [] ∨ quicMinCidLength ≤ cid.length ∧ cid.length ≤ quicMaxCidLength

/-- Connection IDs of these lengths have a length of one byte. -/
theorem CidLength.lt {cid : List UInt8} (h : CidLength cid) : cid.length < 256 := by
  rcases h with rfl | ⟨-, h⟩
  · decide
  · exact h.trans_lt (by decide)

/-- The endpoints agree on the version and on the connection IDs, as far as the receiver knows
them. A server that knows neither connection ID has not read a packet yet. -/
structure Agrees {κ : Type} (sender : HeaderSource) (conn : HeaderConn κ) : Prop where
  /-- The version. -/
  version : conn.version = sender.version
  /-- A server has connection IDs of the length that the sender uses. -/
  cidLen : conn.server = true → conn.cidLen.toNat = sender.dcid.length
  /-- The connection ID of the receiver. -/
  scid : conn.server = false ∨ conn.scidInited = true → conn.scid.val = sender.dcid
  /-- A server without a connection ID has yet to take it over. -/
  noScid : conn.server = true → conn.scidInited = false → conn.scid.val = []
  /-- The connection ID of the sender. -/
  dcid : conn.dcidInited = true → conn.dcid = sender.scid
  /-- A server that does not know the connection ID of the sender has yet to take it over. -/
  noDcid : conn.server = true → conn.dcidInited = false → conn.dcid = []

namespace HeaderConn

variable {κ : Type}

/-- The connection ID of this endpoint is the one that its peer uses. -/
def withScid (conn : HeaderConn κ) (scid : LocalCid) (other : κ) : HeaderConn κ :=
  { conn with scid, scidInited := conn.server || conn.scidInited, other }

/-- The connection ID of the peer is the one that the peer uses. -/
def withDcid (conn : HeaderConn κ) (dcid : List UInt8) (inited : Bool) : HeaderConn κ :=
  { conn with dcid, dcidInited := conn.dcidInited || inited }

end HeaderConn

namespace PktRecv

section Fields

variable {κ : Type} {past bytes rest : List UInt8} {conn : HeaderConn κ}

/-- A packet in front of a connection. -/
theorem onPkt_of_ok {α : Type} {read : Prog Fail RPacket α} {pkt pkt' : RPacket} {a : α}
    (conn : HeaderConn κ) (h : read pkt = (.ok a, pkt')) :
    onPkt read (PktRecv.mk pkt conn) = (.ok a, ⟨pkt', conn⟩) :=
  Prog.zoom_of_ok h

/-- Bytes that are there are read. -/
theorem getBytes_append (hrest : rest.length < 2 ^ 31) :
    onPkt (rPacketGetBytes bytes.length) (PktRecv.mk ⟨past, bytes ++ rest⟩ conn) =
      (.ok bytes, ⟨⟨past ++ bytes, rest⟩, conn⟩) :=
  onPkt_of_ok conn (rPacketGetBytes_append past bytes hrest)

/-- A length that is there is read. -/
theorem getLength_cons (hbytes : bytes.length < 256) (hrest : rest.length < 2 ^ 31) :
    onPkt rPacketGet1 (PktRecv.mk ⟨past, UInt8.ofNat bytes.length :: rest⟩ conn) =
      (.ok bytes.length, ⟨⟨past ++ [UInt8.ofNat bytes.length], rest⟩, conn⟩) := by
  have hread : onPkt rPacketGet1 (PktRecv.mk ⟨past, UInt8.ofNat bytes.length :: rest⟩ conn) = _ :=
    onPkt_of_ok conn (rPacketGet1_cons hrest)
  rwa [UInt8.toNat_ofNat', Nat.mod_eq_of_lt hbytes] at hread

end Fields

section Ids

variable {κ : Type} (calls : PacketCalls κ) {sender : HeaderSource} {conn : HeaderConn κ}
  {past rest : List UInt8}

/-- A connection that already has its connection ID stays as it is. -/
theorem withScid_self {scid : LocalCid} (hscid : conn.scid = scid)
    (hinited : conn.server = false ∨ conn.scidInited = true) (other : κ) :
    conn.withScid scid other = { conn with other } := by
  have hflag : (conn.server || conn.scidInited) = conn.scidInited := by
    rcases hinited with h | h
    · rw [h, Bool.false_or]
    · rw [h, Bool.or_true]
  rw [HeaderConn.withScid, hflag, ← hscid]

/-- A connection ID that this endpoint knows is accepted. -/
theorem scidCmp_self {s : PktRecv κ} {data : List UInt8} (h : s.conn.scid.val = data) :
    scidCmp calls data s = (.ok (), s) := by
  rw [scidCmp, Prog.get_bind, Prog.ensure_of_pos (Or.inl h)]
  rfl

/-- A connection ID of the peer that this endpoint knows is accepted. -/
theorem dcidCmp_self {s : PktRecv κ} {data : List UInt8} (h : s.conn.dcid = data) :
    dcidCmp calls data s = (.ok (), s) := by
  rw [dcidCmp, Prog.get_bind, Prog.ensure_of_pos (Or.inl h)]
  rfl

/-- A server takes over the connection ID that its peer uses, or compares it. -/
theorem srvrParseDcid_of_agrees (hcalls : CreatesDecoders calls sender)
    (hagrees : Agrees sender conn) (hserver : conn.server = true)
    (hlen : sender.dcid.length < 256) (hrest : rest.length < 2 ^ 31) (past : List UInt8) :
    ∃ other, quicSrvrParseDcid calls sender.dcid.length ⟨⟨past, sender.dcid ++ rest⟩, conn⟩ =
      (.ok (), ⟨⟨past ++ sender.dcid, rest⟩, conn.withScid ⟨sender.dcid, hlen⟩ other⟩) := by
  obtain ⟨other, hother⟩ := hcalls conn.other
  rw [← hagrees.version] at hother
  have hcidLen := hagrees.cidLen hserver
  refine ⟨other, ?_⟩
  rw [quicSrvrParseDcid, Prog.bind_of_ok (getBytes_append hrest), Prog.get_bind, hother,
    Prog.ofOption_some, Prog.pure_bind, setConn, Prog.modify_bind]
  by_cases hinited : conn.scidInited = true
  · have hscid : conn.scid = ⟨sender.dcid, hlen⟩ := Subtype.ext (hagrees.scid (Or.inr hinited))
    rw [withScid_self hscid (Or.inr hinited)]
    by_cases hzero : conn.cidLen = 0
    · have hempty : sender.dcid.length = 0 := by
        rw [← hcidLen, hzero]
        rfl
      rw [if_pos hzero, if_pos hinited, Prog.ensure_of_pos hempty]
      rfl
    · rw [if_neg hzero, if_neg (fun h => absurd (hinited.symm.trans h) Bool.noConfusion)]
      exact scidCmp_self calls (hagrees.scid (Or.inr hinited))
  · have hfalse : conn.scidInited = false := Bool.eq_false_of_not_eq_true hinited
    have hnew : conn.withScid ⟨sender.dcid, hlen⟩ other =
        { conn with scid := ⟨sender.dcid, hlen⟩, scidInited := true, other } := by
      rw [HeaderConn.withScid, hserver, Bool.true_or]
    rw [hnew]
    by_cases hzero : conn.cidLen = 0
    · have hempty : sender.dcid = [] := by
        rw [← List.length_eq_zero_iff, ← hcidLen, hzero]
        rfl
      have hscid : conn.scid = ⟨sender.dcid, hlen⟩ :=
        Subtype.ext ((hagrees.noScid hserver hfalse).trans hempty.symm)
      rw [if_pos hzero, if_neg hinited, setConn, ← hscid]
      rfl
    · rw [if_neg hzero, if_pos hfalse, srvrTakeScid, Prog.get_bind, dif_pos hcidLen.symm]
      rfl

/-- A client compares the connection ID that its peer uses. -/
theorem clntParseDcid_of_agrees (hagrees : Agrees sender conn) (hclient : conn.server = false)
    (hrest : rest.length < 2 ^ 31) :
    quicClntParseDcid calls sender.dcid.length ⟨⟨past, sender.dcid ++ rest⟩, conn⟩ =
      (.ok (), ⟨⟨past ++ sender.dcid, rest⟩, conn⟩) := by
  rw [quicClntParseDcid, Prog.bind_of_ok (getBytes_append hrest)]
  exact scidCmp_self calls (hagrees.scid (Or.inl hclient))

/-- The connection ID of this endpoint is read. -/
theorem parseDcid_of_agrees (hcalls : CreatesDecoders calls sender) (hagrees : Agrees sender conn)
    (hlen : sender.dcid.length < 256) (hrest : rest.length < 2 ^ 31) (past : List UInt8) :
    ∃ other, parseDcid calls sender.dcid.length ⟨⟨past, sender.dcid ++ rest⟩, conn⟩ =
      (.ok (), ⟨⟨past ++ sender.dcid, rest⟩, conn.withScid ⟨sender.dcid, hlen⟩ other⟩) := by
  rw [parseDcid, Prog.get_bind]
  cases hrole : conn.server with
  | true =>
    rw [if_pos rfl]
    exact srvrParseDcid_of_agrees calls hcalls hagrees hrole hlen hrest past
  | false =>
    have hscid : conn.scid = ⟨sender.dcid, hlen⟩ := Subtype.ext (hagrees.scid (Or.inl hrole))
    refine ⟨conn.other, ?_⟩
    rw [if_neg Bool.noConfusion, withScid_self hscid (Or.inl hrole)]
    exact clntParseDcid_of_agrees calls hagrees hrole hrest

/-- A connection that already has the connection ID of its peer stays as it is. -/
theorem withDcid_self {dcid : List UInt8} (hdcid : conn.dcid = dcid)
    (hinited : conn.dcidInited = true) (inited : Bool) : conn.withDcid dcid inited = conn := by
  rw [HeaderConn.withDcid, ← hdcid, hinited, Bool.true_or, ← hinited]

/-- A server takes over the connection ID of its peer, or compares it. -/
theorem srvrParseScid_of_known (hdcid : conn.dcidInited = true → conn.dcid = sender.scid)
    (hno : conn.dcidInited = false → conn.dcid = []) (hrest : rest.length < 2 ^ 31) :
    quicSrvrParseScid calls sender.scid.length ⟨⟨past, sender.scid ++ rest⟩, conn⟩ =
      (.ok false, ⟨⟨past ++ sender.scid, rest⟩, conn.withDcid sender.scid true⟩) := by
  rw [quicSrvrParseScid, Prog.bind_of_ok (getBytes_append hrest), Prog.get_bind]
  by_cases hinited : conn.dcidInited = true
  · rw [withDcid_self (hdcid hinited) hinited,
      if_neg (fun h => absurd (hinited.symm.trans h) Bool.noConfusion)]
    by_cases hempty : conn.dcid.length = sender.scid.length ∧ sender.scid.length = 0
    · rw [if_pos hempty]
      rfl
    · rw [if_neg hempty, Prog.bind_of_ok (dcidCmp_self calls (hdcid hinited))]
      rfl
  · have hfalse : conn.dcidInited = false := Bool.eq_false_of_not_eq_true hinited
    rw [if_pos hfalse, setConn, Prog.modify_bind, HeaderConn.withDcid, Bool.or_true]
    have htake : (if sender.scid.length = 0 then conn.dcid else sender.scid) = sender.scid := by
      split_ifs with hempty
      · rw [hno hfalse, List.length_eq_zero_iff.mp hempty]
      · rfl
    rw [htake]
    rfl

/-- A client compares the connection ID that its peer has chosen. -/
theorem clntParseScid_of_known (hne : conn.dcid ≠ []) (hinited : conn.dcidInited = true)
    (hdcid : conn.dcid = sender.scid) (hrest : rest.length < 2 ^ 31) :
    quicClntParseScid calls sender.scid.length ⟨⟨past, sender.scid ++ rest⟩, conn⟩ =
      (.ok false, ⟨⟨past ++ sender.scid, rest⟩, conn⟩) := by
  rw [quicClntParseScid, Prog.get_bind, Prog.ensure_of_pos hne, Prog.pure_bind,
    if_neg (fun h => absurd (hinited.symm.trans h) Bool.noConfusion), if_neg,
    Prog.bind_of_ok (getBytes_append hrest), Prog.bind_of_ok (dcidCmp_self calls hdcid)]
  · rfl
  · rintro ⟨hlen, hzero⟩
    exact hne (List.length_eq_zero_iff.mp (hlen.trans hzero))

/-- A client leaves the choice to a peer that has not chosen yet. -/
theorem clntParseScid_of_unknown (hne : conn.dcid ≠ []) (hinited : conn.dcidInited = false)
    (pkt : RPacket) (len : ℕ) :
    quicClntParseScid calls len ⟨pkt, conn⟩ = (.ok true, ⟨pkt, conn⟩) := by
  rw [quicClntParseScid, Prog.get_bind, Prog.ensure_of_pos hne, Prog.pure_bind, if_pos hinited]
  rfl

/-- A client without a connection ID of its peer fails. -/
theorem clntParseScid_of_empty (hempty : conn.dcid = []) (pkt : RPacket) (len : ℕ) :
    quicClntParseScid calls len ⟨pkt, conn⟩ = (.error .ret, ⟨pkt, conn⟩) := by
  rw [quicClntParseScid, Prog.get_bind, Prog.ensure_of_neg (fun h => h hempty), Prog.fail_bind]
  rfl

/-- `QuicLPacketHeaderParse` behind the connection ID of this endpoint. -/
def peerIdParse : Prog Fail (PktRecv κ) (Option (List UInt8)) := do
  let len ← onPkt rPacketGet1
  let chosen ← parseScid calls len
  if chosen then do
    let data ← onPkt (rPacketGetBytes len)
    pure (some data)
  else pure none

/-- The connection ID of the peer is read, and taken over when the packet is done. -/
theorem peerIdParse_of_known (hdcid : conn.dcidInited = true → conn.dcid = sender.scid)
    (hno : conn.server = true → conn.dcidInited = false → conn.dcid = [])
    (hne : conn.server = false → conn.dcid ≠ []) (hlen : sender.scid.length < 256)
    (hrest : (sender.scid ++ rest).length < 2 ^ 31) (past : List UInt8) :
    ∃ chosen conn', peerIdParse calls
        ⟨⟨past, UInt8.ofNat sender.scid.length :: (sender.scid ++ rest)⟩, conn⟩ =
      (.ok chosen, ⟨⟨past ++ UInt8.ofNat sender.scid.length :: sender.scid, rest⟩, conn'⟩) ∧
      ∀ (type : QuicPktType) (pkt : RPacket), quicUpdateDcid chosen type ⟨pkt, conn'⟩ =
        (.ok (), ⟨pkt, conn.withDcid sender.scid (conn.server || decide (type = .initial))⟩) := by
  have hrest' : rest.length < 2 ^ 31 := by
    rw [List.length_append] at hrest
    omega
  have hpast : past ++ UInt8.ofNat sender.scid.length :: sender.scid =
      past ++ [UInt8.ofNat sender.scid.length] ++ sender.scid := by
    rw [List.append_assoc, List.singleton_append]
  rw [peerIdParse, Prog.bind_of_ok (getLength_cons hlen hrest), hpast, parseScid]
  cases hrole : conn.server with
  | true =>
    refine ⟨none, conn.withDcid sender.scid true, ?_, fun type pkt => ?_⟩
    · rw [Prog.bind_assoc, Prog.get_bind, if_pos hrole,
        Prog.bind_of_ok (srvrParseScid_of_known calls hdcid (hno hrole) hrest')]
      rfl
    · rw [Bool.true_or]
      rfl
  | false =>
    by_cases hinited : conn.dcidInited = true
    · refine ⟨none, conn, ?_, fun type pkt => ?_⟩
      · rw [Prog.bind_assoc, Prog.get_bind, if_neg (hrole ▸ Bool.noConfusion),
          Prog.bind_of_ok (clntParseScid_of_known calls (hne hrole) hinited (hdcid hinited) hrest')]
        rfl
      · rw [withDcid_self (hdcid hinited) hinited]
        rfl
    · have hfalse : conn.dcidInited = false := Bool.eq_false_of_not_eq_true hinited
      refine ⟨some sender.scid, conn, ?_, fun type pkt => ?_⟩
      · rw [Prog.bind_assoc, Prog.get_bind, if_neg (hrole ▸ Bool.noConfusion),
          Prog.bind_of_ok (clntParseScid_of_unknown calls (hne hrole) hfalse _ _), if_pos rfl,
          Prog.bind_of_ok (getBytes_append hrest')]
        rfl
      · rw [Bool.false_or]
        rfl

/-- A client that knows no connection ID of its peer does not read one. -/
theorem peerIdParse_of_empty (hclient : conn.server = false) (hempty : conn.dcid = [])
    (hlen : sender.scid.length < 256) (hrest : rest.length < 2 ^ 31) :
    peerIdParse calls ⟨⟨past, UInt8.ofNat sender.scid.length :: rest⟩, conn⟩ =
      (.error .ret, ⟨⟨past ++ [UInt8.ofNat sender.scid.length], rest⟩, conn⟩) := by
  rw [peerIdParse, Prog.bind_of_ok (getLength_cons hlen hrest), parseScid, Prog.bind_assoc,
    Prog.get_bind, if_neg (hclient ▸ Bool.noConfusion)]
  exact Prog.bind_of_error (clntParseScid_of_empty calls hempty _ _)

end Ids

section Header

variable {κ : Type} (calls : PacketCalls κ) {sender : HeaderSource} {conn : HeaderConn κ}
  {past behind : List UInt8}

/-- The bytes of a long header behind the first and in front of the connection ID of the sender. -/
def idsBefore (sender : HeaderSource) : List UInt8 :=
  Bytes.ofNat 4 sender.version ++ UInt8.ofNat sender.dcid.length :: sender.dcid

/-- The bytes of a long header behind the first. -/
theorem longIds_eq (sender : HeaderSource) :
    sender.longIds = idsBefore sender ++ UInt8.ofNat sender.scid.length :: sender.scid := by
  rw [HeaderSource.longIds, idsBefore, List.append_assoc, List.cons_append]

/-- A long header is read up to the connection ID of the sender. -/
theorem longHeaderParse_idsBefore (hcalls : CreatesDecoders calls sender)
    (hagrees : Agrees sender conn) (hversion : sender.version < 2 ^ 32)
    (hdcid : CidLength sender.dcid) (hbehind : (sender.longIds ++ behind).length < 2 ^ 31)
    (past : List UInt8) :
    ∃ other, quicLPacketHeaderParse calls ⟨⟨past, sender.longIds ++ behind⟩, conn⟩ =
      peerIdParse calls ⟨⟨past ++ idsBefore sender,
        UInt8.ofNat sender.scid.length :: (sender.scid ++ behind)⟩,
        conn.withScid ⟨sender.dcid, hdcid.lt⟩ other⟩ := by
  set rest := UInt8.ofNat sender.scid.length :: (sender.scid ++ behind) with hrest
  have hbytes : sender.longIds ++ behind =
      Bytes.ofNat 4 sender.version ++
        UInt8.ofNat sender.dcid.length :: (sender.dcid ++ rest) := by
    rw [longIds_eq, idsBefore, hrest]
    simp only [List.append_assoc, List.cons_append]
  rw [hbytes] at hbehind ⊢
  have hids : (UInt8.ofNat sender.dcid.length :: (sender.dcid ++ rest)).length < 2 ^ 31 := by
    rw [List.length_append] at hbehind
    omega
  have hid : (sender.dcid ++ rest).length < 2 ^ 31 := Nat.lt_of_succ_lt hids
  have hlast : rest.length < 2 ^ 31 := by
    rw [List.length_append] at hid
    omega
  have hsize : sender.version < 256 ^ 4 := hversion.trans_eq (by decide)
  have hget4 := onPkt_of_ok conn (rPacketGetData_append past hsize hids)
  obtain ⟨other, hparse⟩ := parseDcid_of_agrees calls hcalls hagrees hdcid.lt hlast
    (past ++ Bytes.ofNat 4 sender.version ++ [UInt8.ofNat sender.dcid.length])
  have hlong : ¬ (sender.version = quicVersion1 ∧ quicMaxCidLength < sender.dcid.length) := by
    rintro ⟨-, hlong⟩
    rcases hdcid with h | h
    · rw [h] at hlong
      cases hlong
    · exact absurd h.2 (not_le.mpr hlong)
  have hshort : ¬ (0 < sender.dcid.length ∧ sender.dcid.length < quicMinCidLength) := by
    rintro ⟨hpos, hshort⟩
    rcases hdcid with h | h
    · rw [h] at hpos
      cases hpos
    · exact absurd h.1 (not_le.mpr hshort)
  have hpast : past ++ idsBefore sender = past ++ Bytes.ofNat 4 sender.version ++
      [UInt8.ofNat sender.dcid.length] ++ sender.dcid := by
    rw [idsBefore, ← List.append_assoc, List.append_assoc _ [_], List.singleton_append]
  refine ⟨other, ?_⟩
  rw [quicLPacketHeaderParse, rPacketGet4, Prog.bind_of_ok hget4,
    Prog.bind_of_ok (getLength_cons hdcid.lt hid), Prog.get_bind,
    Prog.ensure_of_pos hagrees.version.symm, Prog.pure_bind, Prog.ensure_of_pos hlong,
    Prog.pure_bind, Prog.ensure_of_pos hshort, Prog.pure_bind, Prog.bind_of_ok hparse, hpast]
  rfl

/-- The first byte of a long header tells the type of its packet. -/
theorem longFirst_type (sender : HeaderSource) {type : QuicPktType} (htype : type ≠ .oneRtt) :
    isLongPacket (sender.longFirst type).toNat = true ∧
      longPacketType (sender.longFirst type).toNat = type := by
  have hall (type : QuicPktType) (htype : type ≠ .oneRtt) (n : Fin 4) :
      isLongPacket (0xC0 + lPacketType type * 16 + n.val) = true ∧
        longPacketType (0xC0 + lPacketType type * 16 + n.val) = type := by
    cases type with
    | oneRtt => exact absurd rfl htype
    | _ => revert n; decide
  rw [longFirst_toNat]
  exact hall type htype sender.pktNumLen

/-- A receiver that agrees with the sender reads its long headers. -/
theorem quicHeaderRead_of_agrees (hcalls : CreatesDecoders calls sender)
    (hagrees : Agrees sender conn) (hversion : sender.version < 2 ^ 32)
    (hdcid : CidLength sender.dcid) (hscid : CidLength sender.scid) {type : QuicPktType}
    (htype : type ≠ .oneRtt) (hne : conn.server = false → conn.dcid ≠ [])
    (hbehind : (sender.longIds ++ behind).length < 2 ^ 31) (past : List UInt8) :
    ∃ other, quicHeaderRead calls
        ⟨⟨past, (sender.longFirst type :: sender.longIds) ++ behind⟩, conn⟩ =
      (.ok type, ⟨⟨past ++ sender.longFirst type :: sender.longIds, behind⟩,
        (conn.withScid ⟨sender.dcid, hdcid.lt⟩ other).withDcid sender.scid
          (conn.server || decide (type = .initial))⟩) := by
  obtain ⟨hlong, hlongType⟩ := longFirst_type sender htype
  obtain ⟨other, hbefore⟩ := longHeaderParse_idsBefore calls hcalls hagrees hversion hdcid hbehind
    (past ++ [sender.longFirst type])
  have hscidBehind : (sender.scid ++ behind).length < 2 ^ 31 := by
    rw [longIds_eq, List.append_assoc, List.length_append, List.cons_append,
      List.length_cons] at hbehind
    omega
  have hknown : (conn.withScid ⟨sender.dcid, hdcid.lt⟩ other).dcidInited = true →
      (conn.withScid ⟨sender.dcid, hdcid.lt⟩ other).dcid = sender.scid := hagrees.dcid
  obtain ⟨chosen, conn', hpeer, hupdate⟩ := peerIdParse_of_known calls hknown hagrees.noDcid hne
    hscid.lt hscidBehind (past ++ [sender.longFirst type] ++ idsBefore sender)
  have hpast : past ++ sender.longFirst type :: sender.longIds =
      past ++ [sender.longFirst type] ++ idsBefore sender ++
        UInt8.ofNat sender.scid.length :: sender.scid := by
    rw [longIds_eq]
    simp only [List.append_assoc, List.cons_append, List.nil_append]
  refine ⟨other, ?_⟩
  have hget1 : onPkt rPacketGet1
      (PktRecv.mk ⟨past, sender.longFirst type :: (sender.longIds ++ behind)⟩ conn) = _ :=
    onPkt_of_ok conn (rPacketGet1_cons hbehind)
  have hheader : quicPktHeaderParse calls (sender.longFirst type).toNat
      ⟨⟨past ++ [sender.longFirst type], sender.longIds ++ behind⟩, conn⟩ =
        (.ok (type, chosen),
          ⟨⟨past ++ sender.longFirst type :: sender.longIds, behind⟩, conn'⟩) := by
    rw [quicPktHeaderParse, if_pos hlong, Prog.bind_of_ok (hbefore.trans hpeer), hlongType, hpast]
    rfl
  rw [quicHeaderRead, List.cons_append, Prog.bind_of_ok hget1, Prog.bind_of_ok hheader]
  exact Prog.bind_of_ok (hupdate type _)

/-- A client that knows no connection ID of its peer reads no long header. -/
theorem quicHeaderRead_of_empty (hcalls : CreatesDecoders calls sender)
    (hagrees : Agrees sender conn) (hversion : sender.version < 2 ^ 32)
    (hdcid : CidLength sender.dcid) (hscid : CidLength sender.scid) {type : QuicPktType}
    (htype : type ≠ .oneRtt) (hclient : conn.server = false) (hempty : conn.dcid = [])
    (hbehind : (sender.longIds ++ behind).length < 2 ^ 31) (past : List UInt8) :
    (quicHeaderRead calls ⟨⟨past, (sender.longFirst type :: sender.longIds) ++ behind⟩, conn⟩).1 =
      .error .ret := by
  obtain ⟨hlong, -⟩ := longFirst_type sender htype
  obtain ⟨other, hbefore⟩ := longHeaderParse_idsBefore calls hcalls hagrees hversion hdcid hbehind
    (past ++ [sender.longFirst type])
  have hscidBehind : (sender.scid ++ behind).length < 2 ^ 31 := by
    rw [longIds_eq, List.append_assoc, List.length_append, List.cons_append,
      List.length_cons] at hbehind
    omega
  have hpeer := (hbefore.trans (peerIdParse_of_empty calls hclient hempty hscid.lt hscidBehind))
  have hget1 : onPkt rPacketGet1
      (PktRecv.mk ⟨past, sender.longFirst type :: (sender.longIds ++ behind)⟩ conn) = _ :=
    onPkt_of_ok conn (rPacketGet1_cons hbehind)
  rw [quicHeaderRead, List.cons_append, Prog.bind_of_ok hget1, quicPktHeaderParse, if_pos hlong,
    Prog.bind_assoc, Prog.bind_of_error hpeer]

end Header

end PktRecv

section RoundTrip

open PktRecv

variable {κ : Type} (calls : PacketCalls κ)

/-- A receiver reads a header and nothing behind it, gets the type of the packet, has the
connection IDs of the sender, and agrees with the sender on what comes next. -/
def ReadsBack (sender : HeaderSource) (type : QuicPktType) (conn : HeaderConn κ)
    (header : List UInt8) : Prop :=
  ∀ past behind : List UInt8, (header ++ behind).length < 2 ^ 31 →
    ∃ conn', quicHeaderRead calls ⟨⟨past, header ++ behind⟩, conn⟩ =
        (.ok type, ⟨⟨past ++ header, behind⟩, conn'⟩) ∧
      conn'.scid.val = sender.dcid ∧ conn'.dcid = sender.scid ∧ Agrees sender conn'

/-- A receiver that has read a header agrees with the sender. -/
theorem agrees_read {sender : HeaderSource} {conn : HeaderConn κ} (h : Agrees sender conn)
    (hlen : sender.dcid.length < 256) (other : κ) (inited : Bool) :
    Agrees sender ((conn.withScid ⟨sender.dcid, hlen⟩ other).withDcid sender.scid
      (conn.server || inited)) := by
  refine ⟨h.version, h.cidLen, fun _ => rfl, fun hserver hno => ?_, fun _ => rfl,
    fun hserver hno => ?_⟩
  · have hno : (conn.server || conn.scidInited) = false := hno
    have hserver : conn.server = true := hserver
    rw [hserver, Bool.true_or] at hno
    cases hno
  · have hno : (conn.dcidInited || (conn.server || inited)) = false := hno
    have hserver : conn.server = true := hserver
    rw [hserver, Bool.true_or, Bool.or_true] at hno
    cases hno

/-- The bytes that `QuicLHeaderGen` wrote are a long header. -/
theorem quicLHeaderGen_bytes {sender : HeaderSource} {type : QuicPktType} {pkt written : WPacket}
    (hmax : pkt.maxsize < 2 ^ 31)
    (hwrite : quicLHeaderGen sender type sender.numLen pkt = (.ok (), written)) :
    sender.Encodable ∧
      written.buf.drop pkt.written = sender.longFirst type :: sender.longIds := by
  obtain ⟨hencodable, hbuf, -⟩ := (writes_longHeader sender type pkt hmax).of_ok hwrite
  refine ⟨hencodable, ?_⟩
  rw [hbuf, WPacket.written, List.drop_left]

/-- A receiver reads the long header that its peer wrote when it is a server, or a client that
does not know its peer by an empty connection ID. -/
theorem longHeader_readsBack_iff {sender : HeaderSource} (hcalls : CreatesDecoders calls sender)
    (hdcid : CidLength sender.dcid) (hscid : CidLength sender.scid) {type : QuicPktType}
    (htype : type ≠ .oneRtt) {pkt written : WPacket} (hmax : pkt.maxsize < 2 ^ 31)
    (hwrite : quicLHeaderGen sender type sender.numLen pkt = (.ok (), written))
    {conn : HeaderConn κ} (hagrees : Agrees sender conn) :
    ReadsBack calls sender type conn (written.buf.drop pkt.written) ↔
      (conn.server = false → conn.dcid ≠ []) := by
  obtain ⟨hencodable, hbytes⟩ := quicLHeaderGen_bytes hmax hwrite
  rw [hbytes]
  constructor
  · intro h hclient hempty
    have hshort : ((sender.longFirst type :: sender.longIds) ++ []).length < 2 ^ 31 := by
      have hdcidLen := hdcid.lt
      have hscidLen := hscid.lt
      rw [List.append_nil, HeaderSource.longIds]
      simp only [List.length_append, List.length_cons, Bytes.ofNat_length]
      omega
    have herror := quicHeaderRead_of_empty calls hcalls hagrees hencodable.version hdcid hscid
      htype hclient hempty (Nat.lt_of_succ_lt hshort) []
    obtain ⟨conn', hrun, -⟩ := h [] [] hshort
    rw [hrun] at herror
    cases herror
  · intro hne past behind hbehind
    have hbehind' : (sender.longIds ++ behind).length < 2 ^ 31 := Nat.lt_of_succ_lt hbehind
    obtain ⟨other, hrun⟩ := quicHeaderRead_of_agrees calls hcalls hagrees hencodable.version hdcid
      hscid htype hne hbehind' past
    exact ⟨_, hrun, rfl, rfl, agrees_read hagrees hdcid.lt other _⟩

/-- A client whose peer has chosen the given connection ID, or is about to choose one. -/
def plainClient (dcid : List UInt8) (dcidInited : Bool) : HeaderConn Unit :=
  { ReadSm.plainConn .handshake with
    server := false
    scid := ⟨List.replicate 8 7, by decide⟩
    dcid := dcid
    dcidInited := dcidInited }

/-- A client agrees with the sender of packets to its connection ID. -/
theorem plainClient_agrees {dcid scid : List UInt8} {dcidInited : Bool}
    (hdcid : dcidInited = true → dcid = scid) (pktNumLen : Fin 4) :
    Agrees { plainSource pktNumLen with scid } (plainClient dcid dcidInited) := by
  refine ⟨rfl, fun h => ?_, fun _ => rfl, fun h => ?_, hdcid, fun h => ?_⟩ <;> cases h

/-- A client takes over the connection ID of the first Handshake packet. -/
theorem firstHandshake_readsBack :
    ReadsBack ReadSm.plainCalls (plainSource 0) .handshake (plainClient (List.replicate 8 1) false)
      ((quicLHeaderGen (plainSource 0) .handshake 1 (wPacketStaticBufInit 1250)).2.buf.drop
        (wPacketStaticBufInit 1250).written) := by
  have hwrite : quicLHeaderGen (plainSource 0) .handshake (plainSource 0).numLen
      (wPacketStaticBufInit 1250) = (.ok (), (quicLHeaderGen (plainSource 0) .handshake 1
        (wPacketStaticBufInit 1250)).2) := by
    refine Prod.ext ?_ rfl
    decide +kernel
  refine (longHeader_readsBack_iff ReadSm.plainCalls (fun _ => ⟨(), rfl⟩) (Or.inr ?_)
    (Or.inr ?_) ?_ ?_ hwrite (plainClient_agrees (fun h => (by cases h)) 0)).mpr fun _ => ?_
  · decide
  · decide
  · decide
  · decide
  · decide

/-- A client that knows its peer by an empty connection ID does not read its Handshake packets. -/
theorem emptyId_not_readsBack :
    ∃ sender : HeaderSource, CidLength sender.dcid ∧ CidLength sender.scid ∧
      Agrees sender (plainClient [] true) ∧
      (quicLHeaderGen sender .handshake sender.numLen (wPacketStaticBufInit 1250)).1 = .ok () ∧
      ¬ ReadsBack ReadSm.plainCalls sender .handshake (plainClient [] true)
        ((quicLHeaderGen sender .handshake sender.numLen (wPacketStaticBufInit 1250)).2.buf.drop
          (wPacketStaticBufInit 1250).written) := by
  refine ⟨{ plainSource 0 with scid := [] }, Or.inr (by decide), Or.inl rfl,
    plainClient_agrees (fun _ => rfl) 0, by decide +kernel, fun h => ?_⟩
  obtain ⟨conn', hrun, -⟩ := h [] [] (by decide +kernel)
  have herror : (quicHeaderRead ReadSm.plainCalls (PktRecv.mk ⟨[],
      (quicLHeaderGen { plainSource 0 with scid := [] } .handshake 1
        (wPacketStaticBufInit 1250)).2.buf.drop 0 ++ []⟩ (plainClient [] true))).1 =
      .error .ret := by
    decide +kernel
  have hok := congrArg Prod.fst hrun
  cases hok.symm.trans herror

/-- The next long header of a sender is read. It comes with the type of the packet, the two bits
for the length of its packet number, and the bytes behind it. -/
def headerStep (sender : HeaderSource) (conn : HeaderConn κ)
    (next : QuicPktType × Fin 4 × List UInt8) : Option (HeaderConn κ) :=
  let source := { sender with pktNumLen := next.2.1 }
  match quicHeaderRead calls
      ⟨⟨[], (source.longFirst next.1 :: source.longIds) ++ next.2.2⟩, conn⟩ with
  | (.ok _, t) => some t.conn
  | (.error _, _) => none

/-- A receiver reads all long headers of a sender with a connection ID, whatever their order. -/
theorem longHeaders_read {sender : HeaderSource} (hcalls : CreatesDecoders calls sender)
    (hversion : sender.version < 2 ^ 32) (hdcid : CidLength sender.dcid)
    (hscid : CidLength sender.scid) (hne : sender.scid ≠ []) {conn : HeaderConn κ}
    (hagrees : Agrees sender conn) (hfirst : conn.server = false → conn.dcid ≠ [])
    {packets : List (QuicPktType × Fin 4 × List UInt8)}
    (hpackets : Trace.Along (headerStep calls sender)
      (fun _ next => next.1 ≠ .oneRtt ∧ (sender.longIds ++ next.2.2).length < 2 ^ 31)
      conn packets) :
    ∃ conn', Trace.run (headerStep calls sender) conn packets = some conn' ∧
      Agrees sender conn' := by
  have hstep (conn : HeaderConn κ) (next : QuicPktType × Fin 4 × List UInt8)
      (hinv : Agrees sender conn ∧ (conn.server = false → conn.dcid ≠ []))
      (hnext : next.1 ≠ .oneRtt ∧ (sender.longIds ++ next.2.2).length < 2 ^ 31) :
      ∃ conn', headerStep calls sender conn next = some conn' ∧
        Agrees sender conn' ∧ (conn'.server = false → conn'.dcid ≠ []) := by
    obtain ⟨type, pktNumLen, behind⟩ := next
    obtain ⟨hconn, hknown⟩ := hinv
    have hsource : Agrees { sender with pktNumLen } conn :=
      ⟨hconn.version, hconn.cidLen, hconn.scid, hconn.noScid, hconn.dcid, hconn.noDcid⟩
    have hcreates : CreatesDecoders calls { sender with pktNumLen } := hcalls
    obtain ⟨other, hread⟩ := quicHeaderRead_of_agrees calls hcreates hsource hversion hdcid hscid
      hnext.1 hknown hnext.2 []
    refine ⟨_, ?_, agrees_read hconn hdcid.lt other (decide (type = .initial)), fun _ => hne⟩
    rw [headerStep]
    dsimp only
    rw [hread]
  obtain ⟨conn', hrun, hinv, -⟩ :=
    Trace.run_total_along _ hstep ⟨hagrees, hfirst⟩ hpackets
  exact ⟨conn', hrun, hinv⟩

end RoundTrip

end Tbquic
