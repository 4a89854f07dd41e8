import Tbquic.Tls.TransParams

/-!
# What transport parameters say

A well-formed list of parameters is read in step with its declared lengths. The numbers of both
tables survive the way to the peer, and the stateless reset token of a server does not.
-/

namespace Tbquic

open Prog

/-- The smallest encoding of a number is one of its encodings. -/
theorem exists_varLength {n : ℕ} (hn : n < 2 ^ 62) :
    ∃ v : VarLength, v.bytes = varLengthBytes n ∧ v.value = n := by
  have hsize := varLengthSize_bounds n
  have hlen : (varLengthBytes n ++ []).length < 2 ^ 31 := by
    rw [List.append_nil, varLengthBytes_length]
    omega
  have hread := quicVariableLengthDecode_append [] hn hlen
  rcases quicVariableLengthDecode_cases [] hlen with ⟨v, after, hrest, hdecode⟩ |
    ⟨-, pkt, hdecode⟩
  · rw [hread] at hdecode
    obtain ⟨hvalue, hpkt⟩ := Prod.mk.inj hdecode
    have hafter : [] = after := congrArg RPacket.rest hpkt
    rw [← hafter, List.append_nil, List.append_nil] at hrest
    exact ⟨v, hrest.symm, (Except.ok.inj hvalue).symm⟩
  · rw [hread] at hdecode
    cases hdecode

/-- A number or bytes are read from the extension. -/
theorem QtpState.reading_of_ok {α : Type} {m : Prog Fail RPacket α} {pkt pkt' : RPacket}
    {param : TransParams} {a : α} (h : m pkt = (.ok a, pkt')) :
    QtpState.reading m { pkt, peerParam := param } = (.ok a, { pkt := pkt', peerParam := param }) :=
  zoom_of_ok h

namespace QtpParam

/-- The connection ID that a client names is the one in its packets. -/
def SourceMatches (server : Bool) (tls : QtpTls) (p : QtpParam) : Prop :=
  server = true → p.type.value = quicTransParamInitialScid →
    tls.dcid.length = 0 ∨ tls.dcid = p.value

instance (server : Bool) (tls : QtpTls) (p : QtpParam) : Decidable (p.SourceMatches server tls) :=
  inferInstanceAs (Decidable (_ → _ → _))

/-- The parsers of the tables: numbers, and on a server the source connection ID. -/
theorem qtpParser_eq (server : Bool) (type : ℕ) :
    qtpParser (transportParam server) type =
      match integerOffset type with
      | some offset => some (.integer, offset)
      | none =>
        if server = true ∧ type = quicTransParamInitialScid then some (.sourceConnId, 0)
        else none := by
  by_cases hknown : type ∈ (clientTransportParam ++ serverTransportParam).map
      TlsExtQtpDefinition.type
  · revert type
    cases server <;> decide
  · have hfind : (transportParam server).find? (fun p => p.type = type) = none := by
      refine List.find?_eq_none.mpr fun p hp htype => hknown ?_
      rw [← of_decide_eq_true htype]
      refine List.mem_map_of_mem (List.mem_append.mpr ?_)
      cases server
      · exact .inl hp
      · exact .inr hp
    have hinteger : integerOffset type = none := by
      refine Option.map_eq_none_iff.mpr (List.find?_eq_none.mpr fun p hp htype => hknown ?_)
      rw [← of_decide_eq_true htype]
      have hall : ∀ p ∈ integers, p.1 ∈ (clientTransportParam ++ serverTransportParam).map
          TlsExtQtpDefinition.type := by
        decide
      exact hall p hp
    have hscid : type ≠ quicTransParamInitialScid := by
      rintro rfl
      exact hknown (by decide)
    rw [hinteger, qtpParser, hfind]
    exact (if_neg fun h => hscid h.2).symm

/-- A well-formed parameter is read with its declared length, and its number is stored. -/
theorem qtpRound_append {server : Bool} {tls : QtpTls} {p : QtpParam} {past rest : List UInt8}
    {param : TransParams} (hp : p.WellFormed) (hlen : (p.bytes ++ rest).length < 2 ^ 31) :
    qtpRound tls (transportParam server)
      { pkt := { past, rest := p.bytes ++ rest }, peerParam := param } =
      (if p.SourceMatches server tls then .ok () else .error .ret,
        { pkt := { past := past ++ p.bytes, rest }, peerParam := p.store param }) := by
  rw [bytes] at hlen ⊢
  rw [List.append_assoc, List.append_assoc] at hlen ⊢
  have hlen' : (p.length.bytes ++ (p.value ++ rest)).length < 2 ^ 31 := by
    rw [List.length_append] at hlen
    omega
  have hrest : rest.length < 2 ^ 31 := by
    simp only [List.length_append] at hlen
    omega
  have htype := p.type.decode_append past hlen
  have hlength := p.length.decode_append (past ++ p.type.bytes) hlen'
  rw [qtpRound, bind_of_ok (QtpState.reading_of_ok htype),
    bind_of_ok (QtpState.reading_of_ok hlength), qtpParser_eq]
  cases hinteger : integerOffset p.type.value with
  | some offset =>
    obtain ⟨v, hv⟩ := hp.1 (by rw [hinteger]; rfl)
    have hmatches : p.SourceMatches server tls := by
      intro _ hscid
      rw [hscid] at hinteger
      cases hinteger
    have hvalue := v.decode_append (past ++ p.type.bytes ++ p.length.bytes)
      (show (v.bytes ++ rest).length < 2 ^ 31 by
        rw [← hv]
        rw [List.length_append] at hlen'
        omega)
    rw [← hv] at hvalue
    rw [if_pos hmatches, store, hinteger]
    dsimp only
    rw [QtpParse.run, bind_of_ok (QtpState.reading_of_ok hvalue), hv]
    simp only [List.append_assoc]
    rfl
  | none =>
    rw [store, hinteger]
    dsimp only
    by_cases hscid : server = true ∧ p.type.value = quicTransParamInitialScid
    · rw [if_pos hscid]
      have hget := rPacketGetBytes_append (past ++ p.type.bytes ++ p.length.bytes) p.value hrest
      rw [p.value_length] at hget
      dsimp only
      rw [QtpParse.run, bind_of_ok (QtpState.reading_of_ok hget)]
      simp only [List.append_assoc]
      have hiff : p.SourceMatches server tls ↔ tls.dcid.length = 0 ∨ tls.dcid = p.value :=
        ⟨fun h => h hscid.1 hscid.2, fun h _ _ => h⟩
      by_cases hempty : tls.dcid.length = 0
      · rw [if_pos hempty, if_pos (hiff.mpr (.inl hempty))]
        rfl
      · rw [if_neg hempty]
        by_cases heq : tls.dcid = p.value
        · rw [ensure_of_pos heq, if_pos (hiff.mpr (.inr heq))]
          rfl
        · rw [ensure_of_neg heq, if_neg fun h => (hiff.mp h).elim hempty heq]
          rfl
    · have hmatches : p.SourceMatches server tls := fun h h' => absurd ⟨h, h'⟩ hscid
      rw [if_neg hscid, if_pos hmatches]
      have hpull := rPacketPull_append (past ++ p.type.bytes ++ p.length.bytes) p.value hrest
      rw [p.value_length] at hpull
      dsimp only
      rw [QtpState.reading_of_ok hpull]
      simp only [List.append_assoc]

theorem listBytes_cons (p : QtpParam) (ps : List QtpParam) :
    listBytes (p :: ps) = p.bytes ++ listBytes ps :=
  List.flatMap_cons

/-- A parameter has at least a byte. -/
theorem bytes_pos (p : QtpParam) : 0 < p.bytes.length := by
  rw [bytes, VarLength.bytes, List.cons_append, List.length_cons]
  omega

/-- A well-formed list is read, unless it names another source connection ID. -/
theorem qtpParseLoop_listBytes {server : Bool} {tls : QtpTls} {ps : List QtpParam}
    (hps : ∀ p ∈ ps, p.WellFormed) {fuel : ℕ} (hfuel : (listBytes ps).length < fuel)
    (hlen : (listBytes ps).length < 2 ^ 31) (past : List UInt8) (param : TransParams) :
    ((∀ p ∈ ps, p.SourceMatches server tls) →
      qtpParseLoop tls (transportParam server) fuel
        { pkt := { past, rest := listBytes ps }, peerParam := param } =
        (.ok (), { pkt := { past := past ++ listBytes ps, rest := [] },
                   peerParam := ps.foldl store param })) ∧
    (¬ (∀ p ∈ ps, p.SourceMatches server tls) →
      ∃ t, qtpParseLoop tls (transportParam server) fuel
        { pkt := { past, rest := listBytes ps }, peerParam := param } = (.error .ret, t)) := by
  induction ps generalizing fuel past param with
  | nil =>
    obtain ⟨fuel, rfl⟩ := Nat.exists_eq_succ_of_ne_zero (Nat.ne_zero_of_lt hfuel)
    refine ⟨fun _ => ?_, fun h => absurd (fun p hp => (by cases hp)) h⟩
    have hempty : ({ past, rest := listBytes [] } : RPacket).remaining = 0 := rfl
    rw [qtpParseLoop, get_bind, if_pos hempty, listBytes, List.flatMap_nil, List.append_nil]
    rfl
  | cons p ps ih =>
    obtain ⟨fuel, rfl⟩ := Nat.exists_eq_succ_of_ne_zero (Nat.ne_zero_of_lt hfuel)
    have hpos := p.bytes_pos
    rw [listBytes_cons, List.length_append] at hlen hfuel
    have hround := @qtpRound_append server tls p past (listBytes ps) param
      (hps p List.mem_cons_self)
      (by rw [List.length_append]; omega)
    have hremaining : ¬ ({ past, rest := p.bytes ++ listBytes ps } : RPacket).remaining = 0 := by
      change ¬ (p.bytes ++ listBytes ps).length = 0
      rw [List.length_append]
      omega
    rw [listBytes_cons, qtpParseLoop, get_bind, if_neg hremaining, List.forall_mem_cons]
    by_cases hmatches : p.SourceMatches server tls
    · rw [if_pos hmatches] at hround
      rw [bind_of_ok hround, and_iff_right hmatches, List.foldl_cons, ← List.append_assoc]
      exact ih (fun p hp => hps p (List.mem_cons_of_mem _ hp)) (by omega) (by omega) _ _
    · rw [if_neg hmatches] at hround
      rw [bind_of_error hround]
      exact ⟨fun h => absurd h.1 hmatches, fun _ => ⟨_, rfl⟩⟩

/-- A well-formed list is read to its end exactly when its source connection IDs match. -/
theorem tlsParseQtpExtension_listBytes {server : Bool} {tls : QtpTls} {ps : List QtpParam}
    (hps : ∀ p ∈ ps, p.WellFormed) (hlen : (listBytes ps).length < 2 ^ 31) (param : TransParams) :
    ((∀ p ∈ ps, p.SourceMatches server tls) →
      tlsParseQtpExtension tls (transportParam server)
        { pkt := rPacketBufInit (listBytes ps), peerParam := param } =
        (.ok (), { pkt := { past := listBytes ps, rest := [] },
                   peerParam := ps.foldl store param })) ∧
    (¬ (∀ p ∈ ps, p.SourceMatches server tls) →
      ∃ t, tlsParseQtpExtension tls (transportParam server)
        { pkt := rPacketBufInit (listBytes ps), peerParam := param } = (.error .ret, t)) := by
  rw [tlsParseQtpExtension, get_bind]
  exact qtpParseLoop_listBytes hps (Nat.lt_succ_self _) hlen [] param

/-- Numbers leave the token alone. -/
theorem store_token (param : TransParams) (p : QtpParam) :
    (p.store param).statelessResetToken = param.statelessResetToken := by
  unfold store
  split <;> rfl

theorem foldl_store_token (ps : List QtpParam) (param : TransParams) :
    (ps.foldl store param).statelessResetToken = param.statelessResetToken := by
  induction ps generalizing param with
  | nil => rfl
  | cons p ps ih => rw [List.foldl_cons, ih, store_token]

/-- The stateless reset token of a list, the last one if there are several. -/
def token (ps : List QtpParam) : Option (List UInt8) :=
  (ps.filter fun p => p.type.value = quicTransParamStatelessResetToken).getLast?.map value

/-- The token of a list with one parameter more. -/
theorem token_concat (ps : List QtpParam) (p : QtpParam) :
    token (ps ++ [p]) =
      if p.type.value = quicTransParamStatelessResetToken then some p.value else token ps := by
  rw [token, List.filter_append]
  split
  · rename_i h
    rw [List.filter_cons_of_pos (by simpa using h), List.filter_nil, List.getLast?_concat]
    rfl
  · rename_i h
    rw [List.filter_cons_of_neg (by simpa using h), List.filter_nil, List.append_nil]
    rfl

/-- A token is no number. -/
theorem store_of_token {p : QtpParam} (h : p.type.value = quicTransParamStatelessResetToken)
    (param : TransParams) : p.store param = param := by
  rw [store, h]
  rfl

/-- A server records the numbers. -/
theorem record_server (param : TransParams) (p : QtpParam) :
    p.record true param = p.store param := by
  unfold record
  split
  · rename_i h
    exact (store_of_token h param).symm
  · rfl

/-- A client records the numbers and the last token. -/
theorem foldl_record_client (ps : List QtpParam) (param : TransParams) :
    ps.foldl (record false) param = { ps.foldl store param with
      statelessResetToken := (token ps).getD param.statelessResetToken } := by
  induction ps using List.reverseRecOn with
  | nil => rfl
  | append_singleton ps p ih =>
    rw [List.foldl_append, List.foldl_append, ih, token_concat]
    simp only [List.foldl_cons, List.foldl_nil]
    unfold record
    split
    · rename_i h
      rw [store_of_token h]
      rfl
    · unfold store
      split <;> rfl

end QtpParam

/-- A list is read in step with its declared lengths, and what the table of the role lists is
recorded. -/
structure ParsesRight (server : Bool) (tls : QtpTls) (param : TransParams)
    (ps : List QtpParam) : Prop where
  /-- Every parameter consumes its declared length. -/
  consumes : ∀ front p back, ps = front ++ p :: back → ∀ peerParam,
    (qtpRound tls (transportParam server)
      ⟨⟨QtpParam.listBytes front, p.bytes ++ QtpParam.listBytes back⟩, peerParam⟩).2.pkt =
      ⟨QtpParam.listBytes front ++ p.bytes, QtpParam.listBytes back⟩
  /-- The list is read to its end, and its parameters are recorded. -/
  records : tlsParseQtpExtension tls (transportParam server)
    ⟨rPacketBufInit (QtpParam.listBytes ps), param⟩ =
    (.ok (), ⟨⟨QtpParam.listBytes ps, []⟩, ps.foldl (QtpParam.record server) param⟩)

/-- On a client the list says no other token than the one that is there. On a server the source
connection ID is that of the packets. -/
def Recordable (server : Bool) (tls : QtpTls) (param : TransParams) (ps : List QtpParam) : Prop :=
  if server then ∀ p ∈ ps, p.SourceMatches true tls
  else ∀ token, QtpParam.token ps = some token → token = param.statelessResetToken

namespace QtpParam

/-- A client checks no source connection ID. -/
theorem sourceMatches_client (tls : QtpTls) (p : QtpParam) : p.SourceMatches false tls :=
  fun h => (by cases h)

/-- A well-formed list is read and recorded exactly when it can be. -/
theorem parsesRight_iff {server : Bool} {tls : QtpTls} {param : TransParams} {ps : List QtpParam}
    (hps : ∀ p ∈ ps, p.WellFormed) (hlen : (listBytes ps).length < 2 ^ 31) :
    ParsesRight server tls param ps ↔ Recordable server tls param ps := by
  have hconsumes (front : List QtpParam) (p : QtpParam) (back : List QtpParam)
      (hsplit : ps = front ++ p :: back) (peerParam : TransParams) :
      (qtpRound tls (transportParam server)
        ⟨⟨listBytes front, p.bytes ++ listBytes back⟩, peerParam⟩).2.pkt =
        ⟨listBytes front ++ p.bytes, listBytes back⟩ := by
    rw [qtpRound_append (hps p (hsplit ▸ List.mem_append_right _ List.mem_cons_self))]
    rw [hsplit, listBytes, List.flatMap_append, List.length_append, List.flatMap_cons] at hlen
    change (p.bytes ++ List.flatMap bytes back).length < 2 ^ 31
    omega
  obtain ⟨hok, herror⟩ := @tlsParseQtpExtension_listBytes server tls _ hps hlen param
  unfold Recordable
  cases server with
  | true =>
    have hrecord : record true = store := funext fun param => funext fun p => record_server param p
    rw [if_pos rfl]
    constructor
    · intro h
      by_contra hno
      obtain ⟨t, ht⟩ := herror hno
      have hrecords := h.records
      rw [ht] at hrecords
      cases hrecords
    · intro h
      refine ⟨hconsumes, ?_⟩
      rw [hrecord]
      exact hok h
  | false =>
    rw [if_neg (by decide)]
    have hread := hok fun p _ => sourceMatches_client tls p
    constructor
    · intro h token htoken
      have hrecords := h.records
      rw [hread] at hrecords
      have hparam := congrArg (fun s => s.2.peerParam.statelessResetToken) hrecords
      dsimp only at hparam
      rw [foldl_store_token, foldl_record_client, htoken] at hparam
      exact hparam.symm
    · intro h
      refine ⟨hconsumes, ?_⟩
      rw [hread, foldl_record_client]
      have htoken : (token ps).getD param.statelessResetToken =
          (ps.foldl store param).statelessResetToken := by
        rw [foldl_store_token]
        cases hsome : token ps with
        | none => rfl
        | some token => exact h token hsome
      rw [htoken]

/-- A parameter whose type, length and value are written one after the other. -/
theorem exists_written {type : ℕ} {value : List UInt8} (htype : type < 2 ^ 62)
    (hvalue : value.length < 2 ^ 62) :
    ∃ p : QtpParam, p.type.value = type ∧ p.value = value ∧
      p.bytes = varLengthBytes type ++ (varLengthBytes value.length ++ value) := by
  obtain ⟨t, ht, rfl⟩ := exists_varLength htype
  obtain ⟨len, hlen, hlength⟩ := exists_varLength hvalue
  exact ⟨⟨t, len, value, hlength.symm⟩, rfl, rfl, by rw [bytes, ht, hlen]⟩

/-- The number of the smallest encoding. -/
theorem number_varLengthBytes {n : ℕ} (hn : n < 2 ^ 62) :
    (∃ v : VarLength, varLengthBytes n = v.bytes) ∧ number (varLengthBytes n) = n := by
  obtain ⟨v, hv, hvalue⟩ := exists_varLength hn
  exact ⟨⟨v, hv.symm⟩, hv ▸ hvalue⟩

end QtpParam

/-- What the construct routines rely on in an entry of a table. -/
structure TlsExtQtpDefinition.Regular (d : TlsExtQtpDefinition) : Prop where
  /-- The type has an encoding. -/
  encodes : d.type < 2 ^ 62
  /-- A type is only written with its value. -/
  checked : d.construct = none → d.check = some .statelessResetToken
  /-- A number has its offset, and zero is not written. -/
  integer : d.construct = some .integer → d.check = some .integer ∧
    quicTransParamGetOffset d.type = QtpParam.integerOffset d.type ∧
    (QtpParam.integerOffset d.type).isSome
  /-- A connection ID is no number and no token. -/
  sourceConnId : d.construct = some .sourceConnId → d.check = none ∧
    QtpParam.integerOffset d.type = none ∧ d.type ≠ quicTransParamStatelessResetToken
  /-- GREASE is checked. -/
  grease : d.construct = some .grease → d.check = some .grease
  /-- The version is checked. -/
  googleVersion : d.construct = some .googleVersion → d.check = some .googleVersion

/-- The tables are regular. -/
theorem transportParam_regular (server : Bool) : ∀ d ∈ transportParam server, d.Regular := by
  have hall : ∀ server : Bool, ∀ d ∈ transportParam server, d.type < 2 ^ 62 ∧
      (d.construct = none → d.check = some .statelessResetToken) ∧
      (d.construct = some .integer → d.check = some .integer ∧
        quicTransParamGetOffset d.type = QtpParam.integerOffset d.type ∧
        (QtpParam.integerOffset d.type).isSome) ∧
      (d.construct = some .sourceConnId → d.check = none ∧
        QtpParam.integerOffset d.type = none ∧ d.type ≠ quicTransParamStatelessResetToken) ∧
      (d.construct = some .grease → d.check = some .grease) ∧
      (d.construct = some .googleVersion → d.check = some .googleVersion) := by
    decide
  intro d hd
  obtain ⟨h₁, h₂, h₃, h₄, h₅, h₆⟩ := hall server d hd
  exact ⟨h₁, h₂, h₃, h₄, h₅, h₆⟩

/-- A number is written for an offset. -/
def QtpSendsWord (tls : QtpTls) (params : List TlsExtQtpDefinition) (offset : ℕ) : Prop :=
  (∃ d ∈ params, d.construct = some .integer ∧ QtpParam.integerOffset d.type = some offset) ∧
    tls.transParam.word offset ≠ 0

/-- What the construct loop writes is a well-formed list that stores the numbers sent. -/
structure QtpSends (tls : QtpTls) (params : List TlsExtQtpDefinition) (offset : ℕ)
    (ps : List QtpParam) : Prop where
  /-- The list is written. -/
  writes : Writes (qtpConstructLoop tls params offset) True (QtpParam.listBytes ps)
  /-- The parameters are well-formed. -/
  wellFormed : ∀ p ∈ ps, p.WellFormed
  /-- The source connection ID is the own one. -/
  source : ∀ p ∈ ps, p.type.value = quicTransParamInitialScid → p.value = tls.scid
  /-- The numbers sent are stored, the others stay. -/
  stores : ∀ param : TransParams, ∀ o,
    (QtpSendsWord tls params o → (ps.foldl QtpParam.store param).word o = tls.transParam.word o) ∧
    (¬ QtpSendsWord tls params o → (ps.foldl QtpParam.store param).word o = param.word o)

section Construct

variable {tls : QtpTls} {d : TlsExtQtpDefinition} {params : List TlsExtQtpDefinition}
  {offset : ℕ} {ps : List QtpParam}

/-- An entry that is not written. -/
theorem QtpSends.skip (h : QtpSends tls params offset ps)
    (hword : ∀ o, d.construct = some .integer → QtpParam.integerOffset d.type = some o →
      tls.transParam.word o = 0) {offset' : ℕ}
    (hloop : qtpConstructLoop tls (d :: params) offset' = qtpConstructLoop tls params offset) :
    QtpSends tls (d :: params) offset' ps := by
  refine ⟨hloop ▸ h.writes, h.wellFormed, h.source, fun param o => ?_⟩
  have hiff : QtpSendsWord tls (d :: params) o ↔ QtpSendsWord tls params o := by
    refine and_congr_left fun hnonzero => ?_
    rw [List.exists_mem_cons_iff]
    exact or_iff_right fun hd => hnonzero (hword o hd.1 hd.2)
  rw [hiff]
  exact h.stores param o

/-- An entry that is written with its value. -/
theorem QtpSends.cons {construct : QtpConstruct} {p : QtpParam} {offset' : ℕ}
    (h : QtpSends tls params offset ps) (hp : p.WellFormed)
    (hsource : p.type.value = quicTransParamInitialScid → p.value = tls.scid)
    (hwrites : Writes (do quicVariableLengthWrite d.type; construct.run tls offset) True p.bytes)
    (hloop : qtpConstructLoop tls (d :: params) offset' = (do
      quicVariableLengthWrite d.type
      construct.run tls offset
      qtpConstructLoop tls params offset))
    (hstores : ∀ param : TransParams, ∀ o,
      (QtpSendsWord tls [d] o → (p.store param).word o = tls.transParam.word o) ∧
      (¬ QtpSendsWord tls [d] o → (p.store param).word o = param.word o)) :
    QtpSends tls (d :: params) offset' (p :: ps) := by
  refine ⟨?_, List.forall_mem_cons.mpr ⟨hp, h.wellFormed⟩,
    List.forall_mem_cons.mpr ⟨hsource, h.source⟩, fun param o => ?_⟩
  · rw [hloop, ← bind_assoc, QtpParam.listBytes_cons]
    exact (hwrites.bind (n := fun _ => _) h.writes).iff (and_iff_left trivial)
  · have hiff : QtpSendsWord tls (d :: params) o ↔
        QtpSendsWord tls [d] o ∨ QtpSendsWord tls params o := by
      rw [QtpSendsWord, QtpSendsWord, QtpSendsWord, ← or_and_right, List.exists_mem_cons_iff]
      simp only [List.mem_singleton, exists_eq_left]
    rw [hiff, List.foldl_cons]
    by_cases hrest : QtpSendsWord tls params o
    · refine ⟨fun _ => (h.stores _ o).1 hrest, fun hno => absurd (.inr hrest) hno⟩
    · rw [(h.stores _ o).2 hrest, or_iff_left hrest]
      exact hstores param o

/-- A number that is written. -/
theorem QtpSends.integer (h : QtpSends tls params offset ps) (hd : d.Regular)
    (hconstruct : d.construct = some .integer)
    (hoffset : (quicTransParamGetOffset d.type).getD 0 = offset)
    (hword : tls.transParam.word offset < 2 ^ 62) (hnonzero : tls.transParam.word offset ≠ 0)
    {offset' : ℕ} : ∃ ps, QtpSends tls (d :: params) offset' ps := by
  obtain ⟨hcheck, hget, hsome⟩ := hd.integer hconstruct
  obtain ⟨o, ho⟩ := Option.isSome_iff_exists.mp hsome
  rw [hget, ho] at hoffset
  change o = offset at hoffset
  subst hoffset
  obtain ⟨hencodes, hnumber⟩ := QtpParam.number_varLengthBytes hword
  have hsize := varLengthSize_bounds (tls.transParam.word o)
  have hlength := varLengthBytes_length (tls.transParam.word o)
  have hvalueLength : (varLengthBytes (tls.transParam.word o)).length < 2 ^ 62 := by omega
  obtain ⟨p, htype, hvalue, hbytes⟩ := QtpParam.exists_written hd.encodes hvalueLength
  refine ⟨p :: ps, @QtpSends.cons _ _ _ _ _ .integer _ _ h
    ⟨fun _ => hvalue ▸ hencodes, fun htoken => ?_⟩
    (fun hscid => ?_) ?_ ?_ fun param o' => ?_⟩
  · rw [htype] at htoken
    rw [htoken] at ho
    cases ho
  · rw [htype] at hscid
    rw [hscid] at ho
    cases ho
  · rw [hbytes]
    have hrun : QtpConstruct.run tls o .integer = (do
        quicVariableLengthWrite (varLengthBytes (tls.transParam.word o)).length
        wPacketMemcpy (varLengthBytes (tls.transParam.word o))) := by
      rw [QtpConstruct.run, quicVariableLengthValueWrite, quicVariableLengthEncode_eq hword,
        ofExcept_ok, pure_bind, ensure_of_pos (by omega), pure_bind]
    rw [hrun]
    refine ((writes_varLength d.type).bind (n := fun _ => _)
      ((writes_varLength _).bind (n := fun _ => _) (writes_memcpy _))).iff
      ⟨fun _ => trivial, fun _ => ⟨hd.encodes, by omega, trivial⟩⟩
  · rw [qtpConstructLoop, hget, ho, hcheck, hconstruct]
    exact if_pos (decide_eq_true hnonzero)
  · have hstore : p.store param = param.set o (tls.transParam.word o) := by
      rw [QtpParam.store, htype, ho, hvalue, hnumber]
    rw [hstore]
    by_cases heq : o' = o
    · subst heq
      refine ⟨fun _ => Function.update_self _ _ _, fun hno => absurd ?_ hno⟩
      exact ⟨⟨d, List.mem_singleton_self _, hconstruct, ho⟩, hnonzero⟩
    · refine ⟨fun hsends => ?_, fun _ => Function.update_of_ne heq _ _⟩
      obtain ⟨⟨d', hd', -, ho'⟩, -⟩ := hsends
      rw [List.mem_singleton.mp hd', ho] at ho'
      exact absurd (Option.some.inj ho').symm heq

/-- A connection ID that is written. -/
theorem QtpSends.sourceConnId (h : QtpSends tls params offset ps) (hd : d.Regular)
    (hconstruct : d.construct = some .sourceConnId) (hscid : tls.scid.length < 2 ^ 62)
    {offset' : ℕ} (hoffset : (quicTransParamGetOffset d.type).getD offset' = offset) :
    ∃ ps, QtpSends tls (d :: params) offset' ps := by
  obtain ⟨hcheck, hnone, htoken⟩ := hd.sourceConnId hconstruct
  obtain ⟨p, htype, hvalue, hbytes⟩ := QtpParam.exists_written hd.encodes hscid
  refine ⟨p :: ps, @QtpSends.cons _ _ _ _ _ .sourceConnId _ _ h ⟨fun hsome => ?_, fun heq => ?_⟩
    (fun _ => hvalue) ?_ ?_ fun param o => ?_⟩
  · rw [htype, hnone] at hsome
    cases hsome
  · exact absurd (htype ▸ heq) htoken
  · rw [hbytes]
    have hrun : QtpConstruct.run tls offset .sourceConnId = (do
        quicVariableLengthWrite tls.scid.length
        wPacketMemcpy tls.scid) := by
      rw [QtpConstruct.run, tlsExtQtpConstructCid]
      split
      · rename_i hempty
        rw [wPacketMemcpy, if_pos hempty]
      · rfl
    rw [hrun]
    refine ((writes_varLength d.type).bind (n := fun _ => _)
      ((writes_varLength _).bind (n := fun _ => _) (writes_memcpy _))).iff
      ⟨fun _ => trivial, fun _ => ⟨hd.encodes, hscid, trivial⟩⟩
  · rw [qtpConstructLoop, hoffset, hcheck, hconstruct]
    exact if_pos rfl
  · have hstore : p.store param = param := by rw [QtpParam.store, htype, hnone]
    rw [hstore]
    refine ⟨fun hsends => ?_, fun _ => rfl⟩
    obtain ⟨⟨d', hd', -, ho⟩, -⟩ := hsends
    rw [List.mem_singleton.mp hd', hnone] at ho
    cases ho

/-- An entry with a check that fails is not written. -/
theorem qtpConstructLoop_of_check {check : QtpCheck} {offset' : ℕ} (hcheck : d.check = some check)
    (hoffset : (quicTransParamGetOffset d.type).getD offset' = offset)
    (hfails : check.passes tls offset = false) :
    qtpConstructLoop tls (d :: params) offset' = qtpConstructLoop tls params offset := by
  rw [qtpConstructLoop, hoffset, hcheck]
  refine if_neg fun hpasses => ?_
  rw [Option.map_some, Option.getD_some, hfails] at hpasses
  cases hpasses

/-- A regular table writes a well-formed list. -/
theorem exists_sends (hparams : ∀ d ∈ params, d.Regular)
    (hword : ∀ o, tls.transParam.word o < 2 ^ 62) (hscid : tls.scid.length < 2 ^ 62)
    (offset : ℕ) : ∃ ps, QtpSends tls params offset ps := by
  induction params generalizing offset with
  | nil =>
    refine ⟨[], writes_nothing, fun p hp => (by cases hp), fun p hp => (by cases hp),
      fun param o => ⟨?_, fun _ => rfl⟩⟩
    rintro ⟨⟨d, hd, -⟩, -⟩
    cases hd
  | cons d params ih =>
    have hd := hparams d List.mem_cons_self
    obtain ⟨ps, hps⟩ := ih (fun d hd => hparams d (List.mem_cons_of_mem _ hd))
      ((quicTransParamGetOffset d.type).getD offset)
    cases hconstruct : d.construct with
    | none =>
      refine ⟨ps, hps.skip (fun o hinteger => ?_)
        (qtpConstructLoop_of_check (hd.checked hconstruct) rfl rfl)⟩
      rw [hconstruct] at hinteger
      cases hinteger
    | some construct =>
      cases construct with
      | integer =>
        obtain ⟨hcheck, hget, hsome⟩ := hd.integer hconstruct
        obtain ⟨o, ho⟩ := Option.isSome_iff_exists.mp hsome
        rw [hget, ho, Option.getD_some] at hps
        have hoffset (n : ℕ) : (quicTransParamGetOffset d.type).getD n = o := by
          rw [hget, ho, Option.getD_some]
        by_cases hzero : tls.transParam.word o = 0
        · refine ⟨ps, hps.skip (fun o' _ ho' => ?_) (qtpConstructLoop_of_check hcheck
            (hoffset offset) (decide_eq_false (not_not.mpr hzero)))⟩
          rw [ho] at ho'
          exact Option.some.inj ho' ▸ hzero
        · exact hps.integer hd hconstruct (hoffset 0) (hword o) hzero
      | sourceConnId => exact hps.sourceConnId hd hconstruct hscid rfl
      | grease =>
        refine ⟨ps, hps.skip (fun o hinteger => ?_)
          (qtpConstructLoop_of_check (hd.grease hconstruct) rfl rfl)⟩
        rw [hconstruct] at hinteger
        cases hinteger
      | googleVersion =>
        refine ⟨ps, hps.skip (fun o hinteger => ?_)
          (qtpConstructLoop_of_check (hd.googleVersion hconstruct) rfl rfl)⟩
        rw [hconstruct] at hinteger
        cases hinteger

end Construct

/-- Both tables write the numbers that have a field. -/
theorem sendsWord_iff {server : Bool} {tls : QtpTls} {o : ℕ} :
    QtpSendsWord tls (transportParam server) o ↔
      o ∈ QtpParam.integers.map Prod.snd ∧ tls.transParam.word o ≠ 0 := by
  refine and_congr_left fun _ => ?_
  constructor
  · rintro ⟨d, -, -, ho⟩
    obtain ⟨p, hp, rfl⟩ := Option.map_eq_some_iff.mp ho
    exact List.mem_map_of_mem (List.mem_of_find?_eq_some hp)
  · have hall : ∀ o ∈ QtpParam.integers.map Prod.snd, ∀ server : Bool,
        ∃ d ∈ transportParam server, d.construct = some .integer ∧
          QtpParam.integerOffset d.type = some o := by
      decide
    exact fun ho => hall o ho server

/-- What an endpoint writes, its peer reads: the numbers that were sent, and the others stay. -/
def RoundTrips (server : Bool) (writer reader : QtpTls) (param : TransParams) : Prop :=
  ∃ bytes, Writes (tlsConstructQtpExtension writer (transportParam server)) True bytes ∧
    (bytes.length < 2 ^ 31 → ∃ t,
      tlsParseQtpExtension reader (transportParam !server) ⟨rPacketBufInit bytes, param⟩ =
        (.ok (), t) ∧ t.pkt.rest = [] ∧
      t.peerParam.statelessResetToken = param.statelessResetToken ∧
      ∀ o, t.peerParam.word o =
        if o ∈ QtpParam.integers.map Prod.snd ∧ writer.transParam.word o ≠ 0 then
          writer.transParam.word o
        else param.word o)

/-- The parameters of an endpoint survive the way to its peer. -/
theorem roundTrips {server : Bool} {writer reader : QtpTls} {param : TransParams}
    (hword : ∀ o, writer.transParam.word o < 2 ^ 62) (hscid : writer.scid.length < 2 ^ 62)
    (hdcid : reader.dcid = [] ∨ reader.dcid = writer.scid) :
    RoundTrips server writer reader param := by
  obtain ⟨ps, hps⟩ := exists_sends (transportParam_regular server) hword hscid 0
  refine ⟨QtpParam.listBytes ps, hps.writes, fun hlen => ⟨_,
    (QtpParam.tlsParseQtpExtension_listBytes hps.wellFormed hlen param).1 fun p hp _ htype => ?_,
    rfl, QtpParam.foldl_store_token ps param, fun o => ?_⟩⟩
  · rcases hdcid with hempty | hdcid
    · exact .inl (by rw [hempty, List.length_nil])
    · exact .inr (hdcid.trans (hps.source p hp htype).symm)
  · by_cases hsends : o ∈ QtpParam.integers.map Prod.snd ∧ writer.transParam.word o ≠ 0
    · rw [if_pos hsends]
      exact (hps.stores param o).1 (sendsWord_iff.mpr hsends)
    · rw [if_neg hsends]
      exact (hps.stores param o).2 fun h => hsends (sendsWord_iff.mp h)

/-- Both roles read what the other one writes, and a well-formed list of any peer is read and
recorded exactly when it can be. -/
theorem transParams_iff (server : Bool) :
    (∀ (writer reader : QtpTls) (param : TransParams),
      (∀ o, writer.transParam.word o < 2 ^ 62) → writer.scid.length < 2 ^ 62 →
      reader.dcid = [] ∨ reader.dcid = writer.scid → RoundTrips server writer reader param) ∧
    ∀ (reader : QtpTls) (param : TransParams) (ps : List QtpParam), (∀ p ∈ ps, p.WellFormed) →
      (QtpParam.listBytes ps).length < 2 ^ 31 →
      (ParsesRight server reader param ps ↔ Recordable server reader param ps) :=
  ⟨fun _ _ _ hword hscid hdcid => roundTrips hword hscid hdcid,
    fun _ _ _ hps hlen => QtpParam.parsesRight_iff hps hlen⟩

/-- An endpoint with a connection ID of one byte that sends the same number everywhere. -/
def sampleTls (value : ℕ) : QtpTls where
  transParam := { word := fun _ => value, statelessResetToken := List.replicate 16 0 }
  scid := [5]
  dcid := [5]

/-- `initial_max_data` with the number 300 in four bytes. -/
def initialMaxDataParam : QtpParam where
  type := ⟨0x04, [], rfl⟩
  length := ⟨0x04, [], rfl⟩
  value := [0x80, 0, 1, 44]
  value_length := rfl

/-- `stateless_reset_token`. -/
def tokenParam : QtpParam where
  type := ⟨0x02, [], rfl⟩
  length := ⟨0x10, [], rfl⟩
  value := List.replicate 16 1
  value_length := rfl

/-- A client reads what a server wrote, and a list with one number. -/
theorem transParams_iff_maxData :
    RoundTrips false (sampleTls 300) (sampleTls 0) quicTransParamInit ∧
      (ParsesRight false (sampleTls 0) quicTransParamInit [initialMaxDataParam] ↔
        Recordable false (sampleTls 0) quicTransParamInit [initialMaxDataParam]) := by
  obtain ⟨htrips, hparses⟩ := transParams_iff false
  have hword : 300 < 2 ^ 62 := by decide +kernel
  refine ⟨htrips _ _ _ (fun _ => hword) ?_ (.inr rfl), hparses _ _ _ ?_ ?_⟩
  · decide +kernel
  · rintro p hp
    rw [List.mem_singleton.mp hp]
    exact ⟨fun _ => ⟨⟨0x80, [0, 1, 44], rfl⟩, rfl⟩, fun h => absurd h (by decide)⟩
  · decide +kernel

/-- A client does not record the token of a server. -/
theorem token_not_recorded :
    ¬ ParsesRight false (sampleTls 0) quicTransParamInit [tokenParam] := by
  have hformed : ∀ p ∈ [tokenParam], p.WellFormed := by
    intro p hp
    rw [List.mem_singleton.mp hp]
    exact ⟨fun h => (by cases h), fun _ => rfl⟩
  rw [QtpParam.parsesRight_iff hformed (by decide +kernel)]
  intro h
  have htoken := h (List.replicate 16 1) (by decide)
  exact absurd htoken (by decide)

end Tbquic
