import Tbquic.Tls.Library
import Tbquic.Tls.Statem

/-!
# Signature algorithms

A server signs the transcript with an algorithm that its client offered, and the client verifies
the signature with the algorithm that the message names.
-/

namespace Tbquic

/-- The types of keys, as `EVP_PKEY_id` returns them. -/
inductive EvpPkeyId
  | rsa
  | rsaPss
  | ec
  | ed25519
  | ed448
  deriving DecidableEq, Repr

/-- The places for a certificate and its key, one for each type of key. -/
inductive QuicPkey
  | rsa
  | rsaPss
  | ecc
  | ed25519
  | ed448
  deriving DecidableEq, Repr

/-- `QuicCertLookupByNid`, with the index as result. -/
def quicCertLookupByNid : EvpPkeyId → QuicPkey
  | .rsa => .rsa
  | .rsaPss => .rsaPss
  | .ec => .ecc
  | .ed25519 => .ed25519
  | .ed448 => .ed448

/-- `NID_undef`. -/
def nidUndef : ℕ := 0

/-- `NID_X9_62_prime256v1`. -/
def nidX962Prime256v1 : ℕ := 415

/-- `NID_secp384r1`. -/
def nidSecp384r1 : ℕ := 715

/-- `NID_secp521r1`. -/
def nidSecp521r1 : ℕ := 716

/-- `SigAlgLookup`, without the combined name of hash and signature. -/
structure SigAlgLookup where
  /-- The value in the extension. -/
  sigalg : ℕ
  /-- The hash, or `NID_undef`. -/
  hash : Option QuicDigest
  /-- The hash in the table of digests. -/
  hashIdx : QuicDigest
  /-- The type of the signature. -/
  sig : EvpPkeyId
  /-- The place of the key. -/
  sigIdx : QuicPkey
  /-- The curve that the key must have, or `NID_undef`. -/
  curve : ℕ := nidUndef
  deriving DecidableEq, Repr

/-- `tls_sigalgs`. -/
def tlsSigalgs : List ℕ :=
  [0x0403, 0x0503, 0x0603, 0x0804, 0x0805, 0x0806, 0x0401, 0x0501, 0x0601]

/-- `sig_alg_lookup`. -/
def sigAlgLookup : List SigAlgLookup :=
  [{ sigalg := 0x0403, hash := some .sha256, hashIdx := .sha256, sig := .ec, sigIdx := .ecc,
      curve := nidX962Prime256v1 },
    { sigalg := 0x0503, hash := some .sha384, hashIdx := .sha384, sig := .ec, sigIdx := .ecc,
      curve := nidSecp384r1 },
    { sigalg := 0x0603, hash := some .sha512, hashIdx := .sha512, sig := .ec, sigIdx := .ecc,
      curve := nidSecp521r1 },
    { sigalg := 0x0804, hash := some .sha256, hashIdx := .sha256, sig := .rsaPss, sigIdx := .rsa },
    { sigalg := 0x0805, hash := some .sha384, hashIdx := .sha384, sig := .rsaPss, sigIdx := .rsa },
    { sigalg := 0x0806, hash := some .sha512, hashIdx := .sha512, sig := .rsaPss, sigIdx := .rsa },
    { sigalg := 0x0401, hash := some .sha256, hashIdx := .sha256, sig := .rsa, sigIdx := .rsa },
    { sigalg := 0x0501, hash := some .sha384, hashIdx := .sha384, sig := .rsa, sigIdx := .rsa },
    { sigalg := 0x0601, hash := some .sha512, hashIdx := .sha512, sig := .rsa, sigIdx := .rsa },
    { sigalg := 0x0201, hash := some .sha1, hashIdx := .sha512, sig := .rsa, sigIdx := .rsa }]

/-- `TlsLookupSigAlg`. -/
def tlsLookupSigAlg (sigalg : ℕ) : Option SigAlgLookup :=
  sigAlgLookup.find? fun lu => lu.sigalg = sigalg

/-- `TlsLookupSigAlgBySig`. -/
def tlsLookupSigAlgBySig (sig : EvpPkeyId) : Option SigAlgLookup :=
  sigAlgLookup.find? fun lu => lu.sig = sig

/-- `TlsGetPSigAlgs`, with the configured algorithms. -/
def tlsGetPSigAlgs (confSigalgs : List ℕ) : List ℕ :=
  if confSigalgs = [] then tlsSigalgs else confSigalgs

/-- `TlsLookupMd` of an algorithm. -/
def tlsLookupMd (lu : SigAlgLookup) : Option QuicDigest := lu.hash.map fun _ => lu.hashIdx

/-- The functions of the cryptographic library on keys `κ`, which stand for the private and the
public key. `ω` is the randomness of a signature. -/
structure TlsSignLib (κ ω : Type) where
  /-- `EVP_PKEY_id`. -/
  pkeyId : κ → EvpPkeyId
  /-- `EVP_PKEY_size`, which is `RSA_size` for an RSA key. -/
  pkeySize : κ → ℕ
  /-- `EC_GROUP_get_curve_name` of the group of the key. -/
  curveName : κ → ℕ
  /-- The digest that `EVP_PKEY_get_default_digest_nid` reports as mandatory. -/
  mandatoryDigest : κ → Option QuicDigest
  /-- No digest is mandatory for RSA and for elliptic curves. -/
  mandatoryDigest_eq_none : ∀ k, pkeyId k = .rsa ∨ pkeyId k = .ec → mandatoryDigest k = none
  /-- `EVP_DigestSign` with the digest, RSA-PSS padding or not, and the bytes. -/
  digestSign : κ → QuicDigest → Bool → List UInt8 → ω → Option (List UInt8)
  /-- `EVP_DigestVerify`. -/
  digestVerify : κ → QuicDigest → Bool → List UInt8 → List UInt8 → Bool
  /-- A signature is verified. -/
  digestVerify_digestSign : ∀ k md pss bytes rnd sig, digestSign k md pss bytes rnd = some sig →
    digestVerify k md pss sig bytes = true
  /-- A signature is at most as long as `EVP_PKEY_size` says. -/
  digestSign_length : ∀ k md pss bytes rnd sig, digestSign k md pss bytes rnd = some sig →
    sig.length ≤ pkeySize k
  /-- The size of a key has 16 bits. -/
  pkeySize_lt : ∀ k, pkeySize k < 2 ^ 16

/-- `QuicCertPkey`, with the public key of the certificate. -/
structure QuicCertPkey (κ : Type) where
  /-- `x509`. -/
  x509 : Option κ
  /-- `privatekey`. -/
  privatekey : Option κ
  /-- The key was checked against the certificate when they were set. -/
  matches_x509 : ∀ k ∈ privatekey, ∀ x ∈ x509, x = k

/-- `QuicCert`. -/
structure QuicCert {κ ω : Type} (sl : TlsSignLib κ ω) where
  /-- `pkeys`. -/
  pkeys : QuicPkey → QuicCertPkey κ
  /-- `conf_sigalgs`. -/
  confSigalgs : List ℕ
  /-- A key is in the place for its type. -/
  pkeyId_eq : ∀ i, ∀ k ∈ (pkeys i).privatekey, quicCertLookupByNid (sl.pkeyId k) = i

section Select

variable {κ ω : Type} {sl : TlsSignLib κ ω}

/-- The algorithms of the first list that the second list has, each as often as it has them. -/
def tlsGetSharedSigAlgsInfo (sigalg1 sigalg2 : List ℕ) : List SigAlgLookup :=
  sigalg1.flatMap fun sigalg =>
    match tlsLookupSigAlg sigalg with
    | none => []
    | some lu => (sigalg2.filter (sigalg = ·)).map fun _ => lu

/-- `TlsGetSharedSigAlgs`. -/
def tlsGetSharedSigAlgs (sigalg1 sigalg2 : List ℕ) : Option (List SigAlgLookup) :=
  if sigalg1 = [] ∨ sigalg2 = [] then none
  else
    let shared := tlsGetSharedSigAlgsInfo sigalg1 sigalg2
    if shared.length = 0 then none else some shared

/-- `TlsHasUsableCert`. -/
def tlsHasUsableCert (cert : QuicCert sl) (lu : SigAlgLookup) : Bool :=
  match (cert.pkeys lu.sigIdx).x509, (cert.pkeys lu.sigIdx).privatekey with
  | some _, some pkey =>
    match sl.mandatoryDigest pkey with
    | some md => lu.hash = some md
    | none => true
  | _, _ => false

/-- `TlsRsaPssCheckMinKeySize`. -/
def tlsRsaPssCheckMinKeySize (sl : TlsSignLib κ ω) (pkey : κ) (lu : SigAlgLookup) : Prop :=
  ∃ md ∈ tlsLookupMd lu, 2 * md.size + 2 ≤ sl.pkeySize pkey

instance (pkey : κ) (lu : SigAlgLookup) : Decidable (tlsRsaPssCheckMinKeySize sl pkey lu) :=
  inferInstanceAs (Decidable (∃ md ∈ tlsLookupMd lu, _))

/-- The loop of `TlsFindSigAlg` without a key of its own, with the curve that an earlier turn
looked up. -/
def findSigAlg (cert : QuicCert sl) : Option ℕ → List SigAlgLookup → Option SigAlgLookup
  | _, [] => none
  | curve, lu :: shared =>
    if tlsLookupMd lu = none then findSigAlg cert curve shared
    else if tlsHasUsableCert cert lu = false then findSigAlg cert curve shared
    else
      match (cert.pkeys lu.sigIdx).privatekey with
      | none => findSigAlg cert curve shared
      | some pkey =>
        if lu.sig = .ec then
          let curve := curve.getD (sl.curveName pkey)
          if lu.curve ≠ nidUndef ∧ curve ≠ lu.curve then findSigAlg cert (some curve) shared
          else some lu
        else if lu.sig = .rsaPss then
          if tlsRsaPssCheckMinKeySize sl pkey lu then some lu else findSigAlg cert curve shared
        else some lu

/-- `TlsSetServerSigAlgs` and `TlsChooseSigalg`, with the algorithms of the client. -/
def tlsChooseSigalg (cert : QuicCert sl) (peerSigalgs : List ℕ) : Option SigAlgLookup := do
  let shared ← tlsGetSharedSigAlgs peerSigalgs (tlsGetPSigAlgs cert.confSigalgs)
  findSigAlg cert none shared

end Select

/-- `servercontext`, with its final zero. -/
def serverContext : List UInt8 := "TLS 1.3, server CertificateVerify".toUTF8.toList ++ [0]

/-- `clientcontext`, with its final zero. -/
def clientContext : List UInt8 := "TLS 1.3, client CertificateVerify".toUTF8.toList ++ [0]

/-- `TlsGetCertVerifyData`, with the stored hash and the hash of the current transcript. -/
def tlsGetCertVerifyData (handshakeState : TlsState) (certVerifyHash handshakeHash : List UInt8) :
    List UInt8 :=
  List.replicate 64 32 ++
    (if handshakeState = .crCertVerify ∨ handshakeState = .swCertVerify then serverContext
      else clientContext) ++
    (if handshakeState = .crCertVerify ∨ handshakeState = .srCertVerify then certVerifyHash
      else handshakeHash)

section CertVerify

variable {κ ω : Type} {sl : TlsSignLib κ ω}

/-- `TlsConstructCertVerify`, with the key of the chosen certificate, the chosen algorithm, the
bytes to sign and the randomness. -/
def tlsConstructCertVerify (sl : TlsSignLib κ ω) (cert : Option κ) (sigalg : Option SigAlgLookup)
    (hdata : List UInt8) (rnd : ω) : Prog Fail WPacket Unit := do
  let lu ← Prog.ofOption .ret sigalg
  let pkey ← Prog.ofOption .ret cert
  let md ← Prog.ofOption .ret (tlsLookupMd lu)
  wPacketPutBytes lu.sigalg 2
  let sig ← Prog.ofOption .ret (sl.digestSign pkey md (lu.sig = .rsaPss) hdata rnd)
  wPacketSubMemcpy sig 2

/-- `TlsCertVerifyProc`, with the public key of the certificate of the server and the bytes to
verify. The state holds `peer_sigalg` besides the message. -/
def tlsCertVerifyProc (sl : TlsSignLib κ ω) (peerCert : Option κ) (hdata : List UInt8) :
    Prog Fail (RPacket × Option SigAlgLookup) Unit := do
  let pkey ← Prog.ofOption .ret peerCert
  let _ ← Prog.ofOption .ret (tlsLookupSigAlgBySig (sl.pkeyId pkey))
  let sigalg ← Prog.onFst rPacketGet2
  let lu ← Prog.ofOption .ret (tlsLookupSigAlg sigalg)
  Prog.onSnd (Prog.modify fun _ => some lu)
  let md ← Prog.ofOption .ret (tlsLookupMd lu)
  let len ← Prog.onFst rPacketGet2
  Prog.ensure .ret (sl.pkeySize pkey = len)
  let data ← Prog.onFst (rPacketGetBytes len)
  Prog.ensure .ret (sl.digestVerify pkey md (lu.sig = .rsaPss) data hdata = true)

end CertVerify

section Agreement

variable {κ ω : Type} {sl : TlsSignLib κ ω}

/-- The server has a certificate and a key that the algorithm can use. -/
def SigAlgLookup.FitsKey (lu : SigAlgLookup) (cert : QuicCert sl) : Prop :=
  ∃ md pkey, tlsLookupMd lu = some md ∧ (cert.pkeys lu.sigIdx).x509 = some pkey ∧
    (cert.pkeys lu.sigIdx).privatekey = some pkey ∧
    (lu.sig = .ec → lu.curve = nidUndef ∨ sl.curveName pkey = lu.curve) ∧
    (lu.sig = .rsaPss → 2 * md.size + 2 ≤ sl.pkeySize pkey)

/-- The algorithm is in the table and in the list of the server and fits its key. -/
def Selectable (cert : QuicCert sl) (own : List ℕ) (lu : SigAlgLookup) : Prop :=
  tlsLookupSigAlg lu.sigalg = some lu ∧ lu.sigalg ∈ own ∧ lu.FitsKey cert

/-- The algorithm is the first of the list of the client that can be selected. -/
def FirstSelectable (cert : QuicCert sl) (peer own : List ℕ) (lu : SigAlgLookup) : Prop :=
  Selectable cert own lu ∧ ∃ before after, peer = before ++ lu.sigalg :: after ∧
    ∀ lu', Selectable cert own lu' → lu'.sigalg ∉ before

/-- The entries of the table are found by their values. -/
theorem tlsLookupSigAlg_sigalg {sigalg : ℕ} {lu : SigAlgLookup}
    (h : tlsLookupSigAlg sigalg = some lu) : lu.sigalg = sigalg ∧ lu ∈ sigAlgLookup :=
  ⟨by simpa using List.find?_some h, List.mem_of_find?_eq_some h⟩

/-- The key of an entry is in the place for RSA or for elliptic curves. -/
theorem sigIdx_of_mem {lu : SigAlgLookup} (h : lu ∈ sigAlgLookup) :
    (lu.sig = .ec → lu.sigIdx = .ecc) ∧ (lu.sigIdx = .rsa ∨ lu.sigIdx = .ecc) := by
  revert lu
  decide

/-- The digest of an entry is known. -/
theorem hash_of_mem {lu : SigAlgLookup} (h : lu ∈ sigAlgLookup) :
    ∃ md, tlsLookupMd lu = some md := by
  apply Option.isSome_iff_exists.mp
  revert lu
  decide

/-- No digest is mandatory for a key in such a place. -/
theorem QuicCert.mandatoryDigest_eq_none (cert : QuicCert sl) {i : QuicPkey} {pkey : κ}
    (hi : i = .rsa ∨ i = .ecc) (hkey : (cert.pkeys i).privatekey = some pkey) :
    sl.mandatoryDigest pkey = none := by
  have hid := cert.pkeyId_eq i pkey hkey
  apply sl.mandatoryDigest_eq_none
  rcases hi with rfl | rfl
  · left
    cases hpkey : sl.pkeyId pkey <;> rw [hpkey] at hid <;> first | rfl | cases hid
  · right
    cases hpkey : sl.pkeyId pkey <;> rw [hpkey] at hid <;> first | rfl | cases hid

/-- A usable certificate comes with its key. -/
theorem tlsHasUsableCert_iff (cert : QuicCert sl) {lu : SigAlgLookup} (h : lu ∈ sigAlgLookup) :
    tlsHasUsableCert cert lu = true ↔ ∃ pkey, (cert.pkeys lu.sigIdx).x509 = some pkey ∧
      (cert.pkeys lu.sigIdx).privatekey = some pkey := by
  cases hx : (cert.pkeys lu.sigIdx).x509 with
  | none => simp [tlsHasUsableCert, hx]
  | some x =>
    cases hkey : (cert.pkeys lu.sigIdx).privatekey with
    | none => simp [tlsHasUsableCert, hx, hkey]
    | some pkey =>
      have hmatch : x = pkey := (cert.pkeys lu.sigIdx).matches_x509 pkey hkey x hx
      have hnone := cert.mandatoryDigest_eq_none (sigIdx_of_mem h).2 hkey
      simp [tlsHasUsableCert, hx, hkey, hnone, hmatch]

/-- With a usable certificate, an entry fits when the curve and the size of the key do. -/
theorem SigAlgLookup.fitsKey_iff {cert : QuicCert sl} {lu : SigAlgLookup} {md : QuicDigest}
    {pkey : κ} (hmd : tlsLookupMd lu = some md) (hx : (cert.pkeys lu.sigIdx).x509 = some pkey)
    (hkey : (cert.pkeys lu.sigIdx).privatekey = some pkey) :
    lu.FitsKey cert ↔ (lu.sig = .ec → lu.curve = nidUndef ∨ sl.curveName pkey = lu.curve) ∧
      (lu.sig = .rsaPss → tlsRsaPssCheckMinKeySize sl pkey lu) := by
  constructor
  · rintro ⟨md', pkey', hmd', _, hkey', hcurve, hsize⟩
    rw [hkey] at hkey'
    cases hkey'
    exact ⟨hcurve, fun hpss => ⟨md', hmd', hsize hpss⟩⟩
  · rintro ⟨hcurve, hsize⟩
    refine ⟨md, pkey, hmd, hx, hkey, hcurve, ?_⟩
    intro hpss
    obtain ⟨md', hmd', hle⟩ := hsize hpss
    rw [hmd] at hmd'
    cases hmd'
    exact hle

open Classical in
/-- The loop takes the first entry that fits. The curve that it keeps is that of the one key for
elliptic curves. -/
theorem findSigAlg_eq (cert : QuicCert sl) {shared : List SigAlgLookup}
    (hshared : ∀ lu ∈ shared, lu ∈ sigAlgLookup) {curve : Option ℕ}
    (hcurve : ∀ c ∈ curve, ∀ pkey ∈ (cert.pkeys .ecc).privatekey, c = sl.curveName pkey) :
    findSigAlg cert curve shared = shared.find? fun lu => lu.FitsKey cert := by
  induction shared generalizing curve with
  | nil => rfl
  | cons lu shared ih =>
    have hmem := hshared lu List.mem_cons_self
    have htail : ∀ lu ∈ shared, lu ∈ sigAlgLookup := fun lu h =>
      hshared lu (List.mem_cons_of_mem _ h)
    obtain ⟨md, hmd⟩ := hash_of_mem hmem
    by_cases husable : tlsHasUsableCert cert lu = true
    · obtain ⟨pkey, hx, hkey⟩ := (tlsHasUsableCert_iff cert hmem).mp husable
      have hfits := SigAlgLookup.fitsKey_iff hmd hx hkey
      rw [findSigAlg, if_neg (by rw [hmd]; exact Option.some_ne_none md),
        if_neg (by rw [husable]; decide), hkey, List.find?_cons]
      dsimp only
      by_cases hec : lu.sig = .ec
      · have hkey' := hkey
        rw [(sigIdx_of_mem hmem).1 hec] at hkey'
        have hname : curve.getD (sl.curveName pkey) = sl.curveName pkey := by
          cases hc : curve with
          | none => rfl
          | some c => exact hcurve c hc pkey hkey'
        have hpss : lu.sig ≠ .rsaPss := by
          rw [hec]
          decide
        rw [if_pos hec, hname]
        by_cases hother : lu.curve ≠ nidUndef ∧ sl.curveName pkey ≠ lu.curve
        · have hnot : ¬ lu.FitsKey cert := by
            intro h
            rcases (hfits.mp h).1 hec with hundef | heq
            · exact hother.1 hundef
            · exact hother.2 heq
          rw [if_pos hother, decide_eq_false hnot]
          apply ih htail
          rintro _ ⟨⟩ pkey' hpkey'
          rw [hkey'] at hpkey'
          cases hpkey'
          rfl
        · have hyes : lu.FitsKey cert := by
            refine hfits.mpr ⟨fun _ => ?_, fun h => absurd h hpss⟩
            rw [not_and_or, not_not, not_not] at hother
            exact hother
          rw [if_neg hother, decide_eq_true hyes]
      · rw [if_neg hec]
        by_cases hpss : lu.sig = .rsaPss
        · rw [if_pos hpss]
          by_cases hsize : tlsRsaPssCheckMinKeySize sl pkey lu
          · have hyes : lu.FitsKey cert := hfits.mpr ⟨fun h => absurd h hec, fun _ => hsize⟩
            rw [if_pos hsize, decide_eq_true hyes]
          · have hnot : ¬ lu.FitsKey cert := fun h => hsize ((hfits.mp h).2 hpss)
            rw [if_neg hsize, decide_eq_false hnot]
            exact ih htail hcurve
        · have hyes : lu.FitsKey cert :=
            hfits.mpr ⟨fun h => absurd h hec, fun h => absurd h hpss⟩
          rw [if_neg hpss, decide_eq_true hyes]
    · have hnot : ¬ lu.FitsKey cert := by
        rintro ⟨_, pkey, _, hx, hkey, _⟩
        exact husable ((tlsHasUsableCert_iff cert hmem).mpr ⟨pkey, hx, hkey⟩)
      rw [findSigAlg, if_neg (by rw [hmd]; exact Option.some_ne_none md),
        if_pos (by rwa [Bool.not_eq_true] at husable), List.find?_cons, decide_eq_false hnot]
      exact ih htail hcurve

/-- The shared entries are those of the table whose values both lists have. -/
theorem mem_tlsGetSharedSigAlgsInfo {peer own : List ℕ} {lu : SigAlgLookup} :
    lu ∈ tlsGetSharedSigAlgsInfo peer own ↔
      tlsLookupSigAlg lu.sigalg = some lu ∧ lu.sigalg ∈ peer ∧ lu.sigalg ∈ own := by
  simp only [tlsGetSharedSigAlgsInfo, List.mem_flatMap]
  constructor
  · rintro ⟨sigalg, hpeer, hlu⟩
    cases hfound : tlsLookupSigAlg sigalg with
    | none =>
      rw [hfound] at hlu
      cases hlu
    | some lu' =>
      rw [hfound] at hlu
      obtain ⟨other, hown, rfl⟩ := List.mem_map.mp hlu
      obtain ⟨hmem, heq⟩ := List.mem_filter.mp hown
      rw [(tlsLookupSigAlg_sigalg hfound).1]
      rw [← of_decide_eq_true heq] at hmem
      exact ⟨hfound, hpeer, hmem⟩
  · rintro ⟨hfound, hpeer, hown⟩
    refine ⟨lu.sigalg, hpeer, ?_⟩
    rw [hfound]
    exact List.mem_map.mpr ⟨lu.sigalg, List.mem_filter.mpr ⟨hown, decide_eq_true rfl⟩, rfl⟩

open Classical in
/-- The first entry for one value that fits. -/
theorem find?_lookup_eq_some_iff (cert : QuicCert sl) {sigalg : ℕ} {own : List ℕ}
    {lu : SigAlgLookup} :
    (tlsGetSharedSigAlgsInfo [sigalg] own).find? (fun lu => lu.FitsKey cert) = some lu ↔
      Selectable cert own lu ∧ lu.sigalg = sigalg := by
  constructor
  · intro h
    obtain ⟨hfound, hpeer, hown⟩ := mem_tlsGetSharedSigAlgsInfo.mp (List.mem_of_find?_eq_some h)
    have hfits := List.find?_some h
    exact ⟨⟨hfound, hown, of_decide_eq_true hfits⟩, List.mem_singleton.mp hpeer⟩
  · rintro ⟨⟨hfound, hown, hfits⟩, rfl⟩
    have hmem : lu ∈ tlsGetSharedSigAlgsInfo [lu.sigalg] own :=
      mem_tlsGetSharedSigAlgsInfo.mpr ⟨hfound, List.mem_singleton_self _, hown⟩
    cases hfind : (tlsGetSharedSigAlgsInfo [lu.sigalg] own).find? (fun lu => lu.FitsKey cert) with
    | none => exact absurd (decide_eq_true hfits) (List.find?_eq_none.mp hfind lu hmem)
    | some lu' =>
      obtain ⟨hfound', hpeer', _⟩ :=
      mem_tlsGetSharedSigAlgsInfo.mp (List.mem_of_find?_eq_some hfind)
      rw [List.mem_singleton.mp hpeer', hfound] at hfound'
      exact hfound'.symm

/-- The first entry that can be selected comes from the first value, or the first value has none. -/
theorem firstSelectable_cons (cert : QuicCert sl) {sigalg : ℕ} {peer own : List ℕ}
    {lu : SigAlgLookup} :
    FirstSelectable cert (sigalg :: peer) own lu ↔
      Selectable cert own lu ∧ lu.sigalg = sigalg ∨
        (∀ lu', Selectable cert own lu' → lu'.sigalg ≠ sigalg) ∧
          FirstSelectable cert peer own lu := by
  constructor
  · rintro ⟨hlu, before, after, heq, hbefore⟩
    cases before with
    | nil =>
      cases heq
      exact Or.inl ⟨hlu, rfl⟩
    | cons _ before =>
      cases heq
      refine Or.inr ⟨fun lu' hlu' h => ?_, hlu, before, after, rfl, fun lu' hlu' h => ?_⟩
      · exact hbefore lu' hlu' (h ▸ List.mem_cons_self)
      · exact hbefore lu' hlu' (List.mem_cons_of_mem _ h)
  · rintro (⟨hlu, rfl⟩ | ⟨hnone, hlu, before, after, rfl, hbefore⟩)
    · exact ⟨hlu, [], peer, rfl, fun _ _ => List.not_mem_nil⟩
    · refine ⟨hlu, sigalg :: before, after, rfl, fun lu' hlu' h => ?_⟩
      rcases List.mem_cons.mp h with h | h
      · exact hnone lu' hlu' h
      · exact hbefore lu' hlu' h

open Classical in
/-- The server chooses the first shared entry that fits, also when it finds none. -/
theorem tlsChooseSigalg_eq (cert : QuicCert sl) (peer : List ℕ) :
    tlsChooseSigalg cert peer =
      (tlsGetSharedSigAlgsInfo peer (tlsGetPSigAlgs cert.confSigalgs)).find?
        (fun lu => lu.FitsKey cert) := by
  have hfind := @findSigAlg_eq _ _ _ cert
    (tlsGetSharedSigAlgsInfo peer (tlsGetPSigAlgs cert.confSigalgs))
    (fun lu h => (tlsLookupSigAlg_sigalg (mem_tlsGetSharedSigAlgsInfo.mp h).1).2) none
    (fun _ h => by cases h)
  have hown : tlsGetPSigAlgs cert.confSigalgs ≠ [] := by
    unfold tlsGetPSigAlgs
    split
    · decide
    · assumption
  rw [tlsChooseSigalg, tlsGetSharedSigAlgs]
  by_cases hpeer : peer = []
  · rw [if_pos (Or.inl hpeer), hpeer]
    rfl
  · rw [if_neg (not_or.mpr ⟨hpeer, hown⟩)]
    dsimp only
    by_cases hempty : (tlsGetSharedSigAlgsInfo peer (tlsGetPSigAlgs cert.confSigalgs)).length = 0
    · rw [if_pos hempty, List.length_eq_zero_iff.mp hempty]
      rfl
    · rw [if_neg hempty, ← hfind]
      rfl

/-- What the server chooses is the first entry in the order of the client that can be selected. -/
theorem tlsChooseSigalg_eq_some_iff (cert : QuicCert sl) (peer : List ℕ) (lu : SigAlgLookup) :
    tlsChooseSigalg cert peer = some lu ↔
      FirstSelectable cert peer (tlsGetPSigAlgs cert.confSigalgs) lu := by
  rw [tlsChooseSigalg_eq]
  induction peer with
  | nil =>
    refine iff_of_false (fun h => by cases h) ?_
    rintro ⟨_, before, after, heq, _⟩
    simp at heq
  | cons sigalg peer ih =>
    have hcons (own : List ℕ) : tlsGetSharedSigAlgsInfo (sigalg :: peer) own =
        tlsGetSharedSigAlgsInfo [sigalg] own ++ tlsGetSharedSigAlgsInfo peer own := by
      simp only [tlsGetSharedSigAlgsInfo, List.flatMap_cons, List.flatMap_nil, List.append_nil]
    rw [hcons, List.find?_append, Option.or_eq_some_iff, find?_lookup_eq_some_iff, ih,
      firstSelectable_cons]
    refine or_congr Iff.rfl (and_congr_left fun _ => ?_)
    rw [Option.eq_none_iff_forall_ne_some]
    refine forall_congr' fun lu' => ?_
    rw [ne_eq, find?_lookup_eq_some_iff, not_and]

open Classical in
/-- The server fails to choose exactly when no value of the client can be selected. -/
theorem tlsChooseSigalg_eq_none_iff (cert : QuicCert sl) (peer : List ℕ) :
    tlsChooseSigalg cert peer = none ↔
      ∀ lu, Selectable cert (tlsGetPSigAlgs cert.confSigalgs) lu → lu.sigalg ∉ peer := by
  rw [tlsChooseSigalg_eq, List.find?_eq_none]
  constructor
  · rintro h lu ⟨hfound, hown, hfits⟩ hpeer
    exact h lu (mem_tlsGetSharedSigAlgsInfo.mpr ⟨hfound, hpeer, hown⟩) (decide_eq_true hfits)
  · intro h lu hmem hfits
    obtain ⟨hfound, hpeer, hown⟩ := mem_tlsGetSharedSigAlgsInfo.mp hmem
    exact h lu ⟨hfound, hown, of_decide_eq_true hfits⟩ hpeer

/-- The values of the table have 16 bits. -/
theorem sigalg_lt_of_mem {lu : SigAlgLookup} (h : lu ∈ sigAlgLookup) : lu.sigalg < 256 ^ 2 := by
  revert lu
  decide

/-- The client accepts a message exactly when its signature is as long as the key. -/
theorem tlsCertVerifyProc_of_signed {lu : SigAlgLookup} {pkey : κ} {md : QuicDigest}
    {hdata sig : List UInt8} {rnd : ω} (hlu : tlsLookupSigAlg lu.sigalg = some lu)
    (hid : sl.pkeyId pkey = .rsa ∨ sl.pkeyId pkey = .ec) (hmd : tlsLookupMd lu = some md)
    (hsig : sl.digestSign pkey md (lu.sig = .rsaPss) hdata rnd = some sig)
    (past : List UInt8) :
    ∃ pkt, tlsCertVerifyProc sl (some pkey) hdata
        ({ past, rest := Bytes.ofNat 2 lu.sigalg ++ (Bytes.ofNat 2 sig.length ++ sig) }, none) =
      (if sl.pkeySize pkey = sig.length then .ok () else .error .ret, (pkt, some lu)) := by
  have hsize := sl.pkeySize_lt pkey
  have hlength := sl.digestSign_length pkey md _ hdata rnd sig hsig
  have hcode := @rPacketGetData_append past (Bytes.ofNat 2 sig.length ++ sig) _ _
    (sigalg_lt_of_mem (tlsLookupSigAlg_sigalg hlu).2)
    (by rw [List.length_append, Bytes.ofNat_length]; omega)
  have hlen := @rPacketGetData_append (past ++ Bytes.ofNat 2 lu.sigalg) sig 2 sig.length
    (by omega) (by omega)
  have hdata := @rPacketGetBytes_append (past ++ Bytes.ofNat 2 lu.sigalg ++
    Bytes.ofNat 2 sig.length) sig [] (by simp)
  rw [List.append_nil] at hdata
  obtain ⟨found, hfound⟩ : ∃ lu', tlsLookupSigAlgBySig (sl.pkeyId pkey) = some lu' := by
    apply Option.isSome_iff_exists.mp
    rcases hid with h | h <;> rw [h] <;> decide
  rw [tlsCertVerifyProc, Prog.ofOption_some, Prog.pure_bind, hfound, Prog.ofOption_some,
    Prog.pure_bind, rPacketGet2, Prog.onFst_bind_of_ok hcode, hlu, Prog.ofOption_some,
    Prog.pure_bind, Prog.onSnd_modify_bind, hmd, Prog.ofOption_some, Prog.pure_bind,
    Prog.onFst_bind_of_ok hlen]
  by_cases heq : sl.pkeySize pkey = sig.length
  · have hverify := sl.digestVerify_digestSign pkey md _ _ rnd sig hsig
    rw [if_pos heq, Prog.ensure_of_pos heq, Prog.pure_bind, Prog.onFst_bind_of_ok hdata,
      Prog.ensure_of_pos hverify]
    exact ⟨_, rfl⟩
  · rw [if_neg heq, Prog.ensure_of_neg heq, Prog.fail_bind]
    exact ⟨_, rfl⟩

/-- A message that was built names the algorithm and holds a signature. -/
theorem tlsConstructCertVerify_eq_ok {cert : Option κ} {lu : SigAlgLookup} {hdata : List UInt8}
    {rnd : ω} {pkt t : WPacket} {u : Unit} (hmax : pkt.maxsize < 2 ^ 31)
    (h : tlsConstructCertVerify sl cert (some lu) hdata rnd pkt = (.ok u, t)) :
    ∃ pkey md sig, cert = some pkey ∧ tlsLookupMd lu = some md ∧
      sl.digestSign pkey md (lu.sig = .rsaPss) hdata rnd = some sig ∧
      t.buf = pkt.buf ++ (Bytes.ofNat 2 lu.sigalg ++ (Bytes.ofNat 2 sig.length ++ sig)) := by
  rw [tlsConstructCertVerify, Prog.ofOption_some, Prog.pure_bind] at h
  cases hcert : cert with
  | none =>
    rw [hcert, Prog.ofOption_none, Prog.fail_bind] at h
    cases h
  | some pkey =>
    cases hmd : tlsLookupMd lu with
    | none =>
      rw [hcert, hmd, Prog.ofOption_some, Prog.pure_bind, Prog.ofOption_none, Prog.fail_bind] at h
      cases h
    | some md =>
      rw [hcert, hmd, Prog.ofOption_some, Prog.pure_bind, Prog.ofOption_some, Prog.pure_bind] at h
      obtain ⟨_, coded, hput, hrest⟩ := Prog.bind_eq_ok.mp h
      obtain ⟨hbuf, hcmax, _, _⟩ := wPacketPutBytes_eq_ok hput
      cases hsig : sl.digestSign pkey md (lu.sig = .rsaPss) hdata rnd with
      | none =>
        rw [hsig, Prog.ofOption_none, Prog.fail_bind] at hrest
        cases hrest
      | some sig =>
        rw [hsig, Prog.ofOption_some, Prog.pure_bind] at hrest
        obtain ⟨hextends, _, _⟩ := wPacketSubMemcpy_eq_ok (hcmax ▸ hmax) hrest
        refine ⟨pkey, md, sig, rfl, rfl, hsig, ?_⟩
        rw [hextends.1, hbuf, List.append_assoc]

/-- A signature is built in a packet that has room for it. -/
theorem tlsConstructCertVerify_of_fits {lu : SigAlgLookup} {pkey : κ} {md : QuicDigest}
    {hdata sig : List UInt8} {rnd : ω} (hlu : tlsLookupSigAlg lu.sigalg = some lu)
    (hmd : tlsLookupMd lu = some md)
    (hsig : sl.digestSign pkey md (lu.sig = .rsaPss) hdata rnd = some sig) :
    ∃ t, tlsConstructCertVerify sl (some pkey) (some lu) hdata rnd
        (wPacketStaticBufInit (2 ^ 17)) = (.ok (), t) := by
  have hsize := sl.pkeySize_lt pkey
  have hlength := sl.digestSign_length pkey md _ hdata rnd sig hsig
  have hroom : (wPacketStaticBufInit (2 ^ 17)).written + (Bytes.ofNat 2 lu.sigalg).length ≤
      (wPacketStaticBufInit (2 ^ 17)).maxsize := by
    rw [Bytes.ofNat_length]
    decide
  have hput := wPacketPutBytes_of_fits (wPacketStaticBufInit (2 ^ 17)) lu.sigalg 2 hroom (by decide)
    (Nat.div_eq_of_lt (sigalg_lt_of_mem (tlsLookupSigAlg_sigalg hlu).2))
  have hcopy : ((wPacketStaticBufInit (2 ^ 17)).append (Bytes.ofNat 2 lu.sigalg) hroom).written +
      2 + sig.length ≤
        ((wPacketStaticBufInit (2 ^ 17)).append (Bytes.ofNat 2 lu.sigalg) hroom).maxsize := by
    change (([] : List UInt8) ++ Bytes.ofNat 2 lu.sigalg).length + 2 + sig.length ≤ 2 ^ 17
    rw [List.nil_append, Bytes.ofNat_length]
    omega
  obtain ⟨t, hrun, _, _⟩ := @wPacketSubMemcpy_of_fits
    ((wPacketStaticBufInit (2 ^ 17)).append (Bytes.ofNat 2 lu.sigalg) hroom) sig 2
    (by change 2 ^ 17 < 2 ^ 31; decide) (by omega) hcopy
  refine ⟨t, ?_⟩
  rw [tlsConstructCertVerify, Prog.ofOption_some, Prog.pure_bind, Prog.ofOption_some,
    Prog.pure_bind, hmd, Prog.ofOption_some, Prog.pure_bind, Prog.bind_of_ok hput, hsig,
    Prog.ofOption_some, Prog.pure_bind]
  exact hrun

/-- What is required of the two endpoints: the server chooses the first algorithm of the client
that both have and that fits its key, and the client accepts the message that the server builds
with it, both over the same hash of the transcript. -/
structure CertVerifyAgreement (cert : QuicCert sl) (clientSigalgs : List ℕ)
    (transcriptHash : List UInt8) (rnd : ω) : Prop where
  /-- The choice is the first one that is possible. -/
  chosen : ∀ lu, tlsChooseSigalg cert (tlsGetPSigAlgs clientSigalgs) = some lu ↔
    FirstSelectable cert (tlsGetPSigAlgs clientSigalgs) (tlsGetPSigAlgs cert.confSigalgs) lu
  /-- The choice fails only when none is possible. -/
  failed : tlsChooseSigalg cert (tlsGetPSigAlgs clientSigalgs) = none ↔
    ∀ lu, Selectable cert (tlsGetPSigAlgs cert.confSigalgs) lu →
      lu.sigalg ∉ tlsGetPSigAlgs clientSigalgs
  /-- The client accepts with the same algorithm. -/
  accepted : ∀ lu, tlsChooseSigalg cert (tlsGetPSigAlgs clientSigalgs) = some lu →
    ∀ ownHash currentHash pkt t, pkt.maxsize < 2 ^ 31 →
      tlsConstructCertVerify sl (cert.pkeys lu.sigIdx).privatekey (some lu)
        (tlsGetCertVerifyData .swCertVerify ownHash transcriptHash) rnd pkt = (.ok (), t) →
      ∃ msg, t.buf = pkt.buf ++ msg ∧ ∀ past, ∃ rest,
        tlsCertVerifyProc sl (cert.pkeys lu.sigIdx).x509
          (tlsGetCertVerifyData .crCertVerify transcriptHash currentHash)
          ({ past, rest := msg }, none) = (.ok (), (rest, some lu))

/-- Both endpoints sign and verify the same bytes. -/
theorem tlsGetCertVerifyData_eq (ownHash currentHash transcriptHash : List UInt8) :
    tlsGetCertVerifyData .swCertVerify ownHash transcriptHash =
      tlsGetCertVerifyData .crCertVerify transcriptHash currentHash := by
  simp [tlsGetCertVerifyData]

/-- The client verifies a signature by an algorithm of the server that is as long as its key. -/
theorem tlsCertVerifyProc_of_selectable {cert : QuicCert sl} {own : List ℕ} {lu : SigAlgLookup}
    {pkey : κ} {md : QuicDigest} {transcriptHash sig : List UInt8} {rnd : ω}
    (hlu : Selectable cert own lu) (hkey : (cert.pkeys lu.sigIdx).privatekey = some pkey)
    (hmd : tlsLookupMd lu = some md)
    (hsig : sl.digestSign pkey md (lu.sig = .rsaPss)
      (tlsGetCertVerifyData .swCertVerify [] transcriptHash) rnd = some sig)
    (past currentHash : List UInt8) :
    ∃ rest, tlsCertVerifyProc sl (cert.pkeys lu.sigIdx).x509
      (tlsGetCertVerifyData .crCertVerify transcriptHash currentHash)
      ({ past, rest := Bytes.ofNat 2 lu.sigalg ++ (Bytes.ofNat 2 sig.length ++ sig) }, none) =
        (if sl.pkeySize pkey = sig.length then .ok () else .error .ret, (rest, some lu)) := by
  obtain ⟨hfound, _, _, pkey', _, hx, hkey', _⟩ := hlu
  rw [hkey] at hkey'
  cases hkey'
  have hplace := (sigIdx_of_mem (tlsLookupSigAlg_sigalg hfound).2).2
  have hid : sl.pkeyId pkey = .rsa ∨ sl.pkeyId pkey = .ec := by
    have hslot := cert.pkeyId_eq lu.sigIdx pkey hkey
    rw [← hslot] at hplace
    cases hpkey : sl.pkeyId pkey <;> simp [hpkey, quicCertLookupByNid] at hplace ⊢
  rw [hx, ← tlsGetCertVerifyData_eq [] currentHash transcriptHash]
  exact tlsCertVerifyProc_of_signed hfound hid hmd hsig past

/-- Where the endpoints agree, the signature by the chosen algorithm is as long as its key. -/
theorem CertVerifyAgreement.length_eq {cert : QuicCert sl} {clientSigalgs : List ℕ}
    {transcriptHash : List UInt8} {rnd : ω}
    (h : CertVerifyAgreement cert clientSigalgs transcriptHash rnd) {lu : SigAlgLookup} {pkey : κ}
    {md : QuicDigest} {sig : List UInt8}
    (hfirst : FirstSelectable cert (tlsGetPSigAlgs clientSigalgs)
      (tlsGetPSigAlgs cert.confSigalgs) lu)
    (hkey : (cert.pkeys lu.sigIdx).privatekey = some pkey) (hmd : tlsLookupMd lu = some md)
    (hsig : sl.digestSign pkey md (lu.sig = .rsaPss)
      (tlsGetCertVerifyData .swCertVerify [] transcriptHash) rnd = some sig) :
    sig.length = sl.pkeySize pkey := by
  obtain ⟨t, hbuild⟩ := tlsConstructCertVerify_of_fits hfirst.1.1 hmd hsig
  have hchosen := (h.chosen lu).mpr hfirst
  have hmax : (wPacketStaticBufInit (2 ^ 17)).maxsize < 2 ^ 31 := by
    change 2 ^ 17 < 2 ^ 31
    decide
  rw [← hkey] at hbuild
  obtain ⟨msg, hmsg, haccept⟩ := h.accepted lu hchosen [] [] _ t hmax hbuild
  obtain ⟨pkey', md', sig', hkey', hmd', hsig', hbuf⟩ := tlsConstructCertVerify_eq_ok hmax hbuild
  rw [hkey] at hkey'
  cases hkey'
  rw [hmd] at hmd'
  cases hmd'
  rw [hsig] at hsig'
  cases hsig'
  rw [hbuf] at hmsg
  have hsame := List.append_cancel_left hmsg
  obtain ⟨rest, hok⟩ := haccept []
  obtain ⟨rest', hrun⟩ := tlsCertVerifyProc_of_selectable hfirst.1 hkey hmd hsig [] []
  rw [← hsame, hrun] at hok
  by_contra hne
  rw [if_neg (fun heq => hne heq.symm)] at hok
  cases hok

/-- The endpoints agree exactly when the signature by the chosen algorithm is as long as
`EVP_PKEY_size` says. -/
theorem certVerifyAgreement_iff (cert : QuicCert sl) (clientSigalgs : List ℕ)
    (transcriptHash : List UInt8) (rnd : ω) :
    CertVerifyAgreement cert clientSigalgs transcriptHash rnd ↔
      ∀ lu pkey md sig,
        FirstSelectable cert (tlsGetPSigAlgs clientSigalgs) (tlsGetPSigAlgs cert.confSigalgs) lu →
        (cert.pkeys lu.sigIdx).privatekey = some pkey → tlsLookupMd lu = some md →
        sl.digestSign pkey md (lu.sig = .rsaPss)
          (tlsGetCertVerifyData .swCertVerify [] transcriptHash) rnd = some sig →
        sig.length = sl.pkeySize pkey := by
  constructor
  · intro h lu pkey md sig hfirst hkey hmd hsig
    exact h.length_eq hfirst hkey hmd hsig
  · intro h
    refine ⟨tlsChooseSigalg_eq_some_iff cert _, tlsChooseSigalg_eq_none_iff cert _, ?_⟩
    intro lu hchosen ownHash currentHash pkt t hmax hbuild
    have hfirst := (tlsChooseSigalg_eq_some_iff cert _ lu).mp hchosen
    obtain ⟨pkey, md, sig, hkey, hmd, hsig, hbuf⟩ := tlsConstructCertVerify_eq_ok hmax hbuild
    rw [tlsGetCertVerifyData_eq ownHash currentHash,
      ← tlsGetCertVerifyData_eq [] currentHash] at hsig
    refine ⟨_, hbuf, fun past => ?_⟩
    obtain ⟨rest, hrun⟩ := tlsCertVerifyProc_of_selectable hfirst.1 hkey hmd hsig past currentHash
    rw [if_pos (h lu pkey md sig hfirst hkey hmd hsig).symm] at hrun
    exact ⟨rest, hrun⟩

end Agreement

/-- A signature with SHA-256 by a key on `P-256`, of `70` bytes. -/
def shortSignature : List UInt8 :=
  Bytes.ofNat 35 0x3044022052be64944c1e8a92e5b9ededb68c5f3fcd06fd17237da74c21cdd56519b2e2 ++
  Bytes.ofNat 35 0x170220016b3a8139ade1e80ba731324f0e1c46c2a49d87c483bc0146e56846dcdf439d

/-- The digest with SHA-256 of an empty transcript, which the signature is for. -/
def emptyTranscriptHash : List UInt8 :=
  Bytes.ofNat 32 0xe3b0c44298fc1c149afbf4c8996fb92427ae41e4649b934ca495991b7852b855

/-- The library for the one key that made the signature. -/
def shortSignatureLib : TlsSignLib Unit Unit where
  pkeyId := fun _ => .ec
  pkeySize := fun _ => 72
  curveName := fun _ => nidX962Prime256v1
  mandatoryDigest := fun _ => none
  mandatoryDigest_eq_none := fun _ _ => rfl
  digestSign := fun _ _ _ _ _ => some shortSignature
  digestVerify := fun _ _ _ sig _ => sig = shortSignature
  digestVerify_digestSign := by
    rintro _ _ _ _ _ _ ⟨⟩
    exact decide_eq_true rfl
  digestSign_length := by
    rintro _ _ _ _ _ _ ⟨⟩
    decide
  pkeySize_lt := fun _ => by decide

/-- A server with this key and the default algorithms. -/
def shortSignatureCert : QuicCert shortSignatureLib where
  pkeys := fun i =>
    if i = .ecc then { x509 := some (), privatekey := some (), matches_x509 := fun _ _ _ _ => rfl }
    else { x509 := none, privatekey := none, matches_x509 := fun _ _ _ _ => rfl }
  confSigalgs := []
  pkeyId_eq := by
    intro i k hk
    by_cases h : i = .ecc
    · exact h.symm
    · rw [if_neg h] at hk
      cases hk

/-- With the default algorithms on both sides, a signature of `70` bytes is not accepted. -/
theorem shortSignatureCert_disagrees :
    ¬ CertVerifyAgreement shortSignatureCert [] emptyTranscriptHash () := by
  intro h
  have hfirst : FirstSelectable shortSignatureCert (tlsGetPSigAlgs []) (tlsGetPSigAlgs [])
      { sigalg := 0x0403, hash := some .sha256, hashIdx := .sha256, sig := .ec, sigIdx := .ecc,
        curve := nidX962Prime256v1 } := by
    refine ⟨⟨rfl, by decide, .sha256, (), rfl, rfl, rfl, fun _ => Or.inr rfl, nofun⟩, [],
      tlsSigalgs.tail, rfl, fun _ _ => List.not_mem_nil⟩
  have hlength := @CertVerifyAgreement.length_eq _ _ _ _ _ _ _ h _ () _ shortSignature hfirst rfl
    rfl rfl
  revert hlength
  decide

end Tbquic
