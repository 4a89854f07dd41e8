import Tbquic.Tls.SigAlg

/-!
# The algorithm of a server's signature

A client lists the signature algorithms that it accepts, and the CertificateVerify message of a
server names one. The client looks the name up in its table of algorithms, which holds more of them
than the list and says nothing about the key of the certificate.
-/

namespace Tbquic

/-- The loop of `TlsCopySigAlgs`. -/
def tlsCopySigAlgs : List ℕ → Prog Fail WPacket Unit
  | [] => pure ()
  | sig :: psig => do
    let _ ← Prog.ofOption .ret (tlsLookupSigAlg sig)
    wPacketPutBytes sig 2
    tlsCopySigAlgs psig

/-- `TlsExtClntConstructSigAlgs`, with the configured algorithms. -/
def tlsExtClntConstructSigAlgs (confSigalgs : List ℕ) : Prog Fail WPacket Unit := do
  wPacketStartSubBytes 2
  tlsCopySigAlgs (tlsGetPSigAlgs confSigalgs)
  wPacketClose

/-- What a code point stands for. -/
structure SigScheme where
  /-- The code point. -/
  code : ℕ
  /-- The type of the key. -/
  key : EvpPkeyId
  /-- The curve of the key, where the code point names one. -/
  curve : Option ℕ
  /-- The digest. -/
  digest : QuicDigest
  deriving DecidableEq, Repr

/-- The code points of the table, by their names in `tls.h`. -/
def sigSchemes : List SigScheme :=
  [⟨0x0403, .ec, some nidX962Prime256v1, .sha256⟩, ⟨0x0503, .ec, some nidSecp384r1, .sha384⟩,
    ⟨0x0603, .ec, some nidSecp521r1, .sha512⟩, ⟨0x0804, .rsa, none, .sha256⟩,
    ⟨0x0805, .rsa, none, .sha384⟩, ⟨0x0806, .rsa, none, .sha512⟩, ⟨0x0401, .rsa, none, .sha256⟩,
    ⟨0x0501, .rsa, none, .sha384⟩, ⟨0x0601, .rsa, none, .sha512⟩, ⟨0x0201, .rsa, none, .sha1⟩]

/-- The body of the extension for a list of code points. -/
def sigAlgsBody (salgs : List UInt16) : List UInt8 :=
  Bytes.ofNat 2 (2 * salgs.length) ++ salgs.flatMap fun salg => Bytes.ofNat 2 salg.toNat

section Client

variable {κ ω : Type} (sl : TlsSignLib κ ω)

/-- The key is of the type that the code point stands for. -/
def SigScheme.FitsKey (scheme : SigScheme) (pkey : κ) : Prop :=
  sl.pkeyId pkey = scheme.key ∧ ∀ c ∈ scheme.curve, sl.curveName pkey = c

/-- The key is of the type that the table has for an algorithm. -/
def SigAlgLookup.HasKeyType (lu : SigAlgLookup) (pkey : κ) : Prop :=
  quicCertLookupByNid (sl.pkeyId pkey) = lu.sigIdx ∧
    (lu.curve ≠ nidUndef → sl.curveName pkey = lu.curve)

/-- A client that wrote the bytes between `pkt` and `offer` into its ClientHello accepts a message
for the key of the server only if it listed the code point, and then the key and the digest are
those of the code point. -/
def AcceptsOffered (pkt offer : WPacket) (pkey : κ) (hdata : List UInt8) : Prop :=
  ∀ msg t, tlsCertVerifyProc sl (some pkey) hdata (rPacketBufInit msg, none) = (.ok (), t) →
    ∃ scheme ∈ sigSchemes, (∃ tail, msg = Bytes.ofNat 2 scheme.code ++ tail) ∧
      (∃ salgs, pkt.Extends (sigAlgsBody salgs) offer ∧ scheme.code ∈ salgs.map UInt16.toNat) ∧
      scheme.FitsKey sl pkey ∧ ∃ lu, t.2 = some lu ∧ tlsLookupMd lu = some scheme.digest

/-- An entry of the table is one that the client listed, for keys of this type, and has the digest
that it names. -/
def SigAlgLookup.Proper (lu : SigAlgLookup) (confSigalgs : List ℕ) (pkey : κ) : Prop :=
  lu.sigalg ∈ tlsGetPSigAlgs confSigalgs ∧ lu.HasKeyType sl pkey ∧ lu.hash = some lu.hashIdx

/-- The key has no signature of full length for these bytes by any other entry of the table. -/
def NoneBeside (confSigalgs : List ℕ) (pkey : κ) (hdata : List UInt8) : Prop :=
  ∀ lu ∈ sigAlgLookup, ¬ lu.Proper sl confSigalgs pkey → ∀ sig, sig.length = sl.pkeySize pkey →
    sl.digestVerify pkey lu.hashIdx (lu.sig = .rsaPss) sig hdata = false

end Client

/-- Only the code points of the table are copied, each in two bytes. -/
theorem tlsCopySigAlgs_eq_ok {psig : List ℕ} {pkt t : WPacket} {u : Unit}
    (h : tlsCopySigAlgs psig pkt = (.ok u, t)) :
    ∃ salgs : List UInt16, salgs.map UInt16.toNat = psig ∧
      t.buf = pkt.buf ++ salgs.flatMap (fun salg => Bytes.ofNat 2 salg.toNat) ∧
      t.maxsize = pkt.maxsize ∧ t.subs = pkt.subs := by
  induction psig generalizing pkt with
  | nil =>
    cases h
    exact ⟨[], rfl, (List.append_nil _).symm, rfl, rfl⟩
  | cons sig psig ih =>
    cases hfound : tlsLookupSigAlg sig with
    | none =>
      rw [tlsCopySigAlgs, hfound, Prog.ofOption_none, Prog.fail_bind] at h
      cases h
    | some lu =>
      rw [tlsCopySigAlgs, hfound, Prog.ofOption_some, Prog.pure_bind] at h
      obtain ⟨_, put, hput, hcopy⟩ := Prog.bind_eq_ok.mp h
      obtain ⟨hbuf, hmax, hsubs, hlt⟩ := wPacketPutBytes_eq_ok hput
      obtain ⟨salgs, hsalgs, hrest, hrmax, hrsubs⟩ := ih hcopy
      have hcode : (UInt16.ofNat sig).toNat = sig := UInt16.toNat_ofNat_of_lt' hlt
      refine ⟨UInt16.ofNat sig :: salgs, ?_, ?_, hrmax.trans hmax, hrsubs.trans hsubs⟩
      · rw [List.map_cons, hcode, hsalgs]
      · rw [hrest, hbuf, List.flatMap_cons, hcode, List.append_assoc]

/-- The bytes of the code points. -/
theorem sigAlgs_length (salgs : List UInt16) :
    (salgs.flatMap fun salg => Bytes.ofNat 2 salg.toNat).length = 2 * salgs.length := by
  induction salgs with
  | nil => rfl
  | cons salg salgs ih =>
    rw [List.flatMap_cons, List.length_append, Bytes.ofNat_length, ih, List.length_cons]
    omega

/-- The bytes of the code points determine them. -/
theorem sigAlgs_injective {salgs salgs' : List UInt16}
    (h : (salgs.flatMap fun salg => Bytes.ofNat 2 salg.toNat) =
      salgs'.flatMap fun salg => Bytes.ofNat 2 salg.toNat) : salgs = salgs' := by
  induction salgs generalizing salgs' with
  | nil =>
    have hlen := congrArg List.length h
    rw [sigAlgs_length, sigAlgs_length] at hlen
    exact (List.length_eq_zero_iff.mp (by simpa using hlen.symm)).symm
  | cons salg salgs ih =>
    cases salgs' with
    | nil =>
      have hlen := congrArg List.length h
      rw [sigAlgs_length, sigAlgs_length] at hlen
      simp at hlen
    | cons salg' salgs' =>
      rw [List.flatMap_cons, List.flatMap_cons] at h
      obtain ⟨hhead, htail⟩ := List.append_inj h (by rw [Bytes.ofNat_length, Bytes.ofNat_length])
      have hcode := congrArg Bytes.toNat hhead
      rw [Bytes.toNat_ofNat_of_lt salg.toNat_lt, Bytes.toNat_ofNat_of_lt salg'.toNat_lt] at hcode
      rw [UInt16.toNat_inj.mp hcode, ih htail]

/-- The extension lists the configured algorithms. -/
theorem tlsExtClntConstructSigAlgs_eq_ok {confSigalgs : List ℕ} {pkt offer : WPacket} {u : Unit}
    (hmax : pkt.maxsize < 2 ^ 31)
    (h : tlsExtClntConstructSigAlgs confSigalgs pkt = (.ok u, offer)) :
    ∃ salgs : List UInt16, salgs.map UInt16.toNat = tlsGetPSigAlgs confSigalgs ∧
      pkt.Extends (sigAlgsBody salgs) offer := by
  obtain ⟨_, opened, hstart, hrest⟩ := Prog.bind_eq_ok.mp h
  obtain ⟨_, filled, hcopy, hclose⟩ := Prog.bind_eq_ok.mp hrest
  obtain ⟨hobuf, homax, hosubs⟩ : opened.buf = pkt.buf ++ List.replicate 2 0 ∧
      opened.maxsize = pkt.maxsize ∧
      opened.subs = { value := pkt.buf.length, valLen := 2 } :: pkt.subs := by
    rw [wPacketStartSubBytes, Prog.modify_bind] at hstart
    exact wPacketAppend_eq_ok hstart
  obtain ⟨salgs, hsalgs, hfbuf, hfmax, hfsubs⟩ := tlsCopySigAlgs_eq_ok hcopy
  rw [hobuf] at hfbuf
  have hfits := filled.fits
  rw [hfbuf, List.length_append, hfmax, homax] at hfits
  have hbody := lt_of_le_of_lt (le_trans (Nat.le_add_left _ _) hfits) hmax
  have hsubs := hfsubs.trans hosubs
  have hsize := wPacketClose_eq_ok hfbuf hsubs hclose hbody
  obtain ⟨t, hrun, hbuf, htmax, _⟩ := wPacketClose_of_subs hfbuf hsubs hbody hsize
  rw [hclose] at hrun
  cases hrun
  refine ⟨salgs, hsalgs, ?_, htmax.trans (hfmax.trans homax)⟩
  rw [hbuf, sigAlgs_length, sigAlgsBody, List.append_assoc]

section Accepted

variable {κ ω : Type} {sl : TlsSignLib κ ω}

/-- What an accepted message holds, and the algorithm that the client verified it with. -/
theorem tlsCertVerifyProc_eq_ok {pkey : κ} {hdata msg : List UInt8} {u : Unit}
    {t : RPacket × Option SigAlgLookup}
    (h : tlsCertVerifyProc sl (some pkey) hdata (rPacketBufInit msg, none) = (.ok u, t)) :
    tlsLookupSigAlgBySig (sl.pkeyId pkey) ≠ none ∧
      ∃ lu md sig tail, tlsLookupSigAlg lu.sigalg = some lu ∧ tlsLookupMd lu = some md ∧
        msg = Bytes.ofNat 2 lu.sigalg ++ tail ∧ sig.length = sl.pkeySize pkey ∧
        sl.digestVerify pkey md (lu.sig = .rsaPss) sig hdata = true ∧ t.2 = some lu := by
  obtain ⟨_, hpkey, hlook⟩ := Prog.ofOption_bind_eq_ok.mp h
  cases hpkey
  obtain ⟨found, hfound, hget⟩ := Prog.ofOption_bind_eq_ok.mp hlook
  obtain ⟨sigalg, s₁, hcode, hcheck⟩ := Prog.onFst_bind_eq_ok.mp hget
  obtain ⟨lu, hlu, hset⟩ := Prog.ofOption_bind_eq_ok.mp hcheck
  rw [Prog.onSnd_modify_bind] at hset
  obtain ⟨md, hmd, hlength⟩ := Prog.ofOption_bind_eq_ok.mp hset
  obtain ⟨len, s₂, hlen, hsize⟩ := Prog.onFst_bind_eq_ok.mp hlength
  obtain ⟨hfull, hbytes⟩ := Prog.ensure_bind_eq_ok.mp hsize
  obtain ⟨sig, s₃, hsig, hverify⟩ := Prog.onFst_bind_eq_ok.mp hbytes
  obtain ⟨hcodeEq, _⟩ := tlsLookupSigAlg_sigalg hlu
  obtain ⟨_, hmsg, _⟩ := rPacketGetData_eq_ok hcode
  obtain ⟨hsigLength, _, _⟩ := rPacketGetBytes_eq_ok hsig
  subst hcodeEq
  by_cases hok : sl.digestVerify pkey md (lu.sig = .rsaPss) sig hdata = true
  · rw [Prog.ensure_of_pos hok] at hverify
    cases hverify
    refine ⟨?_, lu, md, sig, s₁.rest, hlu, hmd, hmsg, hsigLength.trans hfull.symm, hok, rfl⟩
    rw [hfound]
    exact Option.some_ne_none found
  · rw [Prog.ensure_of_neg hok] at hverify
    cases hverify

/-- A verified signature of full length is accepted with every entry of the table. -/
theorem tlsCertVerifyProc_of_verified {pkey : κ} {hdata sig : List UInt8} {lu : SigAlgLookup}
    {md : QuicDigest} (hpkey : tlsLookupSigAlgBySig (sl.pkeyId pkey) ≠ none)
    (hlu : tlsLookupSigAlg lu.sigalg = some lu) (hmd : tlsLookupMd lu = some md)
    (hlength : sig.length = sl.pkeySize pkey)
    (hverify : sl.digestVerify pkey md (lu.sig = .rsaPss) sig hdata = true) :
    ∃ pkt, tlsCertVerifyProc sl (some pkey) hdata
        (rPacketBufInit (Bytes.ofNat 2 lu.sigalg ++ (Bytes.ofNat 2 sig.length ++ sig)), none) =
      (.ok (), (pkt, some lu)) := by
  have hsize := sl.pkeySize_lt pkey
  have hcode := @rPacketGetData_append [] (Bytes.ofNat 2 sig.length ++ sig) _ _
    (sigalg_lt_of_mem (tlsLookupSigAlg_sigalg hlu).2)
    (by rw [List.length_append, Bytes.ofNat_length]; omega)
  have hlen := @rPacketGetData_append ([] ++ Bytes.ofNat 2 lu.sigalg) sig 2 sig.length
    (by omega) (by omega)
  have hdata := @rPacketGetBytes_append ([] ++ Bytes.ofNat 2 lu.sigalg ++
    Bytes.ofNat 2 sig.length) sig [] (by simp)
  rw [List.append_nil] at hdata
  obtain ⟨found, hfound⟩ := Option.ne_none_iff_exists'.mp hpkey
  rw [tlsCertVerifyProc, Prog.ofOption_some, Prog.pure_bind, hfound, Prog.ofOption_some,
    Prog.pure_bind, rPacketGet2, rPacketBufInit, Prog.onFst_bind_of_ok hcode, hlu,
    Prog.ofOption_some, Prog.pure_bind, Prog.onSnd_modify_bind, hmd, Prog.ofOption_some,
    Prog.pure_bind, Prog.onFst_bind_of_ok hlen, Prog.ensure_of_pos hlength.symm, Prog.pure_bind,
    Prog.onFst_bind_of_ok hdata, Prog.ensure_of_pos hverify]
  exact ⟨_, rfl⟩

/-- The code point of an entry stands for the type of key that the entry has. -/
theorem exists_sigScheme {lu : SigAlgLookup} (h : lu ∈ sigAlgLookup) :
    ∃ scheme ∈ sigSchemes, scheme.code = lu.sigalg ∧ lu.hash = some scheme.digest ∧
      quicCertLookupByNid scheme.key = lu.sigIdx ∧
      scheme.curve = if lu.curve = nidUndef then none else some lu.curve := by
  revert lu
  decide

/-- A code point stands for one thing. -/
theorem sigScheme_eq {scheme scheme' : SigScheme} (h : scheme ∈ sigSchemes)
    (h' : scheme' ∈ sigSchemes) (hcode : scheme.code = scheme'.code) : scheme = scheme' := by
  have hall : ∀ s ∈ sigSchemes, ∀ s' ∈ sigSchemes, s.code = s'.code → s = s' := by decide
  exact hall scheme h scheme' h' hcode

/-- A code point has 16 bits. -/
theorem code_lt_of_mem {scheme : SigScheme} (h : scheme ∈ sigSchemes) : scheme.code < 256 ^ 2 := by
  revert scheme
  decide

/-- Every entry of the table is found by its value. -/
theorem tlsLookupSigAlg_of_mem {lu : SigAlgLookup} (h : lu ∈ sigAlgLookup) :
    tlsLookupSigAlg lu.sigalg = some lu := by
  revert lu
  decide

/-- The table has no algorithm for an Edwards curve. -/
theorem tlsLookupSigAlgBySig_eq_none_iff (sig : EvpPkeyId) :
    tlsLookupSigAlgBySig sig = none ↔ sig = .ed25519 ∨ sig = .ed448 := by
  cases sig <;> decide

/-- Each type of key has a place of its own. -/
theorem quicCertLookupByNid_injective {i j : EvpPkeyId}
    (h : quicCertLookupByNid i = quicCertLookupByNid j) : i = j := by
  cases i <;> cases j <;> first | rfl | cases h

/-- A key has the type of an entry exactly when it has that of the code point. -/
theorem SigScheme.fitsKey_iff {scheme : SigScheme} {lu : SigAlgLookup} {pkey : κ}
    (hkey : quicCertLookupByNid scheme.key = lu.sigIdx)
    (hcurve : scheme.curve = if lu.curve = nidUndef then none else some lu.curve) :
    scheme.FitsKey sl pkey ↔ lu.HasKeyType sl pkey := by
  unfold SigScheme.FitsKey SigAlgLookup.HasKeyType
  rw [← hkey, hcurve]
  refine and_congr ⟨congrArg _, quicCertLookupByNid_injective⟩ ?_
  by_cases hundef : lu.curve = nidUndef
  · rw [if_pos hundef]
    exact ⟨fun _ hne => absurd hundef hne, fun _ c hc => by cases hc⟩
  · rw [if_neg hundef]
    constructor
    · intro h _
      exact h lu.curve rfl
    · rintro h _ ⟨⟩
      exact h hundef

/-- The digest of an entry is the one that the client uses when the entry names it. -/
theorem tlsLookupMd_of_mem {lu : SigAlgLookup} (h : lu ∈ sigAlgLookup) :
    tlsLookupMd lu = some lu.hashIdx := by
  revert lu
  decide

variable {pkt offer : WPacket} {confSigalgs : List ℕ}

/-- With a proper entry the message is one that the client offered to accept. -/
theorem SigAlgLookup.Proper.offered {lu : SigAlgLookup} {pkey : κ} (hmax : pkt.maxsize < 2 ^ 31)
    (hoffer : tlsExtClntConstructSigAlgs confSigalgs pkt = (.ok (), offer))
    (hlu : lu ∈ sigAlgLookup) (hproper : lu.Proper sl confSigalgs pkey) :
    ∃ scheme ∈ sigSchemes, scheme.code = lu.sigalg ∧
      (∃ salgs, pkt.Extends (sigAlgsBody salgs) offer ∧ scheme.code ∈ salgs.map UInt16.toNat) ∧
      scheme.FitsKey sl pkey ∧ tlsLookupMd lu = some scheme.digest := by
  obtain ⟨hlisted, htype, hhash⟩ := hproper
  obtain ⟨salgs, hsalgs, hextends⟩ := tlsExtClntConstructSigAlgs_eq_ok hmax hoffer
  obtain ⟨scheme, hmem, hcode, hdigest, hkey, hcurve⟩ := exists_sigScheme hlu
  refine ⟨scheme, hmem, hcode, ⟨salgs, hextends, ?_⟩,
    (SigScheme.fitsKey_iff hkey hcurve).mpr htype, ?_⟩
  · rw [hsalgs, hcode]
    exact hlisted
  · rw [tlsLookupMd_of_mem hlu, ← hhash, hdigest]

/-- An entry is proper when its code point was listed and stands for this key and digest. -/
theorem SigAlgLookup.proper_of_offered {lu : SigAlgLookup} {scheme : SigScheme} {pkey : κ}
    {salgs : List UInt16} (hmax : pkt.maxsize < 2 ^ 31)
    (hoffer : tlsExtClntConstructSigAlgs confSigalgs pkt = (.ok (), offer))
    (hlu : lu ∈ sigAlgLookup) (hscheme : scheme ∈ sigSchemes) (hcode : scheme.code = lu.sigalg)
    (hextends : pkt.Extends (sigAlgsBody salgs) offer)
    (hlisted : scheme.code ∈ salgs.map UInt16.toNat) (hfits : scheme.FitsKey sl pkey)
    (hmd : tlsLookupMd lu = some scheme.digest) : lu.Proper sl confSigalgs pkey := by
  obtain ⟨salgs', hsalgs, hextends'⟩ := tlsExtClntConstructSigAlgs_eq_ok hmax hoffer
  have hbody : sigAlgsBody salgs = sigAlgsBody salgs' := by
    have hbuf := hextends.1
    rw [hextends'.1] at hbuf
    exact (List.append_cancel_left hbuf).symm
  have hsame := sigAlgs_injective
    (List.append_inj hbody (by rw [Bytes.ofNat_length, Bytes.ofNat_length])).2
  obtain ⟨own, hown, hownCode, hdigest, hkey, hcurve⟩ := exists_sigScheme hlu
  have heq := sigScheme_eq hscheme hown (hcode.trans hownCode.symm)
  subst heq hsame
  refine ⟨?_, (SigScheme.fitsKey_iff hkey hcurve).mp hfits, ?_⟩
  · rw [← hsalgs, ← hcode]
    exact hlisted
  · rw [tlsLookupMd_of_mem hlu] at hmd
    rw [hdigest, hmd]

/-- Where the client accepts only what it offered, nothing else is verified. -/
theorem noneBeside_of_acceptsOffered {pkey : κ} {hdata : List UInt8} (hmax : pkt.maxsize < 2 ^ 31)
    (hoffer : tlsExtClntConstructSigAlgs confSigalgs pkt = (.ok (), offer))
    (hpkey : tlsLookupSigAlgBySig (sl.pkeyId pkey) ≠ none)
    (h : AcceptsOffered sl pkt offer pkey hdata) : NoneBeside sl confSigalgs pkey hdata := by
  intro lu hlu hnot sig hlength
  rw [← Bool.not_eq_true]
  intro hverify
  obtain ⟨t, hrun⟩ := tlsCertVerifyProc_of_verified hpkey (tlsLookupSigAlg_of_mem hlu)
    (tlsLookupMd_of_mem hlu) hlength hverify
  obtain ⟨scheme, hscheme, ⟨tail, hmsg⟩, ⟨salgs, hextends, hlisted⟩, hfits, lu', hlu', hmd⟩ :=
    h _ _ hrun
  cases hlu'
  have hcode : scheme.code = lu.sigalg := by
    have hhead := congrArg Bytes.toNat
      (List.append_inj hmsg (by rw [Bytes.ofNat_length, Bytes.ofNat_length])).1
    rw [Bytes.toNat_ofNat_of_lt (sigalg_lt_of_mem hlu),
      Bytes.toNat_ofNat_of_lt (code_lt_of_mem hscheme)] at hhead
    exact hhead.symm
  exact hnot (SigAlgLookup.proper_of_offered hmax hoffer hlu hscheme hcode hextends hlisted hfits
    hmd)

/-- Where nothing else is verified, the client accepts only what it offered. -/
theorem acceptsOffered_of_noneBeside {pkey : κ} {hdata : List UInt8} (hmax : pkt.maxsize < 2 ^ 31)
    (hoffer : tlsExtClntConstructSigAlgs confSigalgs pkt = (.ok (), offer))
    (h : NoneBeside sl confSigalgs pkey hdata) : AcceptsOffered sl pkt offer pkey hdata := by
  intro msg t hrun
  obtain ⟨_, lu, md, sig, tail, hfound, hmd, hmsg, hlength, hverify, hset⟩ :=
    tlsCertVerifyProc_eq_ok hrun
  have hlu := (tlsLookupSigAlg_sigalg hfound).2
  rw [tlsLookupMd_of_mem hlu] at hmd
  cases hmd
  have hproper : lu.Proper sl confSigalgs pkey := by
    by_contra hnot
    rw [h lu hlu hnot sig hlength] at hverify
    cases hverify
  obtain ⟨scheme, hscheme, hcode, hlisted, hfits, hdigest⟩ := hproper.offered hmax hoffer hlu
  exact ⟨scheme, hscheme, ⟨tail, hcode ▸ hmsg⟩, hlisted, hfits, lu, hset, hdigest⟩

/-- A client that sent its ClientHello accepts only signatures that it offered to accept, by keys
and digests that their code points stand for, exactly when the key is for an Edwards curve or has no
signature of full length by an algorithm of the table that the client did not list, that is for
keys of another type, or that names another digest than it has. -/
theorem acceptsOffered_iff (hmax : pkt.maxsize < 2 ^ 31)
    (hoffer : tlsExtClntConstructSigAlgs confSigalgs pkt = (.ok (), offer)) (pkey : κ)
    (hdata : List UInt8) :
    AcceptsOffered sl pkt offer pkey hdata ↔
      (sl.pkeyId pkey = .ed25519 ∨ sl.pkeyId pkey = .ed448) ∨
        NoneBeside sl confSigalgs pkey hdata := by
  rw [← tlsLookupSigAlgBySig_eq_none_iff]
  constructor
  · intro h
    rw [or_iff_not_imp_left]
    intro hpkey
    exact noneBeside_of_acceptsOffered hmax hoffer hpkey h
  · rintro (hpkey | hnone)
    · intro msg t hrun
      exact absurd hpkey (tlsCertVerifyProc_eq_ok hrun).1
    · exact acceptsOffered_of_noneBeside hmax hoffer hnone

end Accepted

/-- The packet with the default algorithms, and nothing before them. -/
def defaultOffer : WPacket :=
  (tlsExtClntConstructSigAlgs [] (wPacketStaticBufInit wPacketBufMaxLen)).2

/-- The default algorithms are written. -/
theorem defaultOffer_eq :
    tlsExtClntConstructSigAlgs [] (wPacketStaticBufInit wPacketBufMaxLen) =
      (.ok (), defaultOffer) := by
  have hok : (tlsExtClntConstructSigAlgs [] (wPacketStaticBufInit wPacketBufMaxLen)).1 =
      .ok () := by decide +kernel
  exact Prod.ext hok rfl

/-- The bytes that a server signs for an empty transcript. -/
def emptyTranscriptData : List UInt8 := tlsGetCertVerifyData .crCertVerify emptyTranscriptHash []

/-- An RSA-PSS signature with SHA-256, of `128` bytes. -/
def pssSignature : List UInt8 :=
  Bytes.ofNat 32 0x777bb75d00236cdebcd87532a2eaf5c798d555ba11145acbf13aa3a9b08bc0dc ++
  Bytes.ofNat 32 0x763477a07c0d6f4cbc4d5f2f277f75c67fdea3395ed1dd386f4350e9e8e4f0b5 ++
  Bytes.ofNat 32 0xbe1d47d863cbb11a5b47e4b36fc5a064ca63b95173ae550e9a69155637b64265 ++
  Bytes.ofNat 32 0xb5b936cd128d2b2ad0f0a8feaf89e7e2f14c214f19499175e4f9b495b30986e6

theorem pssSignature_length : pssSignature.length = 128 := by
  simp only [pssSignature, List.length_append, Bytes.ofNat_length]

/-- The library for the one RSA key that made the signature. -/
def pssSignatureLib : TlsSignLib Unit Unit where
  pkeyId := fun _ => .rsa
  pkeySize := fun _ => 128
  curveName := fun _ => nidUndef
  mandatoryDigest := fun _ => none
  mandatoryDigest_eq_none := fun _ _ => rfl
  digestSign := fun _ md pss bytes _ =>
    if md = .sha256 ∧ pss = true ∧ bytes = emptyTranscriptData then some pssSignature else none
  digestVerify := fun _ md pss sig bytes =>
    md = .sha256 ∧ pss = true ∧ bytes = emptyTranscriptData ∧ sig = pssSignature
  digestVerify_digestSign := by
    intro _ md pss bytes _ sig h
    split_ifs at h with hsigned
    cases h
    exact decide_eq_true ⟨hsigned.1, hsigned.2.1, hsigned.2.2, rfl⟩
  digestSign_length := by
    intro _ md pss bytes _ sig h
    split_ifs at h
    cases h
    exact pssSignature_length.le
  pkeySize_lt := fun _ => by decide

/-- A client with the default algorithms accepts an RSA-PSS signature with SHA-256, and only as one
that it offered. -/
theorem acceptsOffered_pssSignature :
    AcceptsOffered pssSignatureLib (wPacketStaticBufInit wPacketBufMaxLen) defaultOffer ()
        emptyTranscriptData ∧
      (tlsCertVerifyProc pssSignatureLib (some ()) emptyTranscriptData
        (rPacketBufInit ([0x08, 0x04, 0, 128] ++ pssSignature), none)).1 = .ok () := by
  refine ⟨(acceptsOffered_iff (by decide) defaultOffer_eq () emptyTranscriptData).mpr
    (Or.inr fun lu hlu hnot sig _ => decide_eq_false ?_), by decide +kernel⟩
  -- only `rsa_pss_rsae_sha256` verifies with this digest and padding
  rintro ⟨hhash, hpss, -⟩
  have hall : ∀ lu ∈ sigAlgLookup, lu.hashIdx = .sha256 → lu.sig = .rsaPss →
      lu.sigalg = 0x0804 ∧ lu.sigIdx = .rsa ∧ lu.curve = nidUndef ∧ lu.hash = some .sha256 := by
    decide
  obtain ⟨hcode, hidx, hcurve, hdigest⟩ := hall lu hlu hhash (of_decide_eq_true hpss)
  refine hnot ⟨?_, ⟨hidx.symm, fun hne => absurd hcurve hne⟩, hdigest.trans (congrArg _ hhash.symm)⟩
  rw [hcode]
  decide

/-- A signature with SHA-512 by a key on `P-256`, of `72` bytes. -/
def sha512Signature : List UInt8 :=
  Bytes.ofNat 36 0x3046022100dd02730516ee79adc1f24ac6d0bb0d39d3baddea167aa9df563ca82bb94b3f ++
  Bytes.ofNat 36 0x9a022100b66045e02ee9f011cbc0c5b8bfa01fbfe61ebc8b75c3e1c761def59c2fe7680e

/-- The library for the one key that made the signature. -/
def sha512SignatureLib : TlsSignLib Unit Unit where
  pkeyId := fun _ => .ec
  pkeySize := fun _ => 72
  curveName := fun _ => nidX962Prime256v1
  mandatoryDigest := fun _ => none
  mandatoryDigest_eq_none := shortSignatureLib.mandatoryDigest_eq_none
  digestSign := fun _ md pss bytes _ =>
    if md = .sha512 ∧ pss = false ∧ bytes = emptyTranscriptData then some sha512Signature else none
  digestVerify := fun _ md pss sig bytes =>
    md = .sha512 ∧ pss = false ∧ bytes = emptyTranscriptData ∧ sig = sha512Signature
  digestVerify_digestSign := by
    intro _ md pss bytes _ sig h
    split_ifs at h with hsigned
    cases h
    exact decide_eq_true ⟨hsigned.1, hsigned.2.1, hsigned.2.2, rfl⟩
  digestSign_length := by
    intro _ md pss bytes _ sig h
    split_ifs at h
    cases h
    decide
  pkeySize_lt := shortSignatureLib.pkeySize_lt

/-- A client with the default algorithms accepts a signature with SHA-512 by a key on `P-256` under
the code point of `rsa_pkcs1_sha1`, which it did not list. -/
theorem not_acceptsOffered_sha1 :
    ¬ AcceptsOffered sha512SignatureLib (wPacketStaticBufInit wPacketBufMaxLen) defaultOffer ()
      emptyTranscriptData := by
  intro h
  have hnone := noneBeside_of_acceptsOffered (by decide) defaultOffer_eq (by decide) h
  have hfalse := hnone
    { sigalg := 0x0201, hash := some .sha1, hashIdx := .sha512, sig := .rsa, sigIdx := .rsa }
    (by decide) (fun hproper => absurd hproper.2.2 (by decide)) sha512Signature (by decide)
  have htrue : sha512SignatureLib.digestVerify () .sha512 false sha512Signature
      emptyTranscriptData = true := decide_eq_true ⟨rfl, rfl, rfl, rfl⟩
  exact absurd (htrue.symm.trans hfalse) (by decide)

end Tbquic
