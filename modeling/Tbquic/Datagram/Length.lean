import Tbquic.Datagram.Sender
import Tbquic.Frame.Queue

/-!
# Lengths of packets

`QBufPktComputeTotalLen` computes the length of a packet before it is built. The number of bytes
that a build appends does not depend on the cryptographic library. For a long header it is the
computed length. A short header has no length of the connection ID, for which one byte is computed.
-/

namespace Tbquic

open Prog

/-- `QBufPktComputeTotalLen`: the `compute_totallen` of a packet type. The table has no entry for
0-RTT and Retry packets, and the source calls a null pointer. -/
def qBufPktComputeTotalLen (conn : HeaderSource) (type : QuicPktType) (alg dataLen : ℕ) :
    Except Fail ℕ :=
  match type with
  | .initial | .handshake => conn.quicLPacketGetTotalLen alg type dataLen
  | .oneRtt => quicSPacketLen conn.dcid.length conn.pktNumLen.val alg dataLen
  | .zeroRtt | .retry => .error .ub

/-- A build without padding appends as many bytes as are computed. -/
def ComputesLength {Ctx : Type} (evp : Evp Ctx) (conn : HeaderSource) (type : QuicPktType)
    (last : Bool) (s : PktBuild Ctx) : Prop :=
  ∀ t, qBuffBuildPkt evp conn type last s = (.ok (), t) → t.qb.dataLen = s.qb.dataLen →
    qBufPktComputeTotalLen conn type s.ppCipher.cipher.alg s.qb.dataLen =
      .ok (t.pkt.written - s.pkt.written)

section Lengths

variable {Ctx : Type} {evp : Evp Ctx} {conn : HeaderSource} {type : QuicPktType} {last : Bool}
  {s t u : PktBuild Ctx}

/-- A number of bytes is appended, and the payload and the algorithm are kept. -/
def Appended (n : ℕ) (s t : PktBuild Ctx) : Prop :=
  t.pkt.written = s.pkt.written + n ∧ t.pkt.maxsize = s.pkt.maxsize ∧ t.qb.data = s.qb.data ∧
    t.ppCipher.cipher.alg = s.ppCipher.cipher.alg

/-- Bytes are appended one part after the other. -/
theorem Appended.trans {m n : ℕ} (h : Appended m s t) (h' : Appended n t u) :
    Appended (m + n) s u := by
  obtain ⟨hwritten, hmax, hdata, halg⟩ := h
  obtain ⟨hwritten', hmax', hdata', halg'⟩ := h'
  refine ⟨?_, hmax'.trans hmax, hdata'.trans hdata, halg'.trans halg⟩
  rw [hwritten', hwritten, Nat.add_assoc]

/-- What is written over other bytes appends nothing. -/
theorem appended_overwrite (offset : ℕ) (bytes : List UInt8) :
    Appended 0 s (s.setPkt (s.pkt.overwrite offset bytes)) :=
  ⟨Bytes.overwrite_length _ _ _, rfl, rfl, rfl⟩

/-- A successful operation on the datagram. -/
theorem onPkt_eq_ok {α : Type} {m : Prog Fail WPacket α} {a : α}
    (h : PktBuild.onPkt m s = (.ok a, t)) : ∃ pkt, m s.pkt = (.ok a, pkt) ∧ t = s.setPkt pkt := by
  rw [PktBuild.onPkt, zoom_apply] at h
  exact ⟨_, Prod.ext (Prod.mk.inj h).1 rfl, (Prod.mk.inj h).2.symm⟩

/-- A result that is not an error. -/
theorem ofExcept_eq_ok {σ α : Type} {x : Except Fail α} {a : α} {s t : σ}
    (h : Prog.ofExcept x s = (.ok a, t)) : x = .ok a ∧ s = t := by
  cases x with
  | error e => cases h
  | ok b => cases h; exact ⟨rfl, rfl⟩

/-- What writes certain bytes appends their number. -/
theorem Writes.appended {m : Prog Fail WPacket Unit} {p : Prop} {bytes : List UInt8}
    (hm : Writes m p bytes) (hmax : s.pkt.maxsize < 2 ^ 31) {v : Unit}
    (h : PktBuild.onPkt m s = (.ok v, t)) : p ∧ Appended bytes.length s t := by
  obtain ⟨pkt, hrun, rfl⟩ := onPkt_eq_ok h
  obtain ⟨hp, hextends⟩ := (hm s.pkt hmax).of_ok hrun
  exact ⟨hp, hextends.written, hextends.2, rfl, rfl⟩

/-- A stretch that is allocated is appended. -/
theorem wPacketAllocateBytes_appended {len dest : ℕ}
    (h : PktBuild.onPkt (wPacketAllocateBytes len) s = (.ok dest, t)) : Appended len s t := by
  obtain ⟨pkt, hrun, rfl⟩ := onPkt_eq_ok h
  rw [wPacketAllocateBytes, get_bind] at hrun
  obtain ⟨_, pkt', happend, hpure⟩ := bind_eq_ok.mp hrun
  cases hpure
  obtain ⟨hbuf, hmax, _⟩ := wPacketAppend_eq_ok happend
  refine ⟨?_, hmax, rfl, rfl⟩
  change pkt.buf.length = s.pkt.buf.length + len
  rw [hbuf, List.length_append, List.length_replicate]

/-- Encrypting a payload writes nothing into the datagram. -/
theorem quicEncryptPayload_appended (head : List UInt8) (outLen pktNum pktNumLen : ℕ) :
    Post (quicEncryptPayload evp head outLen pktNum pktNumLen) (fun _ t => Appended 0 s t)
      (fun _ _ => True) s := by
  simp [quicEncryptPayload, quicEncryptMessage, quicCryptoSetIV, ppCtx, post_ite, Appended,
    PktBuild.setPpCtx, PktBuild.record, PktBuild.ppCipher]

/-- Masking the header appends nothing. -/
theorem quicEncryptHeader_appended (firstByte pktNumStart dataLen bitsMask : ℕ) :
    Post (quicEncryptHeader evp firstByte pktNumStart dataLen bitsMask)
      (fun _ t => Appended 0 s t) (fun _ _ => True) s := by
  simp [quicEncryptHeader, quicHPMaskGen, Appended, PktBuild.setHpCtx, PktBuild.setPkt,
    PktBuild.ppCipher, WPacket.written, WPacket.overwrite, Bytes.overwrite_length]

/-- The end of a build appends the packet number and the ciphertext. -/
theorem quicPacketSeal_appended {firstByte pktNum pktNumLen cipherLen mask : ℕ} {v : Unit}
    (hmax : s.pkt.maxsize < 2 ^ 31)
    (h : quicPacketSeal evp firstByte pktNum pktNumLen cipherLen mask s = (.ok v, t)) :
    Appended (pktNumLen + cipherLen) s t := by
  rw [quicPacketSeal, get_bind] at h
  obtain ⟨_, s₁, hput, h⟩ := bind_eq_ok.mp h
  obtain ⟨dest, s₂, halloc, h⟩ := bind_eq_ok.mp h
  rw [ensure_bind_eq_ok, get_bind] at h
  obtain ⟨out, s₃, hpayload, h⟩ := bind_eq_ok.mp h.2
  rw [modify_bind] at h
  have hnum := ((writes_putBytes pktNum pktNumLen).appended hmax hput).2
  rw [Bytes.ofNat_length] at hnum
  have hbody := hnum.trans (wPacketAllocateBytes_appended halloc)
  have hcipher := (quicEncryptPayload_appended _ _ _ _).of_ok hpayload
  have hheader := (quicEncryptHeader_appended _ _ _ _).of_ok h
  exact hbody.trans (hcipher.trans ((appended_overwrite dest out).trans hheader))

/-- A build appends the length of a long header, the packet number and the ciphertext. -/
theorem quicPacketBuild_appended {firstByte pktNumLen mask : ℕ} {v : Unit}
    (hmax : s.pkt.maxsize < 2 ^ 31)
    (h : quicPacketBuild evp firstByte pktNumLen mask s = (.ok v, t)) :
    ∃ cipherLen, quicCipherLenGet s.ppCipher.cipher.alg s.qb.dataLen = .ok cipherLen ∧
      (mask = longHeaderMask → cipherLen + pktNumLen < 2 ^ 62) ∧
      Appended ((lengthField mask (cipherLen + pktNumLen)).length + (pktNumLen + cipherLen))
        s t := by
  rw [quicPacketBuild, get_bind, ensure_bind_eq_ok, modify_bind, get_bind] at h
  obtain ⟨pktNum, s₁, hcode, h⟩ := bind_eq_ok.mp h.2
  obtain ⟨_, rfl⟩ := ofExcept_eq_ok hcode
  obtain ⟨cipherLen, s₂, hlen, h⟩ := bind_eq_ok.mp h
  obtain ⟨hcipher, rfl⟩ := ofExcept_eq_ok hlen
  rw [ensure_bind_eq_ok] at h
  obtain ⟨_, s₃, hlength, h⟩ := bind_eq_ok.mp h.2
  have hnumber : Appended 0 s s.number := ⟨rfl, rfl, rfl, rfl⟩
  have hroom : s.number.pkt.maxsize < 2 ^ 31 := hmax
  refine ⟨cipherLen, hcipher, ?_⟩
  rw [quicPacketLength] at hlength
  rw [lengthField]
  split_ifs at hlength ⊢ with hmask
  · obtain ⟨hsmall, hfield⟩ := (writes_varLength _).appended hroom hlength
    have hseal := quicPacketSeal_appended (hfield.2.1.trans_lt hmax) h
    have hall := hnumber.trans (hfield.trans hseal)
    rw [Nat.zero_add] at hall
    exact ⟨fun _ => hsmall, hall⟩
  · cases hlength
    exact ⟨fun h => absurd h hmask, hnumber.trans (quicPacketSeal_appended hroom h)⟩

/-- The padding of the last packet goes into the payload. -/
theorem quicLastPacketPad_eq_ok {totalLen : ℕ} {v : Unit}
    (h : quicLastPacketPad totalLen last s = (.ok v, t)) : ∃ qb, t = { s with qb } := by
  rw [quicLastPacketPad] at h
  split_ifs at h
  · unfold quicFrameBufferAddPadding at h
    split at h
    · cases h
    · split_ifs at h
      · cases h
      · cases h
        exact ⟨_, rfl⟩
      · cases h
  · cases h
    exact ⟨s.qb, rfl⟩

/-- The number of bytes of an encoding. -/
theorem varLengthWlen_of_lt {n : ℕ} (h : n < 2 ^ 62) : varLengthWlen n = varLengthSize n := by
  rw [varLengthWlen, quicVariableLengthEncode_eq h]
  exact congrArg Nat.cast (varLengthBytes_length n)

/-- The length of a long header is computed. -/
theorem quicLPacketGetHeaderLen_eq (htoken : conn.TokenEncodable type) :
    conn.quicLPacketGetHeaderLen type =
      ((conn.longFirst type :: conn.longIds).length + (conn.tokenField type).length : ℕ) := by
  rw [HeaderSource.quicLPacketGetHeaderLen, HeaderSource.longIds, HeaderSource.tokenField,
    quicCidWriteLen, quicCidWriteLen]
  simp only [List.length_cons, List.length_append, Bytes.ofNat_length]
  split_ifs with htype
  · rw [varLengthWlen_of_lt (htoken htype), List.length_append, varLengthBytes_length]
    omega
  · rw [List.length_nil]
    omega

/-- A build of a packet with a long header appends what is computed. -/
theorem quicLPacketBuild_length {v : Unit} (hmax : s.pkt.maxsize < 2 ^ 31)
    (h : quicLPacketBuild evp conn type last s = (.ok v, t))
    (hpad : t.qb.dataLen = s.qb.dataLen) :
    conn.quicLPacketGetTotalLen s.ppCipher.cipher.alg type s.qb.dataLen =
      .ok (t.pkt.written - s.pkt.written) := by
  rw [quicLPacketBuild, get_bind] at h
  obtain ⟨totalLen, s₁, hlen, h⟩ := bind_eq_ok.mp h
  obtain ⟨htotal, rfl⟩ := ofExcept_eq_ok hlen
  obtain ⟨_, s₂, hheader, h⟩ := bind_eq_ok.mp h
  obtain ⟨_, s₃, htoken, h⟩ := bind_eq_ok.mp h
  obtain ⟨_, s₄, hlast, h⟩ := bind_eq_ok.mp h
  obtain ⟨_, hheader⟩ := (writes_longHeader conn type).appended hmax hheader
  obtain ⟨hencodable, htoken⟩ :=
    (writes_initialToken conn type).appended (hheader.2.1.trans_lt hmax) htoken
  have hfront := hheader.trans htoken
  obtain ⟨qb, rfl⟩ := quicLastPacketPad_eq_ok hlast
  have hroom : ({ s₃ with qb } : PktBuild Ctx).pkt.maxsize < 2 ^ 31 := hfront.2.1.trans_lt hmax
  obtain ⟨cipherLen, hcipher, hsmall, hbuild⟩ := quicPacketBuild_appended hroom h
  have hwritten := hfront.1
  have hbuilt := hbuild.1
  have hfits : t.pkt.written ≤ t.pkt.maxsize := t.pkt.fits
  have hmaxsize : t.pkt.maxsize = s.pkt.maxsize := hbuild.2.1.trans hfront.2.1
  have hdata : qb.dataLen = s.qb.dataLen := by
    rw [← hpad]
    exact (congrArg List.length hbuild.2.2.1).symm
  have halg : ({ s₃ with qb } : PktBuild Ctx).ppCipher.cipher.alg = s.ppCipher.cipher.alg :=
    hfront.2.2.2
  have hlength : (lengthField longHeaderMask (cipherLen + conn.numLen)).length =
      varLengthSize (cipherLen + conn.numLen) := varLengthBytes_length _
  change t.pkt.written = s₃.pkt.written + _ at hbuilt
  rw [halg, hdata] at hcipher
  have hwlen := varLengthWlen_of_lt (hsmall rfl)
  rw [HeaderSource.quicLPacketGetTotalLen, hcipher, quicLPacketGetHeaderLen_eq hencodable]
  change Except.ok (((_ : ℤ) + ((cipherLen + conn.numLen : ℕ) : ℤ) +
    varLengthWlen (cipherLen + conn.numLen)) % 2 ^ 64).toNat = _
  rw [hwlen]
  refine congrArg Except.ok ?_
  omega

/-- A build of a packet with a short header appends a byte less than is computed. -/
theorem quicSPacketBuild_length {v : Unit} (hmax : s.pkt.maxsize < 2 ^ 31)
    (h : quicSPacketBuild evp conn s = (.ok v, t)) :
    quicSPacketLen conn.dcid.length conn.pktNumLen.val s.ppCipher.cipher.alg s.qb.dataLen =
      .ok (t.pkt.written - s.pkt.written + 1) := by
  rw [quicSPacketBuild, get_bind] at h
  obtain ⟨_, s₁, hheader, h⟩ := bind_eq_ok.mp h
  obtain ⟨_, hheader⟩ := (writes_shortHeader conn).appended hmax hheader
  obtain ⟨cipherLen, hcipher, _, hbuild⟩ :=
    quicPacketBuild_appended (hheader.2.1.trans_lt hmax) h
  have hwritten := hheader.1
  have hbuilt := hbuild.1
  have hnone : (lengthField shortHeaderMask (cipherLen + conn.numLen)).length = 0 := rfl
  have hdata : s₁.qb.dataLen = s.qb.dataLen := congrArg List.length hheader.2.2.1
  have hnum : conn.numLen = conn.pktNumLen.val + 1 := rfl
  rw [hheader.2.2.2, hdata] at hcipher
  rw [List.length_cons] at hwritten
  rw [quicSPacketLen, hcipher]
  refine congrArg Except.ok ?_
  omega

/-- The computed length is the number of bytes appended exactly for long headers. -/
theorem computesLength_iff (hmax : s.pkt.maxsize < 2 ^ 31)
    (hrun : qBuffBuildPkt evp conn type last s = (.ok (), t))
    (hpad : t.qb.dataLen = s.qb.dataLen) :
    ComputesLength evp conn type last s ↔ type ≠ .oneRtt := by
  have hthis : ComputesLength evp conn type last s ↔
      qBufPktComputeTotalLen conn type s.ppCipher.cipher.alg s.qb.dataLen =
        .ok (t.pkt.written - s.pkt.written) := by
    constructor
    · exact fun h => h t hrun hpad
    · intro h u hu _
      cases hrun.symm.trans hu
      exact h
  rw [hthis]
  cases type with
  | initial => exact iff_of_true (quicLPacketBuild_length hmax hrun hpad) (fun h => by cases h)
  | handshake => exact iff_of_true (quicLPacketBuild_length hmax hrun hpad) (fun h => by cases h)
  | oneRtt =>
    refine iff_of_false (fun h => ?_) (not_not.mpr rfl)
    have hlength := (quicSPacketBuild_length hmax hrun).symm.trans h
    have hsame := Except.ok.inj hlength
    omega
  | zeroRtt => cases hrun
  | retry => cases hrun

end Lengths

/-- A Handshake packet with fifty bytes of payload has the computed length. -/
theorem computesLength_handshake :
    ComputesLength plainEvp (plainSource 3) .handshake false
      (plainBuild (List.replicate 50 1) (by decide)) := by
  have hok : (qBuffBuildPkt plainEvp (plainSource 3) .handshake false
      (plainBuild (List.replicate 50 1) (by decide))).1 = .ok () := by decide +kernel
  have hdata : (qBuffBuildPkt plainEvp (plainSource 3) .handshake false
      (plainBuild (List.replicate 50 1) (by decide))).2.qb.dataLen = 50 := by decide +kernel
  exact (computesLength_iff (by decide) (Prod.ext hok rfl) hdata).mpr (by decide)

/-- A 1-RTT packet is a byte shorter than computed. -/
theorem not_computesLength_oneRtt :
    ¬ ComputesLength plainEvp (plainSource 3) .oneRtt true
      (plainBuild [1, 1, 1, 1] (by decide)) := by
  have hok : (qBuffBuildPkt plainEvp (plainSource 3) .oneRtt true
      (plainBuild [1, 1, 1, 1] (by decide))).1 = .ok () := by decide +kernel
  have hrun : quicSPacketBuild plainEvp (plainSource 3) (plainBuild [1, 1, 1, 1] (by decide)) =
      (.ok (), (qBuffBuildPkt plainEvp (plainSource 3) .oneRtt true
        (plainBuild [1, 1, 1, 1] (by decide))).2) := Prod.ext hok rfl
  intro h
  have hlength := (quicSPacketBuild_length (by decide) hrun).symm.trans
    (h _ hrun (by decide +kernel))
  have hsame := Except.ok.inj hlength
  omega

end Tbquic
