import Tbquic.Datagram.Seal
import Tbquic.Ping

/-!
# Packets of a sender

A packet is built exactly when its header has an encoding, its padding fits in the buffer of the
payload, and the payload can be protected behind the header. A payload that is short compared with
the header, or with the sample, cannot be protected.
-/

namespace Tbquic

open Prog

namespace HeaderSource

/-- The first byte of a long header. -/
def longFirst (conn : HeaderSource) (type : QuicPktType) : UInt8 :=
  UInt8.ofNat (longHeaderFlags type conn.numLen)

/-- The version and the connection IDs of a long header. -/
def longIds (conn : HeaderSource) : List UInt8 :=
  Bytes.ofNat 4 conn.version ++
    (UInt8.ofNat conn.dcid.length :: (conn.dcid ++ UInt8.ofNat conn.scid.length :: conn.scid))

/-- The token of an Initial packet, which other packets lack. -/
def tokenField (conn : HeaderSource) (type : QuicPktType) : List UInt8 :=
  if type = .initial then varLengthBytes conn.token.length ++ conn.token else []

/-- A long header behind its first byte. -/
def longRest (conn : HeaderSource) (type : QuicPktType) : List UInt8 :=
  conn.longIds ++ conn.tokenField type

/-- The first byte of a short header. -/
def shortFirst (conn : HeaderSource) : UInt8 := UInt8.ofNat (shortHeaderFlags conn.numLen)

/-- The fields of a header have encodings. Lengths of connection IDs have one byte. -/
structure Encodable (conn : HeaderSource) : Prop where
  /-- The version. -/
  version : conn.version < 2 ^ 32
  /-- The length of the connection ID of the peer. -/
  dcid : conn.dcid.length < 256
  /-- The length of the connection ID of this endpoint. -/
  scid : conn.scid.length < 256

/-- The token has an encoding. -/
def TokenEncodable (conn : HeaderSource) (type : QuicPktType) : Prop :=
  type = .initial → conn.token.length < 2 ^ 62

end HeaderSource

/-- Two bits count a packet number of one to four bytes. -/
theorem packetNumLenBits_eq (conn : HeaderSource) :
    packetNumLenBits conn.numLen = conn.pktNumLen.val := by
  have hlt := conn.pktNumLen.isLt
  rw [packetNumLenBits, HeaderSource.numLen]
  omega

/-- The first byte of a long header. -/
theorem longFirst_toNat (conn : HeaderSource) (type : QuicPktType) :
    (conn.longFirst type).toNat = 0xC0 + lPacketType type * 16 + conn.pktNumLen.val := by
  have hlt := conn.pktNumLen.isLt
  have htype : lPacketType type < 4 := by cases type <;> decide
  rw [HeaderSource.longFirst, longHeaderFlags, packetNumLenBits_eq, UInt8.toNat_ofNat']
  omega

/-- The first byte of a short header. -/
theorem shortFirst_toNat (conn : HeaderSource) :
    conn.shortFirst.toNat = 0x40 + conn.pktNumLen.val := by
  have hlt := conn.pktNumLen.isLt
  rw [HeaderSource.shortFirst, shortHeaderFlags, packetNumLenBits_eq, UInt8.toNat_ofNat']
  omega

section Headers

/-- One byte is written. -/
theorem writes_put1 (n : ℕ) : Writes (wPacketPutBytes n 1) (n < 256) [UInt8.ofNat n] :=
  writes_putBytes n 1

/-- A connection ID is written behind its length. -/
theorem writes_cid (cid : List UInt8) :
    Writes (quicCidPut cid) (cid.length < 256) (UInt8.ofNat cid.length :: cid) := by
  have hid : Writes (if cid.length = 0 then pure () else wPacketMemcpy cid) True cid := by
    by_cases hempty : cid.length = 0
    · rw [if_pos hempty, List.length_eq_zero_iff.mp hempty]
      exact writes_nothing
    · rw [if_neg hempty]
      exact writes_memcpy cid
  exact ((writes_put1 cid.length).bind (n := fun _ => _) hid).iff (and_iff_left trivial)

/-- A token is written behind its length. -/
theorem writes_token (token : List UInt8) :
    Writes (quicTokenPut token) (token.length < 2 ^ 62)
      (varLengthBytes token.length ++ token) := by
  rw [quicTokenPut]
  by_cases hempty : token.length = 0
  · rw [if_pos hempty, hempty, List.length_eq_zero_iff.mp hempty]
    exact (writes_put1 0).iff ⟨fun _ => by decide, fun _ => by decide⟩
  · rw [if_neg hempty]
    exact ((writes_varLength token.length).bind (n := fun _ => _) (writes_memcpy token)).iff
      (and_iff_left trivial)

/-- The token of an Initial packet is written. -/
theorem writes_initialToken (conn : HeaderSource) (type : QuicPktType) :
    Writes (quicInitialTokenPut conn type) (conn.TokenEncodable type) (conn.tokenField type) := by
  rw [quicInitialTokenPut, HeaderSource.tokenField]
  by_cases htype : type = .initial
  · rw [if_pos htype, if_pos htype]
    exact (writes_token conn.token).iff ⟨fun h _ => h, fun h => h htype⟩
  · rw [if_neg htype, if_neg htype]
    exact writes_nothing.iff ⟨fun _ h => absurd h htype, fun _ => trivial⟩

/-- A long header is written. -/
theorem writes_longHeader (conn : HeaderSource) (type : QuicPktType) :
    Writes (quicLHeaderGen conn type conn.numLen) conn.Encodable
      (conn.longFirst type :: conn.longIds) := by
  have hflags : longHeaderFlags type conn.numLen < 256 := by
    have hlt := conn.pktNumLen.isLt
    have htype : lPacketType type < 4 := by cases type <;> decide
    rw [longHeaderFlags, packetNumLenBits_eq]
    omega
  have hall := (writes_put1 (longHeaderFlags type conn.numLen)).bind (n := fun _ => _)
    ((writes_putBytes conn.version 4).bind (n := fun _ => _)
      ((writes_cid conn.dcid).bind (n := fun _ => _) (writes_cid conn.scid)))
  refine hall.iff ⟨?_, ?_⟩
  · rintro ⟨-, hversion, hdcid, hscid⟩
    exact ⟨hversion, hdcid, hscid⟩
  · rintro ⟨hversion, hdcid, hscid⟩
    exact ⟨hflags, hversion, hdcid, hscid⟩

/-- A short header is written. -/
theorem writes_shortHeader (conn : HeaderSource) :
    Writes (quicSHeaderGen conn conn.numLen) True (conn.shortFirst :: conn.dcid) := by
  have hflags : shortHeaderFlags conn.numLen < 256 := by
    have hlt := conn.pktNumLen.isLt
    rw [shortHeaderFlags, packetNumLenBits_eq]
    omega
  have hid : Writes (if conn.dcid.length = 0 then pure () else wPacketMemcpy conn.dcid) True
      conn.dcid := by
    by_cases hempty : conn.dcid.length = 0
    · rw [if_pos hempty, List.length_eq_zero_iff.mp hempty]
      exact writes_nothing
    · rw [if_neg hempty]
      exact writes_memcpy conn.dcid
  exact ((writes_put1 (shortHeaderFlags conn.numLen)).bind (n := fun _ => _) hid).iff
    ⟨fun _ => trivial, fun _ => ⟨hflags, trivial⟩⟩

end Headers

section Packets

variable {Ctx : Type} {evp : Evp Ctx} {aead : Aead} {header : HeaderMask}
  {ppKeyed hpKeyed : Ctx → Prop}

/-- The number of PADDING frames that the last packet of a datagram gets. -/
def padding (totalLen : ℕ) (last : Bool) : ℕ :=
  if last = true ∧ quicLt totalLen initialDatagramSizeMin then
    (((initialDatagramSizeMin : ℤ) - totalLen) % 2 ^ 64).toNat
  else 0

/-- The padding of a packet with a long header. -/
def longPadding (conn : HeaderSource) (type : QuicPktType) (last : Bool) (s : PktBuild Ctx) : ℕ :=
  match conn.quicLPacketGetTotalLen s.ppCipher.cipher.alg type s.qb.dataLen with
  | .ok totalLen => padding (totalLen + s.pkt.written) last
  | .error _ => 0

/-- What `QuicLPacketBuild` needs, with the packet number and the length of the tag. -/
structure LongBuildable (conn : HeaderSource) (type : QuicPktType) (last : Bool)
    (s : PktBuild Ctx) (num tagLen : ℕ) : Prop where
  /-- The fields of the header have encodings. -/
  encodable : conn.Encodable
  /-- The token has an encoding. -/
  token : conn.TokenEncodable type
  /-- The padding fits in the buffer of the payload. -/
  buffer : s.qb.dataLen + longPadding conn type last s ≤ s.qb.buffLen
  /-- The padded payload can be protected. -/
  buildable : Buildable s.crypto (s.qb.dataLen + longPadding conn type last s)
    (s.pkt.maxsize - s.pkt.written - (conn.longFirst type :: conn.longRest type).length)
    longHeaderMask (conn.longFirst type :: conn.longRest type).length conn.numLen num tagLen

/-- What `QuicSPacketBuild` needs, with the packet number and the length of the tag. -/
def ShortBuildable (conn : HeaderSource) (s : PktBuild Ctx) (num tagLen : ℕ) : Prop :=
  Buildable s.crypto s.qb.dataLen
    (s.pkt.maxsize - s.pkt.written - (conn.shortFirst :: conn.dcid).length)
    shortHeaderMask (conn.shortFirst :: conn.dcid).length conn.numLen num tagLen

/-- What a packet whose build needs something is made of. -/
theorem Buildable.room {crypto : QuicCrypto Ctx} {dataLen space mask headLen len num tagLen : ℕ}
    (h : Buildable crypto dataLen space mask headLen len num tagLen) : 0 < space := by
  have hroom := h.protectable.room
  have hsample := h.protectable.sample
  omega

/-- An algorithm without a ciphertext has none of any length. -/
theorem quicCipherLenGet_error {alg dataLen : ℕ} {e : Fail}
    (h : quicCipherLenGet alg dataLen = .error e) (n cipherLen : ℕ) :
    quicCipherLenGet alg n ≠ .ok cipherLen := by
  unfold quicCipherLenGet at h ⊢
  intro h'
  cases hsuite : cipherSuite[alg]? with
  | none =>
    rw [hsuite] at h
    cases h
  | some suite =>
    rw [hsuite] at h h'
    dsimp only at h h'
    cases hget : suite.getCipherLen with
    | none =>
      rw [hget] at h'
      cases h'
    | some getCipherLen =>
      rw [hget] at h
      cases h

/-- PADDING frames are put behind a payload when they fit in its buffer. -/
theorem quicFrameBufferAddPadding_post {s : PktBuild Ctx} (hqb : s.qb.buffLen < 2 ^ 31) (n : ℕ) :
    Post (quicFrameBufferAddPadding n)
      (fun _ t => ∃ h, t = { s with qb := s.qb.extend (List.replicate n 0) h })
      (fun _ _ => ¬ s.qb.dataLen + n ≤ s.qb.buffLen) s := by
  have hfits : s.qb.dataLen ≤ s.qb.buffLen := s.qb.fits
  have hset : Writes (wPacketMemset 0 n) True (List.replicate n 0) := by
    rw [wPacketMemset]
    by_cases hzero : n = 0
    · rw [if_pos hzero, hzero]
      exact writes_nothing
    · rw [if_neg hzero]
      exact writes_append _
  have hspace : s.qb.space < 2 ^ 31 := by
    rw [QBuff.space]
    omega
  have hpost := hset (wPacketStaticBufInit s.qb.space) hspace
  unfold Post at hpost ⊢
  rw [quicFrameBufferAddPadding]
  rcases hrun : wPacketMemset 0 n (wPacketStaticBufInit s.qb.space) with ⟨r, pkt⟩
  rw [hrun] at hpost
  cases r with
  | error e =>
    intro hroom
    refine hpost ⟨trivial, ?_⟩
    change 0 + _ ≤ s.qb.space
    rw [List.length_replicate, QBuff.space]
    omega
  | ok u =>
    obtain ⟨-, hbuf, hmax⟩ := hpost
    have hbuf : pkt.buf = List.replicate n 0 := hbuf
    have hlen := pkt.fits
    have hmax : pkt.maxsize = s.qb.space := hmax
    rw [hbuf, List.length_replicate, hmax, QBuff.space] at hlen
    have hroom : s.qb.data.length + pkt.buf.length ≤ s.qb.buffLen := by
      rw [hbuf, List.length_replicate]
      change s.qb.dataLen + n ≤ s.qb.buffLen
      omega
    have hcheck : ¬ quicLt s.qb.buffLen ((s.qb.dataLen + n : ℕ) : ℤ) := by
      rw [quicLt_iff] <;> omega
    dsimp only
    rw [if_neg hcheck, dif_pos hroom]
    rw [hbuf] at hroom
    refine ⟨hroom, ?_⟩
    simp only [hbuf]

/-- The last packet of a datagram is padded when the padding fits in the buffer of the payload. -/
theorem quicLastPacketPad_post {s : PktBuild Ctx} (hqb : s.qb.buffLen < 2 ^ 31) (totalLen : ℕ)
    (last : Bool) :
    Post (quicLastPacketPad totalLen last)
      (fun _ t => ∃ qb : QBuff, t = { s with qb } ∧
        s.qb.dataLen + padding totalLen last ≤ s.qb.buffLen ∧
        ∃ h, qb = s.qb.extend (List.replicate (padding totalLen last) 0) h)
      (fun _ _ => ¬ s.qb.dataLen + padding totalLen last ≤ s.qb.buffLen) s := by
  rw [quicLastPacketPad, padding]
  by_cases hshort : last = true ∧ quicLt totalLen initialDatagramSizeMin
  · rw [if_pos hshort, if_pos hshort]
    refine (quicFrameBufferAddPadding_post hqb _).mono ?_ fun _ _ h => h
    rintro _ t ⟨h, rfl⟩
    refine ⟨_, rfl, ?_, h, rfl⟩
    rw [List.length_replicate] at h
    exact h
  · rw [if_neg hshort, if_neg hshort]
    exact ⟨s.qb, rfl, s.qb.fits, s.qb.fits, (s.qb.extend_zero s.qb.fits).symm⟩

/-- A packet with a long header is built exactly under its conditions. -/
theorem quicLPacketBuild_post (conn : HeaderSource) (type : QuicPktType) (last : Bool)
    {s : PktBuild Ctx} (hkeys : KeysInstalled evp aead header ppKeyed hpKeyed s.crypto)
    (hmax : s.pkt.maxsize < 2 ^ 31) (hqb : s.qb.buffLen < 2 ^ 31) :
    Post (quicLPacketBuild evp conn type last)
      (fun _ t => ∃ num tagLen qb, LongBuildable conn type last s num tagLen ∧
        (∃ h, qb = s.qb.extend (List.replicate (longPadding conn type last s) 0) h) ∧
        Sealed ppKeyed hpKeyed (PktBuild.number { s with qb }) t ∧
        t.pkt.buf = s.pkt.buf ++ protectedPacket aead header s.ppCipher.iv tagLen longHeaderMask
          (conn.longFirst type)
          (conn.longRest type ++ lengthField longHeaderMask (qb.dataLen + tagLen + conn.numLen))
          num conn.numLen qb.data)
      (fun _ _ => ¬ ∃ num tagLen, LongBuildable conn type last s num tagLen) s := by
  have hfits : s.pkt.written ≤ s.pkt.maxsize := s.pkt.fits
  rw [quicLPacketBuild, post_bind, post_get, post_bind, post_ofExcept]
  refine ⟨fun totalLen htotal => ?_, ?_⟩
  swap
  · rintro e he ⟨num, tagLen, h⟩
    rw [HeaderSource.quicLPacketGetTotalLen] at he
    cases hcipher : quicCipherLenGet s.ppCipher.cipher.alg s.qb.dataLen with
    | error e' => exact quicCipherLenGet_error hcipher _ _ h.buildable.cipher
    | ok cipherLen =>
      rw [hcipher] at he
      cases he
  have hpadding : longPadding conn type last s = padding (totalLen + s.pkt.written) last := by
    rw [longPadding, htotal]
  rw [post_bind, PktBuild.onPkt, post_zoom]
  refine (writes_longHeader conn type s.pkt hmax).mono ?_ ?_
  swap
  · rintro _ _ hno ⟨num, tagLen, h⟩
    have hroom := h.buildable.room
    rw [HeaderSource.longRest, ← List.cons_append, List.length_append] at hroom
    refine hno ⟨h.encodable, ?_⟩
    omega
  rintro _ pkt ⟨hencodable, hpkt⟩
  rw [post_bind, PktBuild.onPkt, post_zoom]
  refine (writes_initialToken conn type pkt (hpkt.2 ▸ hmax)).mono ?_ ?_
  swap
  · rintro _ _ hno ⟨num, tagLen, h⟩
    have hroom := h.buildable.room
    rw [HeaderSource.longRest, ← List.cons_append, List.length_append] at hroom
    refine hno ⟨h.token, ?_⟩
    rw [hpkt.written, hpkt.2]
    omega
  rintro _ pkt' ⟨htokenEncodable, hpkt'⟩
  have hall := hpkt.trans hpkt'
  rw [List.cons_append] at hall
  have hpad := quicLastPacketPad_post (s := (s.setPkt pkt).setPkt pkt') hqb
    (totalLen + s.pkt.written) last
  rw [← hpadding] at hpad
  rw [post_bind]
  refine hpad.mono ?_ ?_
  swap
  · rintro _ _ hno ⟨num, tagLen, h⟩
    exact hno h.buffer
  rintro _ _ ⟨qb, rfl, hbuffer, hpadded⟩
  have hdataLen : qb.dataLen = s.qb.dataLen + longPadding conn type last s := by
    obtain ⟨h, rfl⟩ := hpadded
    rw [QBuff.dataLen, QBuff.extend, List.length_append, List.length_replicate]
    rfl
  have hspace : pkt'.maxsize - pkt'.written = s.pkt.maxsize - s.pkt.written -
      (conn.longFirst type :: conn.longRest type).length := by
    rw [hall.2, hall.written, Nat.sub_sub]
    rfl
  have hlen : conn.numLen = (conn.longFirst type).toNat % 4 + 1 := by
    have hlt := conn.pktNumLen.isLt
    rw [longFirst_toNat, HeaderSource.numLen]
    omega
  have hbuild := @quicPacketBuild_post Ctx evp aead header ppKeyed hpKeyed
    { (s.setPkt pkt).setPkt pkt' with qb } s.pkt.buf (conn.longRest type) (conn.longFirst type)
    longHeaderMask conn.numLen hkeys (hall.2 ▸ hmax) hall.1 hlen
  change Post _ (fun _ t => ∃ num tagLen, Buildable s.crypto qb.dataLen
    (pkt'.maxsize - pkt'.written) _ _ _ num tagLen ∧ _) (fun _ _ => ¬ ∃ num tagLen,
      Buildable s.crypto qb.dataLen (pkt'.maxsize - pkt'.written) _ _ _ num tagLen) _ at hbuild
  rw [hspace, hdataLen] at hbuild
  refine hbuild.mono ?_ ?_
  · rintro _ t ⟨num, tagLen, hbuildable, ⟨ctx, ctx', entry, final, hctx, hctx', hfinal, rfl⟩, hbuf⟩
    refine ⟨num, tagLen, qb, ⟨hencodable, htokenEncodable, hbuffer, hbuildable⟩, hpadded,
      ⟨ctx, ctx', entry, final, hctx, hctx', hfinal.trans hall.2, rfl⟩, ?_⟩
    rw [hdataLen]
    exact hbuf
  · rintro _ _ hno ⟨num, tagLen, h⟩
    exact hno ⟨num, tagLen, h.buildable⟩

/-- A packet with a short header is built exactly under its conditions. -/
theorem quicSPacketBuild_post (conn : HeaderSource) {s : PktBuild Ctx}
    (hkeys : KeysInstalled evp aead header ppKeyed hpKeyed s.crypto)
    (hmax : s.pkt.maxsize < 2 ^ 31) :
    Post (quicSPacketBuild evp conn)
      (fun _ t => ∃ num tagLen, ShortBuildable conn s num tagLen ∧
        Sealed ppKeyed hpKeyed s.number t ∧
        t.pkt.buf = s.pkt.buf ++ protectedPacket aead header s.ppCipher.iv tagLen shortHeaderMask
          conn.shortFirst conn.dcid num conn.numLen s.qb.data)
      (fun _ _ => ¬ ∃ num tagLen, ShortBuildable conn s num tagLen) s := by
  have hfits : s.pkt.written ≤ s.pkt.maxsize := s.pkt.fits
  rw [quicSPacketBuild, post_bind, post_get, post_bind, PktBuild.onPkt, post_zoom]
  refine (writes_shortHeader conn s.pkt hmax).mono ?_ ?_
  swap
  · rintro _ _ hno ⟨num, tagLen, h⟩
    have hroom := Buildable.room h
    refine hno ⟨trivial, ?_⟩
    omega
  rintro _ pkt ⟨-, hpkt⟩
  have hspace : pkt.maxsize - pkt.written = s.pkt.maxsize - s.pkt.written -
      (conn.shortFirst :: conn.dcid).length := by
    rw [hpkt.2, hpkt.written, Nat.sub_sub]
  have hlen : conn.numLen = conn.shortFirst.toNat % 4 + 1 := by
    have hlt := conn.pktNumLen.isLt
    rw [shortFirst_toNat, HeaderSource.numLen]
    omega
  have hbuild := @quicPacketBuild_post Ctx evp aead header ppKeyed hpKeyed (s.setPkt pkt)
    s.pkt.buf conn.dcid conn.shortFirst shortHeaderMask conn.numLen hkeys (hpkt.2 ▸ hmax) hpkt.1
    hlen
  change Post _ (fun _ t => ∃ num tagLen, Buildable s.crypto s.qb.dataLen
    (pkt.maxsize - pkt.written) _ _ _ num tagLen ∧ _) (fun _ _ => ¬ ∃ num tagLen,
      Buildable s.crypto s.qb.dataLen (pkt.maxsize - pkt.written) _ _ _ num tagLen) _ at hbuild
  rw [hspace] at hbuild
  refine hbuild.mono ?_ ?_
  · rintro _ t ⟨num, tagLen, hbuildable, ⟨ctx, ctx', entry, final, hctx, hctx', hfinal, rfl⟩, hbuf⟩
    refine ⟨num, tagLen, hbuildable,
      ⟨ctx, ctx', entry, final, hctx, hctx', hfinal.trans hpkt.2, rfl⟩, ?_⟩
    rw [lengthField, if_neg (by decide), List.append_nil] at hbuf
    exact hbuf
  · rintro _ _ hno ⟨num, tagLen, h⟩
    exact hno ⟨num, tagLen, h⟩

/-- The header of a packet in front of its Length field. -/
def packetHead (conn : HeaderSource) : QuicPktType → List UInt8
  | .oneRtt => conn.shortFirst :: conn.dcid
  | type => conn.longFirst type :: conn.longRest type

/-- The mask of the first byte. -/
def packetMask : QuicPktType → ℕ
  | .oneRtt => shortHeaderMask
  | _ => longHeaderMask

/-- The length of a payload with its padding. Packets with a short header are not padded. -/
def paddedLen (conn : HeaderSource) (type : QuicPktType) (last : Bool) (s : PktBuild Ctx) : ℕ :=
  match type with
  | .oneRtt => s.qb.dataLen
  | type => s.qb.dataLen + longPadding conn type last s

/-- The length of a header in front of the packet number. -/
def headerLen (conn : HeaderSource) (type : QuicPktType) (last : Bool) (s : PktBuild Ctx)
    (tagLen : ℕ) : ℕ :=
  (packetHead conn type).length +
    (lengthField (packetMask type) (paddedLen conn type last s + tagLen + conn.numLen)).length

/-- A payload that fits in what remains of the datagram, behind a header whose fields have
encodings, under an algorithm of the table. -/
structure Fits (conn : HeaderSource) (type : QuicPktType) (last : Bool) (s : PktBuild Ctx)
    (tagLen : ℕ) : Prop where
  /-- The fields of the header have encodings. -/
  encodable : conn.Encodable
  /-- The token has an encoding. -/
  token : conn.TokenEncodable type
  /-- The payload is not empty. -/
  payload : s.qb.data ≠ []
  /-- The algorithm has a tag. -/
  tag : quicCipherGetTagLen s.ppCipher.cipher.alg = .ok tagLen
  /-- The algorithm has a ciphertext. -/
  cipher (n : ℕ) : quicCipherLenGet s.ppCipher.cipher.alg n = .ok (n + tagLen)
  /-- The packet fits. -/
  room : headerLen conn type last s tagLen + conn.numLen + (paddedLen conn type last s + tagLen) ≤
    s.pkt.maxsize - s.pkt.written

/-- The packet number fits in its field, the padding in its buffer, and the payload is long enough
for its header and for the sample. -/
structure LongEnough (conn : HeaderSource) (type : QuicPktType) (last : Bool) (s : PktBuild Ctx)
    (tagLen : ℕ) : Prop where
  /-- The packet number has an encoding that fits in its field. -/
  number : ∃ num, quicPktNumberEncode ((s.crypto.pktNum + 1) % 2 ^ 64) s.crypto.largestAcked
    (conn.numLen * 8) = .ok num ∧ num < 256 ^ conn.numLen
  /-- The padding fits in the buffer of the payload. -/
  buffer : paddedLen conn type last s ≤ s.qb.buffLen
  /-- The ciphertext is longer than the header. -/
  longer : headerLen conn type last s tagLen + conn.numLen < paddedLen conn type last s + tagLen
  /-- The sample is there. -/
  sample : 20 ≤ conn.numLen + (paddedLen conn type last s + tagLen)

/-- What a packet needs behind its header, when it fits in the datagram. -/
theorem buildable_iff {conn : HeaderSource} {type : QuicPktType} {last : Bool} {s : PktBuild Ctx}
    {tagLen : ℕ} (hfits : Fits conn type last s tagLen) :
    ((∃ num tagLen', Buildable s.crypto (paddedLen conn type last s)
        (s.pkt.maxsize - s.pkt.written - (packetHead conn type).length) (packetMask type)
        (packetHead conn type).length conn.numLen num tagLen') ∧
      paddedLen conn type last s ≤ s.qb.buffLen) ↔ LongEnough conn type last s tagLen := by
  have hroom := hfits.room
  have htag := hfits.tag
  rw [headerLen] at hroom
  constructor
  · rintro ⟨⟨num, tagLen', h⟩, hbuffer⟩
    have htag' := h.tag
    rw [show quicCipherGetTagLen s.crypto.encrypt.ppCipher.cipher.alg = _ from htag] at htag'
    cases htag'
    exact ⟨⟨num, h.number, h.protectable.number⟩, hbuffer, h.protectable.longer,
      h.protectable.sample⟩
  · intro h
    obtain ⟨num, hnum, hnumFits⟩ := h.number
    have hlonger := h.longer
    refine ⟨⟨num, tagLen, hnum, htag, hfits.cipher _, by omega, hnumFits, ?_, hlonger, h.sample⟩,
      h.buffer⟩
    omega

/-- A payload that fits is protected exactly when it is long enough, its packet number fits in its
field and its padding in the buffer. -/
theorem qBuffBuildPkt_succeeds_iff {conn : HeaderSource} {type : QuicPktType} {last : Bool}
    {s : PktBuild Ctx} {tagLen : ℕ} (htype : type ≠ .zeroRtt ∧ type ≠ .retry)
    (hkeys : KeysInstalled evp aead header ppKeyed hpKeyed s.crypto)
    (hmax : s.pkt.maxsize < 2 ^ 31) (hqb : s.qb.buffLen < 2 ^ 31)
    (hfits : Fits conn type last s tagLen) :
    (qBuffBuildPkt evp conn type last s).1 = .ok () ↔ LongEnough conn type last s tagLen := by
  have hlong (hne : type ≠ .oneRtt) : (quicLPacketBuild evp conn type last s).1 = .ok () ↔
      ((∃ num tagLen', Buildable s.crypto (s.qb.dataLen + longPadding conn type last s)
        (s.pkt.maxsize - s.pkt.written - (conn.longFirst type :: conn.longRest type).length)
        longHeaderMask (conn.longFirst type :: conn.longRest type).length conn.numLen num tagLen') ∧
      s.qb.dataLen + longPadding conn type last s ≤ s.qb.buffLen) := by
    have hpost := quicLPacketBuild_post conn type last hkeys hmax hqb
    rw [(hpost.mono (fun _ _ ⟨num, tagLen, _, h, _⟩ => ⟨num, tagLen, h⟩) fun _ _ h => h).ok_iff]
    constructor
    · rintro ⟨num, tagLen', h⟩
      exact ⟨⟨num, tagLen', h.buildable⟩, h.buffer⟩
    · rintro ⟨⟨num, tagLen', h⟩, hbuffer⟩
      exact ⟨num, tagLen', hfits.encodable, hfits.token, hbuffer, h⟩
  rw [← buildable_iff hfits]
  cases type with
  | initial => exact hlong (by decide)
  | zeroRtt => exact absurd rfl htype.1
  | handshake => exact hlong (by decide)
  | retry => exact absurd rfl htype.2
  | oneRtt =>
    have hpost := quicSPacketBuild_post conn hkeys hmax
    refine ((hpost.mono (fun _ _ ⟨num, tagLen, h, _⟩ => ⟨num, tagLen, h⟩)
      fun _ _ h => h).ok_iff).trans ?_
    constructor
    · rintro ⟨num, tagLen', h⟩
      exact ⟨⟨num, tagLen', h⟩, s.qb.fits⟩
    · rintro ⟨h, -⟩
      exact h

end Packets

section Plain

/-- The AEAD of the copying cipher. -/
def plainAead : Aead where
  encrypt _ _ text := text
  tag n _ _ _ := List.replicate n 0
  encrypt_length _ _ _ := rfl
  tag_length _ _ _ _ := List.length_replicate

/-- The mask of the copying cipher. -/
def plainMask : HeaderMask where
  mask sample := (sample ++ List.replicate 16 0).take 16
  mask_length sample := by
    rw [List.length_take, List.length_append, List.length_replicate]
    omega

/-- The copying cipher has its keys installed. -/
theorem plainKeys_installed (pktNum largestAcked : ℕ) :
    KeysInstalled plainEvp plainAead plainMask (fun _ => True) (fun _ => True)
      (plainCrypto pktNum largestAcked) := by
  refine ⟨rfl, ⟨?_⟩, ⟨?_⟩, ⟨(), rfl, trivial⟩, ⟨(), rfl, trivial⟩⟩
  · intro ctx nonce aad text _
    exact ⟨(), (), (), (), (), rfl, rfl, rfl, rfl, rfl, trivial, fun n => rfl⟩
  · intro ctx sample _ hsample
    refine ⟨(), (), [], ?_, rfl, Nat.zero_le _, trivial⟩
    change some (sample, ()) = some ((sample ++ List.replicate 16 0).take 16, ())
    rw [← hsample, List.take_left]

/-- A connection whose connection IDs have eight bytes. -/
def plainSource (pktNumLen : Fin 4) : HeaderSource where
  version := quicVersion1
  dcid := List.replicate 8 7
  scid := List.replicate 8 9
  token := []
  pktNumLen := pktNumLen

/-- A payload in a buffer of ordinary size. -/
def plainPayload (data : List UInt8) (h : data.length ≤ 1150) : QBuff :=
  { qBuffNew 0 1150 with data := data, fits := h }

/-- A sender that is about to build the first packet of a datagram. -/
def plainBuild (data : List UInt8) (h : data.length ≤ 1150) : PktBuild Unit where
  crypto := plainCrypto 0 0
  pkt := wPacketStaticBufInit 1250
  qb := plainPayload data h
  sealed := []

/-- Four PING frames are protected. -/
theorem fourPings_built :
    (qBuffBuildPkt plainEvp (plainSource 3) .oneRtt true
      (plainBuild [1, 1, 1, 1] (by decide))).1 = .ok () := by
  refine (@qBuffBuildPkt_succeeds_iff Unit plainEvp plainAead plainMask (fun _ => True)
    (fun _ => True) (plainSource 3) .oneRtt true (plainBuild [1, 1, 1, 1] (by decide)) 16
    (by decide) (plainKeys_installed 0 0) (by decide) (by decide) ?_).mpr ?_
  · refine ⟨⟨by decide, by decide, by decide⟩, fun h => (by cases h), by decide, by decide,
      fun n => rfl, by decide⟩
  · exact ⟨⟨1, by decide, by decide⟩, by decide, by decide, by decide⟩

/-- A HANDSHAKE_DONE frame alone behind a packet number of one byte has no sample, and a short ACK
frame in a Handshake packet that is not padded is not longer than its header. -/
theorem handshakeDone_not_built :
    (qBuffBuildPkt plainEvp (plainSource 0) .oneRtt true
      (plainBuild [0x1e] (by decide))).1 = .error .ret ∧
    (qBuffBuildPkt plainEvp (plainSource 3) .handshake false
      (plainBuild [2, 0, 0, 0, 0] (by decide))).1 = .error .assert := by
  decide +kernel

end Plain

end Tbquic
