import Tbquic.Datagram.Inbox

/-!
# Packets on their way

A packet that was built is cut out of its datagram again, and the payload that was protected is
handed to the parser of frames. A datagram of such packets is received like the list of its
payloads.
-/

namespace Tbquic

namespace SentPacket

variable {Ctx : Type} (keys : PktKeys Ctx) (conn : HeaderSource) (p : SentPacket)

/-- The bytes between the first one and the packet number. -/
def rest : List UInt8 := packetRest conn p.type ++ p.length keys conn

/-- The encrypted payload. -/
def body : List UInt8 :=
  keys.aead.output keys.tagLen (quicNonce keys.iv p.num)
    (packetFirst conn p.type :: (p.rest keys conn ++ Bytes.ofNat conn.numLen p.num)) p.text

/-- The mask of the header. -/
def mask : List UInt8 :=
  keys.header.mask (sampleOf (Bytes.ofNat conn.numLen p.num ++ p.body keys conn))

/-- The first byte under the mask. -/
def flags : UInt8 := maskFirst (p.mask keys conn) (packetMask p.type) (packetFirst conn p.type)

/-- What the Length field counts: the number under the mask and the encrypted payload. -/
def counted : List UInt8 :=
  maskNumber (p.mask keys conn) (Bytes.ofNat conn.numLen p.num) ++ p.body keys conn

/-- The packet as it is handed on to be decrypted. -/
def cut : RPacket := ⟨p.flags keys conn :: p.rest keys conn, p.counted keys conn⟩

/-- The bytes of a packet. -/
theorem bytes_eq : p.bytes keys conn =
    p.flags keys conn :: (p.rest keys conn ++ p.counted keys conn) := rfl

/-- The cut is in front of the packet number. -/
theorem cut_isCut : PktOpen.Cut keys.aead keys.header keys.iv keys.tagLen (packetMask p.type)
    (packetFirst conn p.type) (p.rest keys conn) p.num conn.numLen p.text (p.cut keys conn) :=
  ⟨rfl, rfl⟩

/-- The number of bytes that the Length field counts. -/
theorem counted_length :
    (p.counted keys conn).length = p.text.length + keys.tagLen + conn.numLen := by
  have hnum : (Bytes.ofNat conn.numLen p.num).length ≤ 4 := by
    rw [Bytes.ofNat_length, HeaderSource.numLen]
    omega
  rw [counted, mask, List.length_append, maskNumber_length keys.header hnum, Bytes.ofNat_length,
    body, Aead.output_length]
  omega

variable {keys conn p}

/-- A buffer of the size of the packet has room for the payload, and is longer than the header. -/
theorem Proper.room (h : p.Proper keys conn) {size : ℕ} (hsize : (p.bytes keys conn).length ≤ size) :
    (packetFirst conn p.type :: p.rest keys conn).length + conn.numLen < size ∧
      p.text.length ≤ size := by
  have hbytes : (p.bytes keys conn).length =
      (packetFirst conn p.type :: p.rest keys conn).length + conn.numLen +
        (p.text.length + keys.tagLen) := by
    rw [p.bytes_eq, List.length_cons, List.length_cons, List.length_append, p.counted_length]
    omega
  have hnumLen : conn.numLen ≤ 4 := conn.pktNumLen.isLt
  have hsample := h.sample
  omega

end SentPacket

/-- Connection IDs of these lengths are accepted. -/
theorem CidLength.accepted {cid : List UInt8} (h : CidLength cid) (version : ℕ) :
    ¬ (version = quicVersion1 ∧ quicMaxCidLength < cid.length) ∧
      ¬ (0 < cid.length ∧ cid.length < quicMinCidLength) := by
  rcases h with rfl | ⟨hmin, hmax⟩
  · exact ⟨fun hlong => absurd hlong.2 (Nat.not_lt_zero _),
      fun hshort => absurd hshort.1 (Nat.lt_irrefl 0)⟩
  · exact ⟨fun hlong => absurd hmax (not_le.mpr hlong.2),
      fun hshort => absurd hmin (not_le.mpr hshort.2)⟩

namespace PktRecv

variable {κ : Type} (calls : PacketCalls κ) {sender : HeaderSource} {conn : HeaderConn κ}
  {past rest : List UInt8}

section Headers

end Headers

section Bodies

variable {behind : List UInt8}

end Bodies

section Packet

variable {Ctx : Type} {keys : PktKeys Ctx} {p : SentPacket} {behind : List UInt8}

end Packet

end PktRecv

section Open

variable {Ctx κ : Type} {evp : EvpOpen Ctx} {frames : QuicPktType → List UInt8 → κ → Option κ}
  {mss : ℕ} {keys : PktSpace → PktKeys Ctx} {used : PktSpace → Prop} {sender : HeaderSource}
  {conn : HeaderConn (PktReceiver Ctx κ)} {b : Inbox κ} {p : SentPacket}

/-- The first byte tells the length of the packet number. -/
theorem packetFirst_numLen (sender : HeaderSource) (type : QuicPktType) :
    sender.numLen = (packetFirst sender type).toNat % 4 + 1 := by
  have hlt := sender.pktNumLen.isLt
  have hlong (type : QuicPktType) : sender.numLen = (sender.longFirst type).toNat % 4 + 1 := by
    rw [longFirst_toNat, HeaderSource.numLen]
    omega
  cases type with
  | oneRtt =>
    change sender.numLen = sender.shortFirst.toNat % 4 + 1
    rw [shortFirst_toNat, HeaderSource.numLen]
    omega
  | initial => exact hlong .initial
  | zeroRtt => exact hlong .zeroRtt
  | handshake => exact hlong .handshake
  | retry => exact hlong .retry

/-- The keys of a receiver are kept when it has opened a packet. -/
theorem Receives.opened (h : Receives evp keys used sender conn b) (now pktNum : ℕ)
    {space : PktSpace} {pp hp : Ctx} (hpp : (keys space).ppKeyed pp) (hhp : (keys space).hpKeyed hp)
    (rest : κ) :
    Receives evp keys used sender
      { conn with other :=
        { crypto := Function.update conn.other.crypto space
            ((conn.other.crypto space).opened now pktNum pp hp)
          rest } }
      { b.number space pktNum with rest } := by
  refine ⟨⟨h.known.version, h.known.cidLen, h.known.scid, h.known.scidInited, h.known.dcid,
    h.known.dcidInited, h.known.ne⟩, fun hserver => ?_, fun other hused => ?_, fun other => ?_, rfl,
    h.token, h.state⟩
  · have hinited := h.decoders hserver
    dsimp only
    by_cases hspace : PktSpace.initial = space
    · subst hspace
      rw [Function.update_self]
      exact hinited
    · rw [Function.update_of_ne hspace]
      exact hinited
  · have hshared := h.shared other hused
    dsimp only
    by_cases hspace : other = space
    · subst hspace
      rw [Function.update_self]
      exact hshared.opened now pktNum hpp hhp
    · rw [Function.update_of_ne hspace]
      exact hshared
  · have hlargest := h.largestPn other
    dsimp only [Inbox.number]
    by_cases hspace : other = space
    · subst hspace
      rw [Function.update_self, Function.update_self, ← hlargest]
      rfl
    · rw [Function.update_of_ne hspace, Function.update_of_ne hspace]
      exact hlargest

end Open

section Receive

variable {Ctx κ : Type} {evp : EvpOpen Ctx} {frames : QuicPktType → List UInt8 → κ → Option κ}
  {mss : ℕ} {keys : PktSpace → PktKeys Ctx} {used : PktSpace → Prop} {sender : HeaderSource}
  {b : Inbox κ} (now : ℕ) (calls : PacketCalls (PktReceiver Ctx κ))

/-- The bytes of packets in a row. -/
def datagramOf (keys : PktSpace → PktKeys Ctx) (sender : HeaderSource) (ps : List SentPacket) :
    List UInt8 :=
  (ps.map fun p => p.bytes (keys p.type.space) sender).flatten

/-- Packets of a sender that are together in a datagram. A packet without a Length field is the
last one. -/
inductive Coalesced (keys : PktSpace → PktKeys Ctx) (used : PktSpace → Prop)
    (sender : HeaderSource) : List SentPacket → Prop
  | last {p : SentPacket} : used p.type.space → p.Proper (keys p.type.space) sender →
      Coalesced keys used sender [p]
  | cons {p : SentPacket} {ps : List SentPacket} : used p.type.space → p.type ≠ .oneRtt →
      p.Proper (keys p.type.space) sender → Coalesced keys used sender ps →
      Coalesced keys used sender (p :: ps)

/-- The first packet of a datagram is in front. -/
theorem datagramOf_cons (p : SentPacket) (ps : List SentPacket) :
    datagramOf keys sender (p :: ps) =
      p.bytes (keys p.type.space) sender ++ datagramOf keys sender ps := by
  rw [datagramOf, datagramOf, List.map_cons, List.flatten_cons]

end Receive

end Tbquic
