import Tbquic.Datagram.Opening
import Tbquic.Datagram.RoundTrip
import Tbquic.Datagram.SentQueue

/-!
# Receiving what was sent

A receiver that shares the keys of its peer and knows the connection IDs of both takes the packets
of its peer apart. What it hands to the parser of frames is what the peer protected.
-/

namespace Tbquic

open Prog

section Answers

variable {σ α β γ δ : Type}

/-- A run returns when there is an answer, in a state that fits the answer, and fails when there
is none. -/
def Answers (answer : Option β) (a : α) (fits : β → σ → Prop) (run : Except Fail α × σ) : Prop :=
  match answer with
  | some b => ∃ t, run = (.ok a, t) ∧ fits b t
  | none => ∃ t, run = (.error .ret, t)

variable {m : Prog Fail σ α} {k : α → Prog Fail σ γ} {s : σ} {answer : Option β}
  {more : β → Option δ} {a : α} {c : γ} {fits : β → σ → Prop} {fits' : δ → σ → Prop}

/-- The rule of sequencing. -/
theorem Answers.bind (hm : Answers answer a fits (m s))
    (hk : ∀ b t, fits b t → Answers (more b) c fits' (k a t)) :
    Answers (answer.bind more) c fits' ((m >>= k) s) := by
  cases answer with
  | none =>
    obtain ⟨t, ht⟩ := hm
    exact ⟨t, Prog.bind_of_error ht⟩
  | some b =>
    obtain ⟨t, ht, hfits⟩ := hm
    rw [Prog.bind_of_ok ht]
    exact hk b t hfits

/-- A run behind one that returns. -/
theorem Answers.behind {t : σ} (hm : m s = (.ok a, t)) (hk : Answers answer c fits (k a t)) :
    Answers answer c fits ((m >>= k) s) := by
  rwa [Prog.bind_of_ok hm]

/-- The rule of consequence. -/
theorem Answers.mono {fits' : β → σ → Prop} {run : Except Fail α × σ}
    (h : Answers answer a fits run) (hfits : ∀ b t, fits b t → fits' b t) :
    Answers answer a fits' run := by
  cases answer with
  | none => exact h
  | some b =>
    obtain ⟨t, ht, hb⟩ := h
    exact ⟨t, ht, hfits b t hb⟩

end Answers

/-- The keys of a packet number space in one direction. -/
structure PktKeys (Ctx : Type) where
  /-- The AEAD. -/
  aead : Aead
  /-- The header protection. -/
  header : HeaderMask
  /-- The contexts of the packet protection. -/
  ppKeyed : Ctx → Prop
  /-- The contexts of the header protection. -/
  hpKeyed : Ctx → Prop
  /-- The static part of the nonces. -/
  iv : Fin 12 → UInt8
  /-- The algorithm of the packet protection. -/
  alg : ℕ
  /-- The length of its tags. -/
  tagLen : ℕ
  /-- The tags of the algorithm have this length. -/
  tag : quicCipherGetTagLen alg = .ok tagLen

/-- `QuicCryptoGet`. Nothing is protected in a Retry packet. -/
def QuicPktType.space : QuicPktType → PktSpace
  | .initial => .initial
  | .handshake => .handshake
  | .zeroRtt | .retry | .oneRtt => .application

/-- A packet that was sent. -/
structure SentPacket where
  /-- Its type. -/
  type : QuicPktType
  /-- Its number, as far as it is sent. -/
  num : ℕ
  /-- Its payload. -/
  text : List UInt8

/-- The first byte of a packet. -/
def packetFirst (conn : HeaderSource) : QuicPktType → UInt8
  | .oneRtt => conn.shortFirst
  | type => conn.longFirst type

/-- The header of a packet between its first byte and its Length field. -/
def packetRest (conn : HeaderSource) : QuicPktType → List UInt8
  | .oneRtt => conn.dcid
  | type => conn.longRest type

namespace SentPacket

variable {Ctx : Type}

/-- The Length field of a packet. -/
def length (keys : PktKeys Ctx) (conn : HeaderSource) (p : SentPacket) : List UInt8 :=
  lengthField (packetMask p.type) (p.text.length + keys.tagLen + conn.numLen)

/-- The bytes of a packet. -/
def bytes (keys : PktKeys Ctx) (conn : HeaderSource) (p : SentPacket) : List UInt8 :=
  protectedPacket keys.aead keys.header keys.iv keys.tagLen (packetMask p.type)
    (packetFirst conn p.type) (packetRest conn p.type ++ p.length keys conn) p.num conn.numLen
    p.text

/-- What the build of a packet makes sure of. -/
structure Proper (keys : PktKeys Ctx) (conn : HeaderSource) (p : SentPacket) : Prop where
  /-- Packets of the other types are not built. -/
  type : p.type = .initial ∨ p.type = .handshake ∨ p.type = .oneRtt
  /-- The number fits in its field. -/
  number : p.num < 256 ^ conn.numLen
  /-- The sample is there. -/
  sample : 20 ≤ conn.numLen + (p.text.length + keys.tagLen)
  /-- The token has an encoding. -/
  token : conn.TokenEncodable p.type

end SentPacket

/-- The packet number spaces of a receiver, and the part of the connection that frames change. -/
structure PktReceiver (Ctx κ : Type) where
  /-- The packet number spaces. -/
  crypto : PktSpace → QuicCrypto Ctx
  /-- What frames change. -/
  rest : κ

section PktReceiver

variable {Ctx κ : Type} (evp : EvpOpen Ctx) (frames : QuicPktType → List UInt8 → κ → Option κ)
  (now mss : ℕ)

end PktReceiver

/-- What a receiver has got, without keys and bytes. -/
structure Inbox (κ : Type) where
  /-- The largest packet number of each space. -/
  largestPn : PktSpace → ℕ
  /-- What frames change. -/
  rest : κ

/-- The largest number of a space is raised. -/
def Inbox.number {κ : Type} (b : Inbox κ) (space : PktSpace) (pktNum : ℕ) : Inbox κ :=
  { b with
    largestPn := Function.update b.largestPn space
      (if quicLt (b.largestPn space) pktNum then pktNum else b.largestPn space) }

/-- A packet is received: its number is decoded, and its payload goes to the parser of frames. -/
def Inbox.receive {κ : Type} (frames : QuicPktType → List UInt8 → κ → Option κ) (numLen : ℕ)
    (b : Inbox κ) (p : SentPacket) : Option (Inbox κ) := do
  let pktNum ← (decodedNumber (b.largestPn p.type.space) p.num (numLen * 8)).toOption
  let rest ← frames p.type p.text b.rest
  pure { b.number p.type.space pktNum with rest }

/-- The receiver knows the version and the connection IDs that the sender uses. -/
structure Known {κ : Type} (sender : HeaderSource) (conn : HeaderConn κ) : Prop where
  /-- The version. -/
  version : conn.version = sender.version
  /-- The length of the connection ID of a server. -/
  cidLen : conn.server = true → conn.cidLen.toNat = sender.dcid.length
  /-- The connection ID of the receiver. -/
  scid : conn.scid.val = sender.dcid
  /-- It is in use. -/
  scidInited : conn.scidInited = true
  /-- The connection ID of the sender. -/
  dcid : conn.dcid = sender.scid
  /-- It is in use. -/
  dcidInited : conn.dcidInited = true
  /-- A client knows a connection ID of its peer. -/
  ne : conn.server = false → conn.dcid ≠ []

/-- A receiver with its keys, as an inbox. -/
structure Receives {Ctx κ : Type} (evp : EvpOpen Ctx) (keys : PktSpace → PktKeys Ctx)
    (used : PktSpace → Prop) (sender : HeaderSource) (conn : HeaderConn (PktReceiver Ctx κ))
    (b : Inbox κ) : Prop where
  /-- The connection IDs are known. -/
  known : Known sender conn
  /-- A server has its Initial keys. -/
  decoders : conn.server = true → (conn.other.crypto .initial).decrypt.cipherInited = true ∨
    (conn.other.crypto .initial).encrypt.cipherInited = true
  /-- The keys of the spaces in use are shared. -/
  shared (space : PktSpace) : used space → KeysShared evp (keys space).aead (keys space).header
    (keys space).ppKeyed (keys space).hpKeyed (keys space).iv (keys space).alg
    (conn.other.crypto space)
  /-- The largest packet numbers. -/
  largestPn (space : PktSpace) : (conn.other.crypto space).largestPn = b.largestPn space
  /-- What frames change. -/
  rest : conn.other.rest = b.rest
  /-- The token of Initial packets. -/
  token : sender.token = [] ∨ conn.token = some sender.token
  /-- The handshake is going on. -/
  state : conn.state = .handshake ∨ conn.state = .handshakeDone

section FirstByte

end FirstByte

end Tbquic
