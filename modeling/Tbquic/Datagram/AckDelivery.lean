import Tbquic.Datagram.AckNetwork
import Tbquic.Datagram.Delivery

/-!
# The bytes of the packets on the network

The packets that a sender puts on the network are the 1-RTT packets of its datagrams, and one that
arrives does to the peer what `QuicDecryptPacket` does with its bytes.
-/

namespace Tbquic

open Prog

/-- A packet on the network stands for a 1-RTT packet. -/
structure FlyingPkt.StandsFor (sender : HeaderSource) (f : FlyingPkt) (p : SentPacket) : Prop where
  /-- The type. -/
  type : p.type = .oneRtt
  /-- The length of the number. -/
  pktNumLen : f.pktNumLen = sender.pktNumLen
  /-- The number. -/
  num : p.num = f.truncated

/-- The buffers of 1-RTT packets, as packets on the network. -/
theorem standsFor_of_carried {sender : HeaderSource} {qbs : List QBuff} {ps : List SentPacket}
    (h : List.Forall₂ (CarriedBy sender.numLen) qbs ps)
    (htypes : ∀ p ∈ ps, p.type = .initial ∨ p.type = .handshake ∨ p.type = .oneRtt) :
    List.Forall₂ (FlyingPkt.StandsFor sender)
      ((buffersIn .application qbs ps).map fun qb => ⟨qb.pktNum, sender.pktNumLen⟩)
      (ps.filter fun p => p.type.space = .application) := by
  induction h with
  | nil => exact .nil
  | @cons qb p qbs ps hcarried _ ih =>
    obtain ⟨htype, htypes⟩ := List.forall_mem_cons.mp htypes
    rw [buffersIn_cons, List.filter_cons]
    by_cases hspace : p.type.space = .application
    · have honeRtt : p.type = .oneRtt := by
        rcases htype with h | h | h
        · rw [h] at hspace
          cases hspace
        · rw [h] at hspace
          cases hspace
        · exact h
      have hpow : 256 ^ sender.numLen = 2 ^ ((sender.pktNumLen.val + 1) * 8) := by
        rw [Nat.mul_comm, Nat.pow_mul]
        rfl
      rw [if_pos hspace, if_pos (decide_eq_true hspace)]
      exact .cons ⟨honeRtt, rfl, hcarried.2.trans (congrArg (qb.pktNum % ·) hpow)⟩ (ih htypes)
    · rw [if_neg hspace, if_neg fun h => hspace (of_decide_eq_true h), List.nil_append]
      exact ih htypes

section Datagram

variable {Ctx : Type} {keys : PktSpace → PktKeys Ctx} {used : PktSpace → Prop}
  {sender : HeaderSource} {p : SentPacket} {ps : List SentPacket}

/-- The packets of a datagram are proper. -/
theorem Coalesced.mem (h : Coalesced keys used sender ps) :
    ∀ p ∈ ps, used p.type.space ∧ p.Proper (keys p.type.space) sender := by
  induction h with
  | last hused hproper => exact List.forall_mem_singleton.mpr ⟨hused, hproper⟩
  | cons hused _ hproper _ ih => exact List.forall_mem_cons.mpr ⟨⟨hused, hproper⟩, ih⟩

/-- The bytes of a packet are in its datagram. -/
theorem bytes_infix_datagramOf (hp : p ∈ ps) :
    p.bytes (keys p.type.space) sender <:+: datagramOf keys sender ps :=
  List.infix_of_mem_flatten (List.mem_map_of_mem hp)

end Datagram

namespace AckNet

variable {Ctx Ctx' : Type}

section Arrive

variable {evp : EvpOpen Ctx'} {keys : PktKeys Ctx'} {sender : HeaderSource} {s : AckNet Ctx Ctx'}
  {f : FlyingPkt} {p : SentPacket} {mss : ℕ}

/-- The peer has the keys of the sender. -/
def Keyed (evp : EvpOpen Ctx') (keys : PktKeys Ctx') (s : AckNet Ctx Ctx') : Prop :=
  KeysShared evp keys.aead keys.header keys.ppKeyed keys.hpKeyed keys.iv keys.alg s.receiver

/-- `QuicDecryptPacket` on the bytes of a packet leaves the peer as the arrival of the packet leaves
it. The packet is opened exactly when it gives the payload. -/
theorem arrive_quicDecryptPacket (hkeyed : s.Keyed evp keys) (hstands : f.StandsFor sender p)
    (hproper : p.Proper keys sender) (hsize : (p.bytes keys sender).length ≤ mss)
    (hmss : mss < 2 ^ 31) (now : ℕ) :
    ∃ pp hp r pkt, PktOpen.quicDecryptPacket evp now mss shortHeaderMask
        ⟨s.receiver, p.cut keys sender⟩ = (r, ⟨(s.arrive f now pp hp).receiver, pkt⟩) ∧
      (s.arrive f now pp hp).Keyed evp keys ∧
      (r = .ok p.text ∧ (s.arrive f now pp hp).opened = s.opened ++ [f.pktNum] ∨
        (∃ e, r = .error e) ∧ (s.arrive f now pp hp).opened = s.opened) := by
  have hlen := packetFirst_numLen sender p.type
  have hcut := p.cut_isCut keys sender
  have hmask : packetMask p.type = shortHeaderMask := by
    rw [hstands.type]
    rfl
  rw [hmask] at hcut
  obtain ⟨hless, htext⟩ := hproper.room hsize
  have hnbits : f.nbits = sender.numLen * 8 := by
    rw [FlyingPkt.nbits, hstands.pktNumLen]
    rfl
  cases hdecode : decodedNumber s.receiver.largestPn p.num (sender.numLen * 8) with
  | error e =>
    obtain ⟨pp, -, -⟩ := hkeyed.ppCtx
    obtain ⟨hp, pkt, hhp, hrun⟩ := PktOpen.quicDecryptPacket_refused now mss
      (s := ⟨s.receiver, p.cut keys sender⟩) hkeyed hcut hproper.number hlen hproper.sample hdecode
    have harrive : s.arrive f now pp hp = { s with receiver := s.receiver.unopened now hp } := by
      rw [AckNet.arrive, hnbits, ← hstands.num, hdecode]
      rfl
    refine ⟨pp, hp, .error e, pkt, ?_, ?_, .inr ⟨⟨e, rfl⟩, ?_⟩⟩
    · rw [hrun, harrive]
    · rw [harrive]
      exact hkeyed.unopened now hhp
    · rw [harrive]
  | ok pktNum =>
    obtain ⟨pp, hp, pkt, hpp, hhp, hrun⟩ := PktOpen.quicDecryptPacket_run now
      (s := ⟨s.receiver, p.cut keys sender⟩) hkeyed keys.tag hcut hproper.number hlen
      hproper.sample hless htext hmss hdecode
    have harrive : s.arrive f now pp hp = { s with
        receiver := s.receiver.opened now pktNum pp hp
        opened := s.opened ++ [f.pktNum] } := by
      rw [AckNet.arrive, hnbits, ← hstands.num, hdecode]
    refine ⟨pp, hp, .ok p.text, pkt, ?_, ?_, .inl ⟨rfl, ?_⟩⟩
    · rw [hrun, harrive]
    · rw [harrive]
      exact hkeyed.opened now pktNum hpp hhp
    · rw [harrive]

end Arrive

section Send

variable {mem : ℕ → Bool} {evp : Evp Ctx} {keys : PktSpace → PktKeys Ctx'}
  {ppKeyed hpKeyed : PktSpace → Ctx → Prop} {used : PktSpace → Prop} {s : AckNet Ctx Ctx'}
  {w : DatagramWrite Ctx} {built : Bool} {blocked : Option QBuff}

/-- A datagram that `QuicWritePkt` writes puts its 1-RTT packets on the network. -/
theorem send_datagram (hsends : KeyedSender evp keys ppKeyed hpKeyed used s.sender)
    (hne : s.sender.txQueue ≠ []) (hqueue : ∀ qb ∈ s.sender.txQueue, Sendable used qb)
    (hmss : s.sender.mss < 2 ^ 31)
    (hwrite : DatagramWrite.writeLoop evp built blocked s.sender.txQueue
      { conn := s.sender, pkt := wPacketStaticBufInit s.sender.mss } = (.ok (), w)) :
    ∃ ps fs, Coalesced keys used s.sender.header ps ∧
      w.pkt.buf = datagramOf keys s.sender.header ps ∧ w.pkt.buf.length ≤ s.sender.mss ∧
      s.send mem evp (.write built blocked) =
        some { s with sender := w.conn, flying := s.flying ++ fs } ∧
      List.Forall₂ (FlyingPkt.StandsFor s.sender.header) fs
        (ps.filter fun p => p.type.space = .application) := by
  have hloop := writeLoop_wrote built blocked hne hqueue
    (w := { conn := s.sender, pkt := wPacketStaticBufInit s.sender.mss }) hsends hmss
  obtain ⟨ps, hps, hmax⟩ := hloop.of_ok hwrite
  obtain ⟨qbs, -, hcarried, hqueues⟩ := hps.sent
  have hstep : SendConn.step mem evp s.sender (.write built blocked) = some w.conn := by
    unfold SendConn.step SendConn.quicWritePkt
    dsimp only
    rw [hwrite]
    rfl
  have hjoined : (w.conn.sentQueue .application).drop (s.sender.sentQueue .application).length =
      buffersIn .application qbs ps := by
    rw [hqueues]
    exact List.drop_left
  refine ⟨ps, _, hps.coalesced, hps.buf, w.pkt.fits.trans_eq hmax, ?_,
    standsFor_of_carried hcarried fun p hp => (hps.coalesced.mem p hp).2.type⟩
  have hacks : ¬ (SendEvent.write built blocked : SendEvent Ctx).Acks := not_false
  rw [AckNet.send, if_neg hacks, hstep, Option.map_some, hjoined]

/-- The bytes of every packet that is put on the network are in the datagram. Whenever it arrives at
a peer with the keys of the sender, `QuicDecryptPacket` does with its bytes what `arrive` says. -/
theorem send_arrive {evpOpen : EvpOpen Ctx'} {mss : ℕ}
    (hsends : KeyedSender evp keys ppKeyed hpKeyed used s.sender)
    (hne : s.sender.txQueue ≠ []) (hqueue : ∀ qb ∈ s.sender.txQueue, Sendable used qb)
    (hle : s.sender.mss ≤ mss) (hmss : mss < 2 ^ 31)
    (hwrite : DatagramWrite.writeLoop evp built blocked s.sender.txQueue
      { conn := s.sender, pkt := wPacketStaticBufInit s.sender.mss } = (.ok (), w)) :
    ∃ fs, s.send mem evp (.write built blocked) =
        some { s with sender := w.conn, flying := s.flying ++ fs } ∧
      ∀ f ∈ fs, ∃ p : SentPacket,
        p.bytes (keys .application) s.sender.header <:+: w.pkt.buf ∧
        ∀ (t : AckNet Ctx Ctx') (now : ℕ), t.Keyed evpOpen (keys .application) →
          ∃ pp hp r pkt, PktOpen.quicDecryptPacket evpOpen now mss shortHeaderMask
              ⟨t.receiver, p.cut (keys .application) s.sender.header⟩ =
                (r, ⟨(t.arrive f now pp hp).receiver, pkt⟩) ∧
            (r = .ok p.text ∧ (t.arrive f now pp hp).opened = t.opened ++ [f.pktNum] ∨
              (∃ e, r = .error e) ∧ (t.arrive f now pp hp).opened = t.opened) := by
  obtain ⟨ps, fs, hcoalesced, hbuf, hfits, hsend, hstands⟩ := @send_datagram Ctx Ctx' mem evp keys
    ppKeyed hpKeyed used s w built blocked hsends hne hqueue (hle.trans_lt hmss) hwrite
  refine ⟨fs, hsend, fun f hf => ?_⟩
  obtain ⟨i, rfl⟩ := List.get_of_mem hf
  obtain ⟨hlength, hget⟩ := List.forall₂_iff_get.mp hstands
  have hi := i.isLt.trans_eq hlength
  have hstand := hget i.val i.isLt hi
  have hp := (List.mem_filter.mp (List.get_mem _ ⟨i.val, hi⟩)).1
  set p := (ps.filter fun p => p.type.space = .application).get ⟨i.val, hi⟩
  have hspace : p.type.space = .application := by
    rw [hstand.type]
    rfl
  have hproper := (hcoalesced.mem p hp).2
  have hwithin := @bytes_infix_datagramOf Ctx' keys s.sender.header p ps hp
  rw [hspace] at hproper hwithin
  rw [← hbuf] at hwithin
  refine ⟨p, hwithin, fun t now hkeyed => ?_⟩
  obtain ⟨pp, hp, r, pkt, hrun, -, hopened⟩ := arrive_quicDecryptPacket hkeyed hstand hproper
    ((hwithin.length_le.trans hfits).trans hle) hmss now
  exact ⟨pp, hp, r, pkt, hrun, hopened⟩

end Send

end AckNet

end Tbquic
