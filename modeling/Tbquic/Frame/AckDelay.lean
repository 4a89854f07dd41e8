import Tbquic.Frame.Endpoint
import Tbquic.Frame.Reserve
import Tbquic.Keys.Invariant

/-!
# The delay of an acknowledgement

`QuicDecryptPacket` stores the time of every packet, before it knows whether the packet is
authentic or the largest one. `QuicFrameAckGen` takes the time since then for the delay of the
largest packet, and compares it with `0` as an `int`.
-/

namespace Tbquic

open Prog

section Generate

variable {Ctx : Type} {s b : FrameBuild Ctx} {c : QuicCrypto Ctx} {now n : ℕ}

/-- `delay` of `QuicFrameAckGen`. -/
def ackDelay (now : ℕ) (c : QuicCrypto Ctx) : ℕ := (((now : ℤ) - c.arrivTime) % 2 ^ 64).toNat

/-- An ACK frame with a delay. -/
def ackBytes (c : QuicCrypto Ctx) (delay : ℕ) : List UInt8 :=
  varLengthBytes quicFrameTypeAck ++ varLengthBytes c.largestPn ++ varLengthBytes delay ++
    varLengthBytes 0 ++ varLengthBytes c.firstAckRange

/-- A number is written, or has no encoding or no room. -/
theorem onPkt_varLength_post (hmax : s.pkt.maxsize < 2 ^ 31) (n : ℕ) :
    Post (FrameBuild.onPkt (quicVariableLengthWrite n))
      (fun _ t => n < 2 ^ 62 ∧ s.pkt.Extends (varLengthBytes n) t.pkt ∧ t.quic = s.quic)
      (fun e t => e = .ret ∧ ¬ (n < 2 ^ 62 ∧ s.pkt.written + 8 ≤ s.pkt.maxsize) ∧
        t.quic = s.quic) s := by
  rw [FrameBuild.onPkt, post_zoom, quicVariableLengthWrite, post_bind, post_ofExcept]
  by_cases hn : n < 2 ^ 62
  swap
  · rw [quicVariableLengthEncode_eq_error (not_lt.mp hn)]
    refine ⟨fun bytes h => (by cases h), fun e h => ?_⟩
    cases h
    exact ⟨rfl, fun h => hn h.1, rfl⟩
  rw [quicVariableLengthEncode_eq hn]
  refine ⟨fun bytes h => ?_, fun e h => (by cases h)⟩
  cases h
  have hsize := varLengthSize_bounds n
  by_cases hroom : s.pkt.written + (varLengthBytes n).length ≤ s.pkt.maxsize
  · obtain ⟨t, hrun, hextends, -⟩ := wPacketMemcpy_of_fits s.pkt _ hmax hroom
    rw [Post, hrun]
    exact ⟨hn, hextends, rfl⟩
  · have hfits : s.pkt.written ≤ s.pkt.maxsize := s.pkt.fits
    rw [varLengthBytes_length] at hroom
    have hcheck : quicLt ((s.pkt.maxsize : ℤ) - s.pkt.written) (varLengthBytes n).length := by
      rw [varLengthBytes_length, quicLt_iff] <;> omega
    have hrun : wPacketMemcpy (varLengthBytes n) s.pkt = (.error .ret, s.pkt) := by
      rw [wPacketMemcpy, if_neg (by rw [varLengthBytes_length]; omega), wPacketAppend,
        if_pos hcheck]
    rw [Post, hrun]
    exact ⟨rfl, fun h => hroom (by omega), rfl⟩

/-- A number is written behind at most four others, for which forty bytes are enough. -/
theorem onPkt_varLength_behind {u : FrameBuild Ctx} {bytes : List UInt8} {k : ℕ}
    (hmax : b.pkt.maxsize < 2 ^ 31) (hk : k ≤ 4)
    (hu : b.pkt.Extends bytes u.pkt ∧ bytes.length ≤ 8 * k ∧ u.quic = b.quic) (n : ℕ) :
    Post (FrameBuild.onPkt (quicVariableLengthWrite n))
      (fun _ t => n < 2 ^ 62 ∧ b.pkt.Extends (bytes ++ varLengthBytes n) t.pkt ∧
        (bytes ++ varLengthBytes n).length ≤ 8 * (k + 1) ∧ t.quic = b.quic)
      (fun e t => e = .ret ∧ t.quic = b.quic ∧
        ¬ (n < 2 ^ 62 ∧ b.pkt.written + 40 ≤ b.pkt.maxsize)) u := by
  obtain ⟨hu, hlen, hquic⟩ := hu
  have hmax' : u.pkt.maxsize < 2 ^ 31 := hu.2 ▸ hmax
  refine (onPkt_varLength_post hmax' n).mono ?_ ?_
  · rintro _ t ⟨hn, ht, hquic'⟩
    refine ⟨hn, hu.trans ht, ?_, hquic'.trans hquic⟩
    have hsize := varLengthSize_bounds n
    rw [List.length_append, varLengthBytes_length]
    omega
  · rintro e t ⟨he, hroom, hquic'⟩
    refine ⟨he, hquic'.trans hquic, fun h => hroom ⟨h.1, ?_⟩⟩
    have hwritten := hu.written
    have hmaxsize := hu.2
    omega

/-- The ACK frame cannot be written for want of room or of an encoding. -/
def AckRefused (now : ℕ) (c : QuicCrypto Ctx) (pkt : WPacket) : Prop :=
  ¬ (c.largestPn < 2 ^ 62 ∧ pkt.written + 40 ≤ pkt.maxsize) ∨
    quicGe (ackDelay now c) 0 ∧ ¬ (ackDelay now c < 2 ^ 62 ∧ c.firstAckRange < 2 ^ 62 ∧
      pkt.written + 40 ≤ pkt.maxsize)

/-- What the ACK frame at the start of a buffer writes, and how it fails. -/
theorem quicStreamFrameAck_post (hmax : b.pkt.maxsize < 2 ^ 31) (hc : b.quic.application = c)
    (hcheck : quicFrameAckSendCheck c = true) :
    Post (quicStreamFrameAck now)
      (fun _ t => quicGe (ackDelay now c) 0 ∧ ackDelay now c < 2 ^ 62 ∧
        b.pkt.Extends (ackBytes c (ackDelay now c)) t.pkt ∧
        t.quic.application = { c with largestAck := c.largestPn })
      (fun e t => t.quic.application = c ∧
        (e = .assert ∧ c.largestPn < 2 ^ 62 ∧ ¬ quicGe (ackDelay now c) 0 ∨
          e = .ret ∧ AckRefused now c b.pkt)) b := by
  have hstart : b.pkt.Extends [] b.pkt ∧ ([] : List UInt8).length ≤ 8 * 0 ∧ b.quic = b.quic :=
    ⟨⟨(List.append_nil _).symm, rfl⟩, le_refl _, rfl⟩
  rw [quicStreamFrameAck, post_bind, post_get, hc, if_pos hcheck, post_bind]
  refine (onPkt_varLength_behind hmax (by decide) hstart _).mono ?_ ?_
  swap
  · rintro e t ⟨he, hquic, hroom⟩
    exact ⟨hquic ▸ hc, .inr ⟨he, .inl fun h => hroom ⟨by decide, h.2⟩⟩⟩
  rintro _ u ⟨-, hu⟩
  rw [quicFrameAckGen, post_bind, post_get, post_bind, hu.2.2, hc]
  refine (onPkt_varLength_behind hmax (by decide) hu _).mono ?_ ?_
  swap
  · rintro e t ⟨he, hquic, hroom⟩
    exact ⟨hquic ▸ hc, .inr ⟨he, .inl hroom⟩⟩
  rintro _ u ⟨hpn, hu⟩
  rw [post_bind, post_ensure]
  refine ⟨fun hge => ?_, fun hlt => ⟨hu.2.2 ▸ hc, .inl ⟨rfl, hpn, hlt⟩⟩⟩
  rw [post_bind]
  refine (onPkt_varLength_behind hmax (by decide) hu _).mono ?_ ?_
  swap
  · rintro e t ⟨he, hquic, hroom⟩
    exact ⟨hquic ▸ hc, .inr ⟨he, .inr ⟨hge, fun h => hroom ⟨h.1, h.2.2⟩⟩⟩⟩
  rintro _ u ⟨hdelay, hu⟩
  rw [post_bind]
  refine (onPkt_varLength_behind hmax (by decide) hu _).mono ?_ ?_
  swap
  · rintro e t ⟨he, hquic, hroom⟩
    exact ⟨hquic ▸ hc, .inr ⟨he, .inr ⟨hge, fun h => hroom ⟨by decide, h.2.2⟩⟩⟩⟩
  rintro _ u ⟨-, hu⟩
  rw [post_bind]
  refine (onPkt_varLength_behind hmax (by decide) hu _).mono ?_ ?_
  swap
  · rintro e t ⟨he, hquic, hroom⟩
    exact ⟨hquic ▸ hc, .inr ⟨he, .inr ⟨hge, fun h => hroom h.2⟩⟩⟩
  rintro _ u ⟨-, hu⟩
  rw [post_modify]
  refine ⟨hge, hdelay, hu.1, ?_⟩
  rw [hu.2.2]
  subst hc
  rfl

/-- Building an ACK frame may mark the largest number as acknowledged. -/
theorem quicStreamFrameAck_crypto (hc : b.quic.application = c) :
    Post (quicStreamFrameAck now)
      (fun _ t => t.quic.application = c ∨
        t.quic.application = { c with largestAck := c.largestPn })
      (fun _ t => t.quic.application = c) b := by
  have hpkt {u : FrameBuild Ctx} (hu : u.quic.application = c) (n : ℕ) :
      Post (FrameBuild.onPkt (quicVariableLengthWrite n)) (fun _ t => t.quic.application = c)
        (fun _ t => t.quic.application = c) u := by
    rw [FrameBuild.onPkt, post_zoom]
    exact .of_forall (fun _ _ => hu) fun _ _ => hu
  rw [quicStreamFrameAck, post_bind, post_get]
  split
  swap
  · exact .inl hc
  rw [post_bind]
  refine (hpkt hc _).mono (fun _ u hu => ?_) fun _ _ h => h
  rw [quicFrameAckGen, post_bind, post_get, post_bind]
  refine (hpkt hu _).mono (fun _ v hv => ?_) fun _ _ h => h
  rw [post_bind, post_ensure]
  refine ⟨fun _ => ?_, fun _ => hv⟩
  rw [post_bind]
  refine (hpkt hv _).mono (fun _ v hv => ?_) fun _ _ h => h
  rw [post_bind]
  refine (hpkt hv _).mono (fun _ v hv => ?_) fun _ _ h => h
  rw [post_bind]
  refine (hpkt hv _).mono (fun _ v hv => ?_) fun _ _ h => h
  rw [post_modify, hu]
  refine .inr ?_
  subst hv
  rfl

/-- The delay can be read from an ACK frame. -/
theorem ackBytes_injective {delay delay' : ℕ} (hdelay : delay < 2 ^ 62) (hdelay' : delay' < 2 ^ 62)
    (h : ackBytes c delay = ackBytes c delay') : delay = delay' := by
  have hbytes := List.append_cancel_left
    (List.append_cancel_right (List.append_cancel_right h))
  have hread {n : ℕ} (hn : n < 2 ^ 62) : (quicVariableLengthDecode
      { past := [], rest := varLengthBytes n ++ [] }).1 = .ok n := by
    have hsize := varLengthSize_bounds n
    rw [quicVariableLengthDecode_append [] hn]
    rw [List.append_nil, varLengthBytes_length]
    omega
  have hsame := hread hdelay
  rw [hbytes, hread hdelay'] at hsame
  exact (Except.ok.inj hsame).symm

end Generate

namespace PktOpen

variable {Ctx : Type} (evp : EvpOpen Ctx) {c : QuicCrypto Ctx} {s : PktOpen Ctx} {now : ℕ}

/-- A packet has arrived, and its number is not stored yet. -/
def Arrived (now : ℕ) (c : QuicCrypto Ctx) (t : PktOpen Ctx) : Prop :=
  t.crypto.arrivTime = now ∧ t.crypto.largestPn = c.largestPn ∧
    t.crypto.largestAck = c.largestAck ∧ t.crypto.firstAckRange = c.firstAckRange

/-- The time of a packet is stored first. -/
theorem quicDecryptPktNum_arrived (now bitMask : ℕ) (s : PktOpen Ctx) :
    Post (quicDecryptPktNum evp now bitMask) (fun _ t => t.Arrived now s.crypto)
      (fun _ t => t.Arrived now s.crypto) s := by
  have harrived : Arrived now s.crypto { s with crypto.arrivTime := now } := ⟨rfl, rfl, rfl, rfl⟩
  unfold quicDecryptPktNum quicDecryptHeader quicHPMaskGen
  simp only [post_bind, post_get, post_ofOption, post_ofExcept, post_modify, post_ensure, post_pure]
  refine ⟨fun ctx hctx => ⟨fun _ => ⟨fun r hr => ?_, fun _ _ => harrived⟩, fun _ => harrived⟩,
    fun _ => harrived⟩
  refine ⟨fun _ => ⟨fun _ => ⟨fun pktNum _ => ⟨fun _ => ?_, fun _ => ?_⟩, fun _ _ => ?_⟩,
    fun _ => ?_⟩, fun _ => ?_⟩ <;> exact harrived

theorem quicCryptoSetIV_arrived (hs : s.Arrived now c) (pktNum : ℕ) :
    Post (quicCryptoSetIV evp pktNum) (fun _ t => t.Arrived now c) (fun _ t => t.Arrived now c)
      s := by
  unfold quicCryptoSetIV ppCtx
  simp only [post_bind, post_get, post_ofOption, post_modify]
  exact ⟨fun ctx _ => ⟨fun ctx' _ => ⟨fun ctx'' _ => hs, fun _ => hs⟩, fun _ => hs⟩, fun _ => hs⟩

theorem setTag_arrived (hs : s.Arrived now c) (tagLen : ℕ) (data : List UInt8) :
    Post (setTag evp tagLen data) (fun _ t => t.Arrived now c) (fun _ t => t.Arrived now c) s := by
  unfold setTag ppCtx
  rw [post_ite]
  simp only [post_bind, post_get, post_ofOption, post_modify, post_pure]
  exact ⟨fun _ => ⟨fun ctx _ => ⟨fun ctx' _ => hs, fun _ => hs⟩, fun _ => hs⟩, fun _ => hs⟩

theorem quicDecryptMessage_arrived (hs : s.Arrived now c) (outBufLen pktNum : ℕ) :
    Post (quicDecryptMessage evp outBufLen pktNum) (fun _ t => t.Arrived now c)
      (fun _ t => t.Arrived now c) s := by
  rw [quicDecryptMessage, post_bind, post_get, post_bind, post_ensure]
  refine ⟨fun _ => ?_, fun _ => hs⟩
  rw [post_bind]
  refine (quicCryptoSetIV_arrived evp hs pktNum).mono (fun _ s hs => ?_) fun _ _ h => h
  rw [post_bind, post_ofExcept]
  refine ⟨fun tagLen _ => ?_, fun _ _ => hs⟩
  rw [post_bind, post_ensure]
  refine ⟨fun _ => ?_, fun _ => hs⟩
  rw [post_bind]
  refine (setTag_arrived evp hs tagLen _).mono (fun _ s hs => ?_) fun _ _ h => h
  unfold ppCtx
  simp only [post_bind, post_get, post_ofOption, post_ofExcept, post_modify, post_ensure, post_pure]
  exact ⟨fun ctx _ => ⟨fun r _ => ⟨fun _ => ⟨fun out _ => hs, fun _ _ => hs⟩, fun _ => hs⟩,
    fun _ => hs⟩, fun _ => hs⟩

/-- The time of a packet is stored in any case, its number only if it was decrypted. -/
theorem quicDecryptPacket_arrived (now outBufLen bitMask : ℕ) (s : PktOpen Ctx) :
    Post (quicDecryptPacket evp now outBufLen bitMask)
      (fun _ t => t.crypto.arrivTime = now ∧ t.crypto.largestAck = s.crypto.largestAck ∧
        t.crypto.firstAckRange = s.crypto.firstAckRange)
      (fun _ t => t.Arrived now s.crypto) s := by
  rw [quicDecryptPacket, post_bind]
  refine (quicDecryptPktNum_arrived evp now bitMask s).mono (fun number u hu => ?_) fun _ _ h => h
  rw [post_bind]
  refine (quicDecryptMessage_arrived evp hu outBufLen number.1).mono (fun out t ht => ?_)
    fun _ _ h => h
  rw [post_bind, post_modify]
  exact ⟨ht.1, ht.2.2⟩

end PktOpen

/-- A packet number space whose received packets are timed. -/
structure AckClock (Ctx : Type) where
  /-- The space. -/
  crypto : QuicCrypto Ctx
  /-- The last time that was read. -/
  clock : ℕ
  /-- When the last packet arrived. -/
  last : ℕ
  /-- When the packet with the number `largest_pn` arrived. -/
  arrival : Option ℕ

/-- What happens to a packet number space. -/
inductive AckClockEvent (Ctx : Type)
  /-- A packet arrives and is decrypted, or not. -/
  | packet (now : ℕ) (pkt : RPacket) (outBufLen bitMask : ℕ)
  /-- The frames of a buffer are built, which start with an ACK frame if one is due. -/
  | ack (now : ℕ) (b : FrameBuild Ctx)
  /-- The keys or what is sent change. -/
  | other (c : QuicCrypto Ctx)

/-- A buffer of the connection whose 1-RTT packets are those of a space. -/
def FrameBuild.withCrypto {Ctx : Type} (b : FrameBuild Ctx) (c : QuicCrypto Ctx) : FrameBuild Ctx :=
  { b with quic.application := c }

namespace AckClock

variable {Ctx : Type} (evp : EvpOpen Ctx)

/-- The clock has 64 bits and does not run backwards. -/
def Ticks (s : AckClock Ctx) (now : ℕ) : Prop := s.clock ≤ now ∧ now < 2 ^ 64

instance (s : AckClock Ctx) (now : ℕ) : Decidable (s.Ticks now) :=
  inferInstanceAs (Decidable (_ ∧ _))

/-- The space behind a packet. -/
def packet (s : AckClock Ctx) (now : ℕ) (pkt : RPacket) (outBufLen bitMask : ℕ) :
    Option (AckClock Ctx) :=
  (returned (PktOpen.quicDecryptPacket evp now outBufLen bitMask ⟨s.crypto, pkt⟩)).map fun t =>
    { crypto := t.crypto
      clock := now
      last := now
      arrival := if t.crypto.largestPn = s.crypto.largestPn then s.arrival else some now }

/-- The space behind the first frame of a buffer. -/
def ack (s : AckClock Ctx) (now : ℕ) (b : FrameBuild Ctx) : Option (AckClock Ctx) :=
  (returned (quicStreamFrameAck now (b.withCrypto s.crypto))).map fun t =>
    { s with crypto := t.quic.application, clock := now }

/-- The state behind an event. The fields of received packets are written by nothing else. -/
def step (s : AckClock Ctx) : AckClockEvent Ctx → Option (AckClock Ctx)
  | .packet now pkt outBufLen bitMask =>
    if s.Ticks now then s.packet evp now pkt outBufLen bitMask else none
  | .ack now b => if s.Ticks now then s.ack now b else none
  | .other c =>
    some { s with crypto :=
      { c with largestPn := s.crypto.largestPn
               largestAck := s.crypto.largestAck
               arrivTime := s.crypto.arrivTime
               firstAckRange := s.crypto.firstAckRange } }

/-- Nothing was received yet. -/
structure Unused (s : AckClock Ctx) : Prop where
  /-- No packet has arrived. -/
  arrival : s.arrival = none
  /-- No time is stored. -/
  times : s.last = 0 ∧ s.crypto.arrivTime = 0
  /-- No number is stored. -/
  numbers : s.crypto.largestPn = 0 ∧ s.crypto.largestAck = 0 ∧ s.crypto.firstAckRange = 0

/-- An ACK frame that is due tells the exact time since its packet arrived, in any buffer: the
assertion holds, and if the number of the packet has an encoding, so has the time, and it is what is
written. -/
def DelayProper (s : AckClock Ctx) : AckClockEvent Ctx → Prop
  | .ack now _ => s.Ticks now → quicFrameAckSendCheck s.crypto = true →
    ∀ b : FrameBuild Ctx, b.pkt.maxsize < 2 ^ 31 →
      (quicStreamFrameAck now (b.withCrypto s.crypto)).1 ≠ .error .assert ∧
      (s.crypto.largestPn < 2 ^ 62 →
        ∃ arrival, s.arrival = some arrival ∧ arrival ≤ now ∧ now - arrival < 2 ^ 62 ∧
          ∀ t, quicStreamFrameAck now (b.withCrypto s.crypto) = (.ok (), t) →
            b.pkt.Extends (ackBytes s.crypto (now - arrival)) t.pkt)
  | _ => True

/-- When an ACK frame is due, no packet has arrived later than the one it acknowledges, and the time
since then does not set the bit `31`. -/
def DelayKept (s : AckClock Ctx) : AckClockEvent Ctx → Prop
  | .ack now _ => s.Ticks now → quicFrameAckSendCheck s.crypto = true →
    s.crypto.largestPn < 2 ^ 62 →
      s.arrival = some s.last ∧ (now - s.last) % 2 ^ 32 < 2 ^ 31 ∧ now - s.last < 2 ^ 62
  | _ => True

instance (s : AckClock Ctx) : ∀ e, Decidable (s.DelayKept e)
  | .packet _ _ _ _ => inferInstanceAs (Decidable True)
  | .ack _ _ => inferInstanceAs (Decidable (_ → _))
  | .other _ => inferInstanceAs (Decidable True)

section Runs

variable {evp : EvpOpen Ctx} {s t : AckClock Ctx} {e : AckClockEvent Ctx} {now : ℕ}

/-- The time that is stored is that of the last packet. -/
structure Timed (s : AckClock Ctx) : Prop where
  /-- The time of the last packet is stored. -/
  last : s.crypto.arrivTime = s.last
  /-- The clock was read then. -/
  clock : s.last ≤ s.clock
  /-- The largest packet arrived no later. -/
  arrival (time : ℕ) : s.arrival = some time → time ≤ s.last
  /-- Without a packet no number is stored. -/
  fresh : s.arrival = none → s.crypto.largestPn = 0 ∧ s.crypto.largestAck = 0
  /-- Only one packet is acknowledged. -/
  range : s.crypto.firstAckRange = 0

theorem Unused.timed (h : s.Unused) : s.Timed where
  last := h.times.2.trans h.times.1.symm
  clock := h.times.1 ▸ Nat.zero_le _
  arrival time htime := by
    rw [h.arrival] at htime
    cases htime
  fresh _ := ⟨h.numbers.1, h.numbers.2.1⟩
  range := h.numbers.2.2

/-- A packet is timed. -/
theorem Timed.packet {pkt : RPacket} {outBufLen bitMask : ℕ} (h : s.Timed) (hticks : s.Ticks now)
    (hstep : s.packet evp now pkt outBufLen bitMask = some t) : t.Timed := by
  have harrived := PktOpen.quicDecryptPacket_arrived evp now outBufLen bitMask ⟨s.crypto, pkt⟩
  obtain ⟨u, hu, rfl⟩ := Option.map_eq_some_iff.mp hstep
  obtain ⟨htime, hack, hrange⟩ := Endpoint.returned_of_post
    (P := fun v : PktOpen Ctx => v.crypto.arrivTime = now ∧
      v.crypto.largestAck = s.crypto.largestAck ∧ v.crypto.firstAckRange = s.crypto.firstAckRange)
    (harrived.mono (fun _ _ hsame => hsame) fun _ _ hsame => ⟨hsame.1, hsame.2.2⟩) hu
  have hlast : s.last ≤ now := h.clock.trans hticks.1
  refine ⟨htime, le_refl now, fun time harrival => ?_, fun hnone => ?_, hrange.trans h.range⟩
  · dsimp only at harrival
    split_ifs at harrival
    · exact (h.arrival time harrival).trans hlast
    · cases harrival
      exact le_refl now
  · dsimp only at hnone
    split_ifs at hnone with hsame
    obtain ⟨hpn, hnoAck⟩ := h.fresh hnone
    exact ⟨hsame.trans hpn, hack.trans hnoAck⟩

/-- An acknowledgement leaves the times alone. -/
theorem Timed.ack {b : FrameBuild Ctx} (h : s.Timed) (hticks : s.Ticks now)
    (hstep : s.ack now b = some t) : t.Timed := by
  have hcrypto := @quicStreamFrameAck_crypto Ctx (b.withCrypto s.crypto) s.crypto now rfl
  obtain ⟨u, hu, rfl⟩ := Option.map_eq_some_iff.mp hstep
  have hfields : u.quic.application = s.crypto ∨
      u.quic.application = { s.crypto with largestAck := s.crypto.largestPn } :=
    Endpoint.returned_of_post (P := fun v => v.quic.application = s.crypto ∨
      v.quic.application = { s.crypto with largestAck := s.crypto.largestPn })
      (hcrypto.mono (fun _ _ hacked => hacked) fun _ _ hsame => .inl hsame) hu
  have hlast : s.last ≤ now := h.clock.trans hticks.1
  rcases hfields with hsame | hacked
  · rw [hsame]
    exact ⟨h.last, hlast, h.arrival, h.fresh, h.range⟩
  · rw [hacked]
    exact ⟨h.last, hlast, h.arrival, fun hnone => ⟨(h.fresh hnone).1, (h.fresh hnone).1⟩, h.range⟩

/-- Every event keeps the times. -/
theorem Timed.step (h : s.Timed) (hstep : AckClock.step evp s e = some t) : t.Timed := by
  cases e with
  | packet now pkt outBufLen bitMask =>
    rw [AckClock.step] at hstep
    split_ifs at hstep with hticks
    exact h.packet hticks hstep
  | ack now b =>
    rw [AckClock.step] at hstep
    split_ifs at hstep with hticks
    exact h.ack hticks hstep
  | other c =>
    cases hstep
    exact ⟨h.last, h.clock, h.arrival, h.fresh, h.range⟩

/-- The delay is the time since the last packet. -/
theorem Timed.ackDelay (h : s.Timed) (hticks : s.Ticks now) :
    Tbquic.ackDelay now s.crypto = now - s.last := by
  have hlast : s.last ≤ now := h.clock.trans hticks.1
  have hnow := hticks.2
  rw [Tbquic.ackDelay, h.last]
  omega

/-- The assertion looks at the bit `31` of the delay. -/
theorem Timed.quicGe_iff (h : s.Timed) (hticks : s.Ticks now) :
    quicGe (Tbquic.ackDelay now s.crypto) 0 ↔ (now - s.last) % 2 ^ 32 < 2 ^ 31 := by
  rw [h.ackDelay hticks, quicGe_iff_mod]
  omega

/-- An ACK frame tells the exact time if and only if no packet arrived later than the one it
acknowledges and the bit `31` of the time since then is not set. -/
theorem Timed.delayProper_iff (h : s.Timed) : s.DelayProper e ↔ s.DelayKept e := by
  cases e with
  | packet | other => exact Iff.rfl
  | ack now b =>
  refine forall_congr' fun hticks => forall_congr' fun hcheck => ?_
  have hlast : s.last ≤ now := h.clock.trans hticks.1
  have hdelay := h.ackDelay hticks
  have hge := h.quicGe_iff hticks
  constructor
  · intro hproper hpn
    -- a buffer in which the frame has room
    let b' : FrameBuild Ctx := { b with pkt := wPacketStaticBufInit 64 }
    have hpkt : (b'.withCrypto s.crypto).pkt = wPacketStaticBufInit 64 := rfl
    have hmax : (b'.withCrypto s.crypto).pkt.maxsize < 2 ^ 31 := by
      rw [hpkt]
      decide
    have hroom : (b'.withCrypto s.crypto).pkt.written + 40 ≤
        (b'.withCrypto s.crypto).pkt.maxsize := by
      rw [hpkt]
      decide
    have hpost := @quicStreamFrameAck_post Ctx (b'.withCrypto s.crypto) s.crypto now hmax rfl hcheck
    obtain ⟨hassert, hexact⟩ := hproper b' hmax
    obtain ⟨time, harrival, hbefore, hfits, hwritten⟩ := hexact hpn
    have hshort : now - s.last < 2 ^ 62 :=
      (Nat.sub_le_sub_left (h.arrival time harrival) now).trans_lt hfits
    rcases hrun : quicStreamFrameAck now (b'.withCrypto s.crypto) with ⟨r, u⟩
    rw [hrun] at hassert
    cases r with
    | ok =>
      obtain ⟨hge', hfits', hextends, -⟩ := hpost.of_ok hrun
      have hbytes := List.append_cancel_left ((hwritten u hrun).1.symm.trans hextends.1)
      have hsame := ackBytes_injective hfits hfits' hbytes
      rw [hdelay] at hsame
      have heq : time = s.last := by
        have htime := h.arrival time harrival
        omega
      exact ⟨heq ▸ harrival, hge.mp hge', hshort⟩
    | error err =>
      obtain ⟨-, ⟨rfl, -⟩ | ⟨-, hrefused⟩⟩ := hpost.of_error hrun
      · exact absurd rfl hassert
      · rcases hrefused with hno | ⟨hge', hno⟩
        · exact absurd ⟨hpn, hroom⟩ hno
        · refine absurd ⟨hdelay ▸ hshort, ?_, hroom⟩ hno
          rw [h.range]
          decide
  · intro hkept b hmax
    have hpost := @quicStreamFrameAck_post Ctx (b.withCrypto s.crypto) s.crypto now hmax rfl hcheck
    refine ⟨fun hassert => ?_, fun hpn => ?_⟩
    · rcases hrun : quicStreamFrameAck now (b.withCrypto s.crypto) with ⟨r, u⟩
      rw [hrun] at hassert
      cases hassert
      obtain ⟨-, ⟨-, hpn, hlt⟩ | ⟨hret, -⟩⟩ := hpost.of_error hrun
      · exact hlt (hge.mpr (hkept hpn).2.1)
      · cases hret
    · obtain ⟨harrival, -, hfits⟩ := hkept hpn
      refine ⟨s.last, harrival, hlast, hfits, fun t ht => ?_⟩
      obtain ⟨-, -, hextends, -⟩ := hpost.of_ok ht
      rwa [hdelay] at hextends

/-- The same along runs. -/
theorem Timed.along_iff (h : s.Timed) (es : List (AckClockEvent Ctx)) :
    Trace.Along (AckClock.step evp) DelayProper s es ↔
      Trace.Along (AckClock.step evp) DelayKept s es :=
  Trace.along_congr_of_invariant Timed (fun _ _ hs => hs.delayProper_iff)
    (fun _ _ _ hs _ hstep => hs.step hstep) h

/-- In every run of a packet number space with a clock of 64 bits that does not run backwards, every
ACK frame that is due tells the exact time since its packet arrived and no assertion fails, if and
only if at every such frame no packet has arrived later than the one it acknowledges and the bit
`31` of the time since then is not set. -/
theorem delayProper_along_iff (evp : EvpOpen Ctx) (hs : s.Unused) (es : List (AckClockEvent Ctx)) :
    Trace.Along (AckClock.step evp) DelayProper s es ↔
      Trace.Along (AckClock.step evp) DelayKept s es :=
  hs.timed.along_iff es

end Runs

/-- A space whose keys are installed and that has received nothing. -/
def unused : AckClock Unit where
  crypto := plainCrypto 0 0
  clock := 0
  last := 0
  arrival := none

theorem unused_unused : unused.Unused := ⟨rfl, ⟨rfl, rfl⟩, ⟨rfl, rfl, rfl⟩⟩

/-- A packet with a short header, the number `1` and padding. -/
def numberedPkt : RPacket := { past := [0x40], rest := 1 :: List.replicate 30 0 }

/-- The frames of an empty buffer are built at a time. -/
def ackAt (now : ℕ) : AckClockEvent Unit := .ack now (sendFrom 0 0 (Nat.zero_le _))

/-- An ACK frame is built five microseconds after its packet. -/
theorem delayProper_along_prompt : Trace.Along (AckClock.step plainEvpOpen) DelayProper unused
    [.packet 5 numberedPkt 64 0x1f, ackAt 10] :=
  (delayProper_along_iff plainEvpOpen unused_unused _).mpr (by decide +kernel)

/-- An ACK frame is built `2 ^ 31` microseconds after its packet, and another one five microseconds
after bytes that are no packet. -/
theorem delay_late : ¬ Trace.Along (AckClock.step plainEvpOpen) DelayProper unused
      [.packet 5 numberedPkt 64 0x1f, ackAt (5 + 2 ^ 31)] ∧
    ¬ Trace.Along (AckClock.step plainEvpOpen) DelayProper unused
      [.packet 5 numberedPkt 64 0x1f, .packet 105 (rPacketBufInit [0x40]) 64 0x1f, ackAt 110] := by
  rw [unused_unused.timed.along_iff, unused_unused.timed.along_iff]
  decide +kernel

end AckClock

end Tbquic
