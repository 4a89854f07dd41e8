import Tbquic.Tls.Frames

/-!
# Segmentation of the messages

A flight of messages of one encryption level arrives in frames that follow each other. A call of
the handshake that ends inside a message keeps the read position. A call that ends with a message
forgets it, so the next frame makes the handshake start over with the first message.
-/

namespace Tbquic

variable {τ : Type} {m : TlsMethod τ}

/-- The locals of a call that starts with messages to read. -/
def TlsConn.startOn (c : TlsConn τ) (bytes : List UInt8) : TlsStep τ :=
  { c.start with input := { past := [], rest := bytes, beyond := 0 } }

section Frame

variable {c c' : TlsConn τ} {b : QuicBuffer} {xs chunk : List UInt8} {offset dataLen : ℕ}

/-- A frame of the flight with its place in the buffer. -/
theorem ordinaryFrame (hlength : b.length ≤ bufMemLimit)
    (hflight : (xs ++ chunk).length ≤ bufMemLimit) (hdata : dataLen ≤ (xs ++ chunk).length) :
    OrdinaryFrame { b.filled xs with offset, dataLen } { offset := xs.length, data := chunk } := by
  have hlimit : bufMemLimit + 24 < 2 ^ 31 := by decide
  have hlen : (xs ++ chunk).length = xs.length + chunk.length := List.length_append
  constructor
  · have htype := (varLengthSize_bounds quicFrameTypeCrypto).2
    have hoffset := (varLengthSize_bounds xs.length).2
    have hsize := (varLengthSize_bounds chunk.length).2
    simp only [cryptoFrameBytes, List.length_append, varLengthBytes_length]
    omega
  · rw [Segment.stop, Segment.len, ← hlen]
    exact hflight
  · change (b.filled xs).length ≤ _
    rw [QuicBuffer.filled_length]
    omega
  · change dataLen < _
    omega

/-- A frame of a flight is received and read behind the offset. -/
theorem recvCryptoFrame_iff (hroom : b.Room (xs ++ chunk).length) (hlength : b.length ≤ bufMemLimit)
    (hflight : (xs ++ chunk).length ≤ bufMemLimit) (hdata : dataLen ≤ (xs ++ chunk).length)
    (hoffset : offset ≤ (xs ++ chunk).length)
    (hbuffer : c.buffer = { b.filled xs with offset, dataLen })
    (hstate : c.handshakeState ≠ .handshakeDone) :
    (∃ fuel, recvCryptoFrame m fuel { offset := xs.length, data := chunk } c = (.ok (), c')) ↔
      ∃ r s t, ((c.withBuffer { b.filled (xs ++ chunk) with
            offset, dataLen := (xs ++ chunk).length }).startOn
          ((xs ++ chunk).drop offset)).Ends m (.ok r, s) ∧
        tlsHandshakeFinish m (.ok r) s = (.ok r, t) ∧ c' = t.conn := by
  have hlimit : bufMemLimit < 2 ^ 31 := by decide
  have hlen : (xs ++ chunk).length = xs.length + chunk.length := List.length_append
  have hordinary : OrdinaryFrame c.buffer { offset := xs.length, data := chunk } := by
    rw [hbuffer]
    exact ordinaryFrame hlength hflight hdata
  have hplace : c.buffer.reserved + (⟨xs.length, chunk⟩ : Segment UInt8).stop ≤
      max c.buffer.length (⟨xs.length, chunk⟩ : Segment UInt8).stop := by
    rw [hbuffer]
    change b.reserved + (xs.length + chunk.length) ≤
      max (b.filled xs).length (xs.length + chunk.length)
    rw [QuicBuffer.filled_length]
    unfold QuicBuffer.Room at hroom
    omega
  let c₁ : TlsConn τ := c.withBuffer { b.filled (xs ++ chunk) with
    offset, dataLen := (xs ++ chunk).length }
  have hreceive : c.withBuffer (c.buffer.receive { offset := xs.length, data := chunk }) = c₁ := by
    rw [hbuffer, QuicBuffer.filled_receive hroom, max_eq_right (by omega), ← hlen]
  have hstart : c₁.start = c₁.startOn ((xs ++ chunk).drop offset) := by
    unfold TlsConn.startOn
    rw [← QuicBuffer.filled_input hroom hoffset (by omega)]
    rfl
  have hassert : quicGe (((c₁.buffer.dataLen : ℤ) - c₁.buffer.offset) % 2 ^ 64) 0 := by
    have hd : c₁.buffer.dataLen = (xs ++ chunk).length := rfl
    have ho : c₁.buffer.offset = offset := rfl
    rw [hd, ho, quicGe_iff] <;> omega
  have hcall (r : QuicFlowReturn) : (∃ fuel, tlsHandshake m fuel c₁ = (.ok r, c')) ↔ _ :=
    tlsHandshake_iff hassert
  constructor
  · rintro ⟨fuel, hrun⟩
    rw [recvCryptoFrame_receive hordinary hplace, hreceive, cryptoFoundHandshake, Prog.get_bind,
      if_neg (by exact hstate)] at hrun
    obtain ⟨r, c₂, hrun, hend⟩ := Prog.bind_eq_ok.mp hrun
    cases hend
    obtain ⟨s, t, hends, hfinish, rfl⟩ := (hcall r).mp ⟨fuel, hrun⟩
    rw [hstart] at hends
    exact ⟨r, s, t, hends, hfinish, rfl⟩
  · rintro ⟨r, s, t, hends, hfinish, rfl⟩
    have hends' : c₁.start.Ends m (.ok r, s) := by
      rw [hstart]
      exact hends
    obtain ⟨fuel, hrun⟩ := (hcall r).mpr ⟨s, t, hends', hfinish, rfl⟩
    refine ⟨fuel, ?_⟩
    rw [recvCryptoFrame_receive hordinary hplace, hreceive, cryptoFoundHandshake, Prog.get_bind,
      if_neg (by exact hstate), Prog.bind_of_ok hrun]
    rfl

/-- A frame has one outcome. -/
theorem recvCryptoFrame_unique (hroom : b.Room (xs ++ chunk).length)
    (hlength : b.length ≤ bufMemLimit) (hflight : (xs ++ chunk).length ≤ bufMemLimit)
    (hdata : dataLen ≤ (xs ++ chunk).length) (hoffset : offset ≤ (xs ++ chunk).length)
    (hbuffer : c.buffer = { b.filled xs with offset, dataLen })
    (hstate : c.handshakeState ≠ .handshakeDone) {c'' : TlsConn τ} {fuel fuel' : ℕ}
    (h : recvCryptoFrame m fuel { offset := xs.length, data := chunk } c = (.ok (), c'))
    (h' : recvCryptoFrame m fuel' { offset := xs.length, data := chunk } c = (.ok (), c'')) :
    c' = c'' := by
  obtain ⟨r, s, t, hends, hfinish, rfl⟩ :=
    (recvCryptoFrame_iff hroom hlength hflight hdata hoffset hbuffer hstate).mp ⟨fuel, h⟩
  obtain ⟨r', s', t', hends', hfinish', rfl⟩ :=
    (recvCryptoFrame_iff hroom hlength hflight hdata hoffset hbuffer hstate).mp ⟨fuel', h'⟩
  cases hends.unique hends'
  rw [hfinish] at hfinish'
  cases hfinish'
  rfl

end Frame

/-- The buffer with a flight that arrived in one frame. -/
def QuicBuffer.whole (b : QuicBuffer) (msgs : List WireMessage) : QuicBuffer :=
  { b.filled (flightBytes msgs) with offset := 0, dataLen := (flightBytes msgs).length }

/-- A flight of one encryption level that has room in the buffer. -/
structure Flight (b : QuicBuffer) (msgs : List WireMessage) : Prop where
  /-- The flight has room in the memory. -/
  room : b.Room (flightBytes msgs).length
  /-- The memory has not outgrown its limit. -/
  length : b.length ≤ bufMemLimit
  /-- The flight can be stored. -/
  limit : (flightBytes msgs).length ≤ bufMemLimit
  /-- The messages have one level. -/
  level : ∃ level, ∀ msg ∈ msgs, tlsMessageLevel msg.type.toNat = level

/-- The call with the whole flight in one frame, behind the messages done. -/
structure Todo (m : TlsMethod τ) (b : QuicBuffer) (x₀ : TlsConn τ)
    (msgs done todo : List WireMessage) (x c' : TlsConn τ) : Prop where
  /-- The flight consists of the messages done and those to do. -/
  split : msgs = done ++ todo
  /-- The buffer is that at the start of the call. -/
  buffer : x.buffer = b.whole msgs
  /-- The messages done were delivered. -/
  start : tlsDeliverAll m done x₀ = (.ok (), x)
  /-- The messages to do are delivered. -/
  deliver : ∃ y, tlsDeliverAll m todo x = (.ok (), y)
  /-- The call ends well. -/
  final : ∃ t₀ r s t, TlsStep.Ends m
    ⟨x, ⟨flightBytes done, flightBytes todo, 0⟩, wPacketStaticBufInit wPacketBufMaxLen, t₀⟩
    (.ok r, s) ∧ tlsHandshakeFinish m (.ok r) s = (.ok r, t) ∧ c' = t.conn

/-- A connection between two frames: the messages done were read, and a part of the next one has
arrived. The call goes on as if it were in the state of the call with the whole flight. -/
structure Pending (m : TlsMethod τ) (b : QuicBuffer) (done : List WireMessage)
    (part : List UInt8) (x a : TlsConn τ) (dataLen : ℕ) : Prop where
  /-- The bytes that arrived are in the buffer. -/
  buffer : a.buffer =
    { b.filled (flightBytes done ++ part) with offset := (flightBytes done).length, dataLen }
  /-- The handshake is not over. -/
  state : a.handshakeState ≠ .handshakeDone
  /-- The next call has the same outcome. -/
  ends : ∀ {buffer bytes r}, part <+: bytes → bytes.length < 2 ^ 31 →
    (((a.withBuffer buffer).startOn bytes).Ends m r ↔
      ((x.withBuffer buffer).startOn bytes).Ends m r)

section Segmentation

variable {b : QuicBuffer} {msgs done todo now more : List WireMessage} {next : WireMessage}
  {part part' chunk : List UInt8} {x₀ x a c' : TlsConn τ} {d : ℕ}

/-- The handlers of a message that has arrived see the same bytes as with the whole flight. -/
theorem filled_head_eq (hf : Flight b msgs) {front : List UInt8}
    (hfront : front <+: flightBytes msgs) {count : ℕ} (hcount : count ≤ front.length) :
    (b.filled front).mem.take (b.reserved + count) =
      (b.whole msgs).mem.take (b.reserved + count) := by
  have hle := hfront.length_le
  have hmem : (b.whole msgs).mem = (b.filled (flightBytes msgs)).mem := rfl
  rw [hmem, QuicBuffer.filled_head (hf.room.mono hle) hcount,
    QuicBuffer.filled_head hf.room (hcount.trans hle)]
  obtain ⟨back, hback⟩ := hfront
  rw [← hback, List.take_append_of_le_length hcount]

/-- The call with the whole flight goes on behind more messages. -/
theorem Todo.advance (hm : m.Regular) (hf : Flight b msgs)
    (h : Todo m b x₀ msgs done (now ++ next :: more) x c') :
    ∃ x₁, Todo m b x₀ msgs (done ++ now) (next :: more) x₁ c' ∧
      ∀ {front offset dataLen}, front <+: flightBytes msgs →
        (flightBytes now).length ≤ front.length →
        tlsDeliverAll m now (x.withBuffer { b.filled front with offset, dataLen }) =
          (.ok (), x₁.withBuffer { b.filled front with offset, dataLen }) := by
  obtain ⟨level, hlevel⟩ := hf.level
  obtain ⟨y, hdeliver⟩ := h.deliver
  have hsplit := h.split
  have hlimit : bufMemLimit < 2 ^ 31 := by decide
  have hlen : (flightBytes now ++ flightBytes (next :: more)).length < 2 ^ 31 := by
    have hflight := hf.limit
    rw [hsplit, flightBytes_append, flightBytes_append, List.length_append] at hflight
    omega
  obtain ⟨x₁, hnow, hrest, hbuffer, halike⟩ := tlsDeliverAll_front hm
    (fun msg hmsg => hlevel msg (by rw [hsplit]; exact List.mem_append_right done hmsg)) hdeliver
  obtain ⟨t₀, r, s, t, hends, hfinish, hend⟩ := h.final
  rw [flightBytes_append] at hends
  obtain ⟨t₁, hiff⟩ := TlsStep.ends_tlsDeliverAll hnow hlen (flightBytes done) t₀
  refine ⟨x₁, ⟨?_, hbuffer.trans h.buffer, tlsDeliverAll_append h.start hnow, ⟨y, hrest⟩,
    t₁, r, s, t, ?_, hfinish, hend⟩, ?_⟩
  · rw [hsplit, List.append_assoc]
  · rw [flightBytes_append]
    exact hiff.mp hends
  · intro front offset dataLen hfront hcount
    apply halike
    · rw [h.buffer]
      rfl
    · intro msg hmsg
      have hmem : msg.bytes.length ≤ (flightBytes now).length :=
        (List.sublist_flatten_of_mem (List.mem_map_of_mem hmsg)).length_le
      have hreserved : (b.whole msgs).reserved = b.reserved := rfl
      rw [h.buffer, hreserved]
      exact filled_head_eq hf hfront (hmem.trans hcount)

/-- The loop reads complete messages and waits for the rest of the next one. -/
theorem ends_front (hm : m.Regular) {y : TlsConn τ} {w : WPacket} {t : ℕ}
    (hdeliver : ∃ z, tlsDeliverAll m (next :: more) x = (.ok (), z)) {buffer : QuicBuffer}
    (hnow : tlsDeliverAll m now y = (.ok (), x.withBuffer buffer))
    (hpart : part <+: next.bytes) (hlt : part.length < next.bytes.length)
    (hlen : (flightBytes now ++ part).length < 2 ^ 31) :
    ∃ q t', (m.proc q).isReading = true ∧ (part = [] → q = x.handshakeState) ∧
      (part ≠ [] → tlsSkip m.proc x.host next.type.toNat TlsState.all.length x.handshakeState =
        .ok (q, true)) ∧
      TlsStep.Ends m ⟨y, ⟨[], flightBytes now ++ part, 0⟩, w, t⟩
        (.ok .wantRead, ⟨(x.withBuffer buffer).setState q, ⟨flightBytes now, part, 0⟩, w, t'⟩) := by
  obtain ⟨z, hdeliver⟩ := hdeliver
  have hreading := isReading_of_tlsDeliverAll hdeliver
  obtain ⟨_, x₁, hnext, _⟩ := Prog.bind_eq_ok.mp hdeliver
  obtain ⟨q, hdelivery⟩ := tlsDeliver_iff.mp hnext
  obtain ⟨t₁, hiff⟩ := TlsStep.ends_tlsDeliverAll (w := w) hnow hlen [] t
  by_cases hnil : part = []
  · subst hnil
    refine ⟨x.handshakeState, (m.proc x.handshakeState).pktType, hreading, fun _ => rfl,
      fun h => absurd rfl h, hiff.mpr ?_⟩
    exact TlsStep.ends_of_some (tlsHandshakeRound_nil (c := x.withBuffer buffer) hreading)
  · have hmatch : tlsHandshakeMatch m.proc next.type.toNat (x.withBuffer buffer) =
        (.ok (q, true), (x.withBuffer buffer).setState q) :=
      tlsHandshakeMatch_eq_ok.mpr ⟨hdelivery.skip, rfl⟩
    refine ⟨q, (m.proc x.handshakeState).pktType, (hdelivery.skipped hm).reading,
      fun h => absurd h hnil, fun _ => hdelivery.skip, hiff.mpr ?_⟩
    exact TlsStep.ends_of_some (tlsHandshakeRound_incomplete (c := x.withBuffer buffer) hpart hnil
      hlt hreading hmatch)

/-- A frame that does not end the flight is read up to its last complete message. -/
theorem Pending.call (hm : m.Regular) (hf : Flight b msgs)
    (ht : Todo m b x₀ msgs done (now ++ next :: more) x c') (hp : Pending m b done part x a d)
    (hsplit : part ++ chunk = flightBytes now ++ part') (hpart : part' <+: next.bytes)
    (hlt : part'.length < next.bytes.length)
    (hdata : d ≤ (flightBytes done ++ part ++ chunk).length) :
    ∃ x₁ q, Todo m b x₀ msgs (done ++ now) (next :: more) x₁ c' ∧ (m.proc q).isReading = true ∧
      (part' = [] → q = x₁.handshakeState) ∧
      (part' ≠ [] → tlsSkip m.proc x₁.host next.type.toNat TlsState.all.length x₁.handshakeState =
        .ok (q, true)) ∧
      ∃ fuel, recvCryptoFrame m fuel
          { offset := (flightBytes done ++ part).length, data := chunk } a =
        (.ok (), (x₁.withBuffer { b.filled (flightBytes (done ++ now) ++ part') with
          offset := if part' = [] then 0 else (flightBytes (done ++ now)).length
          dataLen := 0 }).setState q) := by
  obtain ⟨x₁, htodo, halike⟩ := ht.advance hm hf
  have hall : flightBytes done ++ part ++ chunk = flightBytes (done ++ now) ++ part' := by
    rw [List.append_assoc, hsplit, flightBytes_append, List.append_assoc]
  have hfront : flightBytes done ++ part ++ chunk <+: flightBytes msgs := by
    rw [hall, htodo.split, flightBytes_append (done ++ now), flightBytes_cons]
    exact (List.prefix_append_right_inj _).mpr (hpart.trans (List.prefix_append _ _))
  have hlimit : bufMemLimit < 2 ^ 31 := by decide
  have hle : (flightBytes done ++ part ++ chunk).length ≤ (flightBytes msgs).length :=
    hfront.length_le
  have hflight := hf.limit
  have hlengths : (flightBytes done ++ part ++ chunk).length =
      (flightBytes done).length + (part ++ chunk).length := by
    rw [List.append_assoc, List.length_append]
  have hlengths' : (part ++ chunk).length = (flightBytes now).length + part'.length := by
    rw [hsplit, List.length_append]
  have hbytes : (flightBytes done ++ part ++ chunk).drop (flightBytes done).length =
      flightBytes now ++ part' := by
    rw [List.append_assoc, List.drop_left, hsplit]
  let buffer : QuicBuffer := { b.filled (flightBytes done ++ part ++ chunk) with
    offset := (flightBytes done).length
    dataLen := (flightBytes done ++ part ++ chunk).length }
  have hnow : tlsDeliverAll m now (x.withBuffer buffer) = (.ok (), x₁.withBuffer buffer) :=
    halike hfront (by omega)
  obtain ⟨q, t', hreading, hnil, hskip, hends⟩ := ends_front hm htodo.deliver
    (w := wPacketStaticBufInit wPacketBufMaxLen) (t := 0) hnow hpart hlt
    (by rw [List.length_append]; omega)
  refine ⟨x₁, q, htodo, hreading, hnil, hskip, ?_⟩
  rw [recvCryptoFrame_iff (hf.room.mono hle) hf.length (hle.trans hflight) hdata (by omega)
    hp.buffer hp.state, hbytes]
  have hcall := (hp.ends ⟨chunk, hsplit⟩ (by rw [List.length_append]; omega)).mpr hends
  by_cases hnil' : part' = []
  · refine ⟨.wantRead, _, _, hcall, tlsHandshakeFinish_reset hm ⟨rfl, hreading⟩ (.inr ?_), ?_⟩
    · rw [hnil']
      rfl
    · rw [if_pos hnil', ← hall]
      rfl
  · refine ⟨.wantRead, _, _, hcall, tlsHandshakeFinish_wait hm ⟨rfl, hreading⟩ ?_ ?_ ?_, ?_⟩
    · exact (List.length_pos_iff.mpr hnil').ne'
    · change (flightBytes done).length + (flightBytes now).length ≤ (b.filled _).length
      rw [QuicBuffer.filled_length]
      omega
    · change (b.filled _).length ≤ _
      rw [QuicBuffer.filled_length]
      have hlength := hf.length
      omega
    · rw [if_neg hnil', ← hall, flightBytes_append, List.length_append]
      rfl

/-- A state that was reached by skipping with a part of a message waits for its rest. -/
theorem pending_setState (hm : m.Regular) {q : TlsState}
    (hreading : (m.proc q).isReading = true)
    (hx : (m.proc x.handshakeState).isReading = true) (hpart : part <+: next.bytes)
    (hnil : part = [] → q = x.handshakeState ∧ done = [])
    (hskip : part ≠ [] → tlsSkip m.proc x.host next.type.toNat TlsState.all.length
      x.handshakeState = .ok (q, true)) :
    Pending m b done part x ((x.withBuffer { b.filled (flightBytes done ++ part) with
      offset := if part = [] then 0 else (flightBytes done).length, dataLen := 0 }).setState q)
      0 := by
  have hdone : q ≠ .handshakeDone := by
    rintro rfl
    rw [hm.done.2] at hreading
    cases hreading
  by_cases hempty : part = []
  · obtain ⟨rfl, rfl⟩ := hnil hempty
    subst hempty
    exact ⟨rfl, hdone, fun _ _ => Iff.rfl⟩
  · refine ⟨by rw [if_neg hempty]; rfl, hdone, ?_⟩
    intro buffer bytes r hfront hlen
    obtain ⟨byte, part, rfl⟩ := List.exists_cons_of_ne_nil hempty
    obtain ⟨more, rfl⟩ := hfront
    rw [WireMessage.bytes, List.cons_prefix_cons] at hpart
    obtain ⟨rfl, _⟩ := hpart
    rw [List.cons_append, List.length_cons] at hlen
    have hround := tlsHandshakeRound_skip (c := x.withBuffer buffer) (t := 0)
      (w := wPacketStaticBufInit wPacketBufMaxLen)
      hm [] (show (part ++ more).length < 2 ^ 31 by omega) hx
      (hskip hempty)
    exact ⟨TlsStep.ends_congr hround.symm, TlsStep.ends_congr hround⟩

/-- The last frame of a flight makes the call end like that with the whole flight. -/
theorem Pending.last (hf : Flight b msgs) (ht : Todo m b x₀ msgs done (next :: more) x c')
    (hp : Pending m b done part x a d) (hsplit : part ++ chunk = flightBytes (next :: more))
    (hdata : d ≤ (flightBytes done ++ part ++ chunk).length) :
    ∃ fuel, recvCryptoFrame m fuel
      { offset := (flightBytes done ++ part).length, data := chunk } a = (.ok (), c') := by
  obtain ⟨t₀, r, s, t, hends, hfinish, rfl⟩ := ht.final
  obtain ⟨z, hdeliver⟩ := ht.deliver
  have hreading := isReading_of_tlsDeliverAll hdeliver
  have hall : flightBytes done ++ part ++ chunk = flightBytes msgs := by
    rw [List.append_assoc, hsplit, ht.split, flightBytes_append]
  have hlimit : bufMemLimit < 2 ^ 31 := by decide
  have hflight := hf.limit
  have hlengths : (flightBytes msgs).length =
      (flightBytes done).length + (flightBytes (next :: more)).length := by
    rw [ht.split, flightBytes_append, List.length_append]
  have hbytes : (flightBytes done ++ part ++ chunk).drop (flightBytes done).length =
      flightBytes (next :: more) := by
    rw [List.append_assoc, List.drop_left, hsplit]
  have hbuffer := ht.buffer
  -- both calls are images of the one that has read nothing before
  have hstart : TlsStep.Ends m ((x.startOn (flightBytes (next :: more))).shift 0 (flightBytes done))
      (.ok r, s) := by
    have hsame := TlsStep.ends_pktType 0 hreading hends
    have hpast : (x.startOn (flightBytes (next :: more))).shift 0 (flightBytes done) =
        ⟨x, ⟨flightBytes done, flightBytes (next :: more), 0⟩,
          wPacketStaticBufInit wPacketBufMaxLen, 0⟩ := by
      unfold TlsStep.shift TlsInput.shift TlsConn.startOn
      simp only [List.append_nil]
      rfl
    rwa [hpast]
  obtain ⟨u, hbase, rfl⟩ := hstart.of_shift
  obtain ⟨i, hfinish'⟩ := tlsHandshakeFinish_shift hfinish
  have hshift := hbase.shift (flightBytes done).length []
  have hcall : (x.startOn (flightBytes (next :: more))).shift (flightBytes done).length [] =
      (x.withBuffer { b.filled (flightBytes done ++ part ++ chunk) with
        offset := (flightBytes done).length
        dataLen := (flightBytes done ++ part ++ chunk).length }).startOn
          (flightBytes (next :: more)) := by
    have hconn : x.shift (flightBytes done).length = x.withBuffer
        { b.filled (flightBytes msgs) with
          offset := (flightBytes done).length, dataLen := (flightBytes msgs).length } := by
      rw [TlsConn.shift, hbuffer, QuicBuffer.whole, TlsConn.withBuffer]
      simp only [Nat.zero_add]
    rw [hall, ← hconn]
    rfl
  rw [recvCryptoFrame_iff (by rw [hall]; exact hf.room) hf.length (by rw [hall]; exact hflight)
    hdata (by rw [hall]; omega) hp.buffer hp.state, hbytes]
  rw [hcall] at hshift
  exact ⟨r, _, _, (hp.ends ⟨chunk, hsplit⟩ (by omega)).mpr hshift, hfinish', rfl⟩

/-- Every frame but the last ends inside a message, or before the first one. -/
def FramesEndInside (msgs : List WireMessage) (chunks : List (List UInt8)) : Prop :=
  ∀ i < chunks.length, ∀ j < msgs.length,
    (chunks.take i).flatten ≠ flightBytes (msgs.take (j + 1))

instance (msgs : List WireMessage) (chunks : List (List UInt8)) :
    Decidable (FramesEndInside msgs chunks) :=
  inferInstanceAs (Decidable (∀ i < _, _))

/-- The first frames do not end with the first messages. -/
theorem framesEndInside_iff {chunks : List (List UInt8)} :
    FramesEndInside msgs chunks ↔ ∀ front back, chunks = front ++ back → back ≠ [] →
      ∀ done todo, msgs = done ++ todo → done ≠ [] → front.flatten ≠ flightBytes done := by
  constructor
  · rintro h front back rfl hback done todo rfl hdone
    have hpos := List.length_pos_iff.mpr hback
    have hpos' := List.length_pos_iff.mpr hdone
    have hends := h front.length (by rw [List.length_append]; omega) (done.length - 1)
      (by rw [List.length_append]; omega)
    rwa [List.take_left, Nat.sub_add_cancel hpos', List.take_left] at hends
  · intro h i hi j hj
    refine h (chunks.take i) (chunks.drop i) (List.take_append_drop i chunks).symm ?_
      (msgs.take (j + 1)) (msgs.drop (j + 1)) (List.take_append_drop _ msgs).symm ?_
    · rw [← List.length_pos_iff, List.length_drop]
      omega
    · rw [← List.length_pos_iff, List.length_take]
      omega

/-- The frames of a flight that end inside messages have the outcome of the whole flight. -/
theorem Pending.recvs (hm : m.Regular) (hf : Flight b msgs) {chunks : List (List UInt8)}
    (hne : chunks ≠ []) (htodo : todo ≠ []) (ht : Todo m b x₀ msgs done todo x c')
    (hp : Pending m b done part x a d) (hchunks : part ++ chunks.flatten = flightBytes todo)
    (hinside : ∀ front back, chunks = front ++ back → front ≠ [] → back ≠ [] →
      ∀ done' todo', msgs = done' ++ todo' → done' ≠ [] →
        flightBytes done ++ part ++ front.flatten ≠ flightBytes done')
    (hdata : d ≤ (flightBytes done ++ part ++ chunks.headD []).length) :
    RecvsCryptoStream m (flightBytes done ++ part).length chunks a c' := by
  induction chunks generalizing done todo part x a d with
  | nil => exact absurd rfl hne
  | cons chunk chunks ih =>
    rw [List.headD_cons] at hdata
    rw [List.flatten_cons, ← List.append_assoc] at hchunks
    by_cases hlast : chunks = []
    · subst hlast
      obtain ⟨next, more, rfl⟩ := List.exists_cons_of_ne_nil htodo
      rw [List.flatten_nil, List.append_nil] at hchunks
      obtain ⟨fuel, hrun⟩ := hp.last hf ht hchunks hdata
      exact ⟨fuel, c', hrun, rfl⟩
    · obtain ⟨now, rest, part', rfl, hsplit, hnil, hpart⟩ := flightBytes_split hchunks
      have hall : flightBytes done ++ part ++ chunk = flightBytes (done ++ now) ++ part' := by
        rw [List.append_assoc, hsplit, flightBytes_append, List.append_assoc]
      have hends := hinside [chunk] chunks rfl (List.cons_ne_nil _ _) hlast
      rw [List.flatten_singleton, hall] at hends
      have hboundary : part' = [] → done ++ now = [] := by
        intro hempty
        by_contra hdone
        refine hends (done ++ now) rest ?_ hdone ?_
        · rw [ht.split, List.append_assoc]
        · rw [hempty, List.append_nil]
      cases rest with
      | nil =>
        obtain ⟨rfl, rfl⟩ := List.append_eq_nil_iff.mp (hboundary (hnil rfl))
        exact absurd rfl htodo
      | cons next more =>
        obtain ⟨hfront, hlt⟩ := hpart next more rfl
        obtain ⟨x₁, q, ht₁, hreading, hq, hskip, fuel, hrun⟩ :=
          hp.call hm hf ht hsplit hfront hlt hdata
        obtain ⟨z, hdeliver⟩ := ht₁.deliver
        have hp₁ := pending_setState (b := b) hm hreading (isReading_of_tlsDeliverAll hdeliver)
          hfront (fun hempty => ⟨hq hempty, hboundary hempty⟩) hskip
        have hrest : part' ++ chunks.flatten = flightBytes (next :: more) := by
          rw [hsplit, flightBytes_append, List.append_assoc] at hchunks
          exact List.append_cancel_left hchunks
        refine ⟨fuel, _, hrun, ?_⟩
        have hstop : (flightBytes done ++ part).length + chunk.length =
            (flightBytes (done ++ now) ++ part').length := by
          rw [← List.length_append, hall]
        rw [hstop]
        refine ih hlast (List.cons_ne_nil _ _) ht₁ hp₁ hrest ?_ (Nat.zero_le _)
        intro front back hfront hfront' hback done' todo' hsplit' hdone'
        have hnext := hinside (chunk :: front) back (by rw [hfront]; rfl) (List.cons_ne_nil _ _)
          hback done' todo' hsplit' hdone'
        rw [List.flatten_cons, ← List.append_assoc, hall] at hnext
        exact hnext

end Segmentation

section Restart

variable {b : QuicBuffer} {msgs before after : List WireMessage} {first : WireMessage}
  {a c' : TlsConn τ} {q : TlsState} {front : List UInt8} {chunks : List (List UInt8)}

/-- The end of a call has handled what the loop handled. -/
theorem tlsHandshakeFinish_handled {ret : Except Fail QuicFlowReturn} {s t : TlsStep τ}
    {r : QuicFlowReturn} (h : tlsHandshakeFinish m ret s = (.ok r, t)) :
    t.conn.handled = s.conn.handled := by
  have hpost : Prog.Post (tlsHandshakeFinish m ret)
      (fun _ t => t.conn.handled = s.conn.handled) (fun _ _ => True) s := by
    have hoffset (u : TlsStep τ) : Prog.Post (tlsHandshakeOffset ret)
        (fun _ t => t.conn.handled = u.conn.handled) (fun _ _ => True) u := by
      rw [tlsHandshakeOffset, Prog.post_bind, Prog.post_get, Prog.post_ite, Prog.post_bind,
        Prog.post_ofOption, Prog.post_modify]
      exact ⟨fun _ => ⟨fun _ _ => rfl, fun _ => trivial⟩, fun _ => rfl⟩
    have hsend (u : TlsStep τ) : Prog.Post (tlsHandshakeSend m)
        (fun _ t => t.conn.handled = u.conn.handled) (fun _ _ => True) u := by
      rw [tlsHandshakeSend, Prog.post_bind, Prog.post_get, Prog.post_bind, Prog.post_modify,
        Prog.post_ite]
      exact ⟨fun _ => TlsStep.post_onHost fun _ _ => rfl, fun _ => rfl⟩
    have hdone (u : TlsStep τ) : Prog.Post (tlsHandshakeDone m)
        (fun _ t => t.conn.handled = u.conn.handled) (fun _ _ => True) u := by
      rw [tlsHandshakeDone, Prog.post_bind, Prog.post_get, Prog.post_ite, Prog.post_bind]
      exact ⟨fun _ => TlsStep.post_onHost fun _ _ => rfl, fun _ => rfl⟩
    rw [tlsHandshakeFinish, Prog.post_bind, Prog.post_get, Prog.post_bind, Prog.post_modify,
      Prog.post_bind]
    refine (hoffset _).mono ?_ fun _ _ _ => trivial
    intro _ t₁ ht₁
    rw [Prog.post_bind]
    refine (hsend t₁).mono ?_ fun _ _ _ => trivial
    intro _ t₂ ht₂
    rw [Prog.post_bind]
    refine (hdone t₂).mono ?_ fun _ _ _ => trivial
    intro _ t₃ ht₃
    rw [Prog.post_ofExcept]
    exact ⟨fun _ _ => ht₃.trans (ht₂.trans ht₁), fun _ _ => trivial⟩
  exact hpost.of_ok h

/-- A connection that starts over with a message of an earlier state drops it again and again. -/
theorem recvs_stuck (hm : m.Regular) (hf : Flight b (first :: msgs))
    (hq : (m.proc q).isReading = true) (htype : first.type.toNat = (m.proc q).msgType.code)
    (ha : (m.proc a.handshakeState).isReading = true) (hlt : q.index < a.handshakeState.index)
    (hbuffer : a.buffer = { b.filled front with offset := 0, dataLen := 0 })
    (hfirst : first.bytes.length ≤ front.length)
    (hchunks : front ++ chunks.flatten = flightBytes (first :: msgs))
    (h : RecvsCryptoStream m front.length chunks a c') : c'.handled = a.handled := by
  induction chunks generalizing a front with
  | nil => rw [h]
  | cons chunk chunks ih =>
    obtain ⟨fuel, c₁, hrun, hrest⟩ := h
    rw [List.flatten_cons, ← List.append_assoc] at hchunks
    have hfront : front ++ chunk <+: flightBytes (first :: msgs) := ⟨_, hchunks⟩
    have hle := hfront.length_le
    have hflight := hf.limit
    have hlimit : bufMemLimit < 2 ^ 31 := by decide
    obtain ⟨more, hmore⟩ : first.bytes <+: front ++ chunk :=
      List.prefix_of_prefix_length_le (List.prefix_append _ _) hfront
        (by rw [List.length_append]; omega)
    have hstate : a.handshakeState ≠ .handshakeDone := by
      intro hdone
      rw [hdone, hm.done.2] at ha
      cases ha
    obtain ⟨r, s, t, hends, hfinish, rfl⟩ := (recvCryptoFrame_iff (hf.room.mono hle) hf.length
      (hle.trans hflight) (Nat.zero_le _) (Nat.zero_le _) hbuffer hstate).mp ⟨fuel, hrun⟩
    have hlen : (first.bytes ++ more).length < 2 ^ 31 := by
      rw [hmore]
      omega
    generalize hB : ({ b.filled (front ++ chunk) with
      offset := 0, dataLen := (front ++ chunk).length } : QuicBuffer) = B at hends
    rw [List.drop_zero, ← hmore] at hends
    have hsearch {found : Bool} {q' : TlsState} (hskip : tlsSkip m.proc a.host first.type.toNat
        TlsState.all.length a.handshakeState = .ok (q', found)) : found = false := by
      have hskipped := hm.skipped ha hskip
      by_contra htrue
      rw [Bool.not_eq_false] at htrue
      have heq := hskipped.found_eq
      rw [htrue] at heq
      have hsame := hm.reads_inj hq hskipped.reading (htype.symm.trans (of_decide_eq_true heq.symm))
      have hindex := hskipped.le
      rw [← hsame] at hindex
      omega
    rcases tlsHandshakeRound_complete (c := a.withBuffer B) (w := wPacketStaticBufInit
      wPacketBufMaxLen) (t := 0) [] hlen ha with
      ⟨y, hdeliver⟩ | ⟨e, s', hround⟩ | ⟨q', i, hskip, hround⟩
    · obtain ⟨q', hdelivery⟩ := tlsDeliver_iff.mp hdeliver
      exact absurd (hsearch hdelivery.skip) (by decide)
    · exact absurd hround (hends.round_ne_error e s')
    · cases hends.unique (TlsStep.ends_of_some hround)
      have hskipped := hm.skipped ha hskip
      rw [tlsHandshakeFinish_reset hm ⟨rfl, hskipped.reading⟩ (.inl rfl)] at hfinish
      cases hfinish
      subst hB
      rw [← List.length_append] at hrest
      have hnext := fun hreading hindex hbuffer hlength =>
        ih hreading hindex hbuffer hlength hchunks hrest
      exact hnext hskipped.reading (hlt.trans_le hskipped.le) rfl
        (by rw [List.length_append]; omega)

/-- In a state that repeats itself, complete messages of its type are handled or the handshake
fails. -/
theorem ends_repeat (hm : m.Regular) (hq : (m.proc q).isReading = true)
    (hnext : (m.proc q).nextState = q) {now : List WireMessage} {part past : List UInt8}
    (htypes : ∀ msg ∈ now, msg.type.toNat = (m.proc q).msgType.code) {y : TlsConn τ}
    (hy : y.handshakeState = q) {w : WPacket} {t : ℕ} {r : QuicFlowReturn} {s : TlsStep τ}
    (hlen : (flightBytes now ++ part).length < 2 ^ 31)
    (h : TlsStep.Ends m ⟨y, ⟨past, flightBytes now ++ part, 0⟩, w, t⟩ (.ok r, s)) :
    ∃ z t', z.handshakeState = q ∧ z.buffer = y.buffer ∧
      z.handled.length = y.handled.length + now.length ∧
      TlsStep.Ends m ⟨z, ⟨past ++ flightBytes now, part, 0⟩, w, t'⟩ (.ok r, s) := by
  induction now generalizing y past t with
  | nil =>
    refine ⟨y, t, hy, rfl, rfl, ?_⟩
    simpa using h
  | cons msg now ih =>
    rw [flightBytes_cons, List.append_assoc] at hlen h
    have hreading : (m.proc y.handshakeState).isReading = true := by rw [hy]; exact hq
    have htype := htypes msg List.mem_cons_self
    rcases tlsHandshakeRound_complete (w := w) (t := t) past hlen hreading with
      ⟨z, hdeliver⟩ | ⟨e, s', hround⟩ | ⟨q', i, hskip, hround⟩
    · obtain ⟨q', hdelivery⟩ := tlsDeliver_iff.mp hdeliver
      have hsame : q' = q := by
        have hskip := hdelivery.skip
        rw [show TlsState.all.length = 24 + 1 from rfl, tlsSkip, hy, if_pos htype] at hskip
        cases hskip
        rfl
      subst hsame
      obtain ⟨_, _, handler, r', _, _, hflow, hhandler, _, hbuffer⟩ := hdelivery.handlers
      have hhello : (m.proc q').msgType ≠ .serverHello := by
        intro hhello
        have hlevel := (hm.hello hq hhello).2
        rw [hnext, hhello] at hlevel
        exact hlevel rfl
      have hrest := (TlsStep.ends_iff_of_none (tlsHandshakeRound_of_deliver hlen hdeliver)).mp h
      obtain ⟨u, t', hu, hsame, hcount, hends⟩ := ih
        (fun a ha => htypes a (List.mem_cons_of_mem msg ha)) (hdelivery.state.trans hnext)
        (by rw [List.length_append] at hlen; omega) hrest
      refine ⟨u, t', hu, hsame.trans ?_, ?_, ?_⟩
      · rw [hbuffer, hm.keeps hflow hhello hhandler]
      · rw [hcount, hdelivery.handled, List.length_append, List.length_singleton,
          List.length_cons]
        omega
      · rwa [flightBytes_cons, ← List.append_assoc]
    · exact absurd hround (h.round_ne_error e s')
    · rw [show TlsState.all.length = 24 + 1 from rfl, tlsSkip, hy, if_pos htype] at hskip
      cases hskip

/-- A connection that starts over in a state that repeats itself handles the messages again. -/
theorem recvs_again (hm : m.Regular) (hf : Flight b msgs) (hq : (m.proc q).isReading = true)
    (hnext : (m.proc q).nextState = q)
    (htypes : ∀ msg ∈ msgs, msg.type.toNat = (m.proc q).msgType.code)
    (hsplit : msgs = before ++ after) (ha : a.handshakeState = q)
    (hbuffer : a.buffer =
      { b.filled front with offset := (flightBytes before).length, dataLen := 0 })
    (hbefore : flightBytes before <+: front) (hne : chunks ≠ [])
    (hchunks : front ++ chunks.flatten = flightBytes msgs)
    (h : RecvsCryptoStream m front.length chunks a c') :
    a.handled.length + after.length ≤ c'.handled.length := by
  induction chunks generalizing a front before after with
  | nil => exact absurd rfl hne
  | cons chunk chunks ih =>
    obtain ⟨fuel, c₁, hrun, hrest⟩ := h
    rw [List.flatten_cons, ← List.append_assoc] at hchunks
    have hfront : front ++ chunk <+: flightBytes msgs := ⟨_, hchunks⟩
    have hle := hfront.length_le
    have hflight := hf.limit
    have hlimit : bufMemLimit < 2 ^ 31 := by decide
    have hstate : a.handshakeState ≠ .handshakeDone := by
      intro hdone
      rw [← ha, hdone, hm.done.2] at hq
      cases hq
    obtain ⟨read, hread⟩ := hbefore
    have hall : front ++ chunk = flightBytes before ++ (read ++ chunk) := by
      rw [← hread, List.append_assoc]
    have hafter : read ++ chunk ++ chunks.flatten = flightBytes after := by
      rw [hall, hsplit, flightBytes_append, List.append_assoc] at hchunks
      exact List.append_cancel_left hchunks
    obtain ⟨now, rest, part, rfl, hnow, hnil, hpart⟩ := flightBytes_split hafter
    have hlength : (front ++ chunk).length =
        (flightBytes before).length + (flightBytes now ++ part).length := by
      rw [hall, List.length_append, hnow]
    obtain ⟨r, s, t, hends, hfinish, rfl⟩ := (recvCryptoFrame_iff (hf.room.mono hle) hf.length
      (hle.trans hflight) (Nat.zero_le _) (by omega) hbuffer hstate).mp ⟨fuel, hrun⟩
    have hnowLength : (flightBytes now ++ part).length = (flightBytes now).length + part.length :=
      List.length_append
    have hdrop : (front ++ chunk).drop (flightBytes before).length = flightBytes now ++ part := by
      rw [hall, List.drop_left, hnow]
    generalize hB : ({ b.filled (front ++ chunk) with
      offset := (flightBytes before).length
      dataLen := (front ++ chunk).length } : QuicBuffer) = B at hends
    rw [hdrop] at hends
    obtain ⟨z, t', hz, hzbuffer, hcount, hends'⟩ := ends_repeat hm hq hnext (y := a.withBuffer B)
      (w := wPacketStaticBufInit wPacketBufMaxLen) (fun msg hmsg => htypes msg (by
        rw [hsplit]
        exact List.mem_append_right _ (List.mem_append_left _ hmsg)))
      ha (show (flightBytes now ++ part).length < 2 ^ 31 by omega) hends
    have hreading : (m.proc z.handshakeState).isReading = true := by rw [hz]; exact hq
    have hend : t.conn.handshakeState = q ∧ t.conn.handled = z.handled ∧ t.conn.buffer =
        { b.filled (front ++ chunk) with
          offset := if part = [] then 0 else (flightBytes (before ++ now)).length
          dataLen := 0 } := by
      by_cases hempty : part = []
      · subst hempty
        cases hends'.unique (TlsStep.ends_of_some (tlsHandshakeRound_nil hreading))
        rw [tlsHandshakeFinish_reset hm ⟨rfl, hreading⟩ (.inr rfl)] at hfinish
        cases hfinish
        refine ⟨hz, rfl, ?_⟩
        rw [if_pos rfl]
        change ({ z.buffer with offset := 0, dataLen := 0 } : QuicBuffer) = _
        rw [hzbuffer, ← hB]
        rfl
      · obtain ⟨next, more, rfl⟩ := List.exists_cons_of_ne_nil fun h => hempty (hnil h)
        obtain ⟨hfront', hlt⟩ := hpart next more rfl
        have htype : next.type.toNat = (m.proc z.handshakeState).msgType.code := by
          rw [hz]
          apply htypes
          rw [hsplit]
          exact List.mem_append_right _ (List.mem_append_right _ List.mem_cons_self)
        have hmatch : tlsHandshakeMatch m.proc next.type.toNat z =
            (.ok (z.handshakeState, true), z) := by
          refine tlsHandshakeMatch_eq_ok.mpr ⟨?_, rfl⟩
          rw [show TlsState.all.length = 24 + 1 from rfl, tlsSkip, if_pos htype]
        cases hends'.unique (TlsStep.ends_of_some
          (tlsHandshakeRound_incomplete hfront' hempty hlt hreading hmatch))
        have hzoffset : z.buffer.offset = (flightBytes before).length := by
          rw [hzbuffer, ← hB]
          rfl
        have hzlength : z.buffer.length = max b.length (front ++ chunk).length := by
          rw [hzbuffer, ← hB]
          exact QuicBuffer.filled_length
        have hbound := hf.length
        have hroom : z.buffer.offset + ([] ++ flightBytes now).length ≤ z.buffer.length := by
          rw [hzoffset, hzlength, List.nil_append]
          omega
        have hwait := tlsHandshakeFinish_wait (s := ⟨z, ⟨[] ++ flightBytes now, part, 0⟩,
          wPacketStaticBufInit wPacketBufMaxLen, (m.proc z.handshakeState).pktType⟩) hm
          ⟨rfl, hreading⟩ (List.length_pos_iff.mpr hempty).ne' hroom
          (by rw [hzlength]; omega)
        rw [hwait] at hfinish
        cases hfinish
        refine ⟨hz, rfl, ?_⟩
        rw [if_neg hempty, flightBytes_append]
        change ({ z.buffer with
          offset := z.buffer.offset + ([] ++ flightBytes now).length
          dataLen := 0 } : QuicBuffer) = _
        have hoffset : (flightBytes before ++ flightBytes now).length =
            (flightBytes before).length + (flightBytes now).length := List.length_append
        rw [List.nil_append, hzoffset, hzbuffer, ← hB, hoffset]
        rfl
    obtain ⟨hendState, hendHandled, hendBuffer⟩ := hend
    have hhandled : t.conn.handled.length = a.handled.length + now.length := by
      rw [hendHandled, hcount]
      rfl
    rw [← List.length_append] at hrest
    have hcounts : msgs.length = before.length + (now.length + rest.length) := by
      rw [hsplit, List.length_append, List.length_append]
    rw [List.length_append, ← Nat.add_assoc, ← hhandled]
    by_cases hlast : chunks = []
    · subst hlast
      cases rest with
      | nil =>
        rw [hrest]
        exact Nat.le_refl _
      | cons next more =>
        obtain ⟨_, hlt⟩ := hpart next more rfl
        rw [List.flatten_nil, List.append_nil, hnow, flightBytes_append, flightBytes_cons]
          at hafter
        have hrestLength := congrArg List.length (List.append_cancel_left hafter)
        rw [List.length_append] at hrestLength
        omega
    · by_cases hempty : part = []
      · rw [if_pos hempty] at hendBuffer
        have hagain := ih (List.nil_append msgs).symm hendState hendBuffer
          ⟨_, List.nil_append _⟩ hlast hchunks hrest
        omega
      · rw [if_neg hempty] at hendBuffer
        have hnext' : msgs = before ++ now ++ rest := by rw [hsplit, List.append_assoc]
        refine ih hnext' hendState hendBuffer ?_ hlast hchunks hrest
        · rw [hall, flightBytes_append, hnow]
          exact (List.prefix_append_right_inj _).mpr ⟨_, rfl⟩

end Restart

section Start

variable {msgs done todo : List WireMessage} {c c' x₀ x a : TlsConn τ} {b : QuicBuffer}
  {chunks : List (List UInt8)} {part : List UInt8} {d : ℕ}

/-- The call with a whole flight whose messages are all handled. -/
theorem start_of_whole (hm : m.Regular) {level : ℕ}
    (hlevel : ∀ msg ∈ msgs, tlsMessageLevel msg.type.toNat = level) (hmsgs : msgs ≠ [])
    (hoffset : c.buffer.offset = 0) (hlength : c.buffer.length ≤ bufMemLimit)
    (hflight : (flightBytes msgs).length ≤ bufMemLimit)
    (hwhole : RecvsCryptoStream m 0 [flightBytes msgs] c c')
    (honce : c'.handled.map Prod.snd = c.handled.map Prod.snd ++ msgs.map WireMessage.bytes)
    (hdata : c.buffer.dataLen ≤ (flightBytes msgs).length) :
    Flight c.buffer msgs ∧ ∃ x, Todo m c.buffer x msgs [] msgs x c' ∧
      x.handled = c.handled ∧ Pending m c.buffer [] [] x c c.buffer.dataLen := by
  obtain ⟨fuel, c₁, hrun, rfl⟩ := hwhole
  have hlimit : bufMemLimit < 2 ^ 31 := by decide
  have hbuffer : c.buffer = { c.buffer.filled [] with
      offset := 0, dataLen := c.buffer.dataLen } := by
    rw [← hoffset, QuicBuffer.filled_nil]
  have hpos : flightBytes msgs ≠ [] := by
    obtain ⟨msg, more, rfl⟩ := List.exists_cons_of_ne_nil hmsgs
    simp [WireMessage.bytes]
  have hordinary : OrdinaryFrame c.buffer { offset := 0, data := flightBytes msgs } := by
    have hframe : OrdinaryFrame
        { c.buffer.filled [] with offset := 0, dataLen := c.buffer.dataLen } _ :=
      ordinaryFrame hlength hflight hdata
    rw [← hbuffer] at hframe
    exact hframe
  have hroom : c.buffer.Room (flightBytes msgs).length := by
    have hplace := recvCryptoFrame_room hordinary hpos hrun
    rwa [Segment.stop, Segment.len, Nat.zero_add] at hplace
  have hcount : c'.handled.length = c.handled.length + msgs.length := by
    have hlengths := congrArg List.length honce
    rwa [List.length_append, List.length_map, List.length_map, List.length_map] at hlengths
  have hsize := List.length_pos_iff.mpr hmsgs
  have hstate : c.handshakeState ≠ .handshakeDone := by
    intro hdone
    rw [recvCryptoFrame_receive hordinary (by
      rw [Segment.stop, Segment.len, Nat.zero_add]
      exact hroom), cryptoFoundHandshake, Prog.get_bind, if_pos (by exact hdone)] at hrun
    cases hrun
    change c.handled.length = _ at hcount
    omega
  obtain ⟨r, s, t, hends, hfinish, rfl⟩ := (recvCryptoFrame_iff
    (show c.buffer.Room ([] ++ flightBytes msgs).length from hroom) hlength hflight
    hdata (Nat.zero_le _) hbuffer hstate).mp ⟨fuel, hrun⟩
  rw [tlsHandshakeFinish_handled hfinish] at hcount
  obtain ⟨q, hflow, hsettle⟩ := hm.settle c.handshakeState
  let x : TlsConn τ := (c.setState q).withBuffer (c.buffer.whole msgs)
  have hstart : TlsStep.Ends m
      ⟨x, ⟨[], flightBytes msgs, 0⟩, wPacketStaticBufInit wPacketBufMaxLen, quicPktTypeInitial⟩
      (.ok r, s) :=
    (hsettle (c := c.withBuffer (c.buffer.whole msgs)) rfl).mp hends
  refine ⟨⟨hroom, hlength, hflight, level, hlevel⟩, x, ?_, rfl, hbuffer, hstate, ?_⟩
  · exact ⟨rfl, rfl, rfl, hstart.deliverAll hm hflow (by omega) hcount, _, r, s, t, hstart,
      hfinish, rfl⟩
  · intro buffer bytes r _ _
    exact hsettle (c := c.withBuffer buffer) rfl

/-- A call that starts over never handles each message once. -/
theorem Todo.not_restart (hm : m.Regular) (hf : Flight b msgs) {next : WireMessage}
    {more : List WireMessage} (ht : Todo m b x₀ msgs done (next :: more) x c') (hdone : done ≠ [])
    (hcount : c'.handled.length = x₀.handled.length + msgs.length) (hne : chunks ≠ [])
    (hchunks : flightBytes done ++ chunks.flatten = flightBytes msgs) :
    ¬ RecvsCryptoStream m (flightBytes done).length chunks
      (x.withBuffer { b.filled (flightBytes done) with offset := 0, dataLen := 0 }) c' := by
  intro h
  obtain ⟨z, hdeliver⟩ := ht.deliver
  have hreading := isReading_of_tlsDeliverAll hdeliver
  have hsplit := ht.split
  have hstart := ht.start
  have hhandled := congrArg List.length (handled_of_tlsDeliverAll hstart)
  rw [List.length_append, List.length_map, List.length_map, List.length_map] at hhandled
  have hlength : msgs.length = done.length + (more.length + 1) := by
    rw [hsplit, List.length_append, List.length_cons]
  generalize ha : x.withBuffer { b.filled (flightBytes done) with offset := 0, dataLen := 0 } = a
    at h
  have hastate : a.handshakeState = x.handshakeState := by rw [← ha]; rfl
  have hahandled : a.handled = x.handled := by rw [← ha]; rfl
  have habuffer : a.buffer = { b.filled (flightBytes done) with offset := 0, dataLen := 0 } := by
    rw [← ha]
    rfl
  obtain ⟨first, others, rfl⟩ := List.exists_cons_of_ne_nil hdone
  obtain ⟨_, y, hfirst, hothers⟩ := Prog.bind_eq_ok.mp hstart
  obtain ⟨q, hdelivery⟩ := tlsDeliver_iff.mp hfirst
  have hq := (hdelivery.skipped hm).reading
  rcases tlsDeliverAll_first hm hdelivery hothers hreading with hlt | ⟨hnext, hskip, hstate⟩
  · subst hsplit
    rw [← hastate] at hreading hlt
    have hstuck := recvs_stuck hm hf hq (hdelivery.type_eq hm) hreading hlt habuffer
      (by rw [flightBytes_cons, List.length_append]; omega) hchunks h
    rw [hstuck, hahandled] at hcount
    omega
  · have htypes : ∀ msg ∈ msgs, msg.type.toNat = (m.proc q).msgType.code := by
      intro msg hmsg
      rw [hsplit, List.cons_append] at hmsg
      rcases List.mem_cons.mp hmsg with rfl | hmsg
      · exact hdelivery.type_eq hm
      · have hrest := tlsDeliverAll_append hothers hdeliver
        exact (tlsDeliverAll_repeat hm hnext hskip (hdelivery.state.trans hnext) hrest).2 msg hmsg
    have hagain := recvs_again hm hf hq hnext htypes (List.nil_append msgs).symm
      (hastate.trans hstate) habuffer ⟨_, List.nil_append _⟩ hne hchunks h
    rw [hahandled] at hagain
    rw [List.length_cons] at hlength hhandled
    omega

/-- Frames of a flight with the outcome of the whole flight end inside messages. -/
theorem Pending.inside (hm : m.Regular) (hf : Flight b msgs) (hnonempty : [] ∉ chunks)
    (htodo : todo ≠ []) (ht : Todo m b x₀ msgs done todo x c')
    (hcount : c'.handled.length = x₀.handled.length + msgs.length)
    (hp : Pending m b done part x a d) (hchunks : part ++ chunks.flatten = flightBytes todo)
    (hdata : d ≤ (flightBytes done ++ part ++ chunks.headD []).length)
    (h : RecvsCryptoStream m (flightBytes done ++ part).length chunks a c') :
    ∀ front back, chunks = front ++ back → front ≠ [] → back ≠ [] →
      ∀ done' todo', msgs = done' ++ todo' → done' ≠ [] →
        flightBytes done ++ part ++ front.flatten ≠ flightBytes done' := by
  induction chunks generalizing done todo part x a d with
  | nil =>
    intro front back hfront hne
    exact absurd (List.append_eq_nil_iff.mp hfront.symm).1 hne
  | cons chunk chunks ih =>
    intro front back hfront hne hback done' todo' hsplit' hdone'
    obtain ⟨fuel, a₁, hrun, hrest⟩ := h
    obtain ⟨chunk', front, rfl⟩ := List.exists_cons_of_ne_nil hne
    rw [List.cons_append, List.cons.injEq] at hfront
    obtain ⟨rfl, hfront⟩ := hfront
    have hlast : chunks ≠ [] := by
      rw [hfront]
      exact List.append_ne_nil_of_right_ne_nil front hback
    rw [List.headD_cons] at hdata
    rw [List.flatten_cons, ← List.append_assoc] at hchunks
    obtain ⟨now, rest, part', rfl, hsplit, hnil, hpart⟩ := flightBytes_split hchunks
    have hall : flightBytes done ++ part ++ chunk = flightBytes (done ++ now) ++ part' := by
      rw [List.append_assoc, hsplit, flightBytes_append, List.append_assoc]
    have hmore : part' ++ chunks.flatten = flightBytes rest := by
      rw [hsplit, flightBytes_append, List.append_assoc] at hchunks
      exact List.append_cancel_left hchunks
    cases rest with
    | nil =>
      obtain ⟨other, others, rfl⟩ := List.exists_cons_of_ne_nil hlast
      rw [List.flatten_cons] at hmore
      have hother := (List.append_eq_nil_iff.mp (List.append_eq_nil_iff.mp hmore).2).1
      rw [hother] at hnonempty
      exact absurd (List.mem_cons_of_mem _ List.mem_cons_self) hnonempty
    | cons next more =>
      obtain ⟨hfront, hlt⟩ := hpart next more rfl
      obtain ⟨x₁, q, ht₁, hreading, hq, hskip, fuel', hrun'⟩ :=
        hp.call hm hf ht hsplit hfront hlt hdata
      obtain ⟨z, hdeliver⟩ := ht₁.deliver
      have hx₁ := isReading_of_tlsDeliverAll hdeliver
      have hflight : flightBytes done ++ part ++ chunk ++ chunks.flatten = flightBytes msgs := by
        rw [ht.split, flightBytes_append, ← hchunks]
        simp only [List.append_assoc]
      have hfits : (flightBytes done ++ part ++ chunk).length ≤ (flightBytes msgs).length :=
        List.IsPrefix.length_le ⟨_, hflight⟩
      cases recvCryptoFrame_unique (hf.room.mono hfits) hf.length (hfits.trans hf.limit) hdata
        (by rw [List.append_assoc, List.length_append]; omega) hp.buffer hp.state hrun hrun'
      have hstop : (flightBytes done ++ part).length + chunk.length =
          (flightBytes (done ++ now) ++ part').length := by
        rw [← List.length_append, hall]
      rw [hstop] at hrest
      have hinside : part' = [] → done ++ now = [] := by
        intro hempty
        by_contra hdone
        subst hempty
        rw [hq rfl, if_pos rfl, List.append_nil] at hrest
        rw [hall, List.append_nil] at hflight
        exact ht₁.not_restart hm hf hdone hcount hlast hflight hrest
      have hp₁ := pending_setState (b := b) hm hreading hx₁ hfront
        (fun hempty => ⟨hq hempty, hinside hempty⟩) hskip
      have hboundary := ih (fun h => hnonempty (List.mem_cons_of_mem _ h)) (List.cons_ne_nil _ _)
        ht₁ hp₁ hmore (Nat.zero_le _) hrest
      rw [List.flatten_cons, ← List.append_assoc, hall]
      cases front with
      | nil =>
        intro heq
        rw [List.flatten_nil, List.append_nil] at heq
        have hsame := ht₁.split.symm.trans hsplit'
        obtain ⟨hempty, rfl⟩ := flightBytes_inj hsame hlt heq
        exact hdone' (hinside hempty)
      | cons head front =>
        exact hboundary (head :: front) back hfront (List.cons_ne_nil _ _) hback done' todo'
          hsplit' hdone'

end Start

/-- The table of the client or that of the server. -/
def TlsMethod.IsEndpoint (m : TlsMethod τ) : Prop :=
  (∃ h, m.proc = clientProc h) ∨ ∃ h, m.proc = serverProc h

theorem TlsMethod.IsEndpoint.regular (h : m.IsEndpoint) : m.Regular := by
  rcases h with ⟨h, hproc⟩ | ⟨h, hproc⟩
  · exact clientProc_regular h hproc
  · exact serverProc_regular h hproc

/-- A connection has received a flight of one level in one frame, and each message was handled
once and in order. -/
structure RecvsWhole (m : TlsMethod τ) (msgs : List WireMessage) (c c' : TlsConn τ) : Prop where
  /-- The flight is not empty. -/
  nonempty : msgs ≠ []
  /-- The messages have one level. -/
  level : ∃ level, ∀ msg ∈ msgs, tlsMessageLevel msg.type.toNat = level
  /-- Nothing of the level was read before. -/
  offset : c.buffer.offset = 0
  /-- The memory has not outgrown its limit. -/
  length : c.buffer.length ≤ bufMemLimit
  /-- The flight can be stored. -/
  limit : (flightBytes msgs).length ≤ bufMemLimit
  /-- The frame is received. -/
  recvs : RecvsCryptoStream m 0 [flightBytes msgs] c c'
  /-- The messages are handled. -/
  once : c'.handled.map Prod.snd = c.handled.map Prod.snd ++ msgs.map WireMessage.bytes

section Frames

variable {msgs : List WireMessage} {c c' : TlsConn τ} {chunks : List (List UInt8)}

/-- The frames of a flight are there. -/
theorem RecvsWhole.chunks_ne_nil (h : RecvsWhole m msgs c c')
    (hchunks : chunks.flatten = flightBytes msgs) : chunks ≠ [] := by
  rintro rfl
  obtain ⟨msg, more, rfl⟩ := List.exists_cons_of_ne_nil h.nonempty
  have hlen := congrArg List.length hchunks
  rw [flightBytes_cons, List.length_append, WireMessage.bytes_length, List.flatten_nil,
    List.length_nil] at hlen
  omega

/-- The first frame is a part of the flight. -/
theorem RecvsWhole.dataLen_le (h : RecvsWhole m msgs c c')
    (hchunks : chunks.flatten = flightBytes msgs)
    (hdata : c.buffer.dataLen ≤ (chunks.headD []).length) :
    c.buffer.dataLen ≤ (flightBytes msgs).length := by
  obtain ⟨chunk, others, rfl⟩ := List.exists_cons_of_ne_nil (h.chunks_ne_nil hchunks)
  rw [← hchunks, List.flatten_cons, List.length_append]
  rw [List.headD_cons] at hdata
  omega

/-- Frames that end inside messages have the outcome of the whole flight. -/
theorem RecvsWhole.of_inside (hm : m.Regular) (h : RecvsWhole m msgs c c')
    (hchunks : chunks.flatten = flightBytes msgs)
    (hdata : c.buffer.dataLen ≤ (chunks.headD []).length) (hinside : FramesEndInside msgs chunks) :
    RecvsCryptoStream m 0 chunks c c' := by
  obtain ⟨level, hlevel⟩ := h.level
  obtain ⟨hf, x, ht, _, hp⟩ := start_of_whole hm hlevel h.nonempty h.offset h.length h.limit
    h.recvs h.once (h.dataLen_le hchunks hdata)
  refine hp.recvs hm hf (h.chunks_ne_nil hchunks) h.nonempty ht hchunks ?_ hdata
  intro front back hfront _ hback
  exact framesEndInside_iff.mp hinside front back hfront hback

/-- Frames with the outcome of the whole flight end inside messages. -/
theorem RecvsWhole.inside (hm : m.Regular) (h : RecvsWhole m msgs c c')
    (hchunks : chunks.flatten = flightBytes msgs)
    (hdata : c.buffer.dataLen ≤ (chunks.headD []).length) (hnonempty : [] ∉ chunks)
    (hrun : RecvsCryptoStream m 0 chunks c c') : FramesEndInside msgs chunks := by
  obtain ⟨level, hlevel⟩ := h.level
  obtain ⟨hf, x, ht, hx, hp⟩ := start_of_whole hm hlevel h.nonempty h.offset h.length h.limit
    h.recvs h.once (h.dataLen_le hchunks hdata)
  have hcount : c'.handled.length = x.handled.length + msgs.length := by
    have hlengths := congrArg List.length h.once
    rwa [List.length_append, List.length_map, List.length_map, List.length_map, ← hx] at hlengths
  refine framesEndInside_iff.mpr ?_
  intro front back hfront hback done todo hsplit hdone
  by_cases hempty : front = []
  · obtain ⟨msg, more, rfl⟩ := List.exists_cons_of_ne_nil hdone
    intro heq
    have hlen := congrArg List.length heq
    rw [hempty, flightBytes_cons, List.length_append, WireMessage.bytes_length,
      List.flatten_nil, List.length_nil] at hlen
    omega
  · exact hp.inside hm hf hnonempty h.nonempty ht hcount hchunks hdata hrun front back hfront
      hempty hback done todo hsplit hdone

/-- A flight that arrives in one frame is delivered. -/
theorem recvsCryptoStream_of_deliver (hm : m.Regular) {y : TlsConn τ}
    (hf : Flight c.buffer msgs) (hoffset : c.buffer.offset = 0)
    (hdata : c.buffer.dataLen ≤ (flightBytes msgs).length)
    (hreading : (m.proc c.handshakeState).isReading = true)
    (hdeliver : tlsDeliverAll m msgs (c.withBuffer (c.buffer.whole msgs)) = (.ok (), y))
    (hy : (m.proc y.handshakeState).isReading = true) :
    RecvsCryptoStream m 0 [flightBytes msgs] c
      (y.withBuffer { y.buffer with offset := 0, dataLen := 0 }) := by
  have hlimit : bufMemLimit < 2 ^ 31 := by decide
  have hflight := hf.limit
  have hbuffer : c.buffer = { c.buffer.filled [] with
      offset := 0, dataLen := c.buffer.dataLen } := by
    rw [← hoffset, QuicBuffer.filled_nil]
  have hstate : c.handshakeState ≠ .handshakeDone := by
    intro hdone
    rw [hdone, hm.done.2] at hreading
    cases hreading
  have hlen : (flightBytes msgs ++ []).length < 2 ^ 31 := by
    rw [List.append_nil]
    omega
  obtain ⟨t, hiff⟩ := TlsStep.ends_tlsDeliverAll (w := wPacketStaticBufInit wPacketBufMaxLen)
    hdeliver hlen [] 0
  rw [List.append_nil] at hiff
  have hends := hiff.mpr (TlsStep.ends_of_some (tlsHandshakeRound_nil hy))
  obtain ⟨fuel, hrun⟩ := (recvCryptoFrame_iff
    (show c.buffer.Room ([] ++ flightBytes msgs).length from hf.room) hf.length hflight hdata
    (Nat.zero_le _) hbuffer hstate).mpr ⟨_, _, _, hends,
      tlsHandshakeFinish_reset hm ⟨rfl, hy⟩ (.inr rfl), rfl⟩
  exact ⟨fuel, _, hrun, rfl⟩

end Frames

/-- Let a flight of one level be handled, each message once and in order, when it arrives in one
frame. In any other frames whose first one covers what the buffer has recorded, it has the same
outcome when no frame but the last ends with a message, and if the frames are not empty only
then. -/
theorem recvsCryptoStream_segmentation (hm : m.IsEndpoint) {msgs : List WireMessage}
    {c c' : TlsConn τ} (h : RecvsWhole m msgs c c') {chunks : List (List UInt8)}
    (hchunks : chunks.flatten = flightBytes msgs)
    (hdata : c.buffer.dataLen ≤ (chunks.headD []).length) :
    (FramesEndInside msgs chunks → RecvsCryptoStream m 0 chunks c c') ∧
      ([] ∉ chunks → RecvsCryptoStream m 0 chunks c c' → FramesEndInside msgs chunks) :=
  ⟨h.of_inside hm.regular hchunks hdata, h.inside hm.regular hchunks hdata⟩

/-- Handlers that accept every message. -/
def acceptingHandlers : ClientHandlers Unit where
  clientHelloBuild := pure ()
  clntFinishedBuild := pure ()
  serverHelloProc := fun _ => pure ()
  encExtProc := fun _ => pure ()
  serverCertProc := fun _ => pure ()
  certVerifyProc := fun _ => pure ()
  clientFinishedProc := fun _ => pure ()
  clntNewSessionTicketProc := fun _ => pure ()
  clientEncExtPostWork := pure ()
  clientFinishedPostWork := pure ()
  hit := fun _ => false

/-- A client with these handlers. -/
def acceptingClient : TlsMethod Unit where
  proc := clientProc acceptingHandlers
  takeMac := pure ()
  finishMac := fun _ => pure ()
  cryptoFrameBuild := fun _ _ => pure ()
  handshakeDoneFrameBuild := fun _ => pure ()

/-- A client behind a ServerHello. -/
def acceptingConn : TlsConn Unit where
  handshakeState := .crEncryptedExtensions
  buffer := quicBufInit tlsMessageMaxLen
  host := ()
  handled := []

/-- EncryptedExtensions without extensions and a CertificateRequest. -/
def acceptedFlight : List WireMessage :=
  [⟨8, [0, 0], by decide⟩, ⟨13, [0, 0, 0], by decide⟩]

/-- The client handles the flight when it arrives in one frame. -/
theorem acceptingConn_whole :
    ∃ c', RecvsWhole acceptingClient acceptedFlight acceptingConn c' := by
  have hm : acceptingClient.Regular := clientProc_regular acceptingHandlers rfl
  have hlength : acceptingConn.buffer.length = tlsMessageMaxLen := List.length_replicate
  have hflight : (flightBytes acceptedFlight).length = 13 := by decide
  have hlevel : ∀ msg ∈ acceptedFlight, tlsMessageLevel msg.type.toNat = quicPktTypeHandshake := by
    decide
  have hfits : acceptingConn.buffer.length ≤ bufMemLimit := by
    rw [hlength]
    decide
  have hlimit : (flightBytes acceptedFlight).length ≤ bufMemLimit := by
    rw [hflight]
    decide
  have hroom : acceptingConn.buffer.Room (flightBytes acceptedFlight).length := by
    rw [QuicBuffer.Room, hlength, hflight]
    decide
  have hfirst (b : QuicBuffer) : tlsDeliver acceptingClient ⟨8, [0, 0], by decide⟩
      (acceptingConn.withBuffer b) = (.ok (), ⟨.crCertRequest, b, (),
        [(.crEncryptedExtensions, WireMessage.bytes ⟨8, [0, 0], by decide⟩)]⟩) :=
    tlsDeliver_iff.mpr ⟨.crEncryptedExtensions, rfl, rfl,
      ⟨(), (), _, ⟨(), b.reserved⟩, rfl, rfl, rfl, rfl, rfl, rfl⟩, rfl, rfl⟩
  have hsecond (b : QuicBuffer) (handled : List (TlsState × List UInt8)) :
      tlsDeliver acceptingClient ⟨13, [0, 0, 0], by decide⟩ ⟨.crCertRequest, b, (), handled⟩ =
        (.ok (), ⟨.crServerCertificate, b, (),
          handled ++ [(.crCertRequest, WireMessage.bytes ⟨13, [0, 0, 0], by decide⟩)]⟩) :=
    tlsDeliver_iff.mpr ⟨.crCertRequest, rfl, rfl,
      ⟨(), (), _, ⟨(), b.reserved⟩, rfl, rfl, rfl, rfl, rfl, rfl⟩, rfl, rfl⟩
  let y : TlsConn Unit := ⟨.crServerCertificate, acceptingConn.buffer.whole acceptedFlight, (),
    [(.crEncryptedExtensions, WireMessage.bytes ⟨8, [0, 0], by decide⟩),
      (.crCertRequest, WireMessage.bytes ⟨13, [0, 0, 0], by decide⟩)]⟩
  have hdeliver : tlsDeliverAll acceptingClient acceptedFlight
      (acceptingConn.withBuffer (acceptingConn.buffer.whole acceptedFlight)) = (.ok (), y) := by
    rw [acceptedFlight, tlsDeliverAll, Prog.bind_of_ok (hfirst _), tlsDeliverAll,
      Prog.bind_of_ok (hsecond _ _)]
    rfl
  have hrun := recvsCryptoStream_of_deliver hm ⟨hroom, hfits, hlimit, _, hlevel⟩ rfl
    (Nat.zero_le _) rfl hdeliver rfl
  exact ⟨_, List.cons_ne_nil _ _, ⟨_, hlevel⟩, rfl, hfits, hlimit, hrun, rfl⟩

/-- The outcome is another one when each message of the flight arrives in a frame of its own. -/
theorem acceptingConn_boundary :
    ∃ c', RecvsWhole acceptingClient acceptedFlight acceptingConn c' ∧
      ¬ RecvsCryptoStream acceptingClient 0 (acceptedFlight.map WireMessage.bytes)
        acceptingConn c' := by
  obtain ⟨c', h⟩ := acceptingConn_whole
  have hm : acceptingClient.Regular := clientProc_regular acceptingHandlers rfl
  refine ⟨c', h, fun hrun => ?_⟩
  exact absurd (h.inside hm rfl (Nat.zero_le _) (by decide) hrun) (by decide)

/-- The flight can be cut inside its messages. -/
theorem recvsCryptoStream_segmentation_inside :
    ∃ c', RecvsWhole acceptingClient acceptedFlight acceptingConn c' ∧
      RecvsCryptoStream acceptingClient 0
        [[8, 0], [0, 2, 0, 0, 13, 0], [0, 3, 0, 0, 0]] acceptingConn c' := by
  obtain ⟨c', h⟩ := acceptingConn_whole
  have hchunks : [[8, 0], [0, 2, 0, 0, 13, 0], [0, 3, 0, 0, 0]].flatten =
      flightBytes acceptedFlight := by decide
  exact ⟨c', h,
    (recvsCryptoStream_segmentation (.inl ⟨_, rfl⟩) h hchunks (Nat.zero_le _)).1 (by decide)⟩

end Tbquic
