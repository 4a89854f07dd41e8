import Tbquic.Frame.Crypto
import Tbquic.Tls.Delivery

/-!
# CRYPTO frames and the handshake

`QuicFrameDoParser` goes on with the handshake behind a packet with a CRYPTO frame. A stream of
messages arrives here in frames that follow each other, with one packet for each of them.
-/

namespace Tbquic

variable {τ : Type} {m : TlsMethod τ}

/-- The part of `QuicFrameDoParser` behind a packet with a CRYPTO frame. -/
def cryptoFoundHandshake (m : TlsMethod τ) (fuel : ℕ) : Prog Fail (TlsConn τ) Unit := do
  let c ← Prog.get
  if c.handshakeState = .handshakeDone then pure ()
  else do
    let _ ← tlsHandshake m fuel
    pure ()

/-- Run a parser on the packet and the buffer. -/
def onCrypto (p : Prog Fail (RPacket × QuicBuffer) Unit) : Prog Fail (RPacket × TlsConn τ) Unit :=
  Prog.zoom (fun s => (s.1, s.2.buffer)) (fun r s => (r.1, s.2.withBuffer r.2)) p

/-- The handlers of packets that contain CRYPTO frames only. Acknowledgements are not part of
this model. -/
def handshakeHandlers (m : TlsMethod τ) (fuel : ℕ) : FrameHandlers (RPacket × TlsConn τ) where
  pkt := Prod.fst
  setPkt := fun pkt s => (pkt, s.2)
  setPkt_pkt := fun _ => rfl
  parser := fun type =>
    if type = quicFrameTypeCrypto then some (onCrypto quicFrameCryptoParser) else none
  ackFrameBuild := pure ()
  cryptoFound := Prog.onSnd (cryptoFoundHandshake m fuel)

/-- `QuicFrameDoParser` with a packet of one CRYPTO frame. -/
def recvCryptoFrame (m : TlsMethod τ) (fuel : ℕ) (s : Segment UInt8) :
    Prog Fail (TlsConn τ) Unit := fun c =>
  let r := quicFrameDoParser (handshakeHandlers m fuel) (rPacketBufInit (cryptoFrameBytes s), c)
  (r.1, r.2.2)

/-- A stream arrives in frames that follow each other, the first one at an offset, with enough
rounds for each call. -/
def RecvsCryptoStream (m : TlsMethod τ) : ℕ → List (List UInt8) → TlsConn τ → TlsConn τ → Prop
  | _, [], c, c' => c' = c
  | offset, chunk :: chunks, c, c' =>
    ∃ fuel c₁, recvCryptoFrame m fuel { offset, data := chunk } c = (.ok (), c₁) ∧
      RecvsCryptoStream m (offset + chunk.length) chunks c₁ c'

section Frame

variable {c c' : TlsConn τ} {s : Segment UInt8} {fuel : ℕ}

/-- The sizes of a frame and of a buffer in which the memory of a frame is ordinary. -/
structure OrdinaryFrame (b : QuicBuffer) (s : Segment UInt8) : Prop where
  /-- The bytes of the frame fit in an `int`. -/
  bytes : (cryptoFrameBytes s).length < 2 ^ 31
  /-- The frame ends in front of the limit of the memory. -/
  stop : s.stop ≤ bufMemLimit
  /-- The memory has not outgrown its limit. -/
  length : b.length ≤ bufMemLimit
  /-- The recorded length fits in an `int`. -/
  dataLen : b.dataLen < 2 ^ 31

/-- The bytes of a frame behind its type. -/
theorem cryptoFrameBytes_pos (s : Segment UInt8) : 0 < (cryptoFrameBytes s).length := by
  have hlen := varLengthBytes_length quicFrameTypeCrypto
  have hsize := (varLengthSize_bounds quicFrameTypeCrypto).1
  rw [cryptoFrameBytes, List.length_append]
  omega

/-- The first round of the loop over the frames. -/
theorem quicFrameLoop_handshake (k : ℕ) (hbytes : (cryptoFrameBytes s).length < 2 ^ 31) :
    quicFrameLoop (handshakeHandlers m fuel) (k + 1) ⟨false, false⟩
        (rPacketBufInit (cryptoFrameBytes s), c) =
      (onCrypto quicFrameCryptoParser >>= fun _ =>
        quicFrameLoop (handshakeHandlers m fuel) k ⟨true, true⟩)
        ({ past := varLengthBytes quicFrameTypeCrypto,
           rest := varLengthBytes s.offset ++ (varLengthBytes s.data.length ++ s.data) }, c) :=
  quicFrameLoop_type (handshakeHandlers m fuel) rfl hbytes (by decide) (by decide) rfl

/-- The parser in the loop. -/
theorem onCrypto_eq {p : Prog Fail (RPacket × QuicBuffer) Unit} {pkt pkt' : RPacket}
    {b : QuicBuffer} {r : Except Fail Unit} (h : p (pkt, c.buffer) = (r, (pkt', b))) :
    onCrypto p (pkt, c) = (r, (pkt', c.withBuffer b)) := by
  rw [onCrypto, Prog.zoom_apply, h]

/-- A frame that is received makes the handshake go on. -/
theorem recvCryptoFrame_of_ok {b : QuicBuffer} {past : List UInt8}
    (hbytes : (cryptoFrameBytes s).length < 2 ^ 31)
    (hparser : quicFrameCryptoParser (⟨varLengthBytes quicFrameTypeCrypto,
      varLengthBytes s.offset ++ (varLengthBytes s.data.length ++ s.data)⟩, c.buffer) =
      (.ok (), ({ past, rest := [] }, b))) :
    recvCryptoFrame m fuel s c = cryptoFoundHandshake m fuel (c.withBuffer b) := by
  obtain ⟨k, hk⟩ : ∃ k, (cryptoFrameBytes s).length = k + 1 :=
    ⟨_, (Nat.succ_pred_eq_of_pos (cryptoFrameBytes_pos s)).symm⟩
  have hloop : quicFrameLoop (handshakeHandlers m fuel)
      (((handshakeHandlers m fuel).pkt (rPacketBufInit (cryptoFrameBytes s), c)).remaining + 1)
      ⟨false, false⟩ (rPacketBufInit (cryptoFrameBytes s), c) =
      (.ok ⟨true, true⟩, ({ past, rest := [] }, c.withBuffer b)) := by
    rw [quicFrameLoop_handshake _ hbytes, Prog.bind_of_ok (onCrypto_eq hparser)]
    change quicFrameLoop _ (cryptoFrameBytes s).length _ _ = _
    rw [hk]
    exact quicFrameLoop_nil _ rfl
  rw [recvCryptoFrame, quicFrameDoParser, Prog.get_bind, Prog.bind_of_ok hloop,
    Prog.bind_of_ok (acknowledge_of_pure _ rfl _ _), continueHandshake,
    if_pos rfl]
  rfl

/-- A frame that is not received ends the packet. -/
theorem recvCryptoFrame_of_error {e : Fail} {t : RPacket × QuicBuffer}
    (hbytes : (cryptoFrameBytes s).length < 2 ^ 31)
    (hparser : quicFrameCryptoParser (⟨varLengthBytes quicFrameTypeCrypto,
      varLengthBytes s.offset ++ (varLengthBytes s.data.length ++ s.data)⟩, c.buffer) =
      (.error e, t)) :
    (recvCryptoFrame m fuel s c).1 = .error e := by
  have hloop : quicFrameLoop (handshakeHandlers m fuel)
      (((handshakeHandlers m fuel).pkt (rPacketBufInit (cryptoFrameBytes s), c)).remaining + 1)
      ⟨false, false⟩ (rPacketBufInit (cryptoFrameBytes s), c) =
      (.error e, (t.1, c.withBuffer t.2)) := by
    rw [quicFrameLoop_handshake _ hbytes, Prog.bind_of_error (onCrypto_eq hparser)]
  rw [recvCryptoFrame, quicFrameDoParser, Prog.get_bind, Prog.bind_of_error hloop]

/-- A frame that has room in the memory is received. -/
theorem recvCryptoFrame_receive (h : OrdinaryFrame c.buffer s)
    (hroom : c.buffer.reserved + s.stop ≤ max c.buffer.length s.stop) :
    recvCryptoFrame m fuel s c =
      cryptoFoundHandshake m fuel (c.withBuffer (c.buffer.receive s)) := by
  have hbody : (varLengthBytes s.offset ++ (varLengthBytes s.data.length ++ s.data)).length <
      2 ^ 31 := by
    have hbytes := h.bytes
    rw [cryptoFrameBytes, List.length_append] at hbytes
    omega
  have hparser := quicFrameCryptoParser_append (b := c.buffer) (s := s)
    (varLengthBytes quicFrameTypeCrypto) []
    (by rw [List.append_nil]; exact hbody) h.stop h.length h.dataLen (.inr hroom)
  rw [List.append_nil] at hparser
  obtain ⟨past, hparser⟩ := hparser
  exact recvCryptoFrame_of_ok h.bytes hparser

/-- A frame that is received had room in the memory. -/
theorem recvCryptoFrame_room (h : OrdinaryFrame c.buffer s) (hdata : s.data ≠ [])
    (hrun : recvCryptoFrame m fuel s c = (.ok (), c')) :
    c.buffer.reserved + s.stop ≤ max c.buffer.length s.stop := by
  by_contra hroom
  have hbody : (varLengthBytes s.offset ++ (varLengthBytes s.data.length ++ s.data)).length <
      2 ^ 31 := by
    have hbytes := h.bytes
    rw [cryptoFrameBytes, List.length_append] at hbytes
    omega
  have hparser := quicFrameCryptoParser_overflow (b := c.buffer) (s := s)
    (varLengthBytes quicFrameTypeCrypto) []
    (by rw [List.append_nil]; exact hbody) h.stop h.length (not_or.mpr ⟨hdata, hroom⟩)
  rw [List.append_nil] at hparser
  obtain ⟨t, hparser⟩ := hparser
  have herror : (recvCryptoFrame m fuel s c).1 = .error .ub :=
    recvCryptoFrame_of_error h.bytes hparser
  rw [hrun] at herror
  cases herror

end Frame

namespace QuicBuffer

variable {b : QuicBuffer} {bytes xs ys : List UInt8}

/-- The buffer with bytes behind those in front of the messages. -/
def filled (b : QuicBuffer) (bytes : List UInt8) : QuicBuffer :=
  b.receive { offset := 0, data := bytes }

/-- The bytes have room in the memory or make it grow. -/
def Room (b : QuicBuffer) (count : ℕ) : Prop := b.reserved + count ≤ max b.length count

/-- A buffer that is filled with nothing stays. -/
theorem filled_nil : { b.filled [] with offset := b.offset, dataLen := b.dataLen } = b := by
  simp [filled, receive, Segment.stop, Segment.len]

/-- Fewer bytes have room too. -/
theorem Room.mono {count less : ℕ} (h : b.Room count) (hle : less ≤ count) : b.Room less := by
  unfold Room at h ⊢
  omega

/-- The memory of a filled buffer. -/
theorem filled_mem (h : b.Room bytes.length) :
    (b.mem.take b.reserved).length = b.reserved ∧
      ∃ tail, (b.filled bytes).mem = b.mem.take b.reserved ++ bytes ++ tail := by
  have hplace : b.reserved + (⟨0, bytes⟩ : Segment UInt8).offset = b.reserved := rfl
  have hstop : (⟨0, bytes⟩ : Segment UInt8).stop = bytes.length := Nat.zero_add _
  unfold Room length at h
  have htake : (b.mem.take b.reserved).length = b.reserved := by
    rw [List.length_take]
    omega
  refine ⟨htake, (b.mem ++ List.replicate (bytes.length - b.mem.length) 0).drop
    (b.reserved + bytes.length), ?_⟩
  unfold filled receive length
  simp only [hplace, hstop]
  generalize hM : b.mem ++ List.replicate (bytes.length - b.mem.length) (0 : UInt8) = M
  have hlen : M.length = b.mem.length + (bytes.length - b.mem.length) := by
    rw [← hM, List.length_append, List.length_replicate]
  have hhead : M.take b.reserved = b.mem.take b.reserved := by
    rw [← hM, List.take_append_of_le_length (by omega)]
  have hsplit : M = b.mem.take b.reserved ++ (M.drop b.reserved).take bytes.length ++
      M.drop (b.reserved + bytes.length) := by
    rw [← hhead, List.append_assoc, ← List.drop_drop, List.take_append_drop,
      List.take_append_drop]
  have hstretch : bytes.length = ((M.drop b.reserved).take bytes.length).length := by
    rw [List.length_take, List.length_drop]
    omega
  have hwrite : Bytes.overwrite (b.mem.take b.reserved ++ _ ++ _) (b.mem.take b.reserved).length
      bytes = _ :=
    Bytes.overwrite_append (M.drop (b.reserved + bytes.length)) hstretch
  rw [← hsplit, htake] at hwrite
  exact hwrite

/-- The size of the memory of a filled buffer. -/
theorem filled_length : (b.filled bytes).length = max b.length bytes.length := by
  rw [filled, receive_length, Segment.stop, Segment.len, Nat.zero_add]

/-- The start of the memory of a filled buffer. -/
theorem filled_head (h : b.Room bytes.length) {count : ℕ} (hcount : count ≤ bytes.length) :
    (b.filled bytes).mem.take (b.reserved + count) =
      b.mem.take b.reserved ++ bytes.take count := by
  obtain ⟨htake, tail, hmem⟩ := filled_mem h
  rw [hmem, List.append_assoc, List.take_append, htake, Nat.add_sub_cancel_left,
    List.take_append_of_le_length hcount, List.take_of_length_le (by omega)]

/-- The messages of a filled buffer. -/
theorem filled_data (h : b.Room bytes.length) : bytes <+: (b.filled bytes).data := by
  obtain ⟨htake, tail, hmem⟩ := filled_mem h
  have hreserved : (b.filled bytes).reserved = b.reserved := rfl
  refine ⟨tail, ?_⟩
  rw [data, hreserved, hmem, List.append_assoc, List.drop_left' htake]

/-- The messages to read behind an offset. -/
theorem filled_input (h : b.Room bytes.length) {offset : ℕ} (hoffset : offset ≤ bytes.length)
    (hlen : bytes.length < 2 ^ 64) :
    input { b.filled bytes with offset, dataLen := bytes.length } =
      { past := [], rest := bytes.drop offset, beyond := 0 } := by
  obtain ⟨tail, htail⟩ := filled_data h
  have hlength : (((bytes.length : ℤ) - offset) % 2 ^ 64).toNat = bytes.length - offset := by
    omega
  have hmsg : msg { b.filled bytes with offset, dataLen := bytes.length } =
      bytes.drop offset ++ tail := by
    have hdata : data { b.filled bytes with offset, dataLen := bytes.length } =
        (b.filled bytes).data := rfl
    rw [msg, hdata, ← htail, List.drop_append_of_le_length hoffset]
  unfold input
  simp only [hlength, hmsg]
  rw [List.take_left' List.length_drop, List.length_append, List.length_drop]
  simp

/-- A buffer is filled step by step. -/
theorem filled_receive (h : b.Room (xs ++ ys).length) (offset dataLen : ℕ) :
    receive { b.filled xs with offset, dataLen } { offset := xs.length, data := ys } =
      { b.filled (xs ++ ys) with offset, dataLen := max dataLen (xs.length + ys.length) } := by
  have hxs : b.Room xs.length := h.mono (by rw [List.length_append]; omega)
  have hlen : (xs ++ ys).length = xs.length + ys.length := List.length_append
  have hzeros : b.mem ++ List.replicate ((xs ++ ys).length - b.length) (0 : UInt8) =
      b.mem ++ List.replicate (xs.length - b.length) 0 ++
        List.replicate (xs.length + ys.length - max b.length xs.length) 0 := by
    rw [List.append_assoc, List.replicate_append_replicate]
    congr 2
    omega
  have hfirst : (b.filled xs).length = max b.length xs.length := filled_length
  have hwrite : (b.filled xs).mem ++
      List.replicate (xs.length + ys.length - (b.filled xs).length) 0 =
      Bytes.overwrite (b.mem ++ List.replicate ((xs ++ ys).length - b.length) 0) b.reserved xs := by
    have hfits : b.reserved + xs.length ≤
        (b.mem ++ List.replicate (xs.length - b.length) (0 : UInt8)).length := by
      rw [List.length_append, List.length_replicate]
      unfold Room length at hxs
      unfold length
      omega
    rw [hfirst, hzeros]
    simp only [filled, receive, Segment.stop, Segment.len, Nat.zero_add, Nat.add_zero]
    exact (Bytes.overwrite_append_right _ hfits).symm
  unfold receive
  simp only [Segment.stop, Segment.len]
  have hlength : length { b.filled xs with offset, dataLen } = (b.filled xs).length := rfl
  have hreserved : (b.filled xs).reserved = b.reserved := rfl
  rw [hlength, hwrite, hreserved, Bytes.overwrite_overwrite]
  simp only [filled, receive, Segment.stop, Segment.len, Nat.zero_add, Nat.add_zero]

end QuicBuffer

end Tbquic
