import Tbquic.Crypto
import Tbquic.QBuff

/-!
# Filling and queueing buffers

The builders write frames into a `QBUFF` through a writer. A buffer without much space is
queued and a new one started.
-/

namespace Tbquic

/-- `QUIC_DATAGRAM_SIZE_MAX`. -/
def quicDatagramSizeMax : ℕ := 65507

/-- `QUIC_PKT_TYPE_INITIAL`. -/
def quicPktTypeInitial : ℕ := 0

/-- `QUIC_PKT_TYPE_HANDSHAKE`. -/
def quicPktTypeHandshake : ℕ := 2

/-- `QUIC_PKT_TYPE_1RTT`. -/
def quicPktType1Rtt : ℕ := 4

/-- `QUIC_PKT_TYPE_MAX`. -/
def quicPktTypeMax : ℕ := 5

/-- `QuicSPacketGetTotalLen`. -/
def quicSPacketLen (dcidLen pktNumLen alg dataLen : ℕ) : Except Fail ℕ := do
  let cipherLen ← quicCipherLenGet alg dataLen
  .ok (1 + (1 + dcidLen) + cipherLen + (pktNumLen + 1))

/-- The end of `QuicFrameGetBuffLen`, with the length of a packet whose payload fills a datagram.
The subtractions are those of `size_t`. -/
def quicFrameBuffLen (mss total : ℕ) : Except Fail ℕ := do
  let headTailLen : ℕ := (((total : ℤ) - mss) % 2 ^ 64).toNat
  let bufLen : ℕ := (((mss : ℤ) - headTailLen) % 2 ^ 64).toNat
  if quicGt bufLen 0 then .ok bufLen else .error .assert

/-- A queue of buffers, the buffer being filled and the writer over its bytes. -/
structure QBuffFill where
  /-- `tx_queue`, the oldest buffer first. -/
  txQueue : List QBuff
  /-- The writer. -/
  pkt : WPacket
  /-- The buffer. -/
  qb : QBuff

/-- `QBuffSetDataLen` on the bytes that were written into the buffer. -/
def qBuffSetData (qb : QBuff) (buf : List UInt8) : Except Fail QBuff :=
  if quicLt qb.buffLen buf.length then .error .ret
  else if h : buf.length ≤ qb.buffLen then .ok { qb with data := buf, fits := h }
  else .error .ub

namespace QBuffFill

/-- `QuicFrameBufferNew`. -/
def bufferNew (pktType bufLen : ℕ) (s : QBuffFill) : QBuffFill :=
  { s with pkt := wPacketStaticBufInit bufLen, qb := qBuffNew pktType bufLen }

/-- Run an operation on the writer. -/
def onPkt {α : Type} (m : Prog Fail WPacket α) : Prog Fail QBuffFill α :=
  Prog.zoom QBuffFill.pkt (fun pkt s => { s with pkt }) m

end QBuffFill

/-- `QuicFrameAddQueue`. -/
def quicFrameAddQueue : Prog Fail QBuffFill Unit := do
  let s ← Prog.get
  Prog.ensure .ret (s.pkt.written ≠ 0)
  let qb ← Prog.ofExcept (qBuffSetData s.qb s.pkt.buf)
  Prog.modify fun s => { s with txQueue := s.txQueue ++ [qb] }

/-- `QuicBuffQueueAndNext`. -/
def quicBuffQueueAndNext (pktType bufLen maxHlen : ℕ) : Prog Fail QBuffFill Unit := do
  let s ← Prog.get
  if quicGt s.pkt.space maxHlen then pure ()
  else do
    quicFrameAddQueue
    Prog.modify (QBuffFill.bufferNew pktType bufLen)

/-- The end of a builder: queue a buffer that is not empty. -/
def quicFrameFlush : Prog Fail QBuffFill Unit := do
  let s ← Prog.get
  if s.pkt.written ≠ 0 then quicFrameAddQueue else pure ()

/-- A ciphertext is not much longer than its plaintext. -/
theorem quicCipherLenGet_le {alg plaintextLen cipherLen : ℕ}
    (h : quicCipherLenGet alg plaintextLen = .ok cipherLen) : cipherLen ≤ plaintextLen + 16 := by
  unfold quicCipherLenGet at h
  split at h
  · rw [Except.ok.injEq] at h
    omega
  · rename_i suite hsuite
    have hmem : suite ∈ cipherSuite := List.mem_of_getElem? hsuite
    simp only [cipherSuite, List.replicate, List.cons_append, List.nil_append, List.mem_cons,
      List.not_mem_nil, or_false] at hmem
    rcases hmem with rfl | rfl | rfl | rfl | rfl | rfl | rfl | rfl | rfl | rfl | rfl | rfl <;>
      simp [quicAesEcbGetCipherLen, quicAesGcmGetCipherLen] at h <;> omega

/-- The buffers of a packet are not much larger than a datagram. -/
theorem quicFrameBuffLen_lt {mss total bufLen : ℕ} (hmss : mss ≤ quicDatagramSizeMax)
    (htotal : total < 2 ^ 30) (h : quicFrameBuffLen mss total = .ok bufLen) :
    bufLen < 2 ^ 30 := by
  unfold quicDatagramSizeMax at hmss
  unfold quicFrameBuffLen at h
  dsimp only at h
  split at h
  · rename_i hgt
    rw [Except.ok.injEq] at h
    rw [h, quicGt_iff_mod] at hgt
    omega
  · cases h

section Spec

variable {s : QBuffFill} {pktType bufLen maxHlen : ℕ}

/-- The bytes written are recorded in a buffer that is large enough. -/
theorem qBuffSetData_of_le {qb : QBuff} {buf : List UInt8} (h : buf.length ≤ qb.buffLen)
    (hmax : qb.buffLen < 2 ^ 31) :
    qBuffSetData qb buf = .ok { qb with data := buf, fits := h } := by
  have hcheck : ¬ quicLt qb.buffLen buf.length := by
    rw [quicLt_iff] <;> omega
  rw [qBuffSetData, if_neg hcheck, dif_pos h]

/-- A buffer with bytes is queued. -/
theorem quicFrameAddQueue_of_ne (hbuf : s.pkt.maxsize = s.qb.buffLen)
    (hmax : s.qb.buffLen < 2 ^ 31) (hne : s.pkt.written ≠ 0) :
    ∃ qb, quicFrameAddQueue s = (.ok (), { s with txQueue := s.txQueue ++ [qb] }) ∧
      qb.data = s.pkt.buf ∧ qb.pktType = s.qb.pktType ∧ qb.streamId = s.qb.streamId ∧
      qb.streamLen = s.qb.streamLen := by
  have hfits : s.pkt.buf.length ≤ s.qb.buffLen := hbuf ▸ s.pkt.fits
  refine ⟨{ s.qb with data := s.pkt.buf, fits := hfits }, ?_, rfl, rfl, rfl, rfl⟩
  rw [quicFrameAddQueue, Prog.get_bind, Prog.ensure_of_pos hne, Prog.pure_bind,
    qBuffSetData_of_le hfits hmax, Prog.ofExcept_ok, Prog.pure_bind]
  rfl

/-- An empty buffer is not queued. -/
theorem quicFrameAddQueue_of_eq (h : s.pkt.written = 0) :
    quicFrameAddQueue s = (.error .ret, s) := by
  rw [quicFrameAddQueue, Prog.get_bind, Prog.ensure_of_neg (by simp [h]), Prog.fail_bind]
  rfl

/-- A buffer with enough space is kept. -/
theorem quicBuffQueueAndNext_of_space (hmax : s.pkt.maxsize < 2 ^ 30) (hhlen : maxHlen < 2 ^ 30)
    (h : maxHlen < s.pkt.maxsize - s.pkt.written) :
    quicBuffQueueAndNext pktType bufLen maxHlen s = (.ok (), s) := by
  have hcheck : quicGt s.pkt.space maxHlen := by
    rw [s.pkt.space_eq (by omega), quicGt_iff] <;> omega
  rw [quicBuffQueueAndNext, Prog.get_bind, if_pos hcheck]
  rfl

/-- Without enough space the buffer has to be queued. -/
theorem quicBuffQueueAndNext_of_full (hmax : s.pkt.maxsize < 2 ^ 30) (hhlen : maxHlen < 2 ^ 30)
    (h : s.pkt.maxsize - s.pkt.written ≤ maxHlen) :
    quicBuffQueueAndNext pktType bufLen maxHlen s =
      (quicFrameAddQueue >>= fun _ => Prog.modify (QBuffFill.bufferNew pktType bufLen)) s := by
  have hcheck : ¬ quicGt s.pkt.space maxHlen := by
    rw [s.pkt.space_eq (by omega), quicGt_iff] <;> omega
  rw [quicBuffQueueAndNext, Prog.get_bind, if_neg hcheck]

end Spec

end Tbquic
