import Tbquic.Packet

/-!
# Send buffers

A `QBUFF` holds the frames of one packet before it is protected.
-/

namespace Tbquic

/-- `QBUFF`. The bytes in use never exceed the buffer. -/
structure QBuff where
  /-- The number of the packet that carries the buffer. -/
  pktNum : ℕ
  /-- `QBUFF_FLAGS_STREAM_FIN` and `QBUFF_FLAGS_STREAM_RESET`. -/
  flags : ℕ
  /-- The stream whose bytes the buffer carries, or `-1`. -/
  streamId : ℤ
  /-- The packet type. -/
  pktType : ℕ
  /-- The bytes in use, `data_len` many. -/
  data : List UInt8
  /-- The size of the buffer. -/
  buffLen : ℕ
  /-- The stream bytes the buffer accounts for. -/
  streamLen : ℕ
  /-- The bytes in use fit in the buffer. -/
  fits : data.length ≤ buffLen

/-- `QBuffNew` for a packet type that it knows. -/
def qBuffNew (pktType len : ℕ) : QBuff where
  pktNum := 0
  flags := 0
  streamId := -1
  pktType := pktType
  data := []
  buffLen := len
  streamLen := 0
  fits := Nat.zero_le _

namespace QBuff

/-- `QBuffGetDataLen`. -/
def dataLen (qb : QBuff) : ℕ := qb.data.length

/-- `QBuffSpace`. The assertion of the source holds by construction. -/
def space (qb : QBuff) : ℕ := qb.buffLen - qb.dataLen

/-- Bytes for which there is room are put behind those in use. -/
def extend (qb : QBuff) (bytes : List UInt8) (h : qb.data.length + bytes.length ≤ qb.buffLen) :
    QBuff :=
  { qb with
    data := qb.data ++ bytes
    fits := by rw [List.length_append]; exact h }

/-- Behind its build a buffer is the same, with PADDING frames behind its bytes and the number of
its packet. -/
def SentAs (qb sent : QBuff) : Prop :=
  ∃ n h, sent = { qb.extend (List.replicate n 0) h with pktNum := sent.pktNum }

/-- A buffer without padding. -/
theorem extend_zero (qb : QBuff) (h : qb.data.length + (List.replicate 0 0).length ≤ qb.buffLen) :
    qb.extend (List.replicate 0 0) h = qb := by
  cases qb
  simp only [extend, List.replicate_zero, List.append_nil]

end QBuff

end Tbquic
