import Tbquic.Frame.StreamBuild

/-!
# Buffers as lists of frames

An account of `QuicStreamFrameBuild` in which a buffer is the list of its frames and only
sizes are computed. The routines of the source follow it on vectors whose data is not longer
than `2 ^ 31` bytes, where their comparisons are those of numbers.
-/

namespace Tbquic

/-- A buffer while it is filled. -/
structure Draft where
  /-- The frames. -/
  pieces : List Piece
  /-- The stream that the buffer is recorded for. -/
  streamId : ℤ
  /-- The number of stream bytes that the buffer is recorded for. -/
  streamLen : ℕ
  deriving DecidableEq, Repr

namespace Draft

/-- A new buffer. -/
def empty : Draft := { pieces := [], streamId := -1, streamLen := 0 }

/-- The bytes of a buffer. -/
def bytes (d : Draft) : List UInt8 := d.pieces.flatMap Piece.bytes

/-- The number of bytes of a buffer. -/
def size (d : Draft) : ℕ := d.bytes.length

/-- The buffer with one more STREAM frame, recorded for its stream. -/
def add (handle : ℤ) (p : StreamPiece) (d : Draft) : Draft where
  pieces := d.pieces ++ [.stream p]
  streamId := handle
  streamLen := d.streamLen + p.data.length

/-- A buffer of the queue has the bytes and the records of a draft. -/
def Is (d : Draft) (qb : QBuff) : Prop :=
  qb.data = d.bytes ∧ qb.streamId = d.streamId ∧ qb.streamLen = d.streamLen

end Draft

/-- The buffers of one call: those queued and the one being filled. -/
structure Batch where
  /-- The buffers queued, the oldest first. -/
  queued : List Draft
  /-- The buffer being filled. -/
  cur : Draft
  deriving DecidableEq, Repr

/-- The number of bytes of a frame in front of its length and its data. -/
def streamHeaderSize (id offset : ℕ) : ℕ :=
  1 + varLengthSize id + if offset ≠ 0 then varLengthSize offset else 0

/-- The number of bytes of data that a frame takes when `room` bytes are left behind its
header. -/
def fragmentLen (last : Bool) (room len : ℕ) : Option ℕ :=
  if last then some (min room len) else subMemcpyLen room len

/-- The frame with the first `n` bytes of some data. -/
def fragment (id offset : ℕ) (last : Bool) (data : List UInt8) (n : ℕ) : StreamPiece where
  hasLen := !last
  fin := false
  id := id
  offset := offset
  data := data.take n

namespace Batch

/-- A buffer with little space is queued and a new one started. The space of the new buffer is
not checked. -/
def next (bufLen : ℕ) (b : Batch) : Option Batch :=
  if quicFrameStreamHeaderMaxLen < bufLen - b.cur.size then some b
  else if b.cur.size = 0 then none
  else some { queued := b.queued ++ [b.cur], cur := .empty }

/-- The numbers in the header of a frame can be encoded and it fits behind the frames of the
buffer. -/
def HeaderFits (bufLen id offset : ℕ) (b : Batch) : Prop :=
  id < 2 ^ 62 ∧ offset < 2 ^ 62 ∧ b.cur.size + streamHeaderSize id offset ≤ bufLen

instance (bufLen id offset : ℕ) (b : Batch) : Decidable (b.HeaderFits bufLen id offset) :=
  inferInstanceAs (Decidable (_ ∧ _ ∧ _))

/-- The number of bytes in the next frame. -/
def take (bufLen id offset : ℕ) (last : Bool) (len : ℕ) (b : Batch) : Option ℕ := do
  guard (b.HeaderFits bufLen id offset)
  fragmentLen last (bufLen - (b.cur.size + streamHeaderSize id offset)) len

/-- The frames of some data. -/
def write (bufLen : ℕ) (handle : ℤ) (offset : ℕ) (last : Bool) :
    ℕ → List UInt8 → Batch → Option Batch
  | 0, _, _ => none
  | fuel + 1, data, b =>
    if data.length = 0 then some b
    else do
      let b ← b.next bufLen
      let n ← b.take bufLen handle.toNat offset last data.length
      write bufLen handle offset last fuel (data.drop n)
        { b with cur := b.cur.add handle (fragment handle.toNat offset last data n) }

/-- The frames of a vector, where `sent` gives the offset of each stream. -/
def entries (bufLen fuel : ℕ) (sent : ℕ → ℕ) : List QuicStreamIovec → Batch → Option Batch
  | [], b => some b
  | v :: iov, b => do
    let b ← b.write bufLen v.handle (sent v.handle.toNat) (!iov.isEmpty) fuel v.data
    entries bufLen fuel sent iov b

/-- All buffers, with the last one unless it is empty. -/
def flush (b : Batch) : List Draft :=
  if b.cur.size ≠ 0 then b.queued ++ [b.cur] else b.queued

end Batch

end Tbquic
