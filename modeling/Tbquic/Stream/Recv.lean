import Tbquic.Stream.State

/-!
# Receiving stream data

`QuicStreamDataAdd` queues the data of a frame and `QuicStreamReadData` returns queued bytes
to the application. Data is queued in the order of its arrival, and a read stops at the
first entry that does not start at the current offset.
-/

namespace Tbquic

/-- Queue data at the tail. -/
def QuicStreams.push (q : QuicStreams) (id : ℕ) (sd : QuicStreamData) : QuicStreams :=
  q.updateSi id fun si => { si with queue := si.queue ++ [sd] }

@[simp] theorem QuicStreams.push_si (q : QuicStreams) (id : ℕ) (sd : QuicStreamData) :
    (q.push id sd).si id = { q.si id with queue := (q.si id).queue ++ [sd] } := by
  simp [push]

/-- `QuicStreamDataAddOfo`. -/
def quicStreamDataAddOfo (q : QuicStreams) (id : ℕ) (sd : QuicStreamData) : QuicStreams :=
  match quicStreamRecvFlowCtrl q id sd.len with
  | none => q
  | some q => q.push id sd

/-- The loop of `QuicStreamOrdered`. -/
def orderedFrom : ℕ → List QuicStreamData → Bool
  | _, [] => true
  | start, sd :: queue => start = sd.offset && orderedFrom sd.stop queue

/-- `QuicStreamOrdered`. -/
def quicStreamOrdered (si : QuicStreamInstance) : Bool := orderedFrom si.offset si.queue

/-- The end of `QuicStreamDataAdd`: all data may have been received. -/
def recvComplete (si : QuicStreamInstance) : QuicStreamInstance :=
  if (si.recvState = .sizeKnown ∨ si.recvState = .resetRecvd) ∧ quicStreamOrdered si then
    { si with recvState := .dataRecvd }
  else si

/-- Cut off the overlap of received data with the bytes before the current offset. -/
def QuicStreams.trimmed (q : QuicStreams) (id : ℕ) (sd : QuicStreamData) : QuicStreamData :=
  sd.advance ((q.si id).offset - sd.offset)

/-- `QuicStreamDataAdd`. -/
def quicStreamDataAdd (q : QuicStreams) (id : ℕ) (sd : QuicStreamData) : QuicStreams :=
  if sd.stop ≤ (q.si id).offset then q
  else if (q.si id).offset < sd.offset then quicStreamDataAddOfo q id sd
  else
    match quicStreamRecvFlowCtrl q id (q.trimmed id sd).len with
    | none => q
    | some t => (t.push id (q.trimmed id sd)).updateSi id recvComplete

/-- What the loop of `QuicStreamReadData` works on. -/
structure ReadLoop where
  /-- The entries left in the queue. -/
  queue : List QuicStreamData
  /-- `si->offset`. -/
  offset : ℕ
  /-- The bytes copied. -/
  out : List UInt8
  deriving DecidableEq, Repr

/-- The number of bytes that a read with room for `len` bytes copies from an entry after
`rlen` bytes. -/
def copyBytes (len rlen : ℕ) (sd : QuicStreamData) : ℕ :=
  if len < sd.len + rlen then len - rlen else sd.len

/-- What is left of an entry after a copy. An entry copied in part keeps its offset. -/
def afterCopy (sd : QuicStreamData) (copied : ℕ) : List QuicStreamData :=
  if copied = sd.len then [] else [{ sd with data := sd.data.drop copied }]

/-- The loop of `QuicStreamReadData` into a buffer of `len` bytes. -/
def readLoop (len : ℕ) : List QuicStreamData → ℕ → List UInt8 → Except Fail ReadLoop
  | [], offset, out => .ok { queue := [], offset, out }
  | sd :: queue, offset, out =>
    if offset ≠ sd.offset then .ok { queue := sd :: queue, offset, out }
    else
      let copied := copyBytes len out.length sd
      let out' := out ++ sd.data.take copied
      if len < sd.len + out.length ∧ ¬ quicGt copied 0 then .error .assert
      else if out'.length = len then
        .ok { queue := afterCopy sd copied ++ queue, offset := offset + copied, out := out' }
      else do
        let r ← readLoop len queue (offset + copied) out'
        .ok { r with queue := afterCopy sd copied ++ r.queue }

/-- The result of `QuicStreamReadData`. -/
structure ReadResult where
  /-- The bytes returned. -/
  data : List UInt8
  /-- `QUIC_STREAM_DATA_FLAGS_FIN`. -/
  fin : Bool
  /-- `QUIC_STREAM_DATA_FLAGS_RESET`. -/
  reset : Bool
  deriving DecidableEq, Repr

/-- `QuicStreamReadData` into a buffer of `len` bytes. -/
def quicStreamReadData (si : QuicStreamInstance) (len : ℕ) :
    Except Fail (ReadResult × QuicStreamInstance) := do
  let r ← readLoop len si.queue si.offset []
  let fin := decide (r.queue = [] ∧ si.recvState = .dataRecvd)
  let recvState := if fin then .dataRead else si.recvState
  .ok ({ data := r.out, fin, reset := decide (recvState = .resetRecvd) },
    { si with queue := r.queue, offset := r.offset, recvState, notified := false })

/-- A read returns what its loop copied, and the end of the stream when all data has been
received and the queue is empty. -/
theorem quicStreamReadData_of_loop {si : QuicStreamInstance} {len : ℕ} {l : ReadLoop}
    (h : readLoop len si.queue si.offset [] = .ok l) :
    ∃ res si', quicStreamReadData si len = .ok (res, si') ∧ res.data = l.out ∧
      (res.fin = true ↔ l.queue = [] ∧ si.recvState = .dataRecvd) ∧ si'.offset = l.offset ∧
      si'.queue = l.queue ∧
      si'.recvState = if res.fin = true then .dataRead else si.recvState := by
  rw [quicStreamReadData, h]
  exact ⟨_, _, rfl, rfl, decide_eq_true_iff, rfl, rfl, rfl⟩

end Tbquic
