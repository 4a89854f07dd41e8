import Tbquic.Lib.Trace
import Tbquic.Stream.Recv

/-!
# Reassembly safety

Whatever frames of a stream arrive, in whatever order and with whatever reads between them,
the bytes returned to the application are a first part of the stream. Entries of the queue
that the current offset has passed are never read again, and all others agree with the
stream.
-/

namespace Tbquic

section Add

variable {q : QuicStreams} {id : ℕ} {sd : QuicStreamData}

/-- Flow control rejects data, or counts its bytes and changes nothing else of the stream. -/
theorem quicStreamRecvFlowCtrl_cases (q : QuicStreams) (id dataLen : ℕ) :
    q.recvAllowed id dataLen = false ∧ quicStreamRecvFlowCtrl q id dataLen = none ∨
      q.recvAllowed id dataLen = true ∧ ∃ t, quicStreamRecvFlowCtrl q id dataLen = some t ∧
        t.si id = { q.si id with statBytes.recvd := q.recvd id dataLen } := by
  unfold quicStreamRecvFlowCtrl
  cases hallowed : q.recvAllowed id dataLen with
  | false => exact .inl ⟨rfl, rfl⟩
  | true =>
    refine .inr ⟨rfl, _, rfl, ?_⟩
    simp only [QuicStreams.si, QuicStreams.updateSi, QuicStreams.setSi, Function.update_self]

/-- The check for completeness keeps the offset and the queue. -/
@[simp] theorem recvComplete_offset (si : QuicStreamInstance) :
    (recvComplete si).offset = si.offset := by
  unfold recvComplete
  split <;> rfl

@[simp] theorem recvComplete_queue (si : QuicStreamInstance) :
    (recvComplete si).queue = si.queue := by
  unfold recvComplete
  split <;> rfl

/-- Data that starts behind the current offset is not trimmed. -/
theorem trimmed_of_le (h : (q.si id).offset ≤ sd.offset) : q.trimmed id sd = sd := by
  rw [QuicStreams.trimmed, Nat.sub_eq_zero_of_le h]
  rfl

/-- Adding data keeps the offset, and queues the trimmed data unless it is old or rejected
by flow control. -/
theorem quicStreamDataAdd_si (q : QuicStreams) (id : ℕ) (sd : QuicStreamData) :
    ((quicStreamDataAdd q id sd).si id).offset = (q.si id).offset ∧
      ((quicStreamDataAdd q id sd).si id).queue =
        if (q.si id).offset < sd.stop ∧ q.recvAllowed id (q.trimmed id sd).len then
          (q.si id).queue ++ [q.trimmed id sd]
        else (q.si id).queue := by
  have hflow := quicStreamRecvFlowCtrl_cases q id (q.trimmed id sd).len
  unfold quicStreamDataAdd
  by_cases hold : sd.stop ≤ (q.si id).offset
  · simp [hold, Nat.not_lt.mpr hold]
  · by_cases hlater : (q.si id).offset < sd.offset
    · rw [trimmed_of_le hlater.le] at hflow ⊢
      rcases hflow with ⟨hallowed, hnone⟩ | ⟨hallowed, t, hsome, ht⟩
      · simp [hold, hlater, quicStreamDataAddOfo, hallowed, hnone]
      · simp [hold, hlater, quicStreamDataAddOfo, hallowed, hsome, ht, Nat.lt_of_not_le hold]
    · rcases hflow with ⟨hallowed, hnone⟩ | ⟨hallowed, t, hsome, ht⟩
      · simp [hold, hlater, hallowed, hnone]
      · simp [hold, hlater, hallowed, hsome, ht, Nat.lt_of_not_le hold]

end Add

/-- Every entry of a queue has been passed by the current offset or agrees with the stream. -/
def PassedOrAgrees (whole : List UInt8) (offset : ℕ) (queue : List QuicStreamData) : Prop :=
  ∀ sd ∈ queue, sd.offset < offset ∨ sd.Agrees whole

/-- A later offset has passed more entries. -/
theorem PassedOrAgrees.mono {whole : List UInt8} {offset offset' : ℕ}
    {queue : List QuicStreamData} (h : PassedOrAgrees whole offset queue)
    (hle : offset ≤ offset') : PassedOrAgrees whole offset' queue :=
  fun sd hsd => (h sd hsd).imp_left fun hlt => hlt.trans_le hle

section Read

variable {whole before out : List UInt8} {len offset : ℕ} {sd : QuicStreamData}
  {queue : List QuicStreamData} {r : ReadLoop}

/-- A round of the loop stops at an entry with another offset, or copies bytes of the entry
and stops when the buffer is full. -/
theorem readLoop_cons_eq_ok (h : readLoop len (sd :: queue) offset out = .ok r) :
    (offset ≠ sd.offset ∧ r = { queue := sd :: queue, offset, out }) ∨
      offset = sd.offset ∧ (len < sd.len + out.length → 0 < copyBytes len out.length sd) ∧
      ∃ r' : ReadLoop,
        r = { r' with queue := afterCopy sd (copyBytes len out.length sd) ++ r'.queue } ∧
        ((out ++ sd.data.take (copyBytes len out.length sd)).length = len ∧
            r' = { queue, offset := offset + copyBytes len out.length sd,
                   out := out ++ sd.data.take (copyBytes len out.length sd) } ∨
          (out ++ sd.data.take (copyBytes len out.length sd)).length ≠ len ∧
            readLoop len queue (offset + copyBytes len out.length sd)
              (out ++ sd.data.take (copyBytes len out.length sd)) = .ok r') := by
  rw [readLoop] at h
  by_cases hnext : offset ≠ sd.offset
  · rw [if_pos hnext] at h
    exact .inl ⟨hnext, (Except.ok.inj h).symm⟩
  rw [if_neg hnext] at h
  by_cases hassert : len < sd.len + out.length ∧ ¬ quicGt (copyBytes len out.length sd) 0
  · simp only [if_pos hassert] at h
    cases h
  simp only [if_neg hassert] at h
  refine .inr ⟨not_not.mp hnext, fun hpart => ?_, ?_⟩
  · by_contra hzero
    refine hassert ⟨hpart, ?_⟩
    rw [show copyBytes len out.length sd = 0 by omega]
    decide
  · by_cases hfull : (out ++ sd.data.take (copyBytes len out.length sd)).length = len
    · rw [if_pos hfull] at h
      exact ⟨_, (Except.ok.inj h).symm, .inl ⟨hfull, rfl⟩⟩
    · rw [if_neg hfull] at h
      cases hrest : readLoop len queue (offset + copyBytes len out.length sd)
          (out ++ sd.data.take (copyBytes len out.length sd)) with
      | error e => simp [hrest, bind, Except.bind] at h
      | ok r' =>
        rw [hrest] at h
        exact ⟨r', (Except.ok.inj h).symm, .inr ⟨hfull, rfl⟩⟩

/-- No more is copied from an entry than it holds. -/
theorem copyBytes_le (h : out.length ≤ len) : copyBytes len out.length sd ≤ sd.len := by
  unfold copyBytes
  split <;> omega

/-- An entry that is not copied whole does not fit. -/
theorem lt_of_copyBytes_ne (h : copyBytes len out.length sd ≠ sd.len) :
    len < sd.len + out.length := by
  by_contra hfits
  exact h (if_neg hfits)

/-- The bytes copied fit in the buffer. -/
theorem copied_length_le (sd : QuicStreamData) (h : out.length ≤ len) :
    (out ++ sd.data.take (copyBytes len out.length sd)).length ≤ len := by
  rw [List.length_append, List.length_take]
  unfold copyBytes Segment.len
  split <;> omega

/-- The loop of a read continues a first part of the stream, and passes or keeps entries
that agree with it. -/
theorem readLoop_agrees (before : List UInt8) (hqueue : PassedOrAgrees whole offset queue)
    (hout : before ++ out <+: whole) (hoffset : offset = (before ++ out).length)
    (hlen : out.length ≤ len) (h : readLoop len queue offset out = .ok r) :
    before ++ r.out <+: whole ∧ r.offset = (before ++ r.out).length ∧
      offset ≤ r.offset ∧ PassedOrAgrees whole r.offset r.queue := by
  induction queue generalizing offset out r with
  | nil =>
    simp only [readLoop, Except.ok.injEq] at h
    subst h
    exact ⟨hout, hoffset, le_refl _, fun sd hsd => by cases hsd⟩
  | cons sd queue ih =>
    rcases readLoop_cons_eq_ok h with ⟨-, rfl⟩ | ⟨hhead, hpart, r', rfl, hrest⟩
    · exact ⟨hout, hoffset, le_refl _, hqueue⟩
    have hcopy : copyBytes len out.length sd ≤ sd.data.length := copyBytes_le hlen
    have hkept : copyBytes len out.length sd ≠ sd.len → 0 < copyBytes len out.length sd :=
      fun hne => hpart (lt_of_copyBytes_ne hne)
    have hlen' := copied_length_le sd hlen
    generalize copyBytes len out.length sd = copied at *
    have hagrees : sd.Agrees whole := (hqueue sd (by simp)).resolve_left (by omega)
    have hout' : before ++ (out ++ sd.data.take copied) <+: whole := by
      rw [← List.append_assoc]
      exact hagrees.append_take hout (by rw [← hhead, hoffset]) copied
    have hoffset' : offset + copied = (before ++ (out ++ sd.data.take copied)).length := by
      rw [← List.append_assoc, List.length_append, ← hoffset, List.length_take,
        Nat.min_eq_left hcopy]
    have htail : PassedOrAgrees whole offset queue := fun sd hsd => hqueue sd (by simp [hsd])
    have hqueue' : PassedOrAgrees whole (offset + copied) queue := htail.mono (by omega)
    have hr' : before ++ r'.out <+: whole ∧ r'.offset = (before ++ r'.out).length ∧
        offset + copied ≤ r'.offset ∧ PassedOrAgrees whole r'.offset r'.queue := by
      rcases hrest with ⟨-, rfl⟩ | ⟨-, hrest⟩
      · exact ⟨hout', hoffset', le_refl _, hqueue'⟩
      · exact ih hqueue' hout' hoffset' hlen' hrest
    obtain ⟨hpre, hlength, hle, hleft⟩ := hr'
    refine ⟨hpre, hlength, (Nat.le_add_right _ _).trans hle, fun sd' hsd' => ?_⟩
    rcases List.mem_append.mp hsd' with hsd' | hsd'
    · -- An entry copied in part was at the old offset, which has moved on.
      unfold afterCopy at hsd'
      split at hsd'
      · cases hsd'
      · rename_i hne
        rw [List.mem_singleton.mp hsd']
        exact .inl (by have := hkept hne; dsimp only; omega)
    · exact hleft sd' hsd'

/-- The loop of a read with room left does not fail its assertion. -/
theorem readLoop_ok (queue : List QuicStreamData) (offset : ℕ) (hlen : out.length < len)
    (hmax : len < 2 ^ 31) : ∃ r, readLoop len queue offset out = .ok r := by
  induction queue generalizing offset out with
  | nil => exact ⟨_, rfl⟩
  | cons sd queue ih =>
    rw [readLoop]
    by_cases hnext : offset ≠ sd.offset
    · exact ⟨_, if_pos hnext⟩
    have hassert : ¬ (len < sd.len + out.length ∧ ¬ quicGt (copyBytes len out.length sd) 0) := by
      rintro ⟨hpart, hgt⟩
      rw [copyBytes, if_pos hpart] at hgt
      exact hgt ((quicGt_iff (by omega) (by omega)).mpr (by omega))
    simp only [if_neg hnext, if_neg hassert]
    by_cases hfull : (out ++ sd.data.take (copyBytes len out.length sd)).length = len
    · exact ⟨_, if_pos hfull⟩
    · have hlen' : (out ++ sd.data.take (copyBytes len out.length sd)).length < len :=
        lt_of_le_of_ne (copied_length_le sd hlen.le) hfull
      obtain ⟨r, hr⟩ := ih (offset + copyBytes len out.length sd) hlen'
      rw [if_neg hfull, hr]
      exact ⟨_, rfl⟩

end Read

/-- The receiving part of a stream, with what passed through it. -/
structure Reader where
  /-- The streams of the connection. -/
  q : QuicStreams
  /-- The data given to `QuicStreamDataAdd`. -/
  delivered : List QuicStreamData
  /-- The bytes returned to the application. -/
  out : List UInt8

/-- What can happen to the receiving part of a stream. -/
inductive ReaderEvent
  /-- `QuicStreamDataAdd` with the data of a frame. -/
  | add (sd : QuicStreamData)
  /-- `QuicStreamReadData` into a buffer of `len` bytes. -/
  | read (len : ℕ)
  /-- Anything that leaves the offset and the queue of the stream alone. -/
  | other (q : QuicStreams)

namespace Reader

variable {whole : List UInt8} {id : ℕ} {r t : Reader} {e : ReaderEvent}

/-- The entry of the stream. -/
def si (r : Reader) (id : ℕ) : QuicStreamInstance := r.q.si id

/-- One event on a stream. A failed assertion ends the process. -/
def step (id : ℕ) (r : Reader) : ReaderEvent → Option Reader
  | .add sd => some { r with q := quicStreamDataAdd r.q id sd, delivered := r.delivered ++ [sd] }
  | .read len =>
    match quicStreamReadData (r.si id) len with
    | .ok (res, si) => some { r with q := r.q.setSi id si, out := r.out ++ res.data }
    | .error _ => none
  | .other q => some { r with q }

/-- A reader of a stream of which nothing has arrived. -/
def start (q : QuicStreams) : Reader := { q, delivered := [], out := [] }

/-- Data agrees with the stream, and reads have room for a positive `int` number of bytes. -/
def Consistent (whole : List UInt8) (id : ℕ) (r : Reader) : ReaderEvent → Prop
  | .add sd => sd.Agrees whole ∧ sd.stop ≤ 2 ^ 62
  | .read len => 1 ≤ len ∧ len < 2 ^ 31
  | .other q => (q.si id).offset = (r.si id).offset ∧ (q.si id).queue = (r.si id).queue

instance : (e : ReaderEvent) → Decidable (r.Consistent whole id e)
  | .add sd => inferInstanceAs (Decidable (sd.Agrees whole ∧ sd.stop ≤ 2 ^ 62))
  | .read len => inferInstanceAs (Decidable (1 ≤ len ∧ len < 2 ^ 31))
  | .other q => inferInstanceAs
    (Decidable ((q.si id).offset = (r.si id).offset ∧ (q.si id).queue = (r.si id).queue))

/-- The bytes returned are a first part of the stream that ends at the current offset, and
every entry of the queue was passed or agrees with the stream. -/
def Reassembled (whole : List UInt8) (id : ℕ) (r : Reader) : Prop :=
  r.out <+: whole ∧ (r.si id).offset = r.out.length ∧
    PassedOrAgrees whole (r.si id).offset (r.si id).queue

/-- Adding data that agrees with the stream. -/
theorem Reassembled.add (h : r.Reassembled whole id) {sd : QuicStreamData}
    (hsd : sd.Agrees whole) :
    Reassembled whole id
      { r with q := quicStreamDataAdd r.q id sd, delivered := r.delivered ++ [sd] } := by
  obtain ⟨hout, hoffset, hqueue⟩ := h
  obtain ⟨hoff, hadd⟩ := quicStreamDataAdd_si r.q id sd
  refine ⟨hout, hoff.trans hoffset, ?_⟩
  change PassedOrAgrees whole ((quicStreamDataAdd r.q id sd).si id).offset
    ((quicStreamDataAdd r.q id sd).si id).queue
  rw [hoff, hadd]
  split
  · intro sd' hsd'
    rcases List.mem_append.mp hsd' with hold | hnew
    · exact hqueue sd' hold
    · rw [List.mem_singleton.mp hnew]
      exact .inr (hsd.advance _)
  · exact hqueue

/-- A read with room for some bytes succeeds and continues the bytes returned. -/
theorem Reassembled.read (h : r.Reassembled whole id) {len : ℕ} (hlen : 1 ≤ len)
    (hmax : len < 2 ^ 31) :
    ∃ res si, quicStreamReadData (r.si id) len = .ok (res, si) ∧
      Reassembled whole id { r with q := r.q.setSi id si, out := r.out ++ res.data } := by
  obtain ⟨hout, hoffset, hqueue⟩ := h
  have hempty : ([] : List UInt8).length < len := hlen
  obtain ⟨l, hl⟩ := readLoop_ok (r.si id).queue (r.si id).offset hempty hmax
  obtain ⟨hpre, hlength, -, hleft⟩ :=
    readLoop_agrees r.out hqueue (by simpa using hout) (by simpa using hoffset) hempty.le hl
  refine ⟨_, _, by rw [quicStreamReadData, hl]; rfl, hpre, ?_, ?_⟩
  · simpa [si] using hlength
  · simpa [si] using hleft

/-- Every event goes through and keeps the invariant. -/
theorem Reassembled.step (h : r.Reassembled whole id) (he : r.Consistent whole id e) :
    ∃ t, Reader.step id r e = some t ∧ t.Reassembled whole id := by
  cases e with
  | add sd => exact ⟨_, rfl, h.add he.1⟩
  | read len =>
    obtain ⟨res, si, hread, hinv⟩ := h.read he.1 he.2
    exact ⟨_, by rw [Reader.step, hread], hinv⟩
  | other q =>
    refine ⟨_, rfl, h.1, he.1.trans h.2.1, ?_⟩
    change PassedOrAgrees whole (q.si id).offset (q.si id).queue
    rw [he.1, he.2]
    exact h.2.2

/-- Whatever happens keeps the invariant. -/
theorem Reassembled.of_step (h : r.Reassembled whole id) (he : r.Consistent whole id e)
    (hstep : Reader.step id r e = some t) : t.Reassembled whole id := by
  obtain ⟨t', ht', hreassembled⟩ := h.step he
  rwa [← Option.some.inj (ht'.symm.trans hstep)]

/-- Nothing has been passed before the first frame. -/
theorem reassembled_start {q : QuicStreams} (hoffset : (q.si id).offset = 0)
    (hqueue : (q.si id).queue = []) : (start q).Reassembled whole id := by
  refine ⟨ List.nil_prefix, hoffset, ?_⟩
  change PassedOrAgrees whole _ (q.si id).queue
  rw [hqueue]
  exact fun sd hsd => by cases hsd

/-- Whatever arrives and whatever is read, no assertion fails and the bytes returned to the
application are a first part of the stream that ends at `si->offset`. -/
theorem reassembly_safe {q : QuicStreams} {es : List ReaderEvent} (hoffset : (q.si id).offset = 0)
    (hqueue : (q.si id).queue = [])
    (hes : Trace.Along (step id) (Consistent whole id) (start q) es) :
    ∃ r, Trace.run (step id) (start q) es = some r ∧ r.out <+: whole ∧
      (r.si id).offset = r.out.length ∧
      ∀ len, 1 ≤ len → len < 2 ^ 31 → ∃ res, quicStreamReadData (r.si id) len = .ok res := by
  obtain ⟨r, hr, hinv⟩ := Trace.run_total_along (Reassembled whole id)
    (fun _ _ h he => h.step he) (reassembled_start hoffset hqueue) hes
  refine ⟨r, hr, hinv.1, hinv.2.1, fun len hlen hmax => ?_⟩
  obtain ⟨res, si, hread, -⟩ := hinv.read hlen hmax
  exact ⟨_, hread⟩

/-- Two frames in the wrong order, a read, and a frame that overlaps both. -/
theorem reassembly_safe_overlap :
    ∃ r, Trace.run (step 0) (start openedStreams)
        [.add ⟨2, [3, 4]⟩, .add ⟨0, [1, 2]⟩, .read 1, .add ⟨0, [1, 2, 3]⟩] = some r ∧
      r.out <+: [1, 2, 3, 4] ∧ (r.si 0).offset = r.out.length ∧
      ∀ len, 1 ≤ len → len < 2 ^ 31 → ∃ res, quicStreamReadData (r.si 0) len = .ok res :=
  reassembly_safe rfl rfl (by decide)

end Reader

end Tbquic
