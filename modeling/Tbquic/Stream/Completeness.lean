import Mathlib.Algebra.GroupWithZero.Nat
import Tbquic.Stream.Reassembly

/-!
# Reassembly completeness

The queue of a stream is kept in the order of arrival and a read never looks behind an entry
that does not start at the current offset. As long as every frame continues the queue and
every read ends between two entries, all that arrived can be read. The first frame or read
that breaks this order caps the stream: no later read gets past the end of what was in order.
-/

namespace Tbquic

/-- A read of `len` bytes ends behind the queue or between two of its entries. -/
def Aligned (len : ℕ) (queue : List QuicStreamData) : Prop :=
  Segment.total queue ≤ len ∨ ∃ k, Segment.total (queue.take k) = len

instance (len : ℕ) (queue : List QuicStreamData) : Decidable (Aligned len queue) :=
  decidable_of_iff
    (Segment.total queue ≤ len ∨ ∃ k < queue.length, Segment.total (queue.take k) = len)
    ⟨Or.imp_right fun ⟨k, _, hk⟩ => ⟨k, hk⟩, fun h => h.elim .inl fun ⟨k, hk⟩ =>
      (Nat.lt_or_ge k queue.length).elim (fun hlt => .inr ⟨k, hlt, hk⟩)
        fun hle => .inl (by rw [← hk, List.take_of_length_le hle])⟩

/-- The queue starts with linked entries that end before `cap`, and the entry that follows
does not start where they end. -/
def Capped (cap offset : ℕ) (queue : List QuicStreamData) : Prop :=
  ∃ linked sd rest, queue = linked ++ sd :: rest ∧ Segment.Linked offset linked ∧
    offset + Segment.total linked ≤ cap ∧ sd.offset ≠ offset + Segment.total linked

section Read

variable {cap len offset : ℕ} {out : List UInt8} {sd : QuicStreamData}
  {queue : List QuicStreamData} {r : ReadLoop}

/-- An entry that fits is copied whole. -/
theorem copyBytes_eq_len (h : sd.len + out.length ≤ len) : copyBytes len out.length sd = sd.len :=
  if_neg (Nat.not_lt.mpr h)

/-- The buffer is full after an entry that is not copied whole. -/
theorem copied_length_of_ne (hlen : out.length ≤ len)
    (h : copyBytes len out.length sd ≠ sd.len) :
    (out ++ sd.data.take (copyBytes len out.length sd)).length = len := by
  have hpart := lt_of_copyBytes_ne h
  have hdata : sd.len = sd.data.length := rfl
  rw [List.length_append, List.length_take, copyBytes, if_pos hpart]
  omega

/-- An aligned read of a queue that goes on with room copies the first entry whole. -/
theorem Aligned.len_le (h : Aligned len (sd :: queue)) (hlen : 0 < len) : sd.len ≤ len := by
  rcases h with htotal | ⟨k, hk⟩
  · rw [Segment.total_cons] at htotal
    omega
  · cases k with
    | zero =>
      rw [List.take_zero, Segment.total_nil] at hk
      omega
    | succ k =>
      rw [List.take_succ_cons, Segment.total_cons] at hk
      omega

/-- What an aligned read leaves room for is aligned behind the first entry. -/
theorem Aligned.tail (h : Aligned len (sd :: queue)) (hlen : 0 < len) :
    Aligned (len - sd.len) queue := by
  rcases h with htotal | ⟨k, hk⟩
  · rw [Segment.total_cons] at htotal
    exact .inl (by omega)
  · cases k with
    | zero =>
      rw [List.take_zero, Segment.total_nil] at hk
      omega
    | succ k =>
      rw [List.take_succ_cons, Segment.total_cons] at hk
      exact .inr ⟨k, by omega⟩

/-- The loop of an aligned read takes whole entries, until the queue is empty or the buffer
is full. -/
theorem readLoop_aligned (hlinked : Segment.Linked offset queue) (hlen : out.length < len)
    (haligned : Aligned (len - out.length) queue) (h : readLoop len queue offset out = .ok r) :
    ∃ k, r.queue = queue.drop k ∧ r.offset = offset + Segment.total (queue.take k) ∧
      (r.queue = [] ∨ r.out.length = len) := by
  induction queue generalizing offset out r with
  | nil =>
    rw [readLoop, Except.ok.injEq] at h
    subst h
    exact ⟨0, rfl, rfl, .inl rfl⟩
  | cons sd queue ih =>
    rcases readLoop_cons_eq_ok h with ⟨hne, -⟩ | ⟨hhead, -, r', rfl, hrest⟩
    · exact absurd hlinked.1.symm hne
    have hfits := haligned.len_le (by omega)
    have hcopy : copyBytes len out.length sd = sd.len := copyBytes_eq_len (by omega)
    have htake : sd.data.take sd.len = sd.data := List.take_length
    have hqueue : afterCopy sd sd.len ++ r'.queue = r'.queue := by simp [afterCopy]
    have hdata : sd.data.length = sd.len := rfl
    rw [hcopy, htake] at hrest
    simp only [hcopy, hqueue]
    have htail : Segment.Linked (offset + sd.len) queue := by
      rw [hhead]
      exact hlinked.2
    rcases hrest with ⟨hfull, rfl⟩ | ⟨hroom, hrest⟩
    · exact ⟨1, rfl, by simp, .inr hfull⟩
    · rw [List.length_append, hdata] at hroom
      have hnext : Aligned (len - (out ++ sd.data).length) queue := by
        have := haligned.tail (by omega)
        rwa [Nat.sub_sub, ← hdata, ← List.length_append] at this
      obtain ⟨k, hk, hoffset, hend⟩ :=
        ih htail (by rw [List.length_append, hdata]; omega) hnext hrest
      refine ⟨k + 1, hk, ?_, hend⟩
      rw [hoffset, List.take_succ_cons, Segment.total_cons, Nat.add_assoc]

/-- An aligned read behind the first entry is aligned with it. -/
theorem Aligned.cons (h : Aligned (len - sd.len) queue) (hle : sd.len ≤ len) :
    Aligned len (sd :: queue) := by
  rcases h with htotal | ⟨k, hk⟩
  · refine .inl ?_
    rw [Segment.total_cons]
    omega
  · refine .inr ⟨k + 1, ?_⟩
    rw [List.take_succ_cons, Segment.total_cons]
    omega

/-- An entry copied in part keeps its offset and caps the stream. -/
theorem capped_of_part (rest : List QuicStreamData) {copied : ℕ} (hhead : offset = sd.offset)
    (hpos : 0 < copied) (hpart : copied ≠ sd.len) (hcap : offset + copied ≤ cap) :
    Capped cap (offset + copied) (afterCopy sd copied ++ rest) := by
  refine ⟨[], { sd with data := sd.data.drop copied }, rest, ?_, trivial, ?_, ?_⟩
  · rw [afterCopy, if_neg hpart]
    rfl
  · rwa [Segment.total_nil, Nat.add_zero]
  · rw [Segment.total_nil]
    dsimp only
    omega

/-- The loop of a read keeps the cap. -/
theorem readLoop_capped (hcapped : Capped cap offset queue) (hlen : out.length ≤ len)
    (h : readLoop len queue offset out = .ok r) : Capped cap r.offset r.queue := by
  obtain ⟨linked, sd, rest, rfl, hlinked, hcap, hgap⟩ := hcapped
  induction linked generalizing offset out r with
  | nil =>
    rcases readLoop_cons_eq_ok h with ⟨-, rfl⟩ | ⟨hhead, -⟩
    · exact ⟨[], sd, rest, rfl, trivial, hcap, hgap⟩
    · exact absurd hhead.symm (by simpa using hgap)
  | cons entry linked ih =>
    rcases readLoop_cons_eq_ok h with ⟨hne, -⟩ | ⟨hhead, hpart, r', rfl, hrest⟩
    · exact absurd hlinked.1.symm hne
    have hlen' := copied_length_le entry hlen
    rw [Segment.total_cons] at hcap hgap
    by_cases hwhole : copyBytes len out.length entry = entry.len
    · simp only [hwhole, afterCopy, if_pos] at hrest ⊢
      have htail : Segment.Linked (offset + entry.len) linked := by
        rw [hhead]
        exact hlinked.2
      rcases hrest with ⟨-, rfl⟩ | ⟨-, hrest⟩
      · exact ⟨linked, sd, rest, rfl, htail, by dsimp only; omega, by dsimp only; omega⟩
      · rw [hwhole] at hlen'
        exact ih hlen' hrest htail (by omega) (by omega)
    · have hpos := hpart (lt_of_copyBytes_ne hwhole)
      have hle : copyBytes len out.length entry ≤ entry.len := copyBytes_le hlen
      rcases hrest with ⟨-, rfl⟩ | ⟨hroom, -⟩
      · exact capped_of_part _ hhead hpos hwhole (by omega)
      · exact absurd (copied_length_of_ne hlen hwhole) hroom

/-- The loop of a read that ends inside an entry caps the stream. -/
theorem readLoop_split (hlinked : Segment.Linked offset queue) (hlen : out.length < len)
    (hsplit : ¬ Aligned (len - out.length) queue) (h : readLoop len queue offset out = .ok r) :
    Capped (offset + Segment.total queue) r.offset r.queue := by
  induction queue generalizing offset out r with
  | nil => exact absurd (.inl (Nat.zero_le _)) hsplit
  | cons sd queue ih =>
    rcases readLoop_cons_eq_ok h with ⟨hne, -⟩ | ⟨hhead, hpart, r', rfl, hrest⟩
    · exact absurd hlinked.1.symm hne
    have hlen' := copied_length_le sd hlen.le
    rw [Segment.total_cons]
    by_cases hwhole : copyBytes len out.length sd = sd.len
    · have hdata : sd.data.length = sd.len := rfl
      have htake : sd.data.take sd.len = sd.data := List.take_length
      rw [hwhole, htake] at hrest hlen'
      rw [List.length_append, hdata] at hrest hlen'
      have htail : Segment.Linked (offset + sd.len) queue := by
        rw [hhead]
        exact hlinked.2
      rcases hrest with ⟨hfull, -⟩ | ⟨hroom, hrest⟩
      · refine absurd (.inr ⟨1, ?_⟩) hsplit
        simp only [List.take_succ_cons, List.take_zero, Segment.total_cons, Segment.total_nil]
        omega
      · have hnext : ¬ Aligned (len - (out ++ sd.data).length) queue := fun haligned => by
          rw [List.length_append, hdata, ← Nat.sub_sub] at haligned
          exact hsplit (haligned.cons (by omega))
        simp only [hwhole, afterCopy, if_pos, List.nil_append]
        rw [← Nat.add_assoc]
        exact ih htail (by rw [List.length_append, hdata]; omega) hnext hrest
    · have hle : copyBytes len out.length sd ≤ sd.len := copyBytes_le hlen.le
      rcases hrest with ⟨-, rfl⟩ | ⟨hroom, -⟩
      · exact capped_of_part _ hhead (hpart (lt_of_copyBytes_ne hwhole)) hwhole (by omega)
      · exact absurd (copied_length_of_ne hlen.le hwhole) hroom

end Read

section Trim

variable {q : QuicStreams} {id : ℕ} {sd : QuicStreamData}

/-- Trimmed data starts at the current offset or behind it. -/
theorem trimmed_offset : (q.trimmed id sd).offset = max sd.offset (q.si id).offset := by
  rw [QuicStreams.trimmed, Segment.advance]
  dsimp only
  omega

/-- Trimming keeps the end of data that goes beyond the current offset. -/
theorem trimmed_stop (h : (q.si id).offset < sd.stop) : (q.trimmed id sd).stop = sd.stop := by
  rw [Segment.stop, Segment.len] at h ⊢
  rw [QuicStreams.trimmed, Segment.advance, Segment.stop, Segment.len, List.length_drop]
  dsimp only
  omega

end Trim

namespace Reader

variable {whole : List UInt8} {id cap n : ℕ} {r t : Reader} {q : QuicStreams}
  {e : ReaderEvent} {es : List ReaderEvent}

/-- The offset behind the bytes in the queue. -/
def queueEnd (id : ℕ) (r : Reader) : ℕ := (r.si id).offset + Segment.total (r.si id).queue

/-- Data that continues the queue: it starts where the queue ends, or it covers the current
offset while the queue holds no byte. Data that is old, or that flow control rejects although
it was queued before, changes nothing. Reads end between two entries. -/
def KeepsOrder (id : ℕ) (r : Reader) : ReaderEvent → Prop
  | .add sd =>
    sd.stop ≤ (r.si id).offset ∨
      if r.q.recvAllowed id (r.q.trimmed id sd).len then
        sd.offset = r.queueEnd id ∨
          sd.offset ≤ (r.si id).offset ∧ r.queueEnd id = (r.si id).offset
      else sd.stop ≤ r.queueEnd id
  | .read len => Aligned len (r.si id).queue
  | .other _ => True

instance (id : ℕ) (r : Reader) : (e : ReaderEvent) → Decidable (r.KeepsOrder id e)
  | .add sd => inferInstanceAs (Decidable (sd.stop ≤ (r.si id).offset ∨
      if r.q.recvAllowed id (r.q.trimmed id sd).len then
        sd.offset = r.queueEnd id ∨
          sd.offset ≤ (r.si id).offset ∧ r.queueEnd id = (r.si id).offset
      else sd.stop ≤ r.queueEnd id))
  | .read len => inferInstanceAs (Decidable (Aligned len (r.si id).queue))
  | .other _ => .isTrue trivial

/-- The delivered frames cover the first `n` bytes. -/
def Covers (n : ℕ) (r : Reader) : Prop :=
  ∀ i < n, ∃ sd ∈ r.delivered, sd.offset ≤ i ∧ i < sd.stop

/-- The queue goes on from the current offset without a gap, and holds all that was
delivered. -/
structure Gapless (whole : List UInt8) (id : ℕ) (r : Reader) : Prop where
  /-- What was returned is a first part of the stream. -/
  reassembled : r.Reassembled whole id
  /-- The entries of the queue follow each other from the current offset on. -/
  linked : Segment.Linked (r.si id).offset (r.si id).queue
  /-- All that was delivered was read or is in the queue. -/
  delivered : ∀ sd ∈ r.delivered, sd.stop ≤ r.queueEnd id

/-- Data that keeps the order keeps the queue without gaps. -/
theorem Gapless.add (h : r.Gapless whole id) {sd : QuicStreamData} (hsd : sd.Agrees whole)
    (hkeep : r.KeepsOrder id (.add sd)) :
    Gapless whole id
      { r with q := quicStreamDataAdd r.q id sd, delivered := r.delivered ++ [sd] } := by
  obtain ⟨hoff, hadd⟩ := quicStreamDataAdd_si r.q id sd
  have hreassembled := h.reassembled.add hsd
  have hlinked : Segment.Linked ((quicStreamDataAdd r.q id sd).si id).offset
      ((quicStreamDataAdd r.q id sd).si id).queue ∧
      r.queueEnd id ≤ ((quicStreamDataAdd r.q id sd).si id).offset +
        Segment.total ((quicStreamDataAdd r.q id sd).si id).queue ∧
      sd.stop ≤ ((quicStreamDataAdd r.q id sd).si id).offset +
        Segment.total ((quicStreamDataAdd r.q id sd).si id).queue := by
    rw [hoff, hadd]
    by_cases hqueued : (r.q.si id).offset < sd.stop ∧ r.q.recvAllowed id (r.q.trimmed id sd).len
    · have hstart : (r.q.trimmed id sd).offset = r.queueEnd id := by
        rw [KeepsOrder, if_pos hqueued.2] at hkeep
        rw [trimmed_offset]
        rcases hkeep with hold | hnext | ⟨hle, hend⟩
        · exact absurd hold (Nat.not_le.mpr hqueued.1)
        · rw [hnext]
          exact Nat.max_eq_left (Nat.le_add_right _ _)
        · rw [hend]
          exact Nat.max_eq_right hle
      have hstop := trimmed_stop hqueued.1
      rw [Segment.stop, hstart] at hstop
      rw [if_pos hqueued, Segment.total_append, Segment.total_cons, Segment.total_nil]
      exact ⟨h.linked.concat hstart, by rw [queueEnd, si]; omega,
        by rw [queueEnd, si] at hstop; omega⟩
    · rw [if_neg hqueued]
      refine ⟨h.linked, le_refl _, ?_⟩
      rcases hkeep with hold | hkeep
      · exact hold.trans (Nat.le_add_right _ _)
      · split at hkeep
        · rename_i hallowed
          exact (Nat.le_of_not_lt fun hlt => hqueued ⟨hlt, hallowed⟩).trans (Nat.le_add_right _ _)
        · exact hkeep
  refine ⟨hreassembled, hlinked.1, fun sd' hsd' => ?_⟩
  rcases List.mem_append.mp hsd' with hold | hnew
  · exact (h.delivered sd' hold).trans hlinked.2.1
  · rw [List.mem_singleton.mp hnew]
    exact hlinked.2.2

/-- What a read does to the reader is what the loop of the read does. -/
theorem step_read_eq_some {len : ℕ} (h : step id r (.read len) = some t) :
    ∃ l : ReadLoop, readLoop len (r.si id).queue (r.si id).offset [] = .ok l ∧
      t.out = r.out ++ l.out ∧ t.delivered = r.delivered ∧ (t.si id).offset = l.offset ∧
      (t.si id).queue = l.queue := by
  cases hl : readLoop len (r.si id).queue (r.si id).offset [] with
  | error e => simp [step, quicStreamReadData, hl, bind, Except.bind] at h
  | ok l =>
    obtain ⟨res, si', hread, hdata, -, hoffset, hqueue, -⟩ := quicStreamReadData_of_loop hl
    rw [step, hread] at h
    obtain rfl := Option.some.inj h
    exact ⟨l, rfl, by rw [hdata], rfl, by simpa [si] using hoffset, by simpa [si] using hqueue⟩

/-- A read that keeps the order returns as many bytes as it has room for, or all bytes in the
queue. -/
theorem Gapless.read (h : r.Gapless whole id) {len : ℕ} (hlen : 1 ≤ len)
    (hkeep : r.KeepsOrder id (.read len)) (hstep : step id r (.read len) = some t)
    (ht : t.Reassembled whole id) :
    t.Gapless whole id ∧ t.queueEnd id = r.queueEnd id ∧
      min (r.out.length + len) (r.queueEnd id) ≤ t.out.length := by
  obtain ⟨l, hl, hout, hdelivered, hoffset, hqueue⟩ := step_read_eq_some hstep
  have haligned : Aligned (len - ([] : List UInt8).length) (r.si id).queue := hkeep
  obtain ⟨k, hleft, hread, hend⟩ := readLoop_aligned h.linked hlen haligned hl
  have hlinked := h.linked.drop k
  have htotal := Segment.total_take_add_total_drop (r.si id).queue k
  have hstays : t.queueEnd id = r.queueEnd id := by
    rw [queueEnd, queueEnd, hoffset, hqueue, hread, hleft]
    omega
  refine ⟨⟨ht, ?_, ?_⟩, hstays, ?_⟩
  · rwa [hoffset, hqueue, hread, hleft]
  · rw [hdelivered, hstays]
    exact h.delivered
  · rcases hend with hempty | hfull
    · -- The queue is empty, so the current offset is its end.
      rw [← ht.2.1, ← hstays, queueEnd, hqueue, hempty, Segment.total_nil]
      exact Nat.min_le_right _ _
    · rw [hout, List.length_append, hfull]
      exact Nat.min_le_left _ _

/-- The invariant depends only on what was returned, the offset, the queue and the end of the
delivered data. -/
theorem Gapless.of_si_eq (h : r.Gapless whole id) (hout : t.out = r.out)
    (hoffset : (t.si id).offset = (r.si id).offset) (hqueue : (t.si id).queue = (r.si id).queue)
    (hdelivered : ∀ sd ∈ t.delivered, sd ∈ r.delivered ∨ sd.stop ≤ r.queueEnd id) :
    t.Gapless whole id := by
  obtain ⟨⟨hpre, hlength, hagrees⟩, hlinked, hstops⟩ := h
  refine ⟨⟨?_, ?_, ?_⟩, ?_, fun sd hsd => ?_⟩
  · rwa [hout]
  · rwa [hout, hoffset]
  · rwa [hoffset, hqueue]
  · rwa [hoffset, hqueue]
  · rw [queueEnd, hoffset, hqueue]
    exact (hdelivered sd hsd).elim (hstops sd) fun hle => hle

/-- Every event that keeps the order goes through and keeps the queue without gaps. -/
theorem Gapless.step (h : r.Gapless whole id) (he : r.Consistent whole id e ∧ r.KeepsOrder id e) :
    ∃ t, Reader.step id r e = some t ∧ t.Gapless whole id := by
  obtain ⟨t, ht, hreassembled⟩ := h.reassembled.step he.1
  refine ⟨t, ht, ?_⟩
  cases e with
  | add sd =>
    obtain rfl := Option.some.inj ht
    exact h.add he.1.1 he.2
  | read len => exact (h.read he.1.1 he.2 ht hreassembled).1
  | other q =>
    obtain rfl := Option.some.inj ht
    exact h.of_si_eq rfl he.1.1 he.1.2 fun sd hsd => .inl hsd

/-- Nothing is missing before the first frame. -/
theorem gapless_start (hoffset : (q.si id).offset = 0) (hqueue : (q.si id).queue = []) :
    (start q).Gapless whole id := by
  refine ⟨reassembled_start hoffset hqueue, ?_, fun sd hsd => by cases hsd⟩
  change Segment.Linked _ (q.si id).queue
  rw [hqueue]
  trivial

/-- Delivered bytes were read or are in the queue. -/
theorem Gapless.le_queueEnd (h : r.Gapless whole id) (hcovers : r.Covers n) :
    n ≤ r.queueEnd id := by
  cases n with
  | zero => exact Nat.zero_le _
  | succ i =>
    obtain ⟨sd, hsd, -, hlt⟩ := hcovers i (Nat.lt_succ_self i)
    exact hlt.trans_le (h.delivered sd hsd)

/-- Reads that keep the order return all bytes of the queue for which they have room. -/
theorem Gapless.run_reads (h : r.Gapless whole id) {lens : List ℕ}
    (hlens : Trace.Along (Reader.step id)
      (fun r e => r.Consistent whole id e ∧ r.KeepsOrder id e) r (lens.map .read)) :
    ∃ t, Trace.run (Reader.step id) r (lens.map .read) = some t ∧ t.Gapless whole id ∧
      min (r.out.length + lens.sum) (r.queueEnd id) ≤ t.out.length := by
  induction lens generalizing r with
  | nil => exact ⟨r, rfl, h, Nat.min_le_left _ _⟩
  | cons len lens ih =>
    obtain ⟨⟨hconsistent, hkeep⟩, hrest⟩ := hlens
    obtain ⟨t, ht, hreassembled⟩ := h.reassembled.step hconsistent
    obtain ⟨hgapless, hend, hread⟩ := h.read hconsistent.1 hkeep ht hreassembled
    obtain ⟨u, hu, hgapless', hread'⟩ := ih hgapless (hrest t ht)
    refine ⟨u, Trace.run_cons_eq_some.mpr ⟨t, ht, hu⟩, hgapless', ?_⟩
    rw [hend] at hread'
    rw [List.sum_cons]
    omega

/-- In a run whose events keep the order, reads with room for the first `n` bytes return them
once the frames that arrived cover them. -/
theorem reassembly_complete (hoffset : (q.si id).offset = 0) (hqueue : (q.si id).queue = [])
    (hes : Trace.Along (Reader.step id)
      (fun r e => r.Consistent whole id e ∧ r.KeepsOrder id e) (start q) es) :
    ∃ r, Trace.run (Reader.step id) (start q) es = some r ∧
      ∀ n, r.Covers n → ∀ lens : List ℕ, n ≤ r.out.length + lens.sum →
        Trace.Along (Reader.step id)
          (fun r e => r.Consistent whole id e ∧ r.KeepsOrder id e) r (lens.map .read) →
        ∃ t, Trace.run (Reader.step id) r (lens.map .read) = some t ∧
          whole.take n <+: t.out := by
  obtain ⟨r, hr, hgapless⟩ := Trace.run_total_along (Gapless whole id)
    (fun _ _ h he => h.step he) (gapless_start hoffset hqueue) hes
  refine ⟨r, hr, fun n hcovers lens hroom hlens => ?_⟩
  obtain ⟨t, ht, hgapless', hread⟩ := hgapless.run_reads hlens
  have hlength : n ≤ t.out.length :=
    (Nat.le_min.mpr ⟨hroom, hgapless.le_queueEnd hcovers⟩).trans hread
  refine ⟨t, ht, ?_⟩
  rw [List.prefix_iff_eq_take.mp hgapless'.reassembled.1]
  exact List.take_prefix_take_left hlength

/-- Two frames, a read of the first one and a read of the second one. -/
theorem reassembly_complete_ordered :
    ∃ r t, Trace.run (Reader.step 0) (start openedStreams)
        [.add ⟨0, [1, 2]⟩, .add ⟨2, [3]⟩, .read 2] = some r ∧
      Trace.run (Reader.step 0) r [.read 1] = some t ∧ [1, 2, 3] <+: t.out := by
  have hes : Trace.Along (Reader.step 0)
      (fun r e => r.Consistent [1, 2, 3, 4] 0 e ∧ r.KeepsOrder 0 e) (start openedStreams)
      [.add ⟨0, [1, 2]⟩, .add ⟨2, [3]⟩, .read 2] := by decide
  obtain ⟨r, hr, hreads⟩ := reassembly_complete rfl rfl hes
  obtain rfl := Option.some.inj hr
  obtain ⟨t, ht, hpre⟩ := hreads 3 (by unfold Covers; decide) [1] (by decide) (by decide)
  exact ⟨_, t, hr, ht, hpre⟩

/-- What arrives later is queued behind the entry that caps the stream. -/
theorem capped_step (h : Capped cap (r.si id).offset (r.si id).queue)
    (he : r.Consistent whole id e) (hstep : step id r e = some t) :
    Capped cap (t.si id).offset (t.si id).queue := by
  cases e with
  | add sd =>
    obtain rfl := Option.some.inj hstep
    obtain ⟨hoff, hadd⟩ := quicStreamDataAdd_si r.q id sd
    change Capped cap ((quicStreamDataAdd r.q id sd).si id).offset
      ((quicStreamDataAdd r.q id sd).si id).queue
    rw [hoff, hadd]
    split
    · obtain ⟨linked, gap, rest, hqueue, hlinked, hcap, hgap⟩ := h
      refine ⟨linked, gap, rest ++ [r.q.trimmed id sd], ?_, hlinked, hcap, hgap⟩
      rw [si] at hqueue
      rw [hqueue, List.append_assoc, List.cons_append]
    · exact h
  | read len =>
    obtain ⟨l, hl, -, -, hoffset, hqueue⟩ := step_read_eq_some hstep
    rw [hoffset, hqueue]
    exact readLoop_capped h (Nat.zero_le _) hl
  | other q =>
    obtain rfl := Option.some.inj hstep
    change Capped cap (q.si id).offset (q.si id).queue
    rw [he.1, he.2]
    exact h

/-- Nothing behind the cap is ever returned. -/
theorem run_capped (hr : r.Reassembled whole id)
    (h : Capped cap (r.si id).offset (r.si id).queue)
    (hes : Trace.Along (step id) (Consistent whole id) r es)
    (hrun : Trace.run (step id) r es = some t) : t.out.length ≤ cap := by
  obtain ⟨ht, linked, sd, rest, -, -, hcap, -⟩ := Trace.run_invariant_along
    (fun r => r.Reassembled whole id ∧ Capped cap (r.si id).offset (r.si id).queue)
    (fun _ _ _ hr he hstep => ⟨hr.1.of_step he hstep, capped_step hr.2 he hstep⟩)
    ⟨hr, h⟩ hes hrun
  rw [← ht.2.1]
  exact (Nat.le_add_right _ _).trans hcap

/-- The first frame that flow control accepts, or the first read, that does not keep the order
caps the stream at what was in order before it. -/
theorem Gapless.capped_of_not_keepsOrder (h : r.Gapless whole id)
    (he : r.Consistent whole id e) (hbroken : ¬ r.KeepsOrder id e)
    (hallowed : ∀ sd, e = .add sd → r.q.recvAllowed id (r.q.trimmed id sd).len = true)
    (hstep : Reader.step id r e = some t) :
    Capped (r.queueEnd id) (t.si id).offset (t.si id).queue := by
  cases e with
  | add sd =>
    obtain rfl := Option.some.inj hstep
    obtain ⟨hoff, hadd⟩ := quicStreamDataAdd_si r.q id sd
    change Capped _ ((quicStreamDataAdd r.q id sd).si id).offset
      ((quicStreamDataAdd r.q id sd).si id).queue
    have hsd := hallowed sd rfl
    rw [KeepsOrder, if_pos hsd, not_or, not_or, not_and_or] at hbroken
    obtain ⟨hnew, hnext, hbehind⟩ := hbroken
    rw [hoff, hadd, if_pos ⟨Nat.lt_of_not_le hnew, hsd⟩]
    refine ⟨_, _, [], rfl, h.linked, le_refl _, ?_⟩
    rw [trimmed_offset]
    have hle : (r.si id).offset ≤ r.queueEnd id := Nat.le_add_right _ _
    change max sd.offset (r.si id).offset ≠ r.queueEnd id
    omega
  | read len =>
    obtain ⟨l, hl, -, -, hoffset, hqueue⟩ := step_read_eq_some hstep
    rw [hoffset, hqueue]
    have hsplit : ¬ Aligned (len - ([] : List UInt8).length) (r.si id).queue := hbroken
    exact readLoop_split h.linked he.1 hsplit hl
  | other q => exact absurd trivial hbroken

/-- Reads with room for some bytes are consistent with every stream. -/
theorem along_reads {lens : List ℕ} (h : ∀ len ∈ lens, 1 ≤ len ∧ len < 2 ^ 31) :
    Trace.Along (step id) (Consistent whole id) r (lens.map .read) := by
  induction lens generalizing r with
  | nil => trivial
  | cons len lens ih =>
    exact ⟨h len (by simp), fun t _ => ih fun len hlen => h len (by simp [hlen])⟩

/-- A frame with ten bytes arrives and four of them are read. No further reads return the
other six. -/
theorem reads_stall_after_split :
    ∃ r, Trace.run (step 0) (start openedStreams)
        [.add ⟨0, [0, 1, 2, 3, 4, 5, 6, 7, 8, 9]⟩, .read 4] = some r ∧ r.Covers 10 ∧
      ∀ (lens : List ℕ) (t : Reader), (∀ len ∈ lens, 1 ≤ len ∧ len < 2 ^ 31) →
        Trace.run (step 0) r (lens.map .read) = some t →
        ¬ [0, 1, 2, 3, 4, 5, 6, 7, 8, 9] <+: t.out := by
  refine ⟨_, rfl, fun i hi => ⟨_, List.mem_singleton.mpr rfl, Nat.zero_le i, hi⟩,
    fun lens t hlens hrun hpre => ?_⟩
  have hes : Trace.Along (step 0) (Consistent [0, 1, 2, 3, 4, 5, 6, 7, 8, 9] 0)
      (start openedStreams) [.add ⟨0, [0, 1, 2, 3, 4, 5, 6, 7, 8, 9]⟩, .read 4] := by decide
  have hreassembled := Trace.run_invariant_along (Reassembled [0, 1, 2, 3, 4, 5, 6, 7, 8, 9] 0)
    (fun _ _ _ h he => h.of_step he) (reassembled_start rfl rfl) hes rfl
  have hcap : t.out.length ≤ 4 := run_capped hreassembled
    ⟨[], ⟨0, [4, 5, 6, 7, 8, 9]⟩, [], rfl, trivial, by decide, by decide⟩ (along_reads hlens) hrun
  have hlength := hpre.length_le
  simp only [List.length_cons, List.length_nil] at hlength
  omega

end Reader

end Tbquic
