import Mathlib.Algebra.BigOperators.Group.Finset.Basic
import Tbquic.Frame.Entries
import Tbquic.Lib.RefHeap
import Tbquic.Stream.Reassembly

/-!
# The buffers of received packets

A 1-RTT packet is decrypted into a buffer of its own. The entries that its STREAM frames queue point
into the buffer and hold a reference to it, and so does the packet while it is parsed.
-/

namespace Tbquic

/-- The objects of type `QUIC_DATA_BUF`, and what points to them. -/
structure DataBufs where
  /-- The buffers, with the decrypted bytes of their packets. -/
  heap : RefHeap (List UInt8)
  /-- How often each buffer was released. -/
  released : ℕ → ℕ
  /-- Whether a buffer was used that is not allocated. -/
  misused : Bool
  /-- The buffer of the packet that is parsed, if it has one. -/
  current : Option ℕ
  /-- `origin_buf` of the entries in the queue of each stream. -/
  origin : ℕ → List (Option ℕ)

namespace DataBufs

/-- No buffers. -/
def empty : DataBufs where
  heap := .empty
  released := fun _ => 0
  misused := false
  current := none
  origin := fun _ => []

/-- `QuicDataBufCreate`, with the bytes that are decrypted into the buffer. -/
def create (b : DataBufs) (bytes : List UInt8) : DataBufs :=
  { b with heap := b.heap.alloc bytes }

/-- `QuicDataBufGet`. -/
def get (b : DataBufs) (buf : Option ℕ) : DataBufs :=
  match buf with
  | none => b
  | some a =>
    match b.heap.upRef a with
    | some heap => { b with heap }
    | none => { b with misused := true }

/-- `QuicDataBufFree`. -/
def free (b : DataBufs) (buf : Option ℕ) : DataBufs :=
  match buf with
  | none => b
  | some a =>
    match b.heap.release a with
    | some heap => { b with
        heap
        released := if heap.obj a = none then Function.update b.released a (b.released a + 1)
          else b.released }
    | none => { b with misused := true }

/-- Replace the entries of a queue. -/
def setOrigin (b : DataBufs) (id : ℕ) (origin : List (Option ℕ)) : DataBufs :=
  { b with origin := Function.update b.origin id origin }

/-- Queue an entry at the tail. -/
def push (b : DataBufs) (id : ℕ) (buf : Option ℕ) : DataBufs :=
  b.setOrigin id (b.origin id ++ [buf])

/-- `QuicStreamDataAddOfo`. -/
def dataAddOfo (b : DataBufs) (q : QuicStreams) (id : ℕ) (sd : QuicStreamData)
    (buf : Option ℕ) : DataBufs :=
  match quicStreamRecvFlowCtrl q id sd.len with
  | none => b.free buf
  | some _ => b.push id buf

/-- `QuicStreamDataAdd`. -/
def dataAdd (b : DataBufs) (q : QuicStreams) (id : ℕ) (sd : QuicStreamData)
    (buf : Option ℕ) : DataBufs :=
  if sd.stop ≤ (q.si id).offset then b.free buf
  else if (q.si id).offset < sd.offset then b.dataAddOfo q id sd buf
  else
    match quicStreamRecvFlowCtrl q id (q.trimmed id sd).len with
    | none => b.free buf
    | some _ => b.push id buf

/-- The loop of `QuicStreamReadData`, with the entries that it leaves. -/
def readLoop (len : ℕ) : List QuicStreamData → List (Option ℕ) → ℕ → ℕ → DataBufs →
    List (Option ℕ) × DataBufs
  | sd :: queue, buf :: origin, offset, rlen, b =>
    if offset ≠ sd.offset then (buf :: origin, b)
    else
      let copied := copyBytes len rlen sd
      let left := if copied = sd.len then [] else [buf]
      let b' := if copied = sd.len then b.free buf else b
      if rlen + copied = len then (left ++ origin, b')
      else
        let r := readLoop len queue origin (offset + copied) (rlen + copied) b'
        (left ++ r.1, r.2)
  | _, origin, _, _, b => (origin, b)

/-- `QuicStreamReadData` from the entry of a stream. -/
def readData (b : DataBufs) (id : ℕ) (si : QuicStreamInstance) (len : ℕ) : DataBufs :=
  let r := readLoop len si.queue (b.origin id) si.offset 0 b
  r.2.setOrigin id r.1

/-- `QuicStreamInstanceDeInit`. -/
def instanceDeInit (b : DataBufs) (id : ℕ) : DataBufs :=
  ((b.origin id).foldl free b).setOrigin id []

/-- `QuicStreamConfDeInit`. -/
def confDeInit (b : DataBufs) (maxIdValue : ℕ) : DataBufs :=
  (List.range maxIdValue).foldl instanceDeInit b

/-- The number of queued entries that point to a buffer. -/
def entries (b : DataBufs) (maxIdValue a : ℕ) : ℕ :=
  ∑ id ∈ Finset.range maxIdValue, (b.origin id).count (some a)

/-- What holds a reference to a buffer. -/
def owners (b : DataBufs) (maxIdValue a : ℕ) : ℕ :=
  b.entries maxIdValue a + RefHeap.held b.current a

/-- Every buffer counts its owners, is allocated as long as there are some, and was released once
when there are none. -/
structure Owned (b : DataBufs) (owners : ℕ → ℕ) : Prop where
  /-- The counts. -/
  counts : b.heap.Counts owners
  /-- The addresses of later buffers are free. -/
  fresh : b.heap.Fresh
  /-- A buffer that is created and not allocated was released once. -/
  released (a : ℕ) :
    b.released a = if a < b.heap.next ∧ b.heap.obj a = none then 1 else 0
  /-- No buffer was used that is not allocated. -/
  proper : b.misused = false

/-- The bytes of an entry lie in the buffer that it points to, as long as this is allocated. -/
def Holds (heap : RefHeap (List UInt8)) (sd : QuicStreamData) (buf : Option ℕ) : Prop :=
  ∃ a, buf = some a ∧ ∀ bytes, heap.content a = some bytes → sd.data <:+: bytes

variable {b : DataBufs} {own : ℕ → ℕ} {buf : Option ℕ} {bytes : List UInt8} {a id n : ℕ}

/-- No buffer has an owner at the start. -/
theorem owned_empty : empty.Owned fun _ => 0 :=
  ⟨RefHeap.counts_empty, RefHeap.fresh_empty, fun a => (if_neg fun h => (by cases h.1)).symm, rfl⟩

/-- A new buffer belongs to the packet that is decrypted into it. -/
theorem Owned.create (h : b.Owned own) (bytes : List UInt8) :
    (b.create bytes).Owned fun a => own a + RefHeap.held (some b.heap.next) a := by
  refine ⟨h.counts.alloc h.fresh bytes, h.fresh.alloc, fun a => ?_, h.proper⟩
  change b.released a =
    if a < b.heap.next + 1 ∧ (b.heap.alloc bytes).obj a = none then 1 else 0
  rw [h.released]
  by_cases ha : a = b.heap.next
  · subst ha
    rw [RefHeap.alloc_obj_next, if_neg fun h => (lt_irrefl _ h.1), if_neg fun h => by cases h.2]
  · rw [RefHeap.alloc_obj_of_ne ha]
    have hlt : a < b.heap.next + 1 ↔ a < b.heap.next := by omega
    simp only [hlt]

/-- A packet passes a reference to its buffer on. -/
theorem Owned.get (h : b.Owned own) (ha : 0 < own a) :
    (b.get (some a)).Owned (fun i => own i + RefHeap.held (some a) i) ∧
      b.heap.Shrinks (b.get (some a)).heap := by
  obtain ⟨heap, hup, hcounts⟩ := h.counts.upRef ha
  obtain ⟨hnext, hshrinks, hobj⟩ := RefHeap.upRef_spec hup
  have hget : b.get (some a) = { b with heap } := by
    unfold DataBufs.get
    dsimp only
    rw [hup]
  rw [hget]
  refine ⟨⟨hcounts, h.fresh.upRef hup, fun i => ?_, h.proper⟩, hshrinks⟩
  change b.released i = if i < heap.next ∧ heap.obj i = none then 1 else 0
  rw [hnext]
  simp only [hobj]
  exact h.released i

/-- An owner gives its reference back. -/
theorem Owned.free (h : b.Owned fun i => own i + RefHeap.held buf i) :
    (b.free buf).Owned own ∧ b.heap.Shrinks (b.free buf).heap := by
  cases buf with
  | none => exact ⟨h, RefHeap.Shrinks.refl _⟩
  | some a =>
    obtain ⟨heap, hrelease, hcounts⟩ := h.counts.release
    obtain ⟨hnext, hshrinks, hsome, hother⟩ := RefHeap.release_spec hrelease
    have hfree : b.free (some a) = { b with
        heap
        released := if heap.obj a = none then Function.update b.released a (b.released a + 1)
          else b.released } := by
      unfold DataBufs.free
      dsimp only
      rw [hrelease]
    have halloc : a < b.heap.next := by
      by_contra hle
      rw [h.fresh a (not_lt.mp hle)] at hsome
      cases hsome
    have hzero : b.released a = 0 := by
      rw [h.released, if_neg]
      rintro ⟨-, hnone⟩
      rw [hnone] at hsome
      cases hsome
    rw [hfree]
    refine ⟨⟨hcounts, h.fresh.release hrelease, fun i => ?_, h.proper⟩, hshrinks⟩
    change (if heap.obj a = none then Function.update b.released a (b.released a + 1)
      else b.released) i = if i < heap.next ∧ heap.obj i = none then 1 else 0
    rw [hnext]
    by_cases hi : i = a
    · subst hi
      by_cases hnone : heap.obj i = none
      · rw [if_pos hnone, Function.update_self, hzero, if_pos ⟨halloc, hnone⟩]
      · rw [if_neg hnone, hzero, if_neg fun h => hnone h.2]
    · rw [hother i hi, ← h.released i]
      split_ifs
      · rw [Function.update_of_ne hi]
      · rfl

@[simp] theorem get_origin : (b.get buf).origin = b.origin := by
  unfold DataBufs.get
  split
  · rfl
  · split <;> rfl

@[simp] theorem get_current : (b.get buf).current = b.current := by
  unfold DataBufs.get
  split
  · rfl
  · split <;> rfl

@[simp] theorem free_origin : (b.free buf).origin = b.origin := by
  unfold DataBufs.free
  split
  · rfl
  · split <;> rfl

@[simp] theorem free_current : (b.free buf).current = b.current := by
  unfold DataBufs.free
  split
  · rfl
  · split <;> rfl

/-- Bytes that lie in a buffer lie in it as long as it is allocated. -/
theorem Holds.shrinks {h t : RefHeap (List UInt8)} {sd : QuicStreamData} (hs : h.Shrinks t)
    (hold : Holds h sd buf) : Holds t sd buf := by
  obtain ⟨a, rfl, hbytes⟩ := hold
  exact ⟨a, rfl, fun bytes hb => hbytes bytes (hs a bytes hb)⟩

/-- A part of an entry lies in its buffer. -/
theorem Holds.of_infix {h : RefHeap (List UInt8)} {sd sd' : QuicStreamData}
    (hold : Holds h sd buf) (hsub : sd'.data <:+: sd.data) : Holds h sd' buf := by
  obtain ⟨a, rfl, hbytes⟩ := hold
  exact ⟨a, rfl, fun bytes hb => hsub.trans (hbytes bytes hb)⟩

/-- The entries with those of one queue replaced. -/
theorem entries_setOrigin (hid : id < n) (origin : List (Option ℕ)) (a : ℕ) :
    (b.setOrigin id origin).entries n a + (b.origin id).count (some a) =
      b.entries n a + origin.count (some a) := by
  have hmem : id ∈ Finset.range n := Finset.mem_range.mpr hid
  have hrest : ∀ i ∈ (Finset.range n).erase id,
      ((b.setOrigin id origin).origin i).count (some a) = (b.origin i).count (some a) :=
    fun i hi => congrArg _ (Function.update_of_ne (Finset.ne_of_mem_erase hi) _ _)
  have hself : (b.setOrigin id origin).origin id = origin := Function.update_self _ _ _
  have hnew := Finset.add_sum_erase _
    (fun i => ((b.setOrigin id origin).origin i).count (some a)) hmem
  have hold := Finset.add_sum_erase _ (fun i => (b.origin i).count (some a)) hmem
  rw [Finset.sum_congr rfl hrest, hself] at hnew
  rw [entries, entries, ← hnew, ← hold]
  omega

/-- What holds a reference beside the entries of one queue. -/
def others (b : DataBufs) (n id : ℕ) : ℕ → ℕ := (b.setOrigin id []).owners n

/-- The entries of one queue, and what else holds a reference. -/
theorem owners_eq (hid : id < n) (a : ℕ) :
    b.owners n a = b.others n id a + (b.origin id).count (some a) := by
  have hentries := entries_setOrigin (b := b) hid [] a
  rw [List.count_nil] at hentries
  change b.entries n a + _ = (b.setOrigin id []).entries n a + RefHeap.held b.current a + _
  omega

/-- The owners with the entries of one queue replaced. -/
theorem owners_setOrigin {b' : DataBufs} (hid : id < n) (horigin : b'.origin = b.origin)
    (hcurrent : b'.current = b.current) (origin : List (Option ℕ)) (a : ℕ) :
    (b'.setOrigin id origin).owners n a = b.others n id a + origin.count (some a) := by
  have hentries := entries_setOrigin (b := b) hid [] a
  have hreplaced := entries_setOrigin (b := b') hid origin a
  have hsame : b'.entries n a = b.entries n a := by
    rw [entries, horigin]
    rfl
  rw [List.count_nil] at hentries
  rw [horigin, hsame] at hreplaced
  change (b'.setOrigin id origin).entries n a + RefHeap.held b'.current a =
    (b.setOrigin id []).entries n a + RefHeap.held b.current a + _
  rw [hcurrent]
  omega

theorem Owned.congr {own' : ℕ → ℕ} (h : b.Owned own) (heq : ∀ a, own' a = own a) :
    b.Owned own' := by
  rwa [funext heq]

/-- The owner of one more reference. -/
theorem count_cons_eq (buf : Option ℕ) (origin : List (Option ℕ)) (a : ℕ) :
    (buf :: origin).count (some a) = origin.count (some a) + RefHeap.held buf a := by
  rw [List.count_cons, RefHeap.held]
  simp only [beq_iff_eq]

/-- Entries of a queue are released one after the other. -/
theorem Owned.foldl_free {origin : List (Option ℕ)}
    (h : b.Owned fun a => own a + origin.count (some a)) :
    (origin.foldl DataBufs.free b).Owned own ∧
      b.heap.Shrinks (origin.foldl DataBufs.free b).heap := by
  induction origin generalizing b with
  | nil => exact ⟨h, RefHeap.Shrinks.refl _⟩
  | cons buf origin ih =>
    have hcons : b.Owned fun a => own a + origin.count (some a) + RefHeap.held buf a :=
      h.congr fun a => by rw [count_cons_eq, Nat.add_assoc]
    obtain ⟨howned, hshrinks⟩ := hcons.free
    obtain ⟨hall, hshrinks'⟩ := ih howned
    exact ⟨hall, hshrinks.trans hshrinks'⟩

/-- Freeing entries leaves the queues and the packet that is parsed. -/
theorem foldl_free_frame (origin : List (Option ℕ)) (b : DataBufs) :
    (origin.foldl DataBufs.free b).origin = b.origin ∧
      (origin.foldl DataBufs.free b).current = b.current := by
  induction origin generalizing b with
  | nil => exact ⟨rfl, rfl⟩
  | cons buf origin ih =>
    obtain ⟨horigin, hcurrent⟩ := ih (b.free buf)
    exact ⟨horigin.trans free_origin, hcurrent.trans free_current⟩

/-- A copy takes no more than the entry has. -/
theorem copyBytes_le (len rlen : ℕ) (sd : QuicStreamData) : copyBytes len rlen sd ≤ sd.len := by
  unfold copyBytes
  split_ifs <;> omega

/-- An entry that is copied in full gives its reference back, and one copied in part keeps it. -/
theorem Owned.copied {sd : QuicStreamData} {rest : List (Option ℕ)} (copied : ℕ)
    (h : b.Owned fun a => own a + (buf :: rest).count (some a)) (hold : Holds b.heap sd buf) :
    let left := if copied = sd.len then [] else [buf]
    let b' := if copied = sd.len then b.free buf else b
    b'.Owned (fun a => own a + left.count (some a) + rest.count (some a)) ∧
      b.heap.Shrinks b'.heap ∧ List.Forall₂ (Holds b'.heap) (afterCopy sd copied) left ∧
      b'.origin = b.origin ∧ b'.current = b.current := by
  unfold afterCopy
  by_cases hfull : copied = sd.len
  · have hcons : b.Owned fun a => own a + rest.count (some a) + RefHeap.held buf a :=
      h.congr fun a => by rw [count_cons_eq, Nat.add_assoc]
    obtain ⟨howned, hshrinks⟩ := hcons.free
    dsimp only
    rw [if_pos hfull, if_pos hfull, if_pos hfull]
    exact ⟨howned, hshrinks, .nil, free_origin, free_current⟩
  · dsimp only
    rw [if_neg hfull, if_neg hfull, if_neg hfull]
    refine ⟨h.congr fun a => ?_, RefHeap.Shrinks.refl _, .cons ?_ .nil, rfl, rfl⟩
    · rw [count_cons_eq, count_cons_eq, List.count_nil]
      omega
    · exact hold.of_infix (List.drop_suffix copied sd.data).isInfix

/-- The loop of a read releases the entries that it copies in full. -/
theorem Owned.readLoop {len : ℕ} {queue : List QuicStreamData} {origin : List (Option ℕ)}
    {offset : ℕ} {out : List UInt8} {l : ReadLoop}
    (h : b.Owned fun a => own a + origin.count (some a))
    (hqueue : List.Forall₂ (Holds b.heap) queue origin)
    (hread : Tbquic.readLoop len queue offset out = .ok l) :
    let r := DataBufs.readLoop len queue origin offset out.length b
    r.2.Owned (fun a => own a + r.1.count (some a)) ∧ b.heap.Shrinks r.2.heap ∧
      List.Forall₂ (Holds r.2.heap) l.queue r.1 ∧ r.2.origin = b.origin ∧
      r.2.current = b.current := by
  induction queue generalizing b own origin offset out l with
  | nil =>
    cases hqueue
    cases hread
    exact ⟨h, RefHeap.Shrinks.refl _, .nil, rfl, rfl⟩
  | cons sd queue ih =>
    cases hqueue with
    | @cons _ buf _ origin hold hqueue =>
      unfold Tbquic.readLoop at hread
      unfold DataBufs.readLoop
      by_cases hoffset : offset ≠ sd.offset
      · rw [if_pos hoffset] at hread ⊢
        cases hread
        exact ⟨h, RefHeap.Shrinks.refl _, .cons hold hqueue, rfl, rfl⟩
      · rw [if_neg hoffset] at hread ⊢
        obtain ⟨howned, hshrinks, hleft, horigin, hcurrent⟩ :=
          h.copied (copyBytes len out.length sd) hold
        have hqueue' := hqueue.imp fun _ _ => Holds.shrinks hshrinks
        have hlength : (out ++ sd.data.take (copyBytes len out.length sd)).length =
            out.length + copyBytes len out.length sd := by
          rw [List.length_append, List.length_take_of_le (copyBytes_le len out.length sd)]
        dsimp only at hread ⊢
        rw [hlength] at hread
        split_ifs at hread with hassert hfull
        · rw [if_pos hfull]
          cases hread
          refine ⟨howned.congr fun a => ?_, hshrinks, ?_, horigin, hcurrent⟩
          · rw [List.count_append]
            omega
          · exact List.rel_append hleft hqueue'
        · rw [if_neg hfull]
          obtain ⟨m, hm, hl⟩ := Except.bind_eq_ok.mp hread
          cases hl
          have hrest := ih howned hqueue' hm
          rw [hlength] at hrest
          obtain ⟨howned', hshrinks', hqueue'', horigin', hcurrent'⟩ := hrest
          refine ⟨howned'.congr fun a => ?_, hshrinks.trans hshrinks', ?_,
            horigin'.trans horigin, hcurrent'.trans hcurrent⟩
          · rw [List.count_append]
            omega
          · exact List.rel_append (hleft.imp fun _ _ => Holds.shrinks hshrinks') hqueue''

/-- The buffers fit the queues: beside the packet that is parsed, the queued entries hold a
reference each, to the buffer that their bytes lie in. -/
structure Fits (b : DataBufs) (q : QuicStreams) : Prop where
  /-- The owners are the entries and the packet. -/
  owned : b.Owned (b.owners q.conf.maxIdValue)
  /-- The entries lie in their buffers. -/
  queued (id : ℕ) : List.Forall₂ (Holds b.heap) (q.si id).queue (b.origin id)
  /-- There are no entries outside the table. -/
  outside (id : ℕ) (hid : q.conf.maxIdValue ≤ id) : b.origin id = []

namespace Fits

variable {q t : QuicStreams} {b' : DataBufs} {sd : QuicStreamData}

/-- The queues may stay behind a change of the streams. -/
theorem of_queues (h : b.Fits q) (hmax : t.conf.maxIdValue = q.conf.maxIdValue)
    (hqueue : ∀ i, (t.si i).queue = (q.si i).queue) : b.Fits t := by
  refine ⟨?_, fun i => ?_, fun i hi => h.outside i (hmax ▸ hi)⟩
  · rw [hmax]
    exact h.owned
  · rw [hqueue]
    exact h.queued i

/-- The heap may change below the entries. -/
theorem of_heap (h : b.Fits q) (howned : b'.Owned (b'.owners q.conf.maxIdValue))
    (horigin : b'.origin = b.origin)
    (hqueued : ∀ i, List.Forall₂ (Holds b'.heap) (q.si i).queue (b.origin i)) : b'.Fits q := by
  refine ⟨howned, fun i => ?_, fun i hi => ?_⟩
  · rw [horigin]
    exact hqueued i
  · rw [horigin]
    exact h.outside i hi

/-- The entries of one queue are replaced. -/
theorem setOrigin {origin : List (Option ℕ)} (h : b.Fits q) (hid : id < q.conf.maxIdValue)
    (howned : b'.Owned fun a => b.others q.conf.maxIdValue id a + origin.count (some a))
    (hshrinks : b.heap.Shrinks b'.heap) (horigin : b'.origin = b.origin)
    (hcurrent : b'.current = b.current) (hmax : t.conf.maxIdValue = q.conf.maxIdValue)
    (hother : ∀ i, i ≠ id → (t.si i).queue = (q.si i).queue)
    (hqueue : List.Forall₂ (Holds b'.heap) (t.si id).queue origin) :
    (b'.setOrigin id origin).Fits t := by
  refine ⟨?_, fun i => ?_, fun i hi => ?_⟩
  · rw [hmax]
    have hsame := howned.congr (owners_setOrigin hid horigin hcurrent origin)
    exact ⟨hsame.counts, hsame.fresh, hsame.released, hsame.proper⟩
  · by_cases hi : i = id
    · subst hi
      have hself : (b'.setOrigin i origin).origin i = origin := Function.update_self _ _ _
      rw [hself]
      exact hqueue
    · have hne : (b'.setOrigin id origin).origin i = b'.origin i := Function.update_of_ne hi _ _
      rw [hne, horigin, hother i hi]
      exact (h.queued i).imp fun _ _ => Holds.shrinks hshrinks
  · rw [hmax] at hi
    have hne : (b'.setOrigin id origin).origin i = b'.origin i :=
      Function.update_of_ne (by omega) _ _
    rw [hne, horigin]
    exact h.outside i hi

/-- The entries lie in their buffers, and these are allocated. -/
theorem allocated (h : b.Fits q) (id : ℕ) :
    List.Forall₂ (fun sd buf => ∃ a bytes, buf = some a ∧ b.heap.content a = some bytes ∧
      sd.data <:+: bytes) (q.si id).queue (b.origin id) := by
  have hmem : ∀ buf ∈ b.origin id, ∀ a, buf = some a → ∃ bytes, b.heap.content a = some bytes := by
    rintro _ hbuf a rfl
    have hid : id < q.conf.maxIdValue := by
      by_contra hid
      rw [h.outside id (not_lt.mp hid)] at hbuf
      cases hbuf
    have hpos : 0 < b.owners q.conf.maxIdValue a := by
      rw [owners_eq hid]
      exact Nat.add_pos_right _ (List.count_pos_iff.mpr hbuf)
    obtain ⟨o, ho⟩ := h.owned.counts.exists_obj hpos
    exact ⟨o.content, by rw [RefHeap.content, ho]; rfl⟩
  have hqueued := h.queued id
  generalize b.origin id = origin, (q.si id).queue = queue at hmem hqueued ⊢
  induction hqueued with
  | nil => exact .nil
  | cons hold hrest ih =>
    obtain ⟨a, rfl, hbytes⟩ := hold
    obtain ⟨bytes, hcontent⟩ := hmem _ List.mem_cons_self a rfl
    refine .cons ⟨a, bytes, rfl, hcontent, hbytes bytes hcontent⟩ (ih fun buf hbuf => ?_)
    exact hmem buf (List.mem_cons_of_mem _ hbuf)

/-- The entries lie in their buffers behind the creation of another. -/
theorem create (h : b.Fits q) (bytes : List UInt8) :
    (b.create bytes).Owned
        (fun a => b.owners q.conf.maxIdValue a + RefHeap.held (some b.heap.next) a) ∧
      ∀ id, List.Forall₂ (Holds (b.create bytes).heap) (q.si id).queue (b.origin id) := by
  refine ⟨h.owned.create bytes, fun id => (h.allocated id).imp ?_⟩
  rintro sd _ ⟨a, old, rfl, hcontent, hinfix⟩
  refine ⟨a, rfl, fun new hnew => ?_⟩
  have hne : a ≠ b.heap.next := by
    rintro rfl
    rw [RefHeap.content, h.owned.fresh _ (le_refl _)] at hcontent
    cases hcontent
  rw [RefHeap.content] at hcontent
  change ((b.heap.alloc bytes).obj a).map Counted.content = some new at hnew
  rw [RefHeap.alloc_obj_of_ne hne, hcontent] at hnew
  exact Option.some.inj hnew ▸ hinfix

/-- The packet that is parsed passes a reference on. -/
theorem passed (h : b.Fits q) (hcurrent : b.current = some a) :
    (b.get (some a)).Owned
        (fun i => b.owners q.conf.maxIdValue i + RefHeap.held (some a) i) ∧
      b.heap.Shrinks (b.get (some a)).heap := by
  refine h.owned.get ?_
  rw [owners, hcurrent, RefHeap.held_self]
  exact Nat.succ_pos _

/-- A reference that was passed on goes back. -/
theorem free_passed (h : b.Fits q) (hcurrent : b.current = some a) :
    ((b.get (some a)).free (some a)).Fits q := by
  obtain ⟨howned, hshrinks⟩ := h.passed hcurrent
  obtain ⟨hfree, hshrinks'⟩ := howned.free
  refine h.of_heap (hfree.congr fun i => ?_) (free_origin.trans get_origin) fun i => ?_
  · rw [owners, entries, free_origin, free_current, get_origin, get_current]
    rfl
  · exact (h.queued i).imp fun _ _ => Holds.shrinks (hshrinks.trans hshrinks')

/-- A reference that was passed on is queued. -/
theorem push_passed (h : b.Fits q) (hcurrent : b.current = some a) (hid : id < q.conf.maxIdValue)
    (hold : Holds b.heap sd (some a)) (hmax : t.conf.maxIdValue = q.conf.maxIdValue)
    (hother : ∀ i, i ≠ id → (t.si i).queue = (q.si i).queue)
    (hqueue : (t.si id).queue = (q.si id).queue ++ [sd]) :
    ((b.get (some a)).push id (some a)).Fits t := by
  obtain ⟨howned, hshrinks⟩ := h.passed hcurrent
  refine h.setOrigin hid (howned.congr fun i => ?_) hshrinks get_origin get_current hmax hother ?_
  · have hlast := count_cons_eq (some a) [] i
    rw [List.count_nil] at hlast
    rw [owners_eq hid, get_origin, List.count_append]
    omega
  · rw [hqueue, get_origin]
    refine List.rel_append ((h.queued id).imp fun _ _ => Holds.shrinks hshrinks) ?_
    exact .cons (hold.shrinks hshrinks) .nil

/-- `QuicStreamDataCreate` and `QuicStreamDataAdd`: the entry passes its reference to the queue, or
gives it back. -/
theorem dataAdd (h : b.Fits q) (hcurrent : b.current = some a) (hid : id < q.conf.maxIdValue)
    (hold : Holds b.heap sd (some a)) :
    ((b.get (some a)).dataAdd q id sd (some a)).Fits (quicStreamDataAdd q id sd) := by
  have hmax := (@QuicStreams.keeps_dataAdd q id sd).maxIdValue
  have htrimmed : Holds b.heap (q.trimmed id sd) (some a) :=
    hold.of_infix (List.drop_suffix _ sd.data).isInfix
  unfold quicStreamDataAdd DataBufs.dataAdd at *
  split_ifs at hmax ⊢ with hstop hofo
  · exact h.free_passed hcurrent
  · unfold quicStreamDataAddOfo dataAddOfo at *
    cases hflow : quicStreamRecvFlowCtrl q id sd.len with
    | none => exact h.free_passed hcurrent
    | some t =>
      obtain ⟨hsi, hother⟩ := quicStreamRecvFlowCtrl_si hflow
      rw [hflow] at hmax
      refine h.push_passed hcurrent hid hold hmax (fun i hi => ?_) ?_
      · dsimp only
        rw [QuicStreams.push, QuicStreams.updateSi_si_of_ne _ _ hi, hother i hi]
      · dsimp only
        rw [QuicStreams.push_si, hsi]
  · cases hflow : quicStreamRecvFlowCtrl q id (q.trimmed id sd).len with
    | none => exact h.free_passed hcurrent
    | some t =>
      obtain ⟨hsi, hother⟩ := quicStreamRecvFlowCtrl_si hflow
      rw [hflow] at hmax
      refine h.push_passed hcurrent hid htrimmed hmax (fun i hi => ?_) ?_
      · dsimp only
        rw [QuicStreams.updateSi_si_of_ne _ _ hi, QuicStreams.push,
          QuicStreams.updateSi_si_of_ne _ _ hi, hother i hi]
      · dsimp only
        rw [QuicStreams.updateSi_si, recvComplete_queue, QuicStreams.push_si, hsi]

/-- `QuicStreamReadData`. -/
theorem readData {len : ℕ} {res : ReadResult} {si : QuicStreamInstance} (h : b.Fits q)
    (hid : id < q.conf.maxIdValue) (hread : quicStreamReadData (q.si id) len = .ok (res, si)) :
    (b.readData id (q.si id) len).Fits (q.setSi id si) := by
  obtain ⟨l, hl, hsi⟩ := Except.bind_eq_ok.mp hread
  cases hsi
  obtain ⟨howned, hshrinks, hqueue, horigin, hcurrent⟩ :=
    (h.owned.congr fun a => (owners_eq hid a).symm).readLoop (h.queued id) hl
  refine h.setOrigin hid howned hshrinks horigin hcurrent rfl (fun i hi => ?_) ?_
  · exact congrArg _ (q.updateSi_si_of_ne (fun _ => _) hi)
  · rw [QuicStreams.setSi_si]
    exact hqueue

end Fits

/-- `QuicStreamInstanceDeInit` of the stream: its queue is empty. -/
def queueDeInit (q : QuicStreams) (id : ℕ) : QuicStreams :=
  q.updateSi id fun si => { si with queue := [] }

/-- The entries of a queue are freed. -/
theorem Fits.instanceDeInit {q : QuicStreams} (h : b.Fits q) (hid : id < q.conf.maxIdValue) :
    (b.instanceDeInit id).Fits (queueDeInit q id) := by
  obtain ⟨howned, hshrinks⟩ := (h.owned.congr fun a => (owners_eq hid a).symm).foldl_free
  obtain ⟨horigin, hcurrent⟩ := foldl_free_frame (b.origin id) b
  refine h.setOrigin hid (howned.congr fun _ => rfl) hshrinks horigin hcurrent rfl
    (fun i hi => ?_) ?_
  · rw [queueDeInit, QuicStreams.updateSi_si_of_ne _ _ hi]
  · rw [queueDeInit, QuicStreams.updateSi_si]
    exact .nil

/-- `QuicStreamConfDeInit`: the entries of all queues are freed. -/
theorem Fits.confDeInit {q : QuicStreams} (h : b.Fits q) (hn : n ≤ q.conf.maxIdValue) :
    (b.confDeInit n).Fits ((List.range n).foldl queueDeInit q) ∧
      ((List.range n).foldl queueDeInit q).conf.maxIdValue = q.conf.maxIdValue := by
  unfold DataBufs.confDeInit
  induction n with
  | zero => exact ⟨h, rfl⟩
  | succ n ih =>
    obtain ⟨hfits, hmax⟩ := ih (Nat.le_of_succ_le hn)
    rw [List.range_succ, List.foldl_append, List.foldl_append]
    refine ⟨hfits.instanceDeInit ?_, hmax⟩
    rw [hmax]
    exact hn

/-- The teardown empties the queues and leaves the packet that is parsed. -/
theorem confDeInit_frame (n : ℕ) : (∀ i < n, (b.confDeInit n).origin i = []) ∧
    (b.confDeInit n).current = b.current := by
  unfold DataBufs.confDeInit
  induction n with
  | zero => exact ⟨fun i hi => absurd hi (Nat.not_lt_zero i), rfl⟩
  | succ n ih =>
    obtain ⟨hempty, hcurrent⟩ := ih
    rw [List.range_succ, List.foldl_append]
    obtain ⟨horigin, hcurrent'⟩ := foldl_free_frame
      (((List.range n).foldl instanceDeInit b).origin n) ((List.range n).foldl instanceDeInit b)
    refine ⟨fun i hi => ?_, hcurrent'.trans hcurrent⟩
    by_cases hin : i = n
    · subst hin
      exact Function.update_self _ _ _
    · refine (Function.update_of_ne hin _ _).trans ?_
      rw [horigin]
      exact hempty i (by omega)

/-- Behind the teardown nothing but the packet that is parsed holds a reference. -/
theorem confDeInit_owners (n a : ℕ) :
    (b.confDeInit n).owners n a = RefHeap.held b.current a := by
  obtain ⟨horigin, hcurrent⟩ := @confDeInit_frame b n
  rw [owners, hcurrent, entries, Finset.sum_eq_zero fun i hi => ?_, Nat.zero_add]
  rw [horigin i (Finset.mem_range.mp hi), List.count_nil]

end DataBufs

end Tbquic
