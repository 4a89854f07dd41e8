import Tbquic.Frame.Receive
import Tbquic.Lists.Loops

/-!
# Queues of buffers in memory

The buffers of `q_buff.c` with their list nodes: they are allocated, queued, moved to the queue of
what was sent, acknowledged and destroyed. The queues in memory hold what the lists of the other
modules hold, no freed buffer is looked at, and every buffer that is allocated is in one queue, as
long as no range is acknowledged from the buffer that the range before it returned.
-/

namespace Tbquic

open Links

/-- The send buffers in memory. -/
structure QBuffMemory (A : Type) where
  /-- The buffers and the heads of the queues. -/
  objects : Objects A QBuff
  /-- The streams. -/
  streams : QuicStreams

/-- What happens to the queues. -/
inductive QueueEvent (A : Type)
  /-- `QBuffQueueHeadInit`. -/
  | init (h : A)
  /-- `QBuffNew`, which returns an address, and `QBuffQueueAdd`. -/
  | add (h new : A) (qb : QBuff)
  /-- `QuicWritePkt` builds the packet of the first buffer of a queue, takes it out with
  `QBuffQueueUnlink` and puts it into another one with `QBuffQueueAdd`. -/
  | send (h sent : A) (qb : QBuff)
  /-- `QBufAckSentPkt`, with the buffer that the call for the range before it returned. -/
  | ack (h : A) (smallest largest : ℕ) (start : Option A)
  /-- `QBuffQueueDestroy`. -/
  | destroy (h : A)

/-- The body of the loop of `QBufAckSentPkt`. -/
def ackBody (smallest largest : ℕ) : LoopBody QuicStreams QBuff where
  left _ qb := if quicGt qb.pktNum largest ∨ quicGt smallest qb.pktNum then some qb else none
  stops _ qb := decide (¬ quicGt qb.pktNum largest) && decide (quicGt smallest qb.pktNum)
  next q qb :=
    if quicGt qb.pktNum largest ∨ quicGt smallest qb.pktNum then q
    else qBufStreamFlagsProc qb.streamId qb.flags q

/-- The body of the loop of `QBuffQueueDestroy`. -/
def destroyBody : LoopBody Unit QBuff where
  left _ _ := none
  stops _ _ := false
  next _ _ := ()

namespace QBuffMemory

variable {A : Type} [DecidableEq A]

/-- `QBuffQueueAdd`. -/
def qBuffQueueAdd (h qb : A) (o : Objects A QBuff) : Option (Objects A QBuff) := do
  let links ← listAddTail qb h o.links
  pure { o with links }

/-- `QBuffQueueUnlink`. -/
def qBuffQueueUnlink (qb : A) (o : Objects A QBuff) : Option (Objects A QBuff) := do
  let links ← listDel qb o.links
  pure { o with links }

/-- The first buffer of a queue goes to another queue. -/
def send (h sent : A) (qb : QBuff) (o : Objects A QBuff) : Option (Objects A QBuff) := do
  let pos ← o.links.next h
  let _ ← o.data pos
  let o ← qBuffQueueUnlink pos { o with data := Function.update o.data pos (some qb) }
  qBuffQueueAdd sent pos o

/-- `QBufAckSentPkt`. When `start` is set, it follows a null pointer. -/
def qBufAckSentPkt (fuel : ℕ) (h : A) (smallest largest : ℕ) (start : Option A)
    (m : QBuffMemory A) : Option (Option A × QBuffMemory A) :=
  if start.isSome then none
  else do
    let r ← m.objects.forEachSafeReverse fuel h (ackBody smallest largest) m.streams
    pure (r.1, { objects := r.2.2, streams := r.2.1 })

/-- `QBuffQueueDestroy`. -/
def qBuffQueueDestroy (fuel : ℕ) (h : A) (o : Objects A QBuff) : Option (Objects A QBuff) := do
  let r ← o.forEachSafe fuel h destroyBody ()
  pure r.2.2

/-- The memory behind an event. -/
def step (fuel : ℕ) (m : QBuffMemory A) : QueueEvent A → Option (QBuffMemory A)
  | .init h => some { m with objects.links := initListHead h m.objects.links }
  | .add h new qb => do
    let objects ← qBuffQueueAdd h new
      { m.objects with data := Function.update m.objects.data new (some qb) }
    pure { m with objects }
  | .send h sent qb => do
    let objects ← send h sent qb m.objects
    pure { m with objects }
  | .ack h smallest largest start => do
    let r ← qBufAckSentPkt fuel h smallest largest start m
    pure r.2
  | .destroy h => do
    let objects ← qBuffQueueDestroy fuel h m.objects
    pure { m with objects }

end QBuffMemory

/-- The queues as lists of buffers. -/
structure QBuffLists (A : Type) where
  /-- The queue of each head that was initialized. -/
  queue : A → Option (List QBuff)
  /-- The streams. -/
  streams : QuicStreams

namespace QBuffLists

variable {A : Type} [DecidableEq A]

/-- Store a queue. -/
def set (q : QBuffLists A) (h : A) (qbs : List QBuff) : QBuffLists A :=
  { q with queue := Function.update q.queue h (some qbs) }

/-- The lists behind an event, which only uses heads that were initialized, and acknowledges from
the end of a queue. -/
def step (q : QBuffLists A) : QueueEvent A → Option (QBuffLists A)
  | .init h => if q.queue h = none then some (q.set h []) else none
  | .add h _ qb => do
    let qbs ← q.queue h
    pure (q.set h (qbs ++ [qb]))
  | .send h sent qb => do
    let qbs ← q.queue h
    let sentQbs ← q.queue sent
    if qbs = [] ∨ h = sent then none
    else pure ((q.set h qbs.tail).set sent (sentQbs ++ [qb]))
  | .ack h smallest largest none => do
    let qbs ← q.queue h
    let r := qBufAckLoop smallest largest qbs.reverse q.streams
    pure { queue := Function.update q.queue h (some r.1.reverse), streams := r.2.2 }
  | .ack _ _ _ (some _) => none
  | .destroy h => do
    let _ ← q.queue h
    pure (q.set h [])

end QBuffLists

/-- The loop of `QBufAckSentPkt` is the one over the list. -/
theorem ackBody_eq (smallest largest : ℕ) (qbs : List QBuff) (q : QuicStreams) :
    qBufAckLoop smallest largest qbs q =
      ((ackBody smallest largest).sweep qbs q, (ackBody smallest largest).stopped qbs q,
        (ackBody smallest largest).final qbs q) := by
  induction qbs generalizing q with
  | nil => rfl
  | cons qb qbs ih =>
    rw [qBufAckLoop, LoopBody.sweep, LoopBody.stopped, LoopBody.final]
    by_cases habove : quicGt qb.pktNum largest
    · simp [ackBody, habove, ih]
    by_cases hbelow : quicGt smallest qb.pktNum
    · simp [ackBody, habove, hbelow]
    · simp [ackBody, habove, hbelow, ih]

/-- The queues in memory are lists of buffers. -/
structure QBuffMemory.Represents {A : Type} (isHead : A → Prop) (n : ℕ) (s : A → Option (List A))
    (m : QBuffMemory A) (q : QBuffLists A) : Prop where
  /-- The links form the queues. -/
  holds : m.objects.links.Holds s
  /-- The entries are the buffers. -/
  contents (h : A) : (s h).map (List.map m.objects.data) = (q.queue h).map (List.map some)
  /-- A queue has a head. -/
  head (h : A) (l : List A) : s h = some l → isHead h
  /-- Buffers are no heads. -/
  buffer (x : A) : m.objects.data x ≠ none → ¬ isHead x
  /-- Every buffer is in a queue. -/
  queued (x : A) : m.objects.data x ≠ none → ∃ h l, s h = some l ∧ x ∈ l
  /-- The queues are short. -/
  short (h : A) (qbs : List QBuff) : q.queue h = some qbs → qbs.length ≤ n
  /-- The streams are the same. -/
  streams : m.streams = q.streams

namespace QBuffMemory.Represents

variable {A : Type} {isHead : A → Prop} {n : ℕ} {s : A → Option (List A)} {m : QBuffMemory A}
  {q : QBuffLists A} {h x : A} {l : List A} {qbs : List QBuff}

/-- The addresses of a queue. -/
theorem exists_list (hr : m.Represents isHead n s q) (hq : q.queue h = some qbs) :
    ∃ l, s h = some l ∧ m.objects.Contents l qbs := by
  have hcontents := hr.contents h
  rw [hq, Option.map_some, Option.map_eq_some_iff] at hcontents
  exact hcontents

/-- A head that was not initialized has no queue. -/
theorem eq_none (hr : m.Represents isHead n s q) (hq : q.queue h = none) : s h = none := by
  have hcontents := hr.contents h
  rwa [hq, Option.map_none, Option.map_eq_none_iff] at hcontents

/-- What is in a queue is a buffer. -/
theorem data_ne_none (hr : m.Represents isHead n s q) (hl : s h = some l) (hx : x ∈ l) :
    m.objects.data x ≠ none := by
  have hcontents := hr.contents h
  rw [hl, Option.map_some] at hcontents
  obtain ⟨qbs, -, heq⟩ := Option.map_eq_some_iff.mp hcontents.symm
  intro hnone
  have hmem : none ∈ qbs.map some := heq ▸ hnone ▸ List.mem_map_of_mem hx
  obtain ⟨qb, -, hqb⟩ := List.mem_map.mp hmem
  cases hqb

/-- A head is in no queue. -/
theorem notEntry (hr : m.Represents isHead n s q) (hhead : isHead h) : NotEntry s h :=
  fun _ _ hl hmem => hr.buffer h (hr.data_ne_none hl hmem) hhead

/-- An address that is not in use is in no queue. -/
theorem free (hr : m.Represents isHead n s q) (hx : ¬ isHead x) (hdata : m.objects.data x = none) :
    Free s x := by
  intro h l hl hmem
  rcases List.mem_cons.mp hmem with rfl | hmem
  · exact hx (hr.head x l hl)
  · exact hr.data_ne_none hl hmem hdata

/-- More room for the queues. -/
theorem mono (hr : m.Represents isHead n s q) {k : ℕ} (hk : n ≤ k) : m.Represents isHead k s q :=
  { hr with short := fun h qbs hq => (hr.short h qbs hq).trans hk }

variable [DecidableEq A]

/-- One queue changes, with the buffers that are in it before or afterwards. -/
theorem set {t : QBuffMemory A} {r : QBuffLists A} {k : List A}
    (hr : m.Represents isHead n s q) (hqueue : r.queue = Function.update q.queue h (some qbs))
    (hstreams : t.streams = r.streams) (hhead : isHead h)
    (hholds : t.objects.links.Holds (Function.update s h (some k)))
    (hk : t.objects.Contents k qbs) (hkeep : ∀ x ∈ k, ¬ isHead x)
    (hleft : ∀ l, s h = some l → ∀ x ∈ l, x ∉ k → t.objects.data x = none)
    (hsame : ∀ x, x ∉ k → (∀ l, s h = some l → x ∉ l) → t.objects.data x = m.objects.data x)
    (hshort : qbs.length ≤ n) :
    Represents isHead n (Function.update s h (some k)) t r where
  holds := hholds
  contents a := by
    by_cases heq : a = h
    · rw [hqueue, heq, Function.update_self, Function.update_self]
      exact congrArg some hk
    · rw [hqueue, Function.update_of_ne heq, Function.update_of_ne heq, ← hr.contents a]
      cases ha : s a with
      | none => rfl
      | some l =>
        refine congrArg some (List.map_congr_left fun x hx => hsame x (fun hmem => heq ?_) ?_)
        · exact hholds.apart a h x l k (by rw [Function.update_of_ne heq, ha])
            (Function.update_self ..) (List.mem_cons_of_mem a hx) (List.mem_cons_of_mem h hmem)
        · intro l' hl' hmem
          exact heq (hr.holds.apart a h x l l' ha hl' (List.mem_cons_of_mem a hx)
            (List.mem_cons_of_mem h hmem))
  head a l ha := by
    by_cases heq : a = h
    · exact heq ▸ hhead
    · rw [Function.update_of_ne heq] at ha
      exact hr.head a l ha
  buffer x hx := by
    by_cases hmem : x ∈ k
    · exact hkeep x hmem
    by_cases hold : ∃ l, s h = some l ∧ x ∈ l
    · obtain ⟨l, hl, hold⟩ := hold
      exact absurd (hleft l hl x hold hmem) hx
    · refine hr.buffer x ?_
      rwa [← hsame x hmem fun l hl hx' => hold ⟨l, hl, hx'⟩]
  queued x hx := by
    by_cases hmem : x ∈ k
    · exact ⟨h, k, Function.update_self .., hmem⟩
    by_cases hold : ∃ l, s h = some l ∧ x ∈ l
    · obtain ⟨l, hl, hold⟩ := hold
      exact absurd (hleft l hl x hold hmem) hx
    · have hx' := hx
      change t.objects.data x ≠ none at hx'
      rw [hsame x hmem fun l hl hx' => hold ⟨l, hl, hx'⟩] at hx'
      obtain ⟨a, l, ha, hxl⟩ := hr.queued x hx'
      have hne : a ≠ h := fun heq => hold ⟨l, heq ▸ ha, hxl⟩
      exact ⟨a, l, by rw [Function.update_of_ne hne, ha], hxl⟩
  short a qbs' ha := by
    by_cases heq : a = h
    · rw [hqueue, heq, Function.update_self] at ha
      cases Option.some.inj ha
      exact hshort
    · rw [hqueue, Function.update_of_ne heq] at ha
      exact hr.short a qbs' ha
  streams := hstreams

/-- Initializing a head gives it an empty queue. -/
theorem init (hr : m.Represents isHead n s q) (hhead : isHead h) (hq : q.queue h = none) :
    ∃ s', Represents isHead n s' { m with objects.links := initListHead h m.objects.links }
      (q.set h []) := by
  refine ⟨_, hr.set (k := []) rfl hr.streams hhead
    (holds_init hr.holds (hr.notEntry hhead)) rfl (fun x hx => absurd hx List.not_mem_nil)
    (fun l hl => ?_) (fun _ _ _ => rfl) n.zero_le⟩
  rw [hr.eq_none hq] at hl
  cases hl

/-- A buffer joins a queue. -/
theorem add (hr : m.Represents isHead n s q) {new : A} (qb : QBuff) (hnew : ¬ isHead new)
    (hdata : m.objects.data new = none) (hq : q.queue h = some qbs) (hshort : qbs.length < n) :
    ∃ links, listAddTail new h m.objects.links = some links ∧
      ∃ s', Represents isHead n s'
        { m with objects := { links, data := Function.update m.objects.data new (some qb) } }
        (q.set h (qbs ++ [qb])) := by
  obtain ⟨l, hl, hcontents⟩ := hr.exists_list hq
  have hout : new ∉ l := fun hmem => hr.data_ne_none hl hmem hdata
  obtain ⟨links, hrun, hholds⟩ := holds_addTail hr.holds hl (hr.free hnew hdata)
  refine ⟨links, hrun, _, hr.set rfl hr.streams (hr.head h l hl) hholds ?_ ?_ ?_ ?_ ?_⟩
  · unfold Objects.Contents at hcontents ⊢
    rw [List.map_append, List.map_append, ← hcontents]
    refine congrArg₂ (· ++ ·) (List.map_congr_left fun x hx => ?_) ?_
    · exact Function.update_of_ne (ne_of_mem_of_not_mem hx hout) _ _
    · exact congrArg (fun p => [p]) (Function.update_self ..)
  · intro x hx
    rcases List.mem_append.mp hx with hx | hx
    · exact hr.buffer x (hr.data_ne_none hl hx)
    · exact List.mem_singleton.mp hx ▸ hnew
  · intro k hk x hx hx'
    cases Option.some.inj (hl.symm.trans hk)
    exact absurd (List.mem_append_left _ hx) hx'
  · intro x hx _
    refine Function.update_of_ne (fun heq => hx ?_) _ _
    exact List.mem_append_right _ (List.mem_singleton.mpr heq)
  · rw [List.length_append, List.length_singleton]
    exact hshort

/-- The first buffer leaves its queue, as if it were freed. -/
theorem unlink (hr : m.Represents isHead n s q) {qb : QBuff} (hq : q.queue h = some (qb :: qbs)) :
    ∃ pos links, m.objects.links.next h = some pos ∧ m.objects.data pos = some qb ∧
      listDel pos m.objects.links = some links ∧
      ∃ s', Represents isHead n s'
        { m with objects := { links, data := Function.update m.objects.data pos none } }
        (q.set h qbs) := by
  obtain ⟨l, hl, hcontents⟩ := hr.exists_list hq
  cases l with
  | nil => cases (show [] = some qb :: _ from hcontents)
  | cons pos l =>
    obtain ⟨hdata, hrest⟩ := List.cons.inj (show m.objects.data pos :: l.map _ = _ from hcontents)
    have hring := hr.holds.ring h _ hl
    have hnodup := hring.nodup
    have hpos : pos ∉ l := by grind
    obtain ⟨links, hrun, hholds⟩ := holds_del (l := []) hr.holds hl
    refine ⟨pos, links, hring.path.1.1, hdata, hrun, _, hr.set rfl hr.streams (hr.head h _ hl)
      hholds ?_ ?_ ?_ ?_ ?_⟩
    · unfold Objects.Contents
      rw [List.nil_append, ← hrest]
      exact List.map_congr_left fun x hx =>
        Function.update_of_ne (ne_of_mem_of_not_mem hx hpos) _ _
    · intro x hx
      exact hr.buffer x (hr.data_ne_none hl (List.mem_cons_of_mem pos hx))
    · intro k hk x hx hx'
      cases Option.some.inj (hl.symm.trans hk)
      rcases List.mem_cons.mp hx with rfl | hx
      · exact Function.update_self ..
      · exact absurd hx hx'
    · intro x _ hx'
      refine Function.update_of_ne (fun heq => hx' _ hl ?_) _ _
      exact heq ▸ List.mem_cons_self
    · exact (Nat.le_succ _).trans (hr.short h _ hq)

/-- A loop over a queue leaves a part of it. -/
theorem swept (hr : m.Represents isHead n s q) {t : Objects A QBuff} (streams : QuicStreams)
    {keep : List A} {left : List QBuff} (hq : q.queue h = some qbs) (hl : s h = some l)
    (hholds : t.links.Holds (Function.update s h (some keep))) (hcontents : t.Contents keep left)
    (hsub : keep.Sublist l) (hfreed : ∀ x ∈ l, x ∉ keep → t.data x = none)
    (hothers : ∀ x, x ∉ l → t.data x = m.objects.data x) :
    ∃ s', Represents isHead n s' { objects := t, streams }
      { queue := Function.update q.queue h (some left), streams } := by
  refine ⟨_, hr.set rfl rfl (hr.head h l hl) hholds hcontents ?_ ?_ ?_ ?_⟩
  · exact fun x hx => hr.buffer x (hr.data_ne_none hl (hsub.subset hx))
  · intro k hk x hx hx'
    cases Option.some.inj (hl.symm.trans hk)
    exact hfreed x hx hx'
  · exact fun x _ hx => hothers x (hx l hl)
  · obtain ⟨l', hl', hold⟩ := hr.exists_list hq
    cases Option.some.inj (hl.symm.trans hl')
    have hlen := congrArg List.length hold
    have hlen' := congrArg List.length hcontents
    rw [List.length_map, List.length_map] at hlen hlen'
    rw [← hlen']
    exact (hsub.length_le.trans hlen.le).trans (hr.short h qbs hq)

end QBuffMemory.Represents

section Run

variable {A : Type} [DecidableEq A] {isHead : A → Prop} {n fuel : ℕ} {s : A → Option (List A)}
  {m : QBuffMemory A} {q r : QBuffLists A}

/-- `QBufAckSentPkt` from the end of a queue does to the memory what the loop does to the list, and
returns the buffer that stops it. -/
theorem qBufAckSentPkt_represents (hr : m.Represents isHead n s q) (hfuel : n < fuel) {h : A}
    {qbs : List QBuff} (hq : q.queue h = some qbs) (smallest largest : ℕ) :
    ∃ ret t s', m.qBufAckSentPkt fuel h smallest largest none = some (ret, t) ∧
      ret.isSome = (qBufAckLoop smallest largest qbs.reverse q.streams).2.1 ∧
      t.Represents isHead n s'
        { queue := Function.update q.queue h
            (some (qBufAckLoop smallest largest qbs.reverse q.streams).1.reverse)
          streams := (qBufAckLoop smallest largest qbs.reverse q.streams).2.2 } := by
  obtain ⟨l, hl, hcontents⟩ := hr.exists_list hq
  have hlen : l.length < fuel := by
    have hlen := congrArg List.length hcontents
    rw [List.length_map, List.length_map] at hlen
    exact (hlen.le.trans (hr.short h qbs hq)).trans_lt hfuel
  obtain ⟨ret, t, keep, hrun, hret, hholds, hkeep, hsub, hfreed, hothers⟩ :=
    Objects.forEachSafeReverse_swept (ackBody smallest largest) m.streams hr.holds hl hcontents hlen
  obtain ⟨s', hr'⟩ := hr.swept ((ackBody smallest largest).final qbs.reverse m.streams) hq hl
    hholds hkeep hsub hfreed hothers
  rw [ackBody_eq, ← hr.streams]
  refine ⟨ret, _, s', ?_, hret, hr'⟩
  rw [QBuffMemory.qBufAckSentPkt, if_neg (by simp), hrun]
  rfl

/-- The call for the next range, from the buffer that this one returns, follows a null pointer
exactly when a buffer stops this range. -/
theorem qBufAckSentPkt_next (hr : m.Represents isHead n s q) (hfuel : n < fuel) {h : A}
    {qbs : List QBuff} (hq : q.queue h = some qbs) (smallest largest smallest' largest' : ℕ) :
    ∃ ret t, m.qBufAckSentPkt fuel h smallest largest none = some (ret, t) ∧
      (t.qBufAckSentPkt fuel h smallest' largest' ret = none ↔
        (qBufAckLoop smallest largest qbs.reverse q.streams).2.1 = true) := by
  obtain ⟨ret, t, s', hrun, hret, hr'⟩ := qBufAckSentPkt_represents hr hfuel hq smallest largest
  refine ⟨ret, t, hrun, ?_⟩
  rw [← hret]
  cases ret with
  | some a => exact iff_of_true rfl rfl
  | none =>
    obtain ⟨ret', t', s'', hrun', -⟩ := qBufAckSentPkt_represents hr' hfuel
      (Function.update_self ..) smallest' largest'
    rw [hrun']
    exact iff_of_false (Option.some_ne_none _) Bool.false_ne_true

end Run

end Tbquic
