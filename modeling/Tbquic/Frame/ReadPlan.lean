import Tbquic.Frame.Grants
import Tbquic.Frame.Unallocated

/-!
# The streams of a read

`QuicStreamReadV` distributes its buffers over the streams of the message queue. Which streams it
reads, and into which buffers, depends on the lengths of their entries only, and what it fills in
for a stream on its entry, up to the flags of the streams before it.
-/

namespace Tbquic

/-- The entries filled for a stream. -/
def reportsOf (id : ℕ) (reports : List StreamReport) : List StreamReport :=
  reports.filter fun r => r.handle = id

/-- The streams that are read, each with the buffers that are left for it. Without a result the call
does not return. A message may be that of a stream that was read already. -/
def readPlan (q : QuicStreams) :
    List ℕ → List QuicStreamMsg → List ℕ → Option (List (ℕ × List ℕ))
  | _, [], _ => some []
  | _, _ :: _, [] => some []
  | seen, msg :: msgs, len :: iov =>
    if ¬ q.Found msg.id then readPlan q seen msgs (len :: iov)
    else if msg.id ∈ seen then (if len = 0 then none else readPlan q seen msgs (len :: iov))
    else
      match buffersLeft (len :: iov) (q.si msg.id).inOrder with
      | .left iov' => (readPlan q (msg.id :: seen) msgs iov').map ((msg.id, len :: iov) :: ·)
      | .filled => some [(msg.id, len :: iov)]
      | .endless => none

/-- A read into the buffers empties a queue in order, and whether it returns bytes. -/
def emptiedBy : List ℕ → List ℕ → Option Bool
  | [], _ => none
  | len :: iov, ns =>
    match fillEnd len ns with
    | .emptied => some (decide (0 < ns.sum))
    | .cut => none
    | .next => emptiedBy iov (afterFill len ns)

/-- Nothing is filled in. -/
def ReadVOut.empty : ReadVOut := { reports := [], fin := false, reset := false }

/-- What is filled in behind what was filled in. The flags of the former stay set. -/
def ReadVOut.then (out own : ReadVOut) : ReadVOut where
  reports := out.reports ++ own.reports.map fun r =>
    { r with fin := out.fin || r.fin, reset := out.reset || r.reset }
  fin := out.fin || own.fin
  reset := out.reset || own.reset

/-- The inner loop of `QuicStreamReadV` on the entry of a stream, from flags that are not set. -/
def readEntry (id : ℕ) :
    List ℕ → QuicStreamInstance →
      Except Fail ((Option (List ℕ) × ReadVOut) × QuicStreamInstance)
  | [], si => .ok ((none, .empty), si)
  | len :: iov, si => do
    let r ← quicStreamReadData si len
    if r.1.data.length = 0 then
      if len = 0 then .error .fuel else .ok ((some (len :: iov), ReadVOut.empty.flag r.1), r.2)
    else if r.1.data.length < len then
      .ok ((some iov, (ReadVOut.empty.flag r.1).report id r.1), r.2)
    else
      (readEntry id iov r.2).map fun s =>
        ((s.1.1, ((ReadVOut.empty.flag r.1).report id r.1).then s.1.2), s.2)

section Entry

variable {out own : ReadVOut} {id len : ℕ} {iov : List ℕ} {si si' : QuicStreamInstance}
  {q : QuicStreams} {res : ReadResult}

theorem ReadVOut.then_empty (out : ReadVOut) : out.then .empty = out := by
  simp [ReadVOut.then, ReadVOut.empty]

theorem ReadVOut.then_assoc (a b c : ReadVOut) : (a.then b).then c = a.then (b.then c) := by
  simp [ReadVOut.then, Bool.or_assoc]

/-- A read flags and reports behind what was filled in. -/
theorem ReadVOut.flag_eq (out : ReadVOut) (res : ReadResult) :
    out.flag res = out.then (ReadVOut.empty.flag res) := by
  simp [ReadVOut.then, ReadVOut.empty, ReadVOut.flag]

theorem ReadVOut.report_eq (out : ReadVOut) (id : ℕ) (res : ReadResult) :
    (out.flag res).report id res = out.then ((ReadVOut.empty.flag res).report id res) := by
  simp [ReadVOut.then, ReadVOut.empty, ReadVOut.flag, ReadVOut.report]

/-- The entry behind its first read. -/
theorem readEntry_cons (hread : quicStreamReadData si len = .ok (res, si')) :
    readEntry id (len :: iov) si =
      if res.data.length = 0 then
        if len = 0 then .error .fuel
        else .ok ((some (len :: iov), ReadVOut.empty.flag res), si')
      else if res.data.length < len then
        .ok ((some iov, (ReadVOut.empty.flag res).report id res), si')
      else
        (readEntry id iov si').map fun s =>
          ((s.1.1, ((ReadVOut.empty.flag res).report id res).then s.1.2), s.2) := by
  rw [readEntry, hread]
  rfl

theorem readEntry_error {e : Fail} (hread : quicStreamReadData si len = .error e) :
    readEntry id (len :: iov) si = .error e := by
  rw [readEntry, hread]
  rfl

/-- Opening the receiving part does not change what is read. -/
theorem quicStreamReadData_recvOpen (si : QuicStreamInstance) (len : ℕ) :
    quicStreamReadData (quicStreamInstanceRecvOpen si) len =
      (quicStreamReadData si len).map fun r => (r.1, quicStreamInstanceRecvOpen r.2) := by
  unfold quicStreamInstanceRecvOpen
  by_cases hstart : si.recvState = .start
  · simp only [if_pos hstart, quicStreamReadData]
    cases readLoop len si.queue si.offset [] with
    | error e => rfl
    | ok l => simp [Except.map, hstart, bind, Except.bind]
  · simp only [if_neg hstart, quicStreamReadData]
    cases readLoop len si.queue si.offset [] with
    | error e => rfl
    | ok l =>
      have hnot : ¬ (if decide (l.queue = [] ∧ si.recvState = .dataRecvd) = true then .dataRead
          else si.recvState) = StreamState.start := by
        split_ifs <;> simp [hstart]
      simp only [Except.map, bind, Except.bind, if_neg hnot]

theorem readEntry_recvOpen (id : ℕ) (iov : List ℕ) (si : QuicStreamInstance) :
    readEntry id iov (quicStreamInstanceRecvOpen si) =
      (readEntry id iov si).map fun r => (r.1, quicStreamInstanceRecvOpen r.2) := by
  induction iov generalizing si with
  | nil => rfl
  | cons len iov ih =>
    have hopen := quicStreamReadData_recvOpen si len
    cases hread : quicStreamReadData si len with
    | error e =>
      rw [hread] at hopen
      rw [readEntry_error hread, readEntry_error hopen]
      rfl
    | ok r =>
      rw [hread] at hopen
      rw [readEntry_cons hread, readEntry_cons hopen, ih]
      split_ifs
      · rfl
      · rfl
      · rfl
      · cases readEntry id iov r.2 <;> rfl

/-- A read keeps the streams. -/
theorem keeps_readData (hread : quicStreamReadData (q.si id) len = .ok (res, si')) :
    q.Keeps (q.setSi id si') := by
  obtain ⟨hrecv, -, hsend, -⟩ := quicStreamReadData_states hread
  refine ⟨rfl, rfl, rfl, rfl, fun i hi => ?_, fun i hi => ?_⟩
  · by_cases heq : i = id
    · subst heq
      rw [QuicStreams.setSi_si, hrecv]
      split
      · exact fun h => (by cases h)
      · exact hi
    · rwa [show (q.setSi id si').si i = q.si i from q.updateSi_si_of_ne (fun _ => si') heq]
  · by_cases heq : i = id
    · subst heq
      rwa [QuicStreams.setSi_si, hsend]
    · rwa [show (q.setSi id si').si i = q.si i from q.updateSi_si_of_ne (fun _ => si') heq]

/-- A stream that was looked up need not be opened again. -/
theorem opened_setSi (h : q.opened id = q) : (q.setSi id si).opened id = q.setSi id si := by
  by_cases hmax : q.conf.maxIdOpened < id
  · rw [QuicStreams.opened, if_pos hmax] at h
    have hconf := congrArg (fun q : QuicStreams => q.conf.maxIdOpened) h
    change id = q.conf.maxIdOpened at hconf
    exact absurd hmax (by omega)
  · exact if_neg hmax

theorem setSi_setSi : (q.setSi id si).setSi id si' = q.setSi id si' := by
  rw [QuicStreams.setSi, QuicStreams.setSi, QuicStreams.setSi, Function.update_idem]

/-- The inner loop works on the entry of its stream, and adds to what was filled in. -/
theorem readVStream_of_opened (hfound : q.Found id) (hopened : q.opened id = q) :
    (∀ r, readEntry id iov (q.si id) = .ok r →
      readVStream id iov out q = (.ok (r.1.1, out.then r.1.2), q.setSi id r.2)) ∧
    (∀ e, readEntry id iov (q.si id) = .error e →
      ∃ t, readVStream id iov out q = (.error e, t)) := by
  induction iov generalizing q out with
  | nil =>
    refine ⟨fun r hr => ?_, fun e he => (by cases he)⟩
    cases hr
    have hsame : q.setSi id (q.si id) = q := by
      rw [QuicStreams.setSi, QuicStreams.si, Function.update_eq_self]
    rw [hsame, ReadVOut.then_empty]
    rfl
  | cons len iov ih =>
    rw [readVStream, Prog.attempt_bind, quicStreamGetInstance_of_found hfound, hopened]
    dsimp only
    rw [Prog.get_bind]
    cases hread : quicStreamReadData (q.si id) len with
    | error e =>
      rw [readEntry_error hread, Prog.ofExcept_error, Prog.fail_bind]
      refine ⟨fun r hr => (by cases hr), fun e he => ?_⟩
      cases he
      exact ⟨_, rfl⟩
    | ok r =>
      obtain ⟨res, si'⟩ := r
      rw [readEntry_cons hread, Prog.ofExcept_ok, Prog.pure_bind, Prog.modify_bind]
      have hkeeps : q.Keeps (q.setSi id si') := keeps_readData hread
      have hrest := @ih (out.then ((ReadVOut.empty.flag res).report id res)) (q.setSi id si')
        (hfound.keeps hkeeps) (opened_setSi hopened)
      rw [QuicStreams.setSi_si] at hrest
      dsimp only
      rw [out.report_eq id res, out.flag_eq res]
      split_ifs
      · exact ⟨fun r hr => (by cases hr), fun e he => by cases he; exact ⟨_, rfl⟩⟩
      · exact ⟨fun r hr => by cases hr; rfl, fun e he => (by cases he)⟩
      · exact ⟨fun r hr => by cases hr; rfl, fun e he => (by cases he)⟩
      · cases hentry : readEntry id iov si' with
        | error e => exact ⟨fun r hr => (by cases hr), fun e' he => hrest.2 e' (hentry.trans he)⟩
        | ok r =>
          refine ⟨fun r' hr => ?_, fun e he => (by cases he)⟩
          cases hr
          rw [hrest.1 r hentry, ReadVOut.then_assoc, setSi_setSi]

/-- A read ends a stream when it empties its queue, and keeps it in order unless it cuts an
entry. -/
theorem quicStreamReadData_ended (hread : quicStreamReadData si len = .ok (res, si')) :
    (si'.queue = [] ↔ quicStreamOrdered si = true ∧ fillEnd len si.inOrder = .emptied) ∧
    (quicStreamOrdered si' = true ↔ quicStreamOrdered si = true ∧
      fillEnd len si.inOrder ≠ .cut) ∧
    (res.fin = true ↔ si.recvState = .dataRecvd ∧ si'.queue = []) ∧
    (res.reset = true ↔ si.recvState = .resetRecvd) := by
  obtain ⟨l, hl, h⟩ := Except.bind_eq_ok.mp hread
  obtain ⟨hempty, hordered⟩ := readLoop_ordered (Nat.zero_le len) hl
  cases h
  refine ⟨hempty, hordered, decide_eq_true_iff.trans and_comm, decide_eq_true_iff.trans ?_⟩
  by_cases hfin : l.queue = [] ∧ si.recvState = .dataRecvd
  · rw [if_pos (decide_eq_true hfin), hfin.2]
    exact iff_of_false (by simp) (by simp)
  · rw [if_neg (mt of_decide_eq_true hfin)]

/-- What the inner loop fills in for a stream, and what it leaves of it. -/
structure EntryRead (id : ℕ) (iov : List ℕ) (si : QuicStreamInstance) (own : ReadVOut)
    (si' : QuicStreamInstance) : Prop where
  /-- The sending part is left alone. -/
  sendState : si'.sendState = si.sendState
  /-- The end of the stream is marked as read. -/
  state : si'.recvState = if own.fin = true then .dataRead else si.recvState
  /-- The end is flagged. -/
  fin : own.fin = true ↔ si.recvState = .dataRecvd ∧ quicStreamOrdered si = true ∧
    emptiedBy iov si.inOrder ≠ none
  /-- The reset is flagged. -/
  reset : own.reset = true ↔ iov ≠ [] ∧ si.recvState = .resetRecvd
  /-- All entries are those of the stream, and tell of its reset. -/
  reports : ∀ r ∈ own.reports, r.handle = id ∧ (r.reset = true ↔ si.recvState = .resetRecvd)
  /-- An entry tells of the end if it is reached with bytes. -/
  reported : (∃ r ∈ own.reports, r.fin = true) ↔ si.recvState = .dataRecvd ∧
    quicStreamOrdered si = true ∧ emptiedBy iov si.inOrder = some true
  /-- There are entries if there are bytes. -/
  silent : iov ≠ [] → (own.reports = [] ↔ si.inOrder.sum = 0)

/-- Reading the stream again neither returns bytes nor ends it. -/
structure Spent (si : QuicStreamInstance) : Prop where
  /-- Nothing is in order. -/
  inOrder : si.inOrder = []
  /-- The end is marked as read. -/
  ended : ¬ (si.queue = [] ∧ si.recvState = .dataRecvd)

/-- A read that is not filled reads all that is in order. -/
theorem spent_of_short (hread : quicStreamReadData si len = .ok (res, si'))
    (hshort : si.inOrder.sum < len) : Spent si' := by
  obtain ⟨hempty, -, hfin, -⟩ := quicStreamReadData_ended hread
  obtain ⟨-, -, hrest, -⟩ := quicStreamReadData_ok_inOrder hread
  obtain ⟨hstate, -⟩ := quicStreamReadData_states hread
  refine ⟨hrest.trans (afterFill_of_sum_lt hshort), fun ⟨hqueue, hended⟩ => ?_⟩
  rw [hstate] at hended
  split_ifs at hended with h
  exact h (hfin.mpr ⟨hended, hqueue⟩)

/-- The last read of a stream, which is not filled. -/
theorem entryRead_short (hread : quicStreamReadData si len = .ok (res, si'))
    (hshort : si.inOrder.sum < len) :
    EntryRead id (len :: iov) si (if res.data.length = 0 then ReadVOut.empty.flag res
      else (ReadVOut.empty.flag res).report id res) si' := by
  obtain ⟨hempty, -, hfin, hreset⟩ := quicStreamReadData_ended hread
  obtain ⟨-, hlength, -⟩ := quicStreamReadData_ok_inOrder hread
  obtain ⟨hstate, -, hsend, -⟩ := quicStreamReadData_states hread
  rw [fillEnd_of_sum_lt hshort] at hempty
  rw [Nat.min_eq_right hshort.le] at hlength
  have hemptied : emptiedBy (len :: iov) si.inOrder = some (decide (0 < si.inOrder.sum)) := by
    rw [emptiedBy, fillEnd_of_sum_lt hshort]
  rw [hempty] at hfin
  by_cases hnone : si.inOrder.sum = 0
  · rw [if_pos (hlength.trans hnone)]
    constructor <;> simp [ReadVOut.empty, ReadVOut.flag, hsend, hstate, hfin, hreset, hemptied,
      hnone]
  · rw [if_neg (hlength ▸ hnone)]
    constructor <;> simp [ReadVOut.empty, ReadVOut.flag, ReadVOut.report, hsend, hstate, hfin,
      hreset, hemptied, hnone, Nat.pos_of_ne_zero hnone]

/-- A read that fills a buffer, and those behind it. -/
theorem EntryRead.cons {si'' : QuicStreamInstance} (h : EntryRead id iov si' own si'')
    (hread : quicStreamReadData si len = .ok (res, si')) (hlen : len ≠ 0)
    (hfull : len ≤ si.inOrder.sum) :
    EntryRead id (len :: iov) si (((ReadVOut.empty.flag res).report id res).then own) si'' := by
  obtain ⟨hempty, hordered, hfin, hreset⟩ := quicStreamReadData_ended hread
  obtain ⟨-, hlength, hrest, -⟩ := quicStreamReadData_ok_inOrder hread
  obtain ⟨hstate, -, hsend, -⟩ := quicStreamReadData_states hread
  have hpos : 0 < si.inOrder.sum := by omega
  have hone : ((ReadVOut.empty.flag res).report id res).reports =
      [⟨id, res.data, res.fin, res.reset⟩] := by
    simp [ReadVOut.empty, ReadVOut.flag, ReadVOut.report]
  have hflags : ((ReadVOut.empty.flag res).report id res).fin = res.fin ∧
      ((ReadVOut.empty.flag res).report id res).reset = res.reset := by
    simp [ReadVOut.empty, ReadVOut.flag, ReadVOut.report]
  have hreset' : si'.recvState = .resetRecvd → si.recvState = .resetRecvd := by
    intro h
    rw [hstate] at h
    split_ifs at h
    exact h
  have hrecvd (hend : si'.recvState = .dataRecvd) :
      si.recvState = .dataRecvd ∧ si'.queue ≠ [] := by
    rw [hstate] at hend
    split_ifs at hend with hres
    exact ⟨hend, fun hqueue => hres (hfin.mpr ⟨hend, hqueue⟩)⟩
  -- the end is reached by this read or by the later ones
  have hends (P : Option Bool → Prop) (hP : P (some true)) (hnone : ¬ P none) :
      res.fin = true ∨ (si'.recvState = .dataRecvd ∧ quicStreamOrdered si' = true ∧
        P (emptiedBy iov si'.inOrder)) ↔
      si.recvState = .dataRecvd ∧ quicStreamOrdered si = true ∧
        P (emptiedBy (len :: iov) si.inOrder) := by
    rw [hfin, emptiedBy, hrest]
    cases hend : fillEnd len si.inOrder with
    | emptied =>
      rw [hend] at hempty hordered
      simp only [decide_eq_true hpos, hP, and_true, hempty]
      refine or_iff_left_of_imp fun ⟨hstate', horder', _⟩ =>
        ⟨(hrecvd hstate').1, (hordered.mp horder').1⟩
    | cut =>
      rw [hend] at hempty hordered
      simp only [hempty, hordered]
      simp [hnone]
    | next =>
      rw [hend] at hempty hordered
      have hsame : ¬ res.fin = true := fun h => by simpa using hempty.mp (hfin.mp h).2
      rw [if_neg hsame] at hstate
      simp only [hempty, hordered, hstate]
      simp
  refine ⟨h.sendState.trans hsend, ?_, ?_, ?_, fun r hr => ?_, ?_, fun _ => ?_⟩
  · rw [h.state, hstate, ReadVOut.then, hflags.1]
    cases res.fin <;> cases own.fin <;> rfl
  · rw [ReadVOut.then, Bool.or_eq_true, hflags.1, h.fin]
    exact hends (· ≠ none) (by simp) (by simp)
  · rw [ReadVOut.then, Bool.or_eq_true, hflags.2, h.reset, hreset]
    simpa using fun _ => hreset'
  · rw [ReadVOut.then, hone, hflags.1, hflags.2, List.singleton_append, List.mem_cons,
      List.mem_map] at hr
    rcases hr with rfl | ⟨r', hr', rfl⟩
    · exact ⟨rfl, hreset⟩
    · obtain ⟨hhandle, hr⟩ := h.reports r' hr'
      refine ⟨hhandle, ?_⟩
      rw [Bool.or_eq_true, hr, hreset]
      exact or_iff_left_of_imp hreset'
  · rw [← hends (· = some true) rfl (by simp), ← h.reported, ReadVOut.then, hone, hflags.1]
    constructor
    · rintro ⟨r, hr, hr'⟩
      rw [List.singleton_append, List.mem_cons, List.mem_map] at hr
      rcases hr with rfl | ⟨r, hr, rfl⟩
      · exact .inl hr'
      · exact (Bool.or_eq_true _ _ ▸ hr').imp_right fun h => ⟨r, hr, h⟩
    · rintro (hfin' | ⟨r, hr, hr'⟩)
      · exact ⟨_, List.mem_append_left _ (List.mem_singleton_self _), hfin'⟩
      · refine ⟨_, List.mem_append_right _ (List.mem_map_of_mem hr), ?_⟩
        rw [hr', Bool.or_true]
  · rw [ReadVOut.then, hone, List.singleton_append]
    exact iff_of_false (List.cons_ne_nil _ _) (by omega)

/-- What the inner loop does with a stream depends on the lengths of its entries. -/
theorem readEntry_cases (id : ℕ) (iov : List ℕ) (si : QuicStreamInstance) :
    (∃ iov' own si', buffersLeft iov si.inOrder = .left iov' ∧
      readEntry id iov si = .ok ((some iov', own), si') ∧ EntryRead id iov si own si' ∧
        Spent si') ∨
    (∃ own si', buffersLeft iov si.inOrder = .filled ∧
      readEntry id iov si = .ok ((none, own), si') ∧ EntryRead id iov si own si' ∧
        (iov ≠ [] → 0 < si.inOrder.sum)) ∨
    (buffersLeft iov si.inOrder = .endless ∧ ∃ e, readEntry id iov si = .error e) := by
  induction iov generalizing si with
  | nil =>
    refine .inr (.inl ⟨_, _, rfl, rfl, ?_, fun h => absurd rfl h⟩)
    constructor <;> simp [ReadVOut.empty, emptiedBy]
  | cons len iov ih =>
    rw [buffersLeft]
    rcases quicStreamReadData_inOrder si len with
      ⟨haborts, hread⟩ | ⟨haborts, res, si', hread, hlength, hrest, -⟩
    · rw [readEntry_error hread, if_pos (.inr haborts)]
      exact .inr (.inr ⟨rfl, _, rfl⟩)
    rw [readEntry_cons hread]
    by_cases hzero : len = 0
    · rw [if_pos (.inl hzero), if_pos (by omega), if_pos hzero]
      exact .inr (.inr ⟨rfl, _, rfl⟩)
    rw [if_neg (not_or.mpr ⟨hzero, haborts⟩)]
    by_cases hshort : si.inOrder.sum < len
    · have hentry := @entryRead_short id len iov si si' res hread hshort
      have hspent := spent_of_short hread hshort
      rw [if_pos hshort]
      rw [Nat.min_eq_right hshort.le] at hlength
      by_cases hnone : si.inOrder.sum = 0
      · rw [if_pos (hlength.trans hnone)] at hentry ⊢
        rw [if_pos hnone, if_neg hzero]
        exact .inl ⟨_, _, _, rfl, rfl, hentry, hspent⟩
      · have hdata : ¬ res.data.length = 0 := hlength ▸ hnone
        rw [if_neg hdata] at hentry ⊢
        rw [if_neg hnone, if_pos (by omega)]
        exact .inl ⟨_, _, _, rfl, rfl, hentry, hspent⟩
    · have hfull := not_lt.mp hshort
      rw [if_neg hshort, ← hrest]
      rw [Nat.min_eq_left hfull] at hlength
      rw [if_neg (by omega), if_neg (by omega)]
      rcases ih si' with ⟨iov', own, si'', hleft, hrun, hentry, hspent⟩ |
        ⟨own, si'', hleft, hrun, hentry, -⟩ | ⟨hleft, e, hrun⟩
      · rw [hrun]
        exact .inl ⟨_, _, _, hleft, rfl, hentry.cons hread hzero hfull, hspent⟩
      · rw [hrun]
        exact .inr (.inl ⟨_, _, hleft, rfl, hentry.cons hread hzero hfull, fun _ => by omega⟩)
      · rw [hrun]
        exact .inr (.inr ⟨hleft, e, rfl⟩)

/-- A stream that was read is not ended by reading it again. -/
theorem Spent.not_ended (h : Spent si) (hordered : quicStreamOrdered si = true) :
    si.recvState ≠ .dataRecvd := by
  refine fun hended => h.ended ⟨?_, hended⟩
  have hnone := h.inOrder
  rw [QuicStreamInstance.inOrder] at hnone
  rw [quicStreamOrdered] at hordered
  cases hqueue : si.queue with
  | nil => rfl
  | cons sd queue =>
    rw [hqueue, orderedFrom, Bool.and_eq_true, decide_eq_true_eq] at hordered
    rw [hqueue, Tbquic.inOrder, if_pos hordered.1] at hnone
    cases hnone

/-- A stream that is read again may be flagged as reset again, and nothing else is filled in. -/
theorem readEntry_spent (id : ℕ) (iov : List ℕ) (hspent : Spent si) :
    (len = 0 → ∃ e, readEntry id (len :: iov) si = .error e) ∧
    (len ≠ 0 → ∃ own si', readEntry id (len :: iov) si = .ok ((some (len :: iov), own), si') ∧
      EntryRead id (len :: iov) si own si' ∧ Spent si' ∧ own.reports = [] ∧ own.fin = false) := by
  have hleft : buffersLeft (len :: iov) si.inOrder =
      if len = 0 then .endless else .left (len :: iov) := by
    rw [hspent.inOrder, buffersLeft]
    by_cases hzero : len = 0
    · rw [if_pos (.inl hzero), if_pos hzero]
    · have haborts : ¬ FillAborts len [] := not_false
      rw [if_neg (not_or.mpr ⟨hzero, haborts⟩), if_neg hzero, List.sum_nil, if_pos (by omega),
        if_pos rfl]
  refine ⟨fun hzero => ?_, fun hzero => ?_⟩
  · rw [if_pos hzero] at hleft
    rcases readEntry_cases id (len :: iov) si with ⟨iov', own, si', hbuffers, -⟩ |
      ⟨own, si', hbuffers, -⟩ | ⟨-, herror⟩
    · rw [hleft] at hbuffers
      cases hbuffers
    · rw [hleft] at hbuffers
      cases hbuffers
    · exact herror
  · rw [if_neg hzero] at hleft
    rcases readEntry_cases id (len :: iov) si with
      ⟨iov', own, si', hbuffers, hrun, hentry, hspent'⟩ | ⟨own, si', hbuffers, -⟩ | ⟨hbuffers, -⟩
    · rw [hleft] at hbuffers
      cases hbuffers
      refine ⟨own, si', hrun, hentry, hspent', ?_, ?_⟩
      · rw [hentry.silent (List.cons_ne_nil _ _), hspent.inOrder, List.sum_nil]
      · exact Bool.eq_false_iff.mpr fun hfin =>
          hspent.not_ended (hentry.fin.mp hfin).2.1 (hentry.fin.mp hfin).1
    · rw [hleft] at hbuffers
      cases hbuffers
    · rw [hleft] at hbuffers
      cases hbuffers

end Entry

/-- The entry of a stream, with its receiving part perhaps opened. -/
def OpenedFrom (si si' : QuicStreamInstance) : Prop :=
  si' = si ∨ si' = quicStreamInstanceRecvOpen si

namespace OpenedFrom

variable {si si' si'' : QuicStreamInstance}

theorem refl (si : QuicStreamInstance) : OpenedFrom si si := .inl rfl

/-- Opening twice is opening once. -/
theorem trans (h : OpenedFrom si si') (h' : OpenedFrom si' si'') : OpenedFrom si si'' := by
  have htwice : quicStreamInstanceRecvOpen (quicStreamInstanceRecvOpen si) =
      quicStreamInstanceRecvOpen si := by
    by_cases hstart : si.recvState = .start
    · simp [quicStreamInstanceRecvOpen, hstart]
    · simp [quicStreamInstanceRecvOpen, hstart]
  rcases h' with rfl | rfl
  · exact h
  · rcases h with rfl | rfl
    · exact .inr rfl
    · exact .inr htwice

/-- Streams are opened. -/
theorem opened (q : QuicStreams) (id i : ℕ) : OpenedFrom (q.si i) ((q.opened id).si i) := by
  rw [opened_si_eq]
  split_ifs
  · exact .inr rfl
  · exact .refl _

/-- The received data is the same. -/
theorem received (h : OpenedFrom si si') : si'.queue = si.queue ∧ si'.offset = si.offset := by
  rcases h with rfl | rfl
  · exact ⟨rfl, rfl⟩
  · unfold quicStreamInstanceRecvOpen
    split <;> exact ⟨rfl, rfl⟩

/-- Only the first state changes. -/
theorem recvState (h : OpenedFrom si si') {state : StreamState} (hstart : state ≠ .start)
    (hrecv : state ≠ .recv) : si'.recvState = state ↔ si.recvState = state := by
  rcases h with rfl | rfl
  · exact Iff.rfl
  · unfold quicStreamInstanceRecvOpen
    split_ifs with h
    · rw [h]
      exact iff_of_false hrecv.symm hstart.symm
    · exact Iff.rfl

/-- A stream that was read stays so. -/
theorem spent (h : OpenedFrom si si') (hspent : Spent si) : Spent si' := by
  obtain ⟨hqueue, hoffset⟩ := h.received
  refine ⟨?_, ?_⟩
  · rw [QuicStreamInstance.inOrder, hqueue, hoffset]
    exact hspent.inOrder
  · rw [hqueue, h.recvState (by decide) (by decide)]
    exact hspent.ended

/-- The same is filled in. -/
theorem readEntry_ok (h : OpenedFrom si si') {id : ℕ} {iov : List ℕ}
    {r : (Option (List ℕ) × ReadVOut) × QuicStreamInstance} (hr : readEntry id iov si = .ok r) :
    ∃ entry, readEntry id iov si' = .ok (r.1, entry) ∧ OpenedFrom r.2 entry := by
  rcases h with rfl | rfl
  · exact ⟨r.2, hr, .refl _⟩
  · rw [readEntry_recvOpen, hr]
    exact ⟨_, rfl, .inr rfl⟩

theorem readEntry_error (h : OpenedFrom si si') {id : ℕ} {iov : List ℕ} {e : Fail}
    (he : readEntry id iov si = .error e) : readEntry id iov si' = .error e := by
  rcases h with rfl | rfl
  · exact he
  · rw [readEntry_recvOpen, he]
    rfl

end OpenedFrom

/-- What the inner loop fills in for a stream that is read. -/
def ownRead (q : QuicStreams) (read : ℕ × List ℕ) : ReadVOut :=
  match readEntry read.1 read.2 (q.si read.1) with
  | .ok r => r.1.2
  | .error _ => .empty

/-- What is filled in for the streams that are read, one after the other. -/
def readsOut (q : QuicStreams) (out : ReadVOut) (reads : List (ℕ × List ℕ)) : ReadVOut :=
  reads.foldl (fun out read => out.then (ownRead q read)) out

section Loop

variable {q cur t : QuicStreams} {seen : List ℕ} {out : ReadVOut} {id len : ℕ} {iov : List ℕ}

/-- The streams behind some of the messages. -/
structure Reading (q : QuicStreams) (seen : List ℕ) (out : ReadVOut) (cur : QuicStreams) :
    Prop where
  /-- The streams are kept. -/
  leaves : q.LeavesUnfound cur
  /-- The streams that were not read are the same. -/
  fresh (i : ℕ) : i ∉ seen → OpenedFrom (q.si i) (cur.si i)
  /-- The streams that were read are done with, and their resets flagged. -/
  spent (i : ℕ) : i ∈ seen →
    Spent (cur.si i) ∧ ((cur.si i).recvState = .resetRecvd → out.reset = true)

theorem Reading.found_iff (h : Reading q seen out cur) (i : ℕ) : cur.Found i ↔ q.Found i :=
  ⟨fun hfound => by_contra fun hnot => h.leaves.not_found hnot hfound,
    fun hfound => hfound.keeps h.leaves.keeps⟩

theorem opened_opened (q : QuicStreams) (id : ℕ) : (q.opened id).opened id = q.opened id := by
  refine if_neg (not_lt.mpr ?_)
  unfold QuicStreams.opened
  split_ifs with hmax
  · exact le_refl id
  · exact not_lt.mp hmax

/-- Looking the stream up first makes no difference. -/
theorem readVStream_opened (hfound : q.Found id) :
    readVStream id (len :: iov) out (q.opened id) = readVStream id (len :: iov) out q := by
  rw [readVStream, Prog.attempt_bind, Prog.attempt_bind,
    quicStreamGetInstance_of_found hfound.opened, quicStreamGetInstance_of_found hfound,
    opened_opened]

/-- The inner loop on the entry of a stream that is found. -/
theorem readVStream_of_readEntry (hfound : cur.Found id) :
    (∀ r, readEntry id (len :: iov) (cur.si id) = .ok r →
      ∃ entry, OpenedFrom r.2 entry ∧ readVStream id (len :: iov) out cur =
        (.ok (r.1.1, out.then r.1.2), (cur.opened id).setSi id entry)) ∧
    (∀ e, readEntry id (len :: iov) (cur.si id) = .error e →
      ∃ t, readVStream id (len :: iov) out cur = (.error e, t)) := by
  obtain ⟨hok, herror⟩ :=
    @readVStream_of_opened out id (len :: iov) _ hfound.opened (opened_opened cur id)
  have hentry := OpenedFrom.opened cur id id
  rw [readVStream_opened hfound] at hok herror
  refine ⟨fun r hr => ?_, fun e he => herror e (hentry.readEntry_error he)⟩
  obtain ⟨entry, hrun, hopen⟩ := hentry.readEntry_ok hr
  exact ⟨entry, hopen, hok _ hrun⟩

/-- The entries behind a read of a stream. -/
theorem readBehind_si {entry : QuicStreamInstance} (i : ℕ) :
    ((cur.opened id).setSi id entry).si i = entry ∧ i = id ∨
      OpenedFrom (cur.si i) (((cur.opened id).setSi id entry).si i) ∧ i ≠ id := by
  by_cases hi : i = id
  · subst hi
    exact .inl ⟨QuicStreams.setSi_si _ _ _, rfl⟩
  · rw [show ((cur.opened id).setSi id entry).si i = (cur.opened id).si i from
      (cur.opened id).updateSi_si_of_ne (fun _ => entry) hi]
    exact .inr ⟨.opened cur id i, hi⟩

/-- A message is removed. -/
theorem Reading.dequeue {msg : QuicStreamMsg} {msgs : List QuicStreamMsg}
    (h : Reading q seen out cur) (hmsgs : cur.conf.msgQueue = msg :: msgs) :
    Reading q seen out { cur with conf.msgQueue := msgs } := by
  refine ⟨h.leaves.trans ⟨⟨rfl, rfl, rfl, rfl, fun _ h => h, fun _ h => h⟩, fun _ _ => rfl,
    fun i _ hi => ?_⟩, h.fresh, h.spent⟩
  rw [hmsgs]
  exact List.mem_cons_of_mem msg hi

/-- A stream is read. -/
theorem Reading.read {own : ReadVOut} {x : Option (List ℕ)} {entry : QuicStreamInstance}
    {seen' : List ℕ} (h : Reading q seen out cur)
    (hseen : ∀ i, i ∈ seen' ↔ i = id ∨ i ∈ seen)
    (hrun : readVStream id iov out cur = (.ok (x, out.then own), (cur.opened id).setSi id entry))
    (hspent : Spent entry) (hreset : entry.recvState = .resetRecvd → (out.then own).reset = true) :
    Reading q seen' (out.then own) ((cur.opened id).setSi id entry) := by
  obtain ⟨hleaves, -⟩ := @readVStream_leavesUnfound cur id iov out
  rw [hrun] at hleaves
  refine ⟨h.leaves.trans hleaves, fun i hi => ?_, fun i hi => ?_⟩
  · rw [hseen, not_or] at hi
    rcases @readBehind_si cur id entry i with ⟨-, hid⟩ | ⟨hopened, -⟩
    · exact absurd hid hi.1
    · exact (h.fresh i hi.2).trans hopened
  · rcases @readBehind_si cur id entry i with ⟨hentry, -⟩ | ⟨hopened, hid⟩
    · rw [hentry]
      exact ⟨hspent, hreset⟩
    · obtain ⟨hspent, hflag⟩ := h.spent i (((hseen i).mp hi).resolve_left hid)
      refine ⟨hopened.spent hspent, fun hstate => ?_⟩
      rw [ReadVOut.then, hflag ((hopened.recvState (by decide) (by decide)).mp hstate),
        Bool.true_or]

/-- What a run over messages leaves. -/
structure ReadsTo (q : QuicStreams) (seen : List ℕ) (msgs : List QuicStreamMsg)
    (reads : List (ℕ × List ℕ)) (cur t : QuicStreams) : Prop where
  /-- The streams read to their end are marked as read. -/
  ended (i : ℕ) : (t.si i).recvState = .dataRead ↔ (cur.si i).recvState = .dataRead ∨
    ∃ read ∈ reads, read.1 = i ∧ (ownRead q read).fin = true
  /-- The messages of the streams that are read are removed, except the last one if the buffers
  run out. -/
  removed : ∃ removed, msgs = removed ++ t.conf.msgQueue ∧
    (∀ i, q.Found i → ⟨i⟩ ∈ removed → i ∈ seen ∨ ∃ read ∈ reads, read.1 = i) ∧
    ∀ read ∈ reads, (q.si read.1).inOrder.sum = 0 → ⟨read.1⟩ ∈ removed

/-- Nothing is read. -/
theorem ReadsTo.refl {msgs : List QuicStreamMsg} (hmsgs : cur.conf.msgQueue = msgs) :
    ReadsTo q seen msgs [] cur cur := by
  refine ⟨fun i => (or_iff_left ?_).symm, [], hmsgs.symm, fun i _ hi => ?_, fun read hread => ?_⟩
  · rintro ⟨read, hread, -⟩
    exact absurd hread List.not_mem_nil
  · exact absurd hi List.not_mem_nil
  · exact absurd hread List.not_mem_nil

/-- A message of a stream that is not read, or was read, is removed first. -/
theorem ReadsTo.skip {msg : QuicStreamMsg} {msgs : List QuicStreamMsg} {reads : List (ℕ × List ℕ)}
    {cur' : QuicStreams} (h : ReadsTo q seen msgs reads cur' t)
    (hstate : ∀ i, (cur'.si i).recvState = .dataRead ↔ (cur.si i).recvState = .dataRead)
    (hmsg : q.Found msg.id → msg.id ∈ seen) : ReadsTo q seen (msg :: msgs) reads cur t := by
  obtain ⟨removed, hmsgs, hread, hsilent⟩ := h.removed
  refine ⟨fun i => ?_, msg :: removed, congrArg (msg :: ·) hmsgs, fun i hfound hi => ?_,
    fun read hr hsum => List.mem_cons_of_mem msg (hsilent read hr hsum)⟩
  · rw [h.ended, hstate]
  · rcases List.mem_cons.mp hi with rfl | hi
    · exact .inl (hmsg hfound)
    · exact hread i hfound hi

/-- A stream is read first. -/
theorem ReadsTo.cons {msgs : List QuicStreamMsg} {reads : List (ℕ × List ℕ)} {cur' : QuicStreams}
    (h : ReadsTo q (id :: seen) msgs reads cur' t)
    (hstate : ∀ i, (cur'.si i).recvState = .dataRead ↔ (cur.si i).recvState = .dataRead ∨
      id = i ∧ (ownRead q (id, iov)).fin = true) :
    ReadsTo q seen (⟨id⟩ :: msgs) ((id, iov) :: reads) cur t := by
  obtain ⟨removed, hmsgs, hread, hsilent⟩ := h.removed
  refine ⟨fun i => ?_, ⟨id⟩ :: removed, congrArg (⟨id⟩ :: ·) hmsgs, fun i hfound hi => ?_,
    fun read hr hsum => ?_⟩
  · rw [h.ended, hstate, or_assoc]
    simp only [List.mem_cons, exists_eq_or_imp]
  · rcases List.mem_cons.mp hi with heq | hi
    · exact .inr ⟨_, List.mem_cons_self, (QuicStreamMsg.mk.inj heq).symm⟩
    · rcases hread i hfound hi with hseen | ⟨read, hr, hid⟩
      · rcases List.mem_cons.mp hseen with rfl | hseen
        · exact .inr ⟨_, List.mem_cons_self, rfl⟩
        · exact .inl hseen
      · exact .inr ⟨read, List.mem_cons_of_mem _ hr, hid⟩
  · rcases List.mem_cons.mp hr with rfl | hr
    · exact List.mem_cons_self
    · exact List.mem_cons_of_mem _ (hsilent read hr hsum)

/-- The streams marked as read behind a read of a stream. -/
theorem readBehind_ended {entry si si' : QuicStreamInstance} {own : ReadVOut}
    (hentry : EntryRead id iov si own si') (hopened : OpenedFrom si (cur.si id))
    (hopened' : OpenedFrom si' entry) (i : ℕ) :
    (((cur.opened id).setSi id entry).si i).recvState = .dataRead ↔
      (cur.si i).recvState = .dataRead ∨ id = i ∧ own.fin = true := by
  rcases @readBehind_si cur id entry i with ⟨hsi, rfl⟩ | ⟨hsi, hid⟩
  · rw [hsi, hopened'.recvState (by decide) (by decide), hentry.state,
      hopened.recvState (by decide) (by decide)]
    by_cases hfin : own.fin = true
    · simp [hfin]
    · simp [hfin]
  · rw [hsi.recvState (by decide) (by decide)]
    exact (or_iff_left fun h => hid h.1.symm).symm

/-- The messages stay while a stream is read. -/
theorem readBehind_messages (entry : QuicStreamInstance) :
    ((cur.opened id).setSi id entry).conf.msgQueue = cur.conf.msgQueue :=
  QuicStreams.SameMarks.opened.messages

/-- A stream that was read is read again, and nothing is filled in. -/
theorem Reading.again (h : Reading q seen out cur) (hfound : q.Found id) (hseen : id ∈ seen) :
    (len = 0 → ∃ e t, readVStream id (len :: iov) out cur = (.error e, t)) ∧
    (len ≠ 0 → ∃ t, readVStream id (len :: iov) out cur = (.ok (some (len :: iov), out), t) ∧
      Reading q seen out t ∧ t.conf.msgQueue = cur.conf.msgQueue ∧
      ∀ i, (t.si i).recvState = .dataRead ↔ (cur.si i).recvState = .dataRead) := by
  obtain ⟨hok, herror⟩ := @readVStream_of_readEntry cur out id len iov
    ((h.found_iff id).mpr hfound)
  obtain ⟨hspent, hflag⟩ := h.spent id hseen
  obtain ⟨hendless, hagain⟩ := @readEntry_spent len _ id iov hspent
  refine ⟨fun hzero => ?_, fun hzero => ?_⟩
  · obtain ⟨e, he⟩ := hendless hzero
    exact ⟨e, herror e he⟩
  · obtain ⟨own, si', hentry, hread, hspent', hsilent, hfin⟩ := hagain hzero
    obtain ⟨entry, hopened, hrun⟩ := hok _ hentry
    have hsame : out.then own = out := by
      have hreset : (out.reset || own.reset) = out.reset := by
        cases hown : own.reset with
        | false => exact Bool.or_false _
        | true => rw [hflag (hread.reset.mp hown).2, Bool.true_or]
      rw [ReadVOut.then, hsilent, hfin, hreset, List.map_nil, List.append_nil, Bool.or_false]
    have hbehind := h.read (fun i => ⟨.inr, fun hi => hi.elim (fun heq => heq ▸ hseen)
      fun hi => hi⟩) hrun (hopened.spent hspent') fun hreset => by
        rw [hopened.recvState (by decide) (by decide), hread.state, hfin] at hreset
        rw [hsame]
        exact hflag hreset
    rw [hsame] at hrun hbehind
    refine ⟨_, hrun, hbehind, readBehind_messages entry, fun i => ?_⟩
    refine (readBehind_ended hread (.refl _) hopened i).trans (or_iff_left ?_)
    rw [hfin]
    exact fun h => Bool.false_ne_true h.2

/-- A stream is read for the first time. -/
theorem Reading.first (h : Reading q seen out cur) (hfound : q.Found id) (hseen : id ∉ seen) :
    (∃ iov' t, buffersLeft (len :: iov) (q.si id).inOrder = .left iov' ∧
      readVStream id (len :: iov) out cur =
        (.ok (some iov', out.then (ownRead q (id, len :: iov))), t) ∧
      Reading q (id :: seen) (out.then (ownRead q (id, len :: iov))) t ∧
      t.conf.msgQueue = cur.conf.msgQueue ∧
      ∀ i, (t.si i).recvState = .dataRead ↔ (cur.si i).recvState = .dataRead ∨
        id = i ∧ (ownRead q (id, len :: iov)).fin = true) ∨
    (∃ t, buffersLeft (len :: iov) (q.si id).inOrder = .filled ∧
      readVStream id (len :: iov) out cur =
        (.ok (none, out.then (ownRead q (id, len :: iov))), t) ∧
      0 < (q.si id).inOrder.sum ∧ t.conf.msgQueue = cur.conf.msgQueue ∧
      ∀ i, (t.si i).recvState = .dataRead ↔ (cur.si i).recvState = .dataRead ∨
        id = i ∧ (ownRead q (id, len :: iov)).fin = true) ∨
    (buffersLeft (len :: iov) (q.si id).inOrder = .endless ∧
      ∃ e t, readVStream id (len :: iov) out cur = (.error e, t)) := by
  obtain ⟨hok, herror⟩ := @readVStream_of_readEntry cur out id len iov
    ((h.found_iff id).mpr hfound)
  have hfresh := h.fresh id hseen
  rcases readEntry_cases id (len :: iov) (q.si id) with
    ⟨iov', own, si', hleft, hentry, hread, hspent⟩ |
    ⟨own, si', hleft, hentry, hread, hpos⟩ | ⟨hleft, e, hentry⟩
  · have hown : ownRead q (id, len :: iov) = own := by rw [ownRead, hentry]
    obtain ⟨entry, hentry', hopened'⟩ := hfresh.readEntry_ok hentry
    obtain ⟨entry', hopened, hrun⟩ := hok _ hentry'
    replace hopened := hopened'.trans hopened
    have hbehind := h.read (fun i => List.mem_cons) hrun (hopened.spent hspent) fun hreset => by
      rw [hopened.recvState (by decide) (by decide), hread.state] at hreset
      split_ifs at hreset
      rw [ReadVOut.then, hread.reset.mpr ⟨List.cons_ne_nil _ _, hreset⟩, Bool.or_true]
    rw [hown]
    exact .inl ⟨iov', _, hleft, hrun, hbehind, readBehind_messages entry',
      readBehind_ended hread hfresh hopened⟩
  · have hown : ownRead q (id, len :: iov) = own := by rw [ownRead, hentry]
    obtain ⟨entry, hentry', hopened'⟩ := hfresh.readEntry_ok hentry
    obtain ⟨entry', hopened, hrun⟩ := hok _ hentry'
    rw [hown]
    exact .inr (.inl ⟨_, hleft, hrun, hpos (List.cons_ne_nil _ _), readBehind_messages entry',
      readBehind_ended hread hfresh (hopened'.trans hopened)⟩)
  · exact .inr (.inr ⟨hleft, e, herror e (hfresh.readEntry_error hentry)⟩)

/-- The loop over the messages reads the streams of the plan. -/
theorem readVLoop_plan {msgs : List QuicStreamMsg} (h : Reading q seen out cur)
    (hmsgs : cur.conf.msgQueue = msgs) (iov : List ℕ) :
    (∀ reads, readPlan q seen msgs iov = some reads →
      ∃ t, readVLoop msgs iov out cur = (.ok (readsOut q out reads).reports, t) ∧
        ReadsTo q seen msgs reads cur t) ∧
    (readPlan q seen msgs iov = none → ∃ e t, readVLoop msgs iov out cur = (.error e, t)) := by
  induction msgs generalizing cur seen out iov with
  | nil =>
    refine ⟨fun reads hreads => ?_, fun hnone => (by cases hnone)⟩
    cases hreads
    exact ⟨cur, rfl, .refl hmsgs⟩
  | cons msg msgs ih =>
    obtain ⟨id⟩ := msg
    cases iov with
    | nil =>
      refine ⟨fun reads hreads => ?_, fun hnone => (by cases hnone)⟩
      cases hreads
      have hrun : readVStream id [] out cur = (.ok (none, out), cur) := rfl
      rw [readVLoop, Prog.bind_of_ok hrun]
      exact ⟨cur, rfl, .refl hmsgs⟩
    | cons len iov =>
    rw [readPlan, readVLoop]
    dsimp only
    by_cases hfound : q.Found id
    swap
    · have hrun : readVStream id (len :: iov) out cur = (.ok (some (len :: iov), out), cur) := by
        rw [readVStream, Prog.attempt_bind,
          quicStreamGetInstance_of_not_found (mt (h.found_iff id).mp hfound)]
        rfl
      rw [if_pos hfound, Prog.bind_of_ok hrun]
      dsimp only
      rw [Prog.modify_bind]
      obtain ⟨hsome, hnone⟩ := ih (h.dequeue hmsgs) rfl (len :: iov)
      refine ⟨fun reads hreads => ?_, hnone⟩
      obtain ⟨t, ht, hreads⟩ := hsome reads hreads
      exact ⟨t, ht, hreads.skip (fun _ => Iff.rfl) fun hmsg => absurd hmsg hfound⟩
    rw [if_neg (not_not.mpr hfound)]
    by_cases hseen : id ∈ seen
    · rw [if_pos hseen]
      obtain ⟨hendless, hagain⟩ := @Reading.again q cur seen out id len iov h hfound hseen
      by_cases hzero : len = 0
      · obtain ⟨e, t, hrun⟩ := hendless hzero
        rw [if_pos hzero, Prog.bind_of_error hrun]
        exact ⟨fun reads hreads => (by cases hreads), fun _ => ⟨e, t, rfl⟩⟩
      · obtain ⟨u, hrun, hbehind, hmessages, hstate⟩ := hagain hzero
        rw [if_neg hzero, Prog.bind_of_ok hrun]
        dsimp only
        rw [Prog.modify_bind]
        obtain ⟨hsome, hnone⟩ := ih (hbehind.dequeue (hmessages.trans hmsgs)) rfl (len :: iov)
        refine ⟨fun reads hreads => ?_, hnone⟩
        obtain ⟨t, ht, hreads⟩ := hsome reads hreads
        exact ⟨t, ht, hreads.skip hstate fun _ => hseen⟩
    rw [if_neg hseen]
    rcases @Reading.first q cur seen out id len iov h hfound hseen with
      ⟨iov', u, hleft, hrun, hbehind, hmessages, hstate⟩ |
      ⟨u, hleft, hrun, hpos, hmessages, hstate⟩ | ⟨hleft, e, t, hrun⟩
    · rw [hleft, Prog.bind_of_ok hrun]
      dsimp only
      rw [Prog.modify_bind]
      obtain ⟨hsome, hnone⟩ := ih (hbehind.dequeue (hmessages.trans hmsgs)) rfl iov'
      refine ⟨fun reads hreads => ?_, fun h => hnone (Option.map_eq_none_iff.mp h)⟩
      obtain ⟨reads, hreads', rfl⟩ := Option.map_eq_some_iff.mp hreads
      obtain ⟨t, ht, hto⟩ := hsome reads hreads'
      exact ⟨t, ht, hto.cons hstate⟩
    · rw [hleft, Prog.bind_of_ok hrun]
      refine ⟨fun reads hreads => ?_, fun h => (by cases h)⟩
      cases hreads
      refine ⟨u, rfl, fun i => ?_, [], (hmessages.trans hmsgs).symm, fun i _ hi => (by cases hi),
        fun read hr hsum => ?_⟩
      · simpa using hstate i
      · cases List.mem_singleton.mp hr
        exact absurd hsum hpos.ne'
    · rw [hleft, Prog.bind_of_error hrun]
      exact ⟨fun reads hreads => (by cases hreads), fun _ => ⟨e, t, rfl⟩⟩

end Loop

section Plan

variable {q q' t : QuicStreams} {seen : List ℕ} {msgs : List QuicStreamMsg} {iov : List ℕ}
  {reads : List (ℕ × List ℕ)} {reports : List StreamReport} {id : ℕ}

/-- A stream is read once, if it is found, and reading it returns. -/
theorem readPlan_spec (h : readPlan q seen msgs iov = some reads) :
    (reads.map Prod.fst).Nodup ∧ ∀ read ∈ reads, read.1 ∉ seen ∧ q.Found read.1 ∧ read.2 ≠ [] ∧
      buffersLeft read.2 (q.si read.1).inOrder ≠ .endless := by
  induction msgs generalizing seen iov reads with
  | nil =>
    cases h
    exact ⟨List.nodup_nil, fun _ h => (by cases h)⟩
  | cons msg msgs ih =>
    cases iov with
    | nil =>
      cases h
      exact ⟨List.nodup_nil, fun _ h => (by cases h)⟩
    | cons len iov =>
    rw [readPlan] at h
    by_cases hfound : q.Found msg.id
    swap
    · rw [if_pos hfound] at h
      exact ih h
    rw [if_neg (not_not.mpr hfound)] at h
    by_cases hseen : msg.id ∈ seen
    · rw [if_pos hseen] at h
      split_ifs at h
      exact ih h
    · rw [if_neg hseen] at h
      cases hleft : buffersLeft (len :: iov) (q.si msg.id).inOrder with
      | left iov' =>
        rw [hleft] at h
        obtain ⟨reads, hreads, rfl⟩ := Option.map_eq_some_iff.mp h
        obtain ⟨hnodup, hmem⟩ := ih hreads
        refine ⟨List.nodup_cons.mpr ⟨fun hin => ?_, hnodup⟩, fun read hread => ?_⟩
        · obtain ⟨read, hread, heq⟩ := List.mem_map.mp hin
          exact (hmem read hread).1 (heq ▸ List.mem_cons_self)
        · rcases List.mem_cons.mp hread with rfl | hread
          · refine ⟨hseen, hfound, List.cons_ne_nil _ _, ?_⟩
            rw [hleft]
            exact fun h => (by cases h)
          · obtain ⟨hnew, hrest⟩ := hmem read hread
            exact ⟨fun hin => hnew (List.mem_cons_of_mem _ hin), hrest⟩
      | filled =>
        rw [hleft] at h
        cases h
        refine ⟨List.nodup_singleton _, fun read hread => ?_⟩
        cases List.mem_singleton.mp hread
        refine ⟨hseen, hfound, List.cons_ne_nil _ _, ?_⟩
        rw [hleft]
        exact fun h => (by cases h)
      | endless =>
        rw [hleft] at h
        cases h

/-- What is filled in for a stream of the plan. -/
theorem ownRead_entryRead (h : readPlan q seen msgs iov = some reads) {read : ℕ × List ℕ}
    (hread : read ∈ reads) :
    ∃ si', EntryRead read.1 read.2 (q.si read.1) (ownRead q read) si' := by
  obtain ⟨-, -, -, hleft⟩ := (readPlan_spec h).2 read hread
  rw [ownRead]
  rcases readEntry_cases read.1 read.2 (q.si read.1) with
    ⟨_, own, si', -, hrun, hentry, -⟩ | ⟨own, si', -, hrun, hentry, -⟩ | ⟨hendless, -⟩
  · rw [hrun]
    exact ⟨si', hentry⟩
  · rw [hrun]
    exact ⟨si', hentry⟩
  · exact absurd hendless hleft

/-- The plan depends on the streams that are found and on the lengths of their entries. -/
theorem readPlan_congr (hfound : ∀ i, q'.Found i ↔ q.Found i)
    (horder : ∀ i, (q'.si i).inOrder = (q.si i).inOrder) :
    readPlan q' seen msgs iov = readPlan q seen msgs iov := by
  induction msgs generalizing seen iov with
  | nil => rfl
  | cons msg msgs ih =>
    cases iov with
    | nil => rfl
    | cons len iov =>
    rw [readPlan, readPlan, horder]
    simp only [hfound, ih]

/-- A call of `QuicStreamReadV` reads the streams of the plan, or does not return. -/
theorem quicStreamReadV_plan (hinited : q.conf.inited = true) :
    (∀ reads, readPlan q [] q.conf.msgQueue iov = some reads →
      ∃ t, quicStreamReadV iov q = (.ok (readsOut q .empty reads).reports, t) ∧
        ReadsTo q [] q.conf.msgQueue reads q t) ∧
    (readPlan q [] q.conf.msgQueue iov = none → ∃ e t, quicStreamReadV iov q = (.error e, t)) := by
  rw [quicStreamReadV, Prog.get_bind, Prog.ensure_of_pos hinited, Prog.pure_bind]
  by_cases hiov : iov = []
  · have hplan : readPlan q [] q.conf.msgQueue iov = some [] := by
      rw [hiov]
      cases q.conf.msgQueue <;> rfl
    rw [if_pos hiov, hplan]
    refine ⟨fun reads hreads => ?_, fun h => (by cases h)⟩
    cases hreads
    exact ⟨q, rfl, .refl rfl⟩
  · rw [if_neg hiov]
    exact readVLoop_plan ⟨.refl q, fun _ _ => .refl _, fun _ h => (by cases h)⟩ rfl iov

/-- A call that returns has read the streams of the plan. -/
theorem quicStreamReadV_ok (h : quicStreamReadV iov q = (.ok reports, t)) :
    ∃ reads, readPlan q [] q.conf.msgQueue iov = some reads ∧
      reports = (readsOut q .empty reads).reports ∧ ReadsTo q [] q.conf.msgQueue reads q t := by
  by_cases hinited : q.conf.inited = true
  · obtain ⟨hsome, hnone⟩ := @quicStreamReadV_plan q iov hinited
    cases hplan : readPlan q [] q.conf.msgQueue iov with
    | none =>
      obtain ⟨e, t', he⟩ := hnone hplan
      rw [h] at he
      cases he
    | some reads =>
      obtain ⟨t', ht, hto⟩ := hsome reads hplan
      rw [h] at ht
      cases ht
      exact ⟨reads, rfl, rfl, hto⟩
  · rw [quicStreamReadV, Prog.get_bind, Prog.ensure_of_neg hinited, Prog.fail_bind] at h
    cases h

theorem readsOut_cons (out : ReadVOut) (read : ℕ × List ℕ) :
    readsOut q out (read :: reads) = readsOut q (out.then (ownRead q read)) reads :=
  rfl

theorem readsOut_append (out : ReadVOut) (before : List (ℕ × List ℕ)) :
    readsOut q out (before ++ reads) = readsOut q (readsOut q out before) reads :=
  List.foldl_append

/-- The flags collected over reads. -/
theorem readsOut_flags (q : QuicStreams) (out : ReadVOut) (reads : List (ℕ × List ℕ)) :
    ((readsOut q out reads).fin = true ↔
      out.fin = true ∨ ∃ read ∈ reads, (ownRead q read).fin = true) ∧
    ((readsOut q out reads).reset = true ↔
      out.reset = true ∨ ∃ read ∈ reads, (ownRead q read).reset = true) := by
  induction reads generalizing out with
  | nil => simp [readsOut]
  | cons read reads ih =>
    obtain ⟨hfin, hreset⟩ := ih (out.then (ownRead q read))
    rw [readsOut_cons, hfin, hreset]
    simp [ReadVOut.then, or_assoc]

/-- The entries of a stream that is not read. -/
theorem reportsOf_readsOut_of_not_mem (out : ReadVOut)
    (hreads : ∀ read ∈ reads, read.1 ≠ id ∧ ∀ r ∈ (ownRead q read).reports, r.handle = read.1) :
    reportsOf id (readsOut q out reads).reports = reportsOf id out.reports := by
  induction reads generalizing out with
  | nil => rfl
  | cons read reads ih =>
    obtain ⟨hother, hown⟩ := hreads read List.mem_cons_self
    rw [readsOut_cons, ih _ fun read' hread => hreads read' (List.mem_cons_of_mem _ hread),
      ReadVOut.then, reportsOf, List.filter_append, reportsOf]
    refine (congrArg _ (List.filter_eq_nil_iff.mpr fun r hr => ?_)).trans (List.append_nil _)
    obtain ⟨r', hr', rfl⟩ := List.mem_map.mp hr
    simpa [hown r' hr'] using hother

/-- The entries of a stream, behind the reads of others. -/
theorem reportsOf_readsOut {before after : List (ℕ × List ℕ)} {bufs : List ℕ}
    (h : readPlan q seen msgs iov = some (before ++ (id, bufs) :: after)) :
    reportsOf id (readsOut q .empty (before ++ (id, bufs) :: after)).reports =
      (ownRead q (id, bufs)).reports.map fun r =>
        { r with fin := (readsOut q .empty before).fin || r.fin,
                 reset := (readsOut q .empty before).reset || r.reset } := by
  have hhandle (read : ℕ × List ℕ) (hread : read ∈ before ++ (id, bufs) :: after) :
      ∀ r ∈ (ownRead q read).reports, r.handle = read.1 := by
    obtain ⟨si', hentry⟩ := ownRead_entryRead h hread
    exact fun r hr => (hentry.reports r hr).1
  have hnodup := (readPlan_spec h).1
  rw [List.map_append, List.map_cons, List.nodup_append, List.nodup_cons] at hnodup
  obtain ⟨-, ⟨hafter, -⟩, hbefore⟩ := hnodup
  have hothers (read : ℕ × List ℕ) (hread : read ∈ before) : read.1 ≠ id :=
    hbefore read.1 (List.mem_map_of_mem hread) id List.mem_cons_self
  have hbehind (read : ℕ × List ℕ) (hread : read ∈ after) : read.1 ≠ id :=
    fun heq => hafter (List.mem_map.mpr ⟨read, hread, heq⟩)
  rw [readsOut_append, readsOut_cons, reportsOf_readsOut_of_not_mem _ fun read hread =>
      ⟨hbehind read hread,
        hhandle read (List.mem_append_right _ (List.mem_cons_of_mem _ hread))⟩, ReadVOut.then,
    reportsOf, List.filter_append, ← reportsOf, reportsOf_readsOut_of_not_mem _ fun read hread =>
      ⟨hothers read hread, hhandle read (List.mem_append_left _ hread)⟩]
  refine List.filter_eq_self.mpr fun r hr => ?_
  obtain ⟨r', hr', rfl⟩ := List.mem_map.mp hr
  exact decide_eq_true (hhandle _ (List.mem_append_right _ List.mem_cons_self) r' hr')

end Plan

end Tbquic
