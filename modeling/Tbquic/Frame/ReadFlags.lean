import Tbquic.Frame.ReadPlan

/-!
# The flags of a read over the streams

`QuicStreamReadV` collects the flags of all its reads in one variable and fills an entry only behind
a read that returns bytes. So an entry carries the flags of every stream read before it, and the end
or the reset of a stream without bytes is told of in the entry of another stream or nowhere.
-/

namespace Tbquic

/-- Only the states in which other streams receive differ. -/
structure QuicStreams.SameBut (q q' : QuicStreams) (id : ℕ) : Prop where
  /-- The entries, up to the state. -/
  entry (i : ℕ) : q'.si i = { q.si i with recvState := (q'.si i).recvState }
  /-- The state of the stream. -/
  state : (q'.si id).recvState = (q.si id).recvState
  /-- All else. -/
  rest : q' = { q with conf.stream := q'.conf.stream }

/-- The flags of an entry depend only on its stream, and no end and no reset is lost. -/
structure ReadFlagsProper (q : QuicStreams) (iov : List ℕ) : Prop where
  /-- The states of other streams do not change what is filled in for a stream. -/
  apart (id : ℕ) (q' t t' : QuicStreams) (reports reports' : List StreamReport) :
    q.SameBut q' id → quicStreamReadV iov q = (.ok reports, t) →
      quicStreamReadV iov q' = (.ok reports', t') → reportsOf id reports = reportsOf id reports'
  /-- The end of a stream that is read is told of. -/
  fin (t : QuicStreams) (reports : List StreamReport) (id : ℕ) :
    quicStreamReadV iov q = (.ok reports, t) → (q.si id).recvState = .dataRecvd →
      (t.si id).recvState = .dataRead → ∃ r ∈ reports, r.handle = id ∧ r.fin = true
  /-- The reset of a stream whose message is removed is told of. -/
  reset (t : QuicStreams) (reports : List StreamReport) (removed : List QuicStreamMsg) (id : ℕ) :
    quicStreamReadV iov q = (.ok reports, t) → q.conf.msgQueue = removed ++ t.conf.msgQueue →
      ⟨id⟩ ∈ removed → q.Found id → (q.si id).recvState = .resetRecvd →
        ∃ r ∈ reports, r.handle = id ∧ r.reset = true

/-- A stream would be read to its end if all its data was received. -/
def QuicStreams.Empties (q : QuicStreams) (read : ℕ × List ℕ) : Prop :=
  quicStreamOrdered (q.si read.1) = true ∧ emptiedBy read.2 (q.si read.1).inOrder ≠ none

/-- No stream with bytes is read behind another one, unless it is reset and the other one not read
to its end. A reset stream that is read has bytes, and an ended one is not read to its end by a read
without bytes. -/
def ReadsApart (q : QuicStreams) (iov : List ℕ) : Prop :=
  ∀ reads, readPlan q [] q.conf.msgQueue iov = some reads →
    reads.Pairwise (fun b a => 0 < (q.si a.1).inOrder.sum →
      (q.si a.1).recvState = .resetRecvd ∧ ¬ q.Empties b) ∧
    ∀ a ∈ reads,
      ((q.si a.1).recvState = .resetRecvd → 0 < (q.si a.1).inOrder.sum) ∧
      ((q.si a.1).recvState = .dataRecvd → quicStreamOrdered (q.si a.1) = true →
        emptiedBy a.2 (q.si a.1).inOrder ≠ some false)

/-- A relation between the elements of a list and those before them. -/
theorem pairwise_iff_before {α : Type} {R : α → α → Prop} {l : List α} :
    l.Pairwise R ↔ ∀ before a after, l = before ++ a :: after → ∀ b ∈ before, R b a := by
  constructor
  · rintro h before a after rfl b hb
    exact (List.pairwise_append.mp h).2.2 b hb a List.mem_cons_self
  · intro h
    refine List.pairwise_iff_getElem.mpr fun i j hi hj hij => ?_
    refine h (l.take j) l[j] (l.drop (j + 1)) ?_ l[i] ?_
    · rw [← List.drop_eq_getElem_cons hj, List.take_append_drop]
    · exact List.mem_take_iff_getElem.mpr ⟨i, by omega, rfl⟩

section SameBut

variable {q q' : QuicStreams} {id : ℕ}

/-- The same streams are found when the states differ in which other streams receive. -/
theorem QuicStreams.SameBut.found_iff (h : q.SameBut q' id) (i : ℕ) : q'.Found i ↔ q.Found i := by
  have hsend : (q'.si i).sendState = (q.si i).sendState := by rw [h.entry i]
  rw [QuicStreams.Found, QuicStreams.Found, hsend, h.rest]
  exact Iff.rfl

theorem QuicStreams.SameBut.inOrder (h : q.SameBut q' id) (i : ℕ) :
    (q'.si i).inOrder = (q.si i).inOrder := by
  rw [h.entry i]
  rfl

theorem QuicStreams.SameBut.si (h : q.SameBut q' id) : q'.si id = q.si id := by
  rw [h.entry id, h.state]

/-- The plan is the same when the states differ in which other streams receive. -/
theorem QuicStreams.SameBut.readPlan (h : q.SameBut q' id) (iov : List ℕ) :
    readPlan q' [] q'.conf.msgQueue iov = readPlan q [] q.conf.msgQueue iov := by
  rw [readPlan_congr h.found_iff h.inOrder, h.rest]

/-- The streams with the states in which they receive replaced. -/
def QuicStreams.withRecvStates (q : QuicStreams) (states : ℕ → StreamState) : QuicStreams :=
  { q with conf.stream := fun i => { q.si i with recvState := states i } }

theorem QuicStreams.sameBut_withRecvStates {states : ℕ → StreamState}
    (h : states id = (q.si id).recvState) : q.SameBut (q.withRecvStates states) id :=
  ⟨fun _ => rfl, h, rfl⟩

end SameBut

section Flags

variable {q q' t : QuicStreams} {iov bufs : List ℕ} {before after : List (ℕ × List ℕ)} {a : ℕ}

/-- When the flags of a stream depend only on it, the flags collected before it change nothing of
its entries, whatever the states of the other streams are. -/
theorem ReadFlagsProper.collected (h : ReadFlagsProper q iov)
    (hplan : readPlan q [] q.conf.msgQueue iov = some (before ++ (a, bufs) :: after))
    (states : ℕ → StreamState) (hstates : states a = (q.si a).recvState) :
    (ownRead q (a, bufs)).reports.map (fun r =>
        { r with fin := (readsOut (q.withRecvStates states) .empty before).fin || r.fin,
                 reset := (readsOut (q.withRecvStates states) .empty before).reset || r.reset }) =
      reportsOf a (readsOut q .empty (before ++ (a, bufs) :: after)).reports := by
  have hsame := QuicStreams.sameBut_withRecvStates hstates
  have hplan' := (hsame.readPlan iov).trans hplan
  have hinited : q.conf.inited = true :=
    ((readPlan_spec hplan).2 _ (List.mem_append_right _ List.mem_cons_self)).2.1.1
  obtain ⟨t, hrun, -⟩ := (quicStreamReadV_plan hinited).1 _ hplan
  obtain ⟨t', hrun', -⟩ := (@quicStreamReadV_plan (q.withRecvStates states) iov hinited).1 _ hplan'
  rw [h.apart a _ t t' _ _ hsame hrun hrun', reportsOf_readsOut hplan', ownRead, ownRead, hsame.si]

/-- The states when all streams but two are read without an end or a reset. -/
def statesWith (q : QuicStreams) (a b : ℕ) (state : StreamState) (i : ℕ) : StreamState :=
  if i = a then (q.si a).recvState else if i = b then state else .recv

/-- An end or a reset of a stream that is read before shows in all entries of a stream. -/
theorem ReadFlagsProper.shows (h : ReadFlagsProper q iov)
    (hplan : readPlan q [] q.conf.msgQueue iov = some (before ++ (a, bufs) :: after))
    (b : ℕ) (state : StreamState) :
    ∀ r ∈ (ownRead q (a, bufs)).reports,
      ((readsOut (q.withRecvStates (statesWith q a b state)) .empty before).fin = true →
        r.fin = true) ∧
      ((readsOut (q.withRecvStates (statesWith q a b state)) .empty before).reset = true →
        r.reset = true) := by
  have hsame (b : ℕ) (state : StreamState) : statesWith q a b state a = (q.si a).recvState :=
    if_pos rfl
  have hmaps := (h.collected hplan _ (hsame b state)).trans
    (h.collected hplan _ (hsame a .recv)).symm
  -- without an end or a reset nothing is collected
  have hplan' := ((QuicStreams.sameBut_withRecvStates (hsame a .recv)).readPlan iov).trans
    hplan
  have hstate {read : ℕ × List ℕ} (hread : read ∈ before) :
      ((q.withRecvStates (statesWith q a a .recv)).si read.1).recvState = .recv := by
    have hnodup := (readPlan_spec hplan).1
    rw [List.map_append, List.nodup_append] at hnodup
    have hne := hnodup.2.2 read.1 (List.mem_map_of_mem hread) a List.mem_cons_self
    change statesWith q a a .recv read.1 = .recv
    rw [statesWith, if_neg hne, if_neg hne]
  have hplain : (readsOut (q.withRecvStates (statesWith q a a .recv)) .empty before).fin = false ∧
      (readsOut (q.withRecvStates (statesWith q a a .recv)) .empty before).reset = false := by
    obtain ⟨hfin, hreset⟩ :=
      readsOut_flags (q.withRecvStates (statesWith q a a .recv)) .empty before
    rw [← Bool.not_eq_true, ← Bool.not_eq_true, hfin, hreset]
    refine ⟨?_, ?_⟩
    · rintro (hempty | ⟨read, hread, hflag⟩)
      · cases hempty
      · obtain ⟨si', hentry⟩ := ownRead_entryRead hplan' (List.mem_append_left _ hread)
        have hended := (hentry.fin.mp hflag).1
        rw [hstate hread] at hended
        cases hended
    · rintro (hempty | ⟨read, hread, hflag⟩)
      · cases hempty
      · obtain ⟨si', hentry⟩ := ownRead_entryRead hplan' (List.mem_append_left _ hread)
        have hreset := (hentry.reset.mp hflag).2
        rw [hstate hread] at hreset
        cases hreset
  intro r hr
  have hr' := List.map_inj_left.mp hmaps r hr
  rw [hplain.1, hplain.2, StreamReport.mk.injEq] at hr'
  obtain ⟨-, -, hfin, hreset⟩ := hr'
  rw [Bool.false_or] at hfin hreset
  refine ⟨fun hflag => ?_, fun hflag => ?_⟩
  · rw [← hfin, hflag, Bool.true_or]
  · rw [← hreset, hflag, Bool.true_or]

/-- When the flags of a stream depend only on it, no stream is read before one with bytes, unless
the latter is reset and the former not read to its end. -/
theorem ReadFlagsProper.reads_apart (h : ReadFlagsProper q iov)
    (hplan : readPlan q [] q.conf.msgQueue iov = some (before ++ (a, bufs) :: after))
    {b : ℕ × List ℕ} (hb : b ∈ before) (hbytes : 0 < (q.si a).inOrder.sum) :
    (q.si a).recvState = .resetRecvd ∧ ¬ q.Empties b := by
  obtain ⟨si', hentry⟩ := ownRead_entryRead hplan (List.mem_append_right _ List.mem_cons_self)
  obtain ⟨-, -, hbufs, -⟩ := (readPlan_spec hplan).2 _
    (List.mem_append_right _ (List.mem_cons_self (a := (a, bufs))))
  have hne : b.1 ≠ a := by
    have hnodup := (readPlan_spec hplan).1
    rw [List.map_append, List.nodup_append] at hnodup
    exact hnodup.2.2 b.1 (List.mem_map_of_mem hb) a List.mem_cons_self
  have hown (state : StreamState) : ∃ si', EntryRead b.1 b.2
      { q.si b.1 with recvState := state }
      (ownRead (q.withRecvStates (statesWith q a b.1 state)) b) si' := by
    have hsame : statesWith q a b.1 state a = (q.si a).recvState := if_pos rfl
    have hplan' := ((QuicStreams.sameBut_withRecvStates hsame).readPlan iov).trans hplan
    obtain ⟨si', hentry⟩ := ownRead_entryRead hplan' (List.mem_append_left _ hb)
    have hsi : (q.withRecvStates (statesWith q a b.1 state)).si b.1 =
        { q.si b.1 with recvState := state } := by
      change { q.si b.1 with recvState := statesWith q a b.1 state b.1 } = _
      rw [statesWith, if_neg hne, if_pos rfl]
    rw [hsi] at hentry
    exact ⟨si', hentry⟩
  have hsome : (ownRead q (a, bufs)).reports ≠ [] :=
    mt (hentry.silent hbufs).mp hbytes.ne'
  obtain ⟨r, hr⟩ := List.exists_mem_of_ne_nil _ hsome
  have hreset : (q.si a).recvState = .resetRecvd := by
    obtain ⟨-, hshows⟩ := h.shows hplan b.1 .resetRecvd r hr
    refine (hentry.reports r hr).2.mp (hshows ((readsOut_flags _ _ _).2.mpr (.inr ⟨b, hb, ?_⟩)))
    obtain ⟨si', hreset⟩ := hown .resetRecvd
    obtain ⟨-, -, hbufs, -⟩ := (readPlan_spec hplan).2 b (List.mem_append_left _ hb)
    exact hreset.reset.mpr ⟨hbufs, rfl⟩
  refine ⟨hreset, fun hempties => ?_⟩
  obtain ⟨hshows, -⟩ := h.shows hplan b.1 .dataRecvd r hr
  have hfin : r.fin = true := by
    refine hshows ((readsOut_flags _ _ _).1.mpr (.inr ⟨b, hb, ?_⟩))
    obtain ⟨si', hfin⟩ := hown .dataRecvd
    exact hfin.fin.mpr ⟨rfl, hempties⟩
  have hended := (hentry.reported.mp ⟨r, hr, hfin⟩).1
  rw [hreset] at hended
  cases hended

/-- When no end and no reset is lost, the reset streams that are read have bytes, and the ended ones
are not read to their end without bytes. -/
theorem ReadFlagsProper.reads_told (h : ReadFlagsProper q iov)
    (hplan : readPlan q [] q.conf.msgQueue iov = some (before ++ (a, bufs) :: after)) :
    ((q.si a).recvState = .resetRecvd → 0 < (q.si a).inOrder.sum) ∧
    ((q.si a).recvState = .dataRecvd → quicStreamOrdered (q.si a) = true →
      emptiedBy bufs (q.si a).inOrder ≠ some false) := by
  have hmem : (a, bufs) ∈ before ++ (a, bufs) :: after :=
    List.mem_append_right _ List.mem_cons_self
  obtain ⟨si', hentry⟩ := ownRead_entryRead hplan hmem
  obtain ⟨-, hfound, hbufs, -⟩ := (readPlan_spec hplan).2 _ hmem
  obtain ⟨t, hrun, hto⟩ := (quicStreamReadV_plan hfound.1).1 _ hplan
  -- an entry of the stream comes from its own read
  have hown {r : StreamReport} (hr : r ∈ (readsOut q .empty (before ++ (a, bufs) :: after)).reports)
      (hhandle : r.handle = a) : ∃ r' ∈ (ownRead q (a, bufs)).reports,
        (readsOut q .empty before).fin = true ∨ r'.fin = r.fin := by
    have hreports : r ∈ reportsOf a (readsOut q .empty (before ++ (a, bufs) :: after)).reports :=
      List.mem_filter.mpr ⟨hr, decide_eq_true hhandle⟩
    rw [reportsOf_readsOut hplan] at hreports
    obtain ⟨r', hr', rfl⟩ := List.mem_map.mp hreports
    refine ⟨r', hr', ?_⟩
    cases (readsOut q .empty before).fin with
    | false => exact .inr (Bool.false_or _).symm
    | true => exact .inl rfl
  refine ⟨fun hreset => ?_, fun hended hordered hempty => ?_⟩
  · by_contra hnone
    have hsum := Nat.eq_zero_of_not_pos hnone
    obtain ⟨removed, hremoved, -, hsilent⟩ := hto.removed
    obtain ⟨r, hr, hhandle, -⟩ :=
      h.reset t _ removed a hrun hremoved (hsilent _ hmem hsum) hfound hreset
    obtain ⟨r', hr', -⟩ := hown hr hhandle
    rw [(hentry.silent hbufs).mpr hsum] at hr'
    cases hr'
  · have hread : (ownRead q (a, bufs)).fin = true :=
      hentry.fin.mpr ⟨hended, hordered, by rw [hempty]; simp⟩
    obtain ⟨r, hr, hhandle, hfin⟩ :=
      h.fin t _ a hrun hended ((hto.ended a).mpr (.inr ⟨_, hmem, rfl, hread⟩))
    obtain ⟨r', hr', hcollected | hsame⟩ := hown hr hhandle
    · rcases (readsOut_flags q .empty before).1.mp hcollected with hempty | ⟨b, hb, -⟩
      · cases hempty
      · have hbytes : 0 < (q.si a).inOrder.sum := by
          by_contra hnone
          rw [(hentry.silent hbufs).mpr (Nat.eq_zero_of_not_pos hnone)] at hr'
          cases hr'
        have hreset := (h.reads_apart hplan hb hbytes).1
        rw [hended] at hreset
        cases hreset
    · have htold := (hentry.reported.mp ⟨r', hr', hsame.trans hfin⟩).2.2
      rw [hempty] at htold
      cases htold

/-- An entry of a stream is filled in with at least its own flags. -/
theorem exists_report
    (hplan : readPlan q [] q.conf.msgQueue iov = some (before ++ (a, bufs) :: after))
    {r : StreamReport} (hr : r ∈ (ownRead q (a, bufs)).reports) :
    ∃ r' ∈ (readsOut q .empty (before ++ (a, bufs) :: after)).reports, r'.handle = a ∧
      (r.fin = true → r'.fin = true) ∧ (r.reset = true → r'.reset = true) := by
  have hmem := List.mem_map_of_mem (f := fun r : StreamReport =>
    { r with fin := (readsOut q .empty before).fin || r.fin,
             reset := (readsOut q .empty before).reset || r.reset }) hr
  rw [← reportsOf_readsOut hplan] at hmem
  obtain ⟨hmem, hhandle⟩ := List.mem_filter.mp hmem
  refine ⟨_, hmem, of_decide_eq_true hhandle, fun hfin => ?_, fun hreset => ?_⟩
  · exact Bool.or_eq_true _ _ ▸ .inr hfin
  · exact Bool.or_eq_true _ _ ▸ .inr hreset

/-- The reads before a stream with bytes collect no end. -/
theorem ReadsApart.collects_no_end (h : ReadsApart q iov)
    (hplan : readPlan q [] q.conf.msgQueue iov = some (before ++ (a, bufs) :: after))
    (hbytes : 0 < (q.si a).inOrder.sum) (hsame : q.SameBut q' a) :
    (readsOut q' .empty before).fin = false := by
  have hplan' := (hsame.readPlan iov).trans hplan
  rw [← Bool.not_eq_true, (readsOut_flags q' .empty before).1]
  rintro (hempty | ⟨b, hb, hfin⟩)
  · cases hempty
  · obtain ⟨si', hentry⟩ := ownRead_entryRead hplan' (List.mem_append_left _ hb)
    obtain ⟨-, hordered, hempties⟩ := hentry.fin.mp hfin
    rw [hsame.inOrder] at hempties
    rw [hsame.entry b.1] at hordered
    exact ((pairwise_iff_before.mp (h _ hplan).1 before _ after rfl b hb) hbytes).2
      ⟨hordered, hempties⟩

/-- The flags of an entry depend only on its stream and no end and no reset is lost, when the
streams are read apart. -/
theorem ReadsApart.proper (h : ReadsApart q iov) : ReadFlagsProper q iov where
  apart a q' t t' reports reports' hsame hrun hrun' := by
    obtain ⟨reads, hplan, rfl, -⟩ := quicStreamReadV_ok hrun
    obtain ⟨reads', hplan', rfl, -⟩ := quicStreamReadV_ok hrun'
    have heq := hplan'.symm.trans ((hsame.readPlan iov).trans hplan)
    cases heq
    by_cases hmem : ∃ bufs, (a, bufs) ∈ reads
    · obtain ⟨bufs, hmem⟩ := hmem
      obtain ⟨before, after, rfl⟩ := List.append_of_mem hmem
      obtain ⟨si', hentry⟩ := ownRead_entryRead hplan hmem
      obtain ⟨-, -, hbufs, -⟩ := (readPlan_spec hplan).2 _ hmem
      have hown : ownRead q' (a, bufs) = ownRead q (a, bufs) := by
        rw [ownRead, ownRead, hsame.si]
      rw [reportsOf_readsOut hplan, reportsOf_readsOut hplan', hown]
      refine List.map_congr_left fun r hr => ?_
      have hbytes : 0 < (q.si a).inOrder.sum := by
        by_contra hnone
        rw [(hentry.silent hbufs).mpr (Nat.eq_zero_of_not_pos hnone)] at hr
        cases hr
      rw [h.collects_no_end hplan hbytes hsame,
        h.collects_no_end hplan hbytes ⟨fun _ => rfl, rfl, rfl⟩]
      cases before with
      | nil => rfl
      | cons b before =>
        have hreset := (pairwise_iff_before.mp (h _ hplan).1 _ _ _ rfl b List.mem_cons_self) hbytes
        rw [(hentry.reports r hr).2.mpr hreset.1, Bool.or_true, Bool.or_true]
    · have hnot {q : QuicStreams} (hplan : readPlan q [] q.conf.msgQueue iov = some reads) :
          reportsOf a (readsOut q .empty reads).reports = [] := by
        refine reportsOf_readsOut_of_not_mem .empty fun read hread => ⟨fun heq => ?_, ?_⟩
        · exact hmem ⟨read.2, heq ▸ hread⟩
        · obtain ⟨si', hentry⟩ := ownRead_entryRead hplan hread
          exact fun r hr => (hentry.reports r hr).1
      rw [hnot hplan, hnot hplan']
  fin t reports a hrun hended hread := by
    obtain ⟨reads, hplan, rfl, hto⟩ := quicStreamReadV_ok hrun
    rcases (hto.ended a).mp hread with hbefore | ⟨⟨i, bufs⟩, hmem, heq, hfin⟩
    · rw [hended] at hbefore
      cases hbefore
    · obtain rfl : a = i := heq.symm
      obtain ⟨si', hentry⟩ := ownRead_entryRead hplan hmem
      obtain ⟨-, hordered, hempties⟩ := hentry.fin.mp hfin
      have htrue := ((h _ hplan).2 _ hmem).2 hended hordered
      have htold : emptiedBy bufs (q.si a).inOrder = some true := by
        cases hby : emptiedBy bufs (q.si a).inOrder with
        | none => exact absurd hby hempties
        | some bytes =>
          cases bytes with
          | true => rfl
          | false => exact absurd hby htrue
      obtain ⟨r, hr, hrfin⟩ := hentry.reported.mpr ⟨hended, hordered, htold⟩
      obtain ⟨before, after, rfl⟩ := List.append_of_mem hmem
      obtain ⟨r', hr', hhandle, hfin', -⟩ := exists_report hplan hr
      exact ⟨r', hr', hhandle, hfin' hrfin⟩
  reset t reports removed a hrun hremoved hmem hfound hreset := by
    obtain ⟨reads, hplan, rfl, hto⟩ := quicStreamReadV_ok hrun
    obtain ⟨removed', hremoved', hread, -⟩ := hto.removed
    have hsame : removed' = removed := List.append_cancel_right (hremoved'.symm.trans hremoved)
    rcases hread a hfound (hsame ▸ hmem) with hseen | ⟨⟨i, bufs⟩, hmem, heq⟩
    · cases hseen
    · obtain rfl : a = i := heq.symm
      obtain ⟨si', hentry⟩ := ownRead_entryRead hplan hmem
      obtain ⟨-, -, hbufs, -⟩ := (readPlan_spec hplan).2 _ hmem
      have hbytes := ((h _ hplan).2 _ hmem).1 hreset
      obtain ⟨r, hr⟩ := List.exists_mem_of_ne_nil _ (mt (hentry.silent hbufs).mp hbytes.ne')
      obtain ⟨before, after, rfl⟩ := List.append_of_mem hmem
      obtain ⟨r', hr', hhandle, -, hreset'⟩ := exists_report hplan hr
      exact ⟨r', hr', hhandle, hreset' ((hentry.reports r hr).2.mpr hreset)⟩

/-- For every queue of messages and all buffers: the flags of an entry depend only on its stream,
and no end and no reset is lost, if and only if the streams are read apart. -/
theorem readFlagsProper_iff (q : QuicStreams) (iov : List ℕ) :
    ReadFlagsProper q iov ↔ ReadsApart q iov := by
  refine ⟨fun h reads hplan => ⟨?_, fun read hread => ?_⟩, ReadsApart.proper⟩
  · refine pairwise_iff_before.mpr fun before a after heq b hb hbytes => ?_
    subst heq
    exact h.reads_apart hplan hb hbytes
  · obtain ⟨before, after, rfl⟩ := List.append_of_mem hread
    exact h.reads_told hplan

/-- A stream ends with its only byte, and the entry of the next stream says that this one ends
too. -/
theorem readFlags_leak : ∃ s, Trace.run (NoticeEvent.step fun _ => true)
      (Endpoint.created true Endpoint.ordinaryParams Endpoint.ordinaryParams)
      [.stream (.frame 0x09 (rPacketBufInit [0x04, 0x61])),
        .stream (.frame 0x08 (rPacketBufInit [0x08, 0x62]))] = some s ∧
    (quicStreamReadV [2, 2] s.streams).1.toOption =
      some [⟨4, [0x61], true, false⟩, ⟨8, [0x62], true, false⟩] ∧
    ¬ ReadFlagsProper s.streams [2, 2] := by
  have hfacts : (Trace.run (NoticeEvent.step fun _ => true)
      (Endpoint.created true Endpoint.ordinaryParams Endpoint.ordinaryParams)
      [.stream (.frame 0x09 (rPacketBufInit [0x04, 0x61])),
        .stream (.frame 0x08 (rPacketBufInit [0x08, 0x62]))]).map (fun s => decide
      ((quicStreamReadV [2, 2] s.streams).1.toOption =
          some [⟨4, [0x61], true, false⟩, ⟨8, [0x62], true, false⟩] ∧
        readPlan s.streams [] s.streams.conf.msgQueue [2, 2] = some [(4, [2, 2]), (8, [2])] ∧
        (s.streams.si 8).inOrder.sum = 1 ∧ (s.streams.si 8).recvState = .recv)) = some true := by
    decide +kernel
  obtain ⟨s, hs, hfacts⟩ := Option.map_eq_some_iff.mp hfacts
  obtain ⟨hrun, hplan, hsum, hstate⟩ := of_decide_eq_true hfacts
  refine ⟨s, hs, hrun, fun h => ?_⟩
  have hplan' : readPlan s.streams [] s.streams.conf.msgQueue [2, 2] =
      some ([(4, [2, 2])] ++ (8, [2]) :: []) := hplan
  have hbytes : 0 < (s.streams.si 8).inOrder.sum := by
    rw [hsum]
    exact Nat.zero_lt_one
  have hreset := (h.reads_apart hplan' List.mem_cons_self hbytes).1
  rw [hstate] at hreset
  cases hreset

end Flags

end Tbquic
