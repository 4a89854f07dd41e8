import Mathlib.Data.List.Nodup
import Tbquic.Frame.PeerStreams

/-!
# Streams of this endpoint

The streams that an endpoint opens over a run. Their numbers are kept beside the endpoint. A number
comes from a counter and the limit of the peer, the table and the check of numbers from the
parameters at the start.
-/

namespace Tbquic

/-- A frame leaves the sending part alone that this endpoint has not opened. -/
theorem EntryWrite.idle {type : ℕ} {frame : RPacket} {server : Bool} {id : ℕ}
    {si si' : QuicStreamInstance} (h : EntryWrite type frame server id si si')
    (hlocal : quicStreamPeerOpened id server = false) (hsi : si.sendState = .start) :
    si'.sendState = .start := by
  cases h with
  | recvOpen =>
    unfold quicStreamInstanceRecvOpen
    split <;> exact hsi
  | recvReset =>
    unfold FrameState.recvReset
    split <;> exact hsi
  | stopSending _ _ hsend => exact absurd (.inl hsi) hsend
  | sendReady _ _ hpeer =>
    rw [hlocal] at hpeer
    rcases hpeer with hpeer | hne
    · cases hpeer
    · exact absurd hsi hne
  | recvFin =>
    unfold Tbquic.recvFin
    split <;> exact hsi
  | data | notify => exact hsi
  | complete =>
    unfold recvComplete
    split <;> exact hsi
  | maxStreamData => split <;> exact hsi
  | acked flags =>
    unfold streamFlagsAcked
    simp only [hsi]
    split_ifs <;> simp_all

/-- Only the opening of a stream starts the sending part that this endpoint has not opened. -/
theorem EventWrite.idle {s : Endpoint} {id : ℕ} {e : StreamEvent} {si si' : QuicStreamInstance}
    (h : EventWrite s id e si si') (hlocal : quicStreamPeerOpened id s.streams.server = false)
    (hopen : ∀ uni, e ≠ .streamOpen uni) (hsi : si.sendState = .start) :
    si'.sendState = .start := by
  cases h with
  | frame h => exact h.idle hlocal hsi
  | recvOpen =>
    unfold quicStreamInstanceRecvOpen
    split <;> exact hsi
  | @opened uni => exact absurd rfl (hopen uni)
  | read hread => exact (quicStreamReadData_states hread).2.2.1.trans hsi
  | started =>
    unfold sendStarted
    split
    · rename_i hready
      rw [hsi] at hready
      cases hready
    · exact hsi
  | fin =>
    unfold sendFin
    split
    · rename_i hsend
      rw [hsi] at hsend
      cases hsend.2
    · exact hsi
  | reset hresettable =>
    rcases hresettable with h | h | h <;> rw [hsi] at h <;> cases h
  | counted => exact hsi

/-- An endpoint with the numbers of the streams that it opened. -/
structure Opener where
  /-- The endpoint. -/
  endpoint : Endpoint
  /-- The numbers that `QuicStreamOpen` returned. -/
  ids : List ℕ

namespace Opener

variable {mem : ℕ → Bool} {g g' : Opener} {e : StreamEvent} {es : List StreamEvent} {uni : Bool}
  {id k : ℕ}

/-- The number that an event returns. -/
def openedId (s : Endpoint) : StreamEvent → List ℕ
  | .streamOpen uni =>
    match (quicStreamOpen uni s.table).1 with
    | .ok id => [id]
    | .error _ => []
  | _ => []

/-- The state behind an event. -/
def step (mem : ℕ → Bool) (g : Opener) (e : StreamEvent) : Option Opener :=
  (Endpoint.step mem g.endpoint e).map fun t => ⟨t, g.ids ++ openedId g.endpoint e⟩

/-- How many streams of a kind were opened. -/
def opened (g : Opener) (uni : Bool) : ℕ := g.ids.countP fun id => unidirectional id = uni

/-- The number of a stream of this endpoint. -/
def numbered (g : Opener) (uni : Bool) (k : ℕ) : ℕ :=
  4 * k + streamTypeBits uni g.endpoint.streams.server

/-- The limit of the peer on the streams of a kind. -/
def limit (g : Opener) (uni : Bool) : ℕ := g.endpoint.streams.peerParam.maxStreams uni

/-- The next stream of a kind is opened while the limit of the peer allows it. -/
def OpensNext (g : Opener) (e : StreamEvent) : Prop :=
  ∀ uni, e = .streamOpen uni → g.opened uni < g.limit uni →
    (quicStreamOpen uni g.endpoint.table).1 = .ok (g.numbered uni (g.opened uni))

/-- The streams that were opened are distinct, and all are found. -/
def IdsFound (g : Opener) : Prop :=
  g.ids.Nodup ∧ ∀ id ∈ g.ids, (quicStreamGetInstance id g.endpoint.streams).1 = .ok id

/-- Streams are opened in order, and are distinct and found before and behind an event. -/
def OpensProper (mem : ℕ → Bool) (g : Opener) (e : StreamEvent) : Prop :=
  g.OpensNext e ∧ g.IdsFound ∧ ∀ g', step mem g e = some g' → g'.IdsFound

/-- The next stream within the limit of the peer is in the table, and below the number that
`QuicStreamIdCheckPeer` computes from the own limit. -/
def TableFits (g : Opener) : StreamEvent → Prop
  | .streamOpen uni => g.opened uni < g.limit uni →
    g.numbered uni (g.opened uni) < g.endpoint.streams.conf.maxIdValue ∧
      g.numbered uni (g.opened uni) < quicStreamComputeMaxId
        (g.endpoint.streams.transParam.maxStreams uni) uni g.endpoint.streams.server
  | _ => True

instance (g : Opener) (uni : Bool) : Decidable (g.TableFits (.streamOpen uni)) :=
  inferInstanceAs (Decidable (_ → _))

/-- The streams were opened in order, those that come next are untouched, and all are found. -/
structure OpenInv (g : Opener) : Prop where
  /-- The table is there. -/
  inited : g.endpoint.streams.conf.inited = true
  /-- The table is small. -/
  size : g.endpoint.streams.conf.maxIdValue < 2 ^ 34
  /-- The counters count the streams. -/
  counted (uni : Bool) : g.endpoint.table.alloced uni = g.opened uni
  /-- They are small. -/
  small (uni : Bool) : g.opened uni ≤ 2 ^ 32
  /-- The streams that come next are untouched. -/
  idle (uni : Bool) (k : ℕ) : g.opened uni ≤ k →
    (g.endpoint.si (g.numbered uni k)).sendState = .start
  /-- The streams were numbered in order. -/
  below (id : ℕ) : id ∈ g.ids → ∃ uni k, k < g.opened uni ∧ id = g.numbered uni k
  /-- They are found. -/
  found : g.IdsFound

/-- A stream of this endpoint has its type bits. -/
theorem numbered_local (g : Opener) (uni : Bool) (k : ℕ) :
    quicStreamPeerOpened (g.numbered uni k) g.endpoint.streams.server = false ∧
      unidirectional (g.numbered uni k) = uni := by
  have hbits := streamTypeBits_lt uni g.endpoint.streams.server
  rw [← mod_four_eq_iff, numbered]
  omega

/-- Streams with the same number are the same. -/
theorem numbered_inj {uni' : Bool} {k' : ℕ} (h : g.numbered uni k = g.numbered uni' k') :
    uni = uni' ∧ k = k' := by
  have huni : uni = uni' := by
    rw [← (numbered_local g uni k).2, h, (numbered_local g uni' k').2]
  subst huni
  refine ⟨rfl, ?_⟩
  unfold numbered at h
  omega

/-- The number that comes next. -/
theorem nextId_eq (hs : OpenInv g) (uni : Bool) :
    g.endpoint.table.nextId uni = g.numbered uni (g.opened uni) := by
  have hsmall := hs.small uni
  rw [QuicStreamTable.nextId, quicStreamId_eq, hs.counted, Nat.mod_eq_of_lt (by omega)]
  rfl

/-- When the next stream can be opened. -/
theorem canOpen_iff (hs : OpenInv g) : g.endpoint.table.CanOpen uni ↔
    g.opened uni < g.limit uni ∧
      g.numbered uni (g.opened uni) < g.endpoint.streams.conf.maxIdValue := by
  rw [QuicStreamTable.CanOpen, nextId_eq hs, hs.counted]
  exact and_iff_right hs.inited

/-- The next stream is opened when it can be. -/
theorem quicStreamOpen_next (hs : OpenInv g) (h : g.endpoint.table.CanOpen uni) :
    quicStreamOpen uni g.endpoint.table =
      (.ok (g.numbered uni (g.opened uni)), g.endpoint.table.opened uni) := by
  rw [← nextId_eq hs]
  refine QuicStreamTable.quicStreamOpen_of_canOpen h (hs.size.le.trans (by decide)) ?_
  rw [nextId_eq hs]
  exact hs.idle uni _ le_rfl

/-- The number of a stream of this endpoint is checked against both bounds. -/
theorem idCheck_numbered (g : Opener) (uni : Bool) (k : ℕ) :
    g.endpoint.streams.idCheck (g.numbered uni k) = true ↔
      g.numbered uni k < g.endpoint.streams.conf.maxIdValue ∧
        g.numbered uni k < quicStreamComputeMaxId
          (g.endpoint.streams.transParam.maxStreams uni) uni g.endpoint.streams.server := by
  obtain ⟨hlocal, huni⟩ := numbered_local g uni k
  have hnumber : (if unidirectional (g.numbered uni k) then
        quicStreamComputeMaxId g.endpoint.streams.transParam.initialMaxStreamUni true
          g.endpoint.streams.server
      else quicStreamComputeMaxId g.endpoint.streams.transParam.initialMaxStreamBidi false
        g.endpoint.streams.server) = quicStreamComputeMaxId
          (g.endpoint.streams.transParam.maxStreams uni) uni g.endpoint.streams.server := by
    rw [huni]
    cases uni <;> rfl
  rw [QuicStreams.idCheck, QuicStreams.idCheckPeer, Int.toNat_natCast, hlocal, hnumber]
  simp [and_comm]

/-- A stream that this endpoint opened is found below both bounds. -/
theorem found_numbered (hinited : g.endpoint.streams.conf.inited = true)
    (hsend : (g.endpoint.si (g.numbered uni k)).sendState ≠ .start)
    (hbounds : g.numbered uni k < g.endpoint.streams.conf.maxIdValue ∧
      g.numbered uni k < quicStreamComputeMaxId
        (g.endpoint.streams.transParam.maxStreams uni) uni g.endpoint.streams.server) :
    g.endpoint.streams.Found (g.numbered uni k) :=
  ⟨hinited, (idCheck_numbered g uni k).mpr hbounds, .inr hsend⟩

/-- A stream of this endpoint that nothing was done with is left alone by all but its opening. -/
theorem step_idle {s t : Endpoint} (h : Endpoint.step mem s e = some t)
    (hopen : ∀ uni, e ≠ .streamOpen uni) (hlocal : quicStreamPeerOpened id s.streams.server = false)
    (hstart : (s.si id).sendState = .start) : (t.si id).sendState = .start := by
  have hchain := (Endpoint.step_written h).entry id
  change Relation.ReflTransGen _ (s.si id) (t.si id) at hchain
  generalize t.si id = si at hchain
  induction hchain with
  | refl => exact hstart
  | tail _ hlast ih => exact hlast.idle hlocal hopen ih

/-- Only the opening of streams counts. -/
theorem step_alloced {s t : Endpoint} (h : Endpoint.step mem s e = some t)
    (hopen : ∀ uni, e ≠ .streamOpen uni) (uni : Bool) :
    t.table.alloced uni = s.table.alloced uni := by
  have hsame (hbidi : t.bidiIdAlloced = s.bidiIdAlloced) (huni : t.uniIdAlloced = s.uniIdAlloced) :
      t.table.alloced uni = s.table.alloced uni := by
    cases uni with
    | false => exact hbidi
    | true => exact huni
  cases e with
  | frame type frame =>
    obtain ⟨-, hbidi, huni⟩ := Endpoint.recvFrame_written h
    exact hsame hbidi huni
  | streamOpen uni => exact absurd rfl (hopen uni)
  | read | streamBuild | blockedBuild | resetBuild | flowCtrl =>
    obtain ⟨rfl, -⟩ := Endpoint.run_eq_some h
    exact hsame rfl rfl
  | sent qb =>
    cases h
    exact hsame rfl rfl

/-- An event that opens no stream keeps the order. -/
theorem OpenInv.of_other (hs : OpenInv g) (h : step mem g e = some g')
    (hopen : ∀ uni, e ≠ .streamOpen uni) : OpenInv g' := by
  obtain ⟨t, ht, rfl⟩ := Option.map_eq_some_iff.mp h
  have hids : g.ids ++ openedId g.endpoint e = g.ids := by
    cases e with
    | streamOpen uni => exact absurd rfl (hopen uni)
    | frame | read | streamBuild | blockedBuild | resetBuild | flowCtrl | sent =>
      exact List.append_nil _
  have hkeeps := (Endpoint.step_written ht).keeps
  rw [hids]
  have hnumbered (uni : Bool) (k : ℕ) :
      (Opener.mk t g.ids).numbered uni k = g.numbered uni k := by
    rw [numbered, hkeeps.server, numbered]
  refine ⟨hkeeps.inited.trans hs.inited, hkeeps.maxIdValue.trans_lt hs.size, fun uni => ?_,
    hs.small, fun uni k hk => ?_, fun id hid => ?_, hs.found.1, fun id hid => ?_⟩
  · exact (step_alloced ht hopen uni).trans (hs.counted uni)
  · rw [hnumbered]
    exact step_idle ht hopen (numbered_local g uni k).1 (hs.idle uni k hk)
  · obtain ⟨uni, k, hk, rfl⟩ := hs.below id hid
    exact ⟨uni, k, hk, (hnumbered uni k).symm⟩
  · have hfound := quicStreamGetInstance_ok_iff.mp (hs.found.2 id hid)
    exact quicStreamGetInstance_ok_iff.mpr (hfound.keeps hkeeps)

/-- Opening nothing changes nothing. -/
theorem step_of_not_canOpen (h : step mem g (.streamOpen uni) = some g')
    (hopen : ¬ g.endpoint.table.CanOpen uni) : g' = g := by
  obtain ⟨t, ht, rfl⟩ := Option.map_eq_some_iff.mp h
  have hrun := QuicStreamTable.quicStreamOpen_of_not_canOpen hopen
  rw [Endpoint.step, hrun] at ht
  cases ht
  have hids : openedId g.endpoint (.streamOpen uni) = [] := by
    rw [openedId, hrun]
  rw [hids, List.append_nil]
  rfl

/-- The state behind the opening of the next stream. -/
theorem step_of_canOpen (hs : OpenInv g) (h : step mem g (.streamOpen uni) = some g')
    (hopen : g.endpoint.table.CanOpen uni) :
    g' = ⟨g.endpoint.setTable (g.endpoint.table.opened uni),
      g.ids ++ [g.numbered uni (g.opened uni)]⟩ := by
  obtain ⟨t, ht, rfl⟩ := Option.map_eq_some_iff.mp h
  have hrun := quicStreamOpen_next hs hopen
  rw [Endpoint.step, hrun] at ht
  cases ht
  rw [openedId, hrun]

section Opened

variable {n : ℕ}

/-- The count behind the opening of a stream. -/
theorem opened_append (huni : unidirectional n = uni) (t : Endpoint) (kind : Bool) :
    (Opener.mk t (g.ids ++ [n])).opened kind =
      g.opened kind + if kind = uni then 1 else 0 := by
  unfold opened
  rw [List.countP_append, List.countP_singleton, huni]
  cases kind <;> cases uni <;> rfl

/-- The counters behind the opening of a stream. -/
theorem alloced_opened (q : QuicStreamTable) (kind : Bool) :
    (q.opened uni).alloced kind = q.alloced kind + if kind = uni then 1 else 0 := by
  cases kind <;> cases uni <;> rfl

/-- The next stream is new. -/
theorem next_not_mem (hs : OpenInv g) : g.numbered uni (g.opened uni) ∉ g.ids := by
  intro hmem
  obtain ⟨kind, k, hk, hid⟩ := hs.below _ hmem
  obtain ⟨rfl, rfl⟩ := numbered_inj hid
  exact lt_irrefl _ hk

/-- The opening of a stream that is found keeps the order. -/
theorem OpenInv.of_opened (hs : OpenInv g) (h : step mem g (.streamOpen uni) = some g')
    (hopen : g.endpoint.table.CanOpen uni)
    (hnumber : g.numbered uni (g.opened uni) < quicStreamComputeMaxId
      (g.endpoint.streams.transParam.maxStreams uni) uni g.endpoint.streams.server) :
    OpenInv g' := by
  obtain ⟨t, ht, htg⟩ := Option.map_eq_some_iff.mp h
  have hkeeps := (Endpoint.step_written ht).keeps
  have hg' := step_of_canOpen hs h hopen
  have htable := ((canOpen_iff hs).mp hopen).2
  have hnext := nextId_eq hs uni
  obtain ⟨hlocal, huni⟩ := numbered_local g uni (g.opened uni)
  have ht' : t = g.endpoint.setTable (g.endpoint.table.opened uni) :=
    congrArg Opener.endpoint (htg.trans hg')
  rw [ht'] at hkeeps
  set n := g.numbered uni (g.opened uni) with hn
  have hsi (i : ℕ) : g'.endpoint.si i = if i = n then
      openLocal g.endpoint.streams.peerParam uni (g.endpoint.si n) else g.endpoint.si i := by
    rw [hg']
    change (g.endpoint.streams.updateSi (g.endpoint.table.nextId uni) _).si i = _
    rw [hnext]
    by_cases hi : i = n
    · rw [if_pos hi, hi, QuicStreams.updateSi_si]
      rfl
    · rw [if_neg hi, QuicStreams.updateSi_si_of_ne _ _ hi]
      rfl
  have hcount (kind : Bool) : g'.opened kind = g.opened kind + if kind = uni then 1 else 0 := by
    rw [hg']
    exact opened_append huni _ kind
  have hnumbered (kind : Bool) (k : ℕ) : g'.numbered kind k = g.numbered kind k := by
    rw [hg']
    rfl
  have hready : (g'.endpoint.si n).sendState ≠ .start := by
    rw [hsi, if_pos rfl]
    cases uni with
    | false =>
      refine (QuicStreams.keepsStates_recvOpen _).2 fun h => ?_
      cases h
    | true => exact fun h => (by cases h)
  have hsize : g'.endpoint.streams.conf.maxIdValue = g.endpoint.streams.conf.maxIdValue := by
    rw [hg']
    rfl
  refine ⟨?_, hsize.trans_lt hs.size, fun kind => ?_, fun kind => ?_, fun kind k hk => ?_,
    fun id hid => ?_, ?_, fun id hid => ?_⟩
  · rw [hg']
    exact hs.inited
  · rw [hcount, ← hs.counted, hg']
    exact alloced_opened _ kind
  · have hsmall := hs.small kind
    have hlt := hs.size
    rw [hcount]
    split
    · rename_i hkind
      subst hkind
      unfold numbered at hn
      omega
    · exact hsmall
  · rw [hcount] at hk
    have hne : g'.numbered kind k ≠ n := by
      rw [hnumbered]
      intro heq
      obtain ⟨rfl, rfl⟩ := numbered_inj heq
      rw [if_pos rfl] at hk
      omega
    rw [hsi, if_neg hne, hnumbered]
    exact hs.idle kind k (le_trans (Nat.le_add_right _ _) hk)
  · rw [hg'] at hid
    rcases List.mem_append.mp hid with hold | hnew
    · obtain ⟨kind, k, hk, rfl⟩ := hs.below id hold
      refine ⟨kind, k, ?_, (hnumbered kind k).symm⟩
      rw [hcount]
      omega
    · refine ⟨uni, g.opened uni, ?_, ?_⟩
      · rw [hcount, if_pos rfl]
        exact Nat.lt_succ_self _
      · rw [hnumbered]
        exact List.mem_singleton.mp hnew
  · rw [hg']
    refine List.nodup_append.mpr ⟨hs.found.1, List.nodup_singleton n, ?_⟩
    rintro a ha b hb rfl
    rw [List.mem_singleton] at hb
    exact next_not_mem hs (hb ▸ ha)
  · rw [hg'] at hid
    rcases List.mem_append.mp hid with hold | hnew
    · have hfound := (quicStreamGetInstance_ok_iff.mp (hs.found.2 id hold)).keeps hkeeps
      rw [hg']
      exact quicStreamGetInstance_ok_iff.mpr hfound
    · rw [List.mem_singleton] at hnew
      have hn' : n = g'.numbered uni (g.opened uni) := (hnumbered uni _).symm
      rw [hnew]
      rw [hn'] at hready ⊢
      refine quicStreamGetInstance_ok_iff.mpr (found_numbered ?_ hready ?_)
      · rw [hg']
        exact hs.inited
      · rw [hnumbered, hg']
        exact ⟨htable, hnumber⟩

end Opened

/-- Every event that fits the table keeps the order. -/
theorem step_openInv (hs : OpenInv g) (hok : g.TableFits e) (h : step mem g e = some g') :
    OpenInv g' := by
  by_cases hevent : ∃ uni, e = .streamOpen uni
  · obtain ⟨uni, rfl⟩ := hevent
    by_cases hopen : g.endpoint.table.CanOpen uni
    · exact hs.of_opened h hopen (hok ((canOpen_iff hs).mp hopen).1).2
    · rw [step_of_not_canOpen h hopen]
      exact hs
  · push Not at hevent
    exact hs.of_other h hevent

/-- A state behind the opening of the next stream. -/
theorem exists_step_of_canOpen (mem : ℕ → Bool) (hs : OpenInv g)
    (hopen : g.endpoint.table.CanOpen uni) : ∃ g', step mem g (.streamOpen uni) = some g' := by
  have hrun := quicStreamOpen_next hs hopen
  rw [step, Endpoint.step, hrun]
  exact ⟨_, rfl⟩

/-- While the streams are in order, the opening of streams works exactly when the next one fits. -/
theorem opensProper_iff (hs : OpenInv g) : OpensProper mem g e ↔ TableFits g e := by
  constructor
  · rintro ⟨hnext, -, hafter⟩
    cases e with
    | streamOpen uni =>
      intro hlimit
      have hok := hnext uni rfl hlimit
      have hopen : g.endpoint.table.CanOpen uni := by
        by_contra hopen
        rw [QuicStreamTable.quicStreamOpen_of_not_canOpen hopen] at hok
        cases hok
      obtain ⟨g', hg⟩ := exists_step_of_canOpen mem hs hopen
      have hg' := step_of_canOpen hs hg hopen
      have hfound := (hafter g' hg).2 (g.numbered uni (g.opened uni)) (by
        rw [hg']
        exact List.mem_append_right _ (List.mem_singleton_self _))
      rw [hg'] at hfound
      have hcheck := (quicStreamGetInstance_ok_iff.mp hfound).2.1
      refine ⟨((canOpen_iff hs).mp hopen).2, ?_⟩
      exact ((idCheck_numbered ⟨g.endpoint.setTable (g.endpoint.table.opened uni), g.ids⟩ uni
        (g.opened uni)).mp hcheck).2
    | frame | read | streamBuild | blockedBuild | resetBuild | flowCtrl | sent => trivial
  · intro hok
    refine ⟨?_, hs.found, fun g' h => (step_openInv hs hok h).found⟩
    rintro uni rfl hlimit
    have hopen : g.endpoint.table.CanOpen uni := (canOpen_iff hs).mpr ⟨hlimit, (hok hlimit).1⟩
    rw [quicStreamOpen_next hs hopen]

/-- No stream was opened when the parameters were exchanged. -/
theorem openInv_created {s : Endpoint} (hs : s.Created) : OpenInv ⟨s, []⟩ := by
  obtain ⟨own, peer, hstreams, hbidi, huni⟩ := hs
  have hsize := createdStreams_maxIdValue_lt s.streams.server own peer
  rw [← hstreams] at hsize
  have hconf := createdStreams_eq s.streams.server own peer
  rw [← hstreams] at hconf
  refine ⟨?_, hsize, fun uni => ?_, fun uni => Nat.zero_le _, fun uni k _ => ?_,
    fun id hid => absurd hid List.not_mem_nil, List.nodup_nil,
    fun id hid => absurd hid List.not_mem_nil⟩
  · change s.streams.conf.inited = true
    rw [hconf]
  · cases uni with
    | false => exact hbidi
    | true => exact huni
  · obtain ⟨hlocal, -⟩ := numbered_local ⟨s, []⟩ uni k
    change quicStreamPeerOpened _ s.streams.server = false at hlocal
    change (s.streams.si _).sendState = .start
    rw [hconf]
    change (quicStreamInstanceInit _ _).sendState = .start
    rw [quicStreamInstanceInit, hlocal]
    rfl

/-- Along a run the streams that this endpoint opens are numbered in order, distinct and found from
then on exactly when each next one within the limit of the peer fits the table and the own limit. -/
theorem opensProper_along_iff (mem : ℕ → Bool) (s : Endpoint) (es : List StreamEvent)
    (hs : s.Created) : Trace.Along (step mem) (OpensProper mem) ⟨s, []⟩ es ↔
      Trace.Along (step mem) TableFits ⟨s, []⟩ es :=
  Trace.along_congr_of_invariant OpenInv (fun _ _ => opensProper_iff)
    (fun _ _ _ hv hproper hw => step_openInv hv ((opensProper_iff hv).mp hproper) hw)
    (openInv_created hs)

/-- A server with ordinary parameters opens two streams. -/
theorem opensProper_along_two :
    Trace.Along (step fun _ => true) (OpensProper fun _ => true)
      ⟨Endpoint.created true Endpoint.ordinaryParams Endpoint.ordinaryParams, []⟩
      [.streamOpen false, .streamOpen true] := by
  refine (opensProper_along_iff _ _ _ (Endpoint.created_created _ _ _)).mpr
    ⟨by decide +kernel, fun t ht => ⟨?_, fun _ _ => trivial⟩⟩
  have hrun : (step (fun _ => true)
      ⟨Endpoint.created true Endpoint.ordinaryParams Endpoint.ordinaryParams, []⟩
      (.streamOpen false)).map (fun t => decide (t.TableFits (.streamOpen true))) = some true := by
    decide +kernel
  rw [ht] at hrun
  exact of_decide_eq_true (Option.some.inj hrun)

/-- Parameters that allow one stream of each kind. -/
def singleParams : QuicTransParams := ⟨4096, 4096, 4096, 1, 1⟩

/-- The only stream that a server may open is not found. -/
theorem onlyStream_not_found : ¬ Trace.Along (step fun _ => true) (OpensProper fun _ => true)
    ⟨Endpoint.created true singleParams singleParams, []⟩ [.streamOpen false] := by
  rintro ⟨⟨-, -, hafter⟩, -⟩
  have hrun : (step (fun _ => true) ⟨Endpoint.created true singleParams singleParams, []⟩
      (.streamOpen false)).map (fun g => (g.ids,
        (quicStreamGetInstance 1 g.endpoint.streams).1.isOk)) = some ([1], false) := by
    decide +kernel
  obtain ⟨g, hg, hfacts⟩ := Option.map_eq_some_iff.mp hrun
  obtain ⟨hids, hrefused⟩ := Prod.mk.inj hfacts
  have hfound := (hafter g hg).2 1 (by rw [hids]; exact List.mem_singleton_self 1)
  rw [show ((1 : ℕ) : ℤ) = 1 from rfl] at hfound
  rw [hfound] at hrefused
  cases hrefused

end Opener

end Tbquic
