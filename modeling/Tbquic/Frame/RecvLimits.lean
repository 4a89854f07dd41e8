import Mathlib.Algebra.Order.BigOperators.Group.Finset
import Tbquic.Frame.Received
import Tbquic.Frame.StreamStates

/-!
# Flow control of received data

The bytes that were queued are noted beside an endpoint, each once. Flow control counts the lengths
of what it queues, against limits that are not always those that the endpoint advertised.
-/

namespace Tbquic

/-- An endpoint with the bytes of each stream that were ever queued. -/
structure Receiver where
  /-- The endpoint. -/
  endpoint : Endpoint
  /-- The places of the bytes in their stream. -/
  taken : ℕ → Finset ℕ

namespace Receiver

/-- The streams of the endpoint. -/
def streams (g : Receiver) : QuicStreams := g.endpoint.streams

/-- The entry of a stream. -/
def si (g : Receiver) (id : ℕ) : QuicStreamInstance := g.endpoint.si id

/-- The state behind an event, with what then waits in the queues noted. -/
def step (mem : ℕ → Bool) (g : Receiver) (e : StreamEvent) : Option Receiver :=
  (Endpoint.step mem g.endpoint e).map fun t =>
    ⟨t, fun id => g.taken id ∪ Segment.placesOf (t.si id).queue⟩

/-- The limit that this endpoint advertised for a stream of the kind. No function of the source
reads its `initial_max_stream_data_bidi_local`, which is a number beside the state. -/
def advertised (bidiLocal : ℕ) (g : Receiver) (id : ℕ) : ℕ :=
  if quicStreamPeerOpened id g.streams.server then
    if unidirectional id then g.streams.transParam.initialMaxStreamDataUni
    else g.streams.transParam.initialMaxStreamDataBidiRemote
  else bidiLocal

/-- The limit that `QuicStreamRecvFlowCtrl` compares with. -/
def compared (g : Receiver) (id : ℕ) : ℕ :=
  if quicStreamPeerOpened id g.streams.server then
    if unidirectional id then g.streams.transParam.initialMaxStreamDataUni
    else g.streams.peerParam.initialMaxStreamDataBidiRemote
  else g.streams.transParam.initialMaxStreamDataBidiRemote

/-- The bytes of a stream that were queued, each counted once. -/
def distinct (g : Receiver) (id : ℕ) : ℕ := (g.taken id).card

/-- The bytes of all streams that were queued. -/
def total (g : Receiver) : ℕ :=
  ∑ id ∈ Finset.range g.streams.conf.maxIdValue, g.distinct id

/-- The bytes of data that were never queued. -/
def fresh (g : Receiver) (id : ℕ) (sd : QuicStreamData) : Finset ℕ := sd.places \ g.taken id

/-- Data would exceed a limit that this endpoint advertised. -/
def Exceeds (bidiLocal : ℕ) (g : Receiver) (id : ℕ) (sd : QuicStreamData) : Prop :=
  g.advertised bidiLocal id < g.distinct id + (g.fresh id sd).card ∨
    g.streams.transParam.initialMaxData < g.total + (g.fresh id sd).card

/-- The comparisons of flow control let more bytes of a stream pass. -/
def Passes (g : Receiver) (id len : ℕ) : Prop :=
  ¬ quicGt (g.distinct id + len : ℕ) (g.compared id) ∧
    ¬ quicGt (g.total + len : ℕ) g.streams.peerParam.initialMaxData

/-- A frame has data for a stream that waits for some. -/
def Offers (g : Receiver) (e : StreamEvent) (id : ℕ) (sd : QuicStreamData) : Prop :=
  ∃ type frame, e = .frame type frame ∧ StreamType type ∧
    (readStreamFrame type frame).1 = .ok (id, sd) ∧ g.endpoint.conn.Takes id

/-- Every byte that was queued is counted once for its stream and once for all. -/
structure Counted (g : Receiver) : Prop where
  /-- The bytes of a stream. -/
  stream (id : ℕ) : (g.si id).statBytes.recvd = g.distinct id
  /-- The bytes of all streams. -/
  conn : g.streams.conf.statAll.recvd = g.total

/-- Flow control works: the bytes are counted before and behind an event, and the new data of a
frame is dropped exactly when it would exceed what this endpoint advertised. -/
def RecvProper (bidiLocal : ℕ) (mem : ℕ → Bool) (g : Receiver) (e : StreamEvent) : Prop :=
  Counted g ∧ ∀ t, step mem g e = some t → Counted t ∧
    ∀ id sd, g.Offers e id sd → (g.fresh id sd).Nonempty →
      ((t.si id).queue = (g.si id).queue ↔ g.Exceeds bidiLocal id sd)

/-- The comparisons agree with the limits for new data, and let no data pass of which a byte was
queued and not returned. -/
def KeepsLimits (bidiLocal : ℕ) (g : Receiver) (e : StreamEvent) : Prop :=
  ∀ id sd, g.Offers e id sd → (g.si id).offset < sd.stop →
    ((g.fresh id sd).Nonempty →
      (g.Passes id (g.streams.trimmed id sd).len ↔ ¬ g.Exceeds bidiLocal id sd)) ∧
    (g.Passes id (g.streams.trimmed id sd).len →
      Disjoint (g.taken id) (g.streams.trimmed id sd).places)

/-- The entries have the kinds of their streams. -/
structure HasKinds (s : Endpoint) : Prop where
  /-- They know who opened the stream. -/
  localOpened (id : ℕ) : (s.si id).localOpened = !quicStreamPeerOpened id s.streams.server
  /-- They know its direction. -/
  uni (id : ℕ) : (s.si id).uni = unidirectional id
  /-- The streams that only send receive nothing. -/
  sending (id : ℕ) : quicStreamPeerOpened id s.streams.server = false →
    unidirectional id = true → (s.si id).recvState = .disable

/-- The counts are exact and within the limits, and what waits or was returned is noted. -/
structure RecvInv (bidiLocal : ℕ) (g : Receiver) : Prop where
  /-- The bytes are counted. -/
  counted : Counted g
  /-- What waits is noted. -/
  queued (id : ℕ) : Segment.placesOf (g.si id).queue ⊆ g.taken id
  /-- What was returned is noted. -/
  returned (id : ℕ) : Finset.range (g.si id).offset ⊆ g.taken id
  /-- The entries have the kinds of their streams. -/
  kinds : HasKinds g.endpoint
  /-- The connection is within its limit, which has 64 bits. -/
  within : g.total ≤ g.streams.transParam.initialMaxData
  /-- The limit has 64 bits. -/
  bounded : g.streams.transParam.initialMaxData < 2 ^ 64

variable {bidiLocal : ℕ} {mem : ℕ → Bool} {g t : Receiver} {e : StreamEvent} {id len : ℕ}
  {sd : QuicStreamData}

/-- Streams whose noted bytes are the same have the same total. -/
theorem total_congr (hsize : t.streams.conf.maxIdValue = g.streams.conf.maxIdValue)
    (htaken : t.taken = g.taken) : t.total = g.total := by
  rw [total, total, hsize]
  refine Finset.sum_congr rfl fun id _ => ?_
  rw [distinct, distinct, htaken]

/-- A stream counts no more than the connection. -/
theorem distinct_le_total (hid : id < g.streams.conf.maxIdValue) : g.distinct id ≤ g.total :=
  Finset.single_le_sum (fun _ _ => Nat.zero_le _) (Finset.mem_range.mpr hid)

/-- Flow control allows the data that passes the comparisons. -/
theorem recvAllowed_iff (hs : RecvInv bidiLocal g) (htakes : g.endpoint.conn.Takes id) :
    g.streams.recvAllowed id len = true ↔ g.Passes id len := by
  have hlimit : g.streams.recvLimit (g.streams.si id) = some (g.compared id) := by
    have hopened : (g.streams.si id).localOpened = !quicStreamPeerOpened id g.streams.server :=
      hs.kinds.localOpened id
    have huni : (g.streams.si id).uni = unidirectional id := hs.kinds.uni id
    unfold QuicStreams.recvLimit compared
    rw [hopened, huni]
    cases hpeer : quicStreamPeerOpened id g.streams.server with
    | false =>
      cases hdirection : unidirectional id with
      | false => rfl
      | true => exact absurd (hs.kinds.sending id hpeer hdirection) htakes.1.2.2.2
    | true => cases unidirectional id <;> rfl
  have hstream := hs.counted.stream id
  change (g.streams.si id).statBytes.recvd = _ at hstream
  unfold QuicStreams.recvAllowed Passes
  rw [hlimit]
  simp only [Bool.and_eq_true, Bool.not_eq_true', decide_eq_false_iff_not, QuicStreams.recvd,
    QuicStreams.totalRecvd, quicGt_mod, hstream, hs.counted.conn]

/-- Entries that keep their kinds have them. -/
theorem HasKinds.of_keeps {s u : Endpoint} (hs : HasKinds s) (hkeeps : s.streams.Keeps u.streams)
    (hkind : ∀ id, SameKind (s.si id) (u.si id)) : HasKinds u where
  localOpened id := by
    rw [hkeeps.server]
    exact (hkind id).localOpened.trans (hs.localOpened id)
  uni id := (hkind id).uni.trans (hs.uni id)
  sending id hpeer hdirection := by
    rw [hkeeps.server] at hpeer
    exact (hkind id).disabled (hs.sending id hpeer hdirection)

/-- Trimming data takes no byte from it that was never queued. -/
theorem fresh_trimmed (hs : RecvInv bidiLocal g) (hnew : (g.si id).offset < sd.stop) :
    g.fresh id (g.streams.trimmed id sd) = g.fresh id sd := by
  have hstop := @trimmed_stop g.streams id sd hnew
  have hoffset := @trimmed_offset g.streams id sd
  ext i
  simp only [fresh, Finset.mem_sdiff, Segment.mem_places, Segment.Covers, hstop, hoffset]
  refine and_congr_left fun hfree => ?_
  have hbehind : (g.streams.si id).offset ≤ i := by
    by_contra hlt
    exact hfree (hs.returned id (Finset.mem_range.mpr (not_le.mp hlt)))
  rw [max_le_iff]
  exact ⟨fun h => ⟨h.1.1, h.2⟩, fun h => ⟨⟨h.1, hbehind⟩, h.2⟩⟩

/-- Data with a byte that was never queued goes beyond what was returned. -/
theorem lt_stop_of_fresh (hs : RecvInv bidiLocal g) (hfresh : (g.fresh id sd).Nonempty) :
    (g.si id).offset < sd.stop := by
  obtain ⟨i, hi⟩ := hfresh
  rw [fresh, Finset.mem_sdiff, Segment.mem_places] at hi
  by_contra hle
  exact hi.2 (hs.returned id (Finset.mem_range.mpr (hi.1.2.trans_le (not_lt.mp hle))))

/-- An event that counts nothing keeps the counts exact. -/
theorem recvInv_of_kept {u : Endpoint} (hs : RecvInv bidiLocal g)
    (hkeeps : g.streams.Keeps u.streams) (hkind : ∀ id, SameKind (g.si id) (u.si id))
    (hqueue : ∀ id, Segment.placesOf (u.si id).queue ⊆ g.taken id)
    (hreturned : ∀ id, Finset.range (u.si id).offset ⊆ g.taken id)
    (hrecvd : ∀ id, (u.si id).statBytes.recvd = (g.si id).statBytes.recvd)
    (htotal : u.streams.conf.statAll.recvd = g.streams.conf.statAll.recvd) :
    RecvInv bidiLocal ⟨u, fun id => g.taken id ∪ Segment.placesOf (u.si id).queue⟩ := by
  have htaken : (fun id => g.taken id ∪ Segment.placesOf (u.si id).queue) = g.taken := by
    funext id
    exact Finset.union_eq_left.mpr (hqueue id)
  rw [htaken]
  have hsame : (⟨u, g.taken⟩ : Receiver).total = g.total := total_congr hkeeps.maxIdValue rfl
  refine ⟨⟨fun id => (hrecvd id).trans (hs.counted.stream id), ?_⟩, hqueue, hreturned,
    hs.kinds.of_keeps hkeeps hkind, ?_, ?_⟩
  · rw [hsame]
    exact htotal.trans hs.counted.conn
  · rw [hsame]
    change g.total ≤ u.streams.transParam.initialMaxData
    rw [hkeeps.transParam]
    exact hs.within
  · change u.streams.transParam.initialMaxData < _
    rw [hkeeps.transParam]
    exact hs.bounded

/-- The places of data that is queued are noted for its stream. -/
theorem taken_added {u : Endpoint} (hs : RecvInv bidiLocal g)
    (hadded : g.streams.Added u.streams id sd) (i : ℕ) :
    g.taken i ∪ Segment.placesOf (u.si i).queue =
      if i = id then g.taken i ∪ sd.places else g.taken i := by
  have hqueued : Segment.placesOf (g.streams.si i).queue ⊆ g.taken i := hs.queued i
  split_ifs with hi
  · subst hi
    change g.taken i ∪ Segment.placesOf (u.streams.si i).queue = _
    rw [hadded.queue, Segment.placesOf_append, Segment.placesOf_cons, Segment.placesOf_nil,
      Finset.union_empty, ← Finset.union_assoc, Finset.union_eq_left.mpr hqueued]
  · change g.taken i ∪ Segment.placesOf (u.streams.si i).queue = _
    rw [(hadded.other i hi).queue]
    exact Finset.union_eq_left.mpr hqueued

/-- Data without a byte that was queued before adds its length to the total. -/
theorem total_added {u : Endpoint} (hs : RecvInv bidiLocal g)
    (hsize : u.streams.conf.maxIdValue = g.streams.conf.maxIdValue)
    (hid : id < g.streams.conf.maxIdValue) (hadded : g.streams.Added u.streams id sd)
    (hdisjoint : Disjoint (g.taken id) sd.places) :
    (⟨u, fun i => g.taken i ∪ Segment.placesOf (u.si i).queue⟩ : Receiver).total =
      g.total + sd.len := by
  have hmem : id ∈ Finset.range g.streams.conf.maxIdValue := Finset.mem_range.mpr hid
  have hdistinct (i : ℕ) : (g.taken i ∪ Segment.placesOf (u.si i).queue).card =
      if i = id then g.distinct i + sd.len else g.distinct i := by
    rw [taken_added hs hadded]
    split_ifs with hi
    · subst hi
      rw [Finset.card_union_of_disjoint hdisjoint, Segment.card_places]
      rfl
    · rfl
  have hrest : ∀ i ∈ (Finset.range g.streams.conf.maxIdValue).erase id,
      (g.taken i ∪ Segment.placesOf (u.si i).queue).card = g.distinct i := by
    intro i hi
    rw [hdistinct, if_neg (Finset.ne_of_mem_erase hi)]
  change ∑ i ∈ Finset.range u.streams.conf.maxIdValue,
    (g.taken i ∪ Segment.placesOf (u.si i).queue).card = _
  rw [hsize, ← Finset.add_sum_erase _ _ hmem, Finset.sum_congr rfl hrest, hdistinct, if_pos rfl,
    total, ← Finset.add_sum_erase _ g.distinct hmem, Nat.add_right_comm]

/-- Data within the limit without a byte that was queued before keeps the counts exact. -/
theorem recvInv_of_added {u : Endpoint} (hs : RecvInv bidiLocal g)
    (hkeeps : g.streams.Keeps u.streams) (hkind : ∀ id, SameKind (g.si id) (u.si id))
    (hid : id < g.streams.conf.maxIdValue) (hadded : g.streams.Added u.streams id sd)
    (hdisjoint : Disjoint (g.taken id) sd.places)
    (hwithin : g.total + sd.len ≤ g.streams.transParam.initialMaxData) :
    RecvInv bidiLocal ⟨u, fun i => g.taken i ∪ Segment.placesOf (u.si i).queue⟩ := by
  have htotal := total_added hs hkeeps.maxIdValue hid hadded hdisjoint
  have hle := distinct_le_total hid
  have hbounded := hs.bounded
  have hsub (i : ℕ) : g.taken i ⊆ g.taken i ∪ Segment.placesOf (u.si i).queue :=
    Finset.subset_union_left
  refine ⟨⟨fun i => ?_, ?_⟩, fun i => Finset.subset_union_right, fun i => ?_,
    hs.kinds.of_keeps hkeeps hkind, ?_, ?_⟩
  · change (u.streams.si i).statBytes.recvd =
      (g.taken i ∪ Segment.placesOf (u.si i).queue).card
    rw [taken_added hs hadded]
    split_ifs with hi
    · subst hi
      have hstream := hs.counted.stream i
      change (g.streams.si i).statBytes.recvd = _ at hstream
      rw [hadded.recvd, QuicStreams.recvd, hstream, Finset.card_union_of_disjoint hdisjoint,
        Segment.card_places]
      exact Nat.mod_eq_of_lt (by omega)
    · exact (hadded.other i hi).recvd.trans (hs.counted.stream i)
  · rw [htotal]
    change u.streams.conf.statAll.recvd = _
    rw [hadded.total, QuicStreams.totalRecvd, hs.counted.conn]
    exact Nat.mod_eq_of_lt (by omega)
  · refine Finset.Subset.trans ?_ (hsub i)
    have hoffset : (u.si i).offset = (g.si i).offset := by
      by_cases hi : i = id
      · subst hi
        exact hadded.offset
      · exact (hadded.other i hi).offset
    change Finset.range (u.si i).offset ⊆ _
    rw [hoffset]
    exact hs.returned i
  · rw [htotal]
    change _ ≤ u.streams.transParam.initialMaxData
    rw [hkeeps.transParam]
    exact hwithin
  · change u.streams.transParam.initialMaxData < _
    rw [hkeeps.transParam]
    exact hs.bounded

/-- An event that keeps the received data keeps the counts exact. -/
theorem recvInv_of_same {u : Endpoint} (hs : RecvInv bidiLocal g)
    (hkeeps : g.streams.Keeps u.streams) (hkind : ∀ id, SameKind (g.si id) (u.si id))
    (hsame : g.streams.SameReceived u.streams) :
    RecvInv bidiLocal ⟨u, fun id => g.taken id ∪ Segment.placesOf (u.si id).queue⟩ := by
  have hqueue (i : ℕ) : (u.si i).queue = (g.si i).queue := (hsame.entry i).queue
  have hoffset (i : ℕ) : (u.si i).offset = (g.si i).offset := (hsame.entry i).offset
  refine recvInv_of_kept hs hkeeps hkind (fun i => ?_) (fun i => ?_)
    (fun i => (hsame.entry i).recvd) hsame.total
  · rw [hqueue]
    exact hs.queued i
  · rw [hoffset]
    exact hs.returned i

/-- A read keeps the counts exact. -/
theorem recvInv_of_read {u : Endpoint} {handle : ℤ} (hs : RecvInv bidiLocal g)
    (hkeeps : g.streams.Keeps u.streams) (hkind : ∀ id, SameKind (g.si id) (u.si id))
    (h : Endpoint.step mem g.endpoint (.read handle len) = some u) :
    RecvInv bidiLocal ⟨u, fun id => g.taken id ∪ Segment.placesOf (u.si id).queue⟩ := by
  obtain ⟨htotal, hentry⟩ := Endpoint.step_read h
  have hdata (i : ℕ) : Segment.placesOf (u.si i).queue ⊆ g.taken i ∧
      Finset.range (u.si i).offset ⊆ g.taken i ∧
      (u.si i).statBytes.recvd = (g.si i).statBytes.recvd := by
    rcases hentry i with hkept | ⟨si, res, hkept, hread⟩
    · rw [hkept.queue, hkept.offset]
      exact ⟨hs.queued i, hs.returned i, hkept.recvd⟩
    · obtain ⟨hqueue, hreturned⟩ := quicStreamReadData_places hread
      rw [hkept.queue] at hqueue hreturned
      rw [hkept.offset] at hreturned
      refine ⟨hqueue.trans (hs.queued i), hreturned.trans ?_, ?_⟩
      · exact Finset.union_subset (hs.returned i) (hs.queued i)
      · rw [(quicStreamReadData_sameKind hread).2]
        exact hkept.recvd
  exact recvInv_of_kept hs hkeeps hkind (fun i => (hdata i).1) (fun i => (hdata i).2.1)
    (fun i => (hdata i).2.2) htotal

/-- An event that offers no data and is no read keeps the received data. -/
theorem sameReceived_of_not_offers {u : Endpoint}
    (h : Endpoint.step mem g.endpoint e = some u) (hread : ∀ handle len, e ≠ .read handle len)
    (hoffers : ∀ id sd, ¬ g.Offers e id sd) : g.streams.SameReceived u.streams := by
  by_cases hframe : ∀ type frame, e = .frame type frame → StreamType type →
      ∀ id sd, (readStreamFrame type frame).1 ≠ .ok (id, sd)
  · exact Endpoint.step_sameReceived h hframe hread
  · push Not at hframe
    obtain ⟨type, frame, rfl, htype, id, sd, hsd⟩ := hframe
    exact Endpoint.step_not_takes htype hsd
      (fun htakes => hoffers id sd ⟨type, frame, rfl, htype, hsd, htakes⟩) h

/-- Offered data that goes beyond what was returned and passes the comparisons is queued, and other
offered data is not. -/
theorem offers_cases (hs : RecvInv bidiLocal g) (hoffers : g.Offers e id sd) :
    ∃ u, Endpoint.step mem g.endpoint e = some u ∧
      (((g.si id).offset < sd.stop ∧ g.Passes id (g.streams.trimmed id sd).len ∧
          g.streams.Added u.streams id (g.streams.trimmed id sd)) ∨
        (¬ ((g.si id).offset < sd.stop ∧ g.Passes id (g.streams.trimmed id sd).len) ∧
          g.streams.SameReceived u.streams)) := by
  obtain ⟨type, frame, rfl, htype, hread, htakes⟩ := hoffers
  obtain ⟨u, hu, hstreams⟩ := Endpoint.step_takes htype hread htakes
  refine ⟨u, hu, ?_⟩
  rw [hstreams, ← recvAllowed_iff hs htakes]
  exact receive_cases htakes.2.1

/-- Offered data is dropped exactly when it is not beyond what was returned or does not pass the
comparisons. -/
theorem queue_eq_iff {u : Endpoint} (hs : RecvInv bidiLocal g) (hoffers : g.Offers e id sd)
    (h : Endpoint.step mem g.endpoint e = some u) : (u.si id).queue = (g.si id).queue ↔
      ¬ ((g.si id).offset < sd.stop ∧ g.Passes id (g.streams.trimmed id sd).len) := by
  obtain ⟨u', hu', hcases⟩ := @offers_cases bidiLocal mem g e id sd hs hoffers
  cases hu'.symm.trans h
  rcases hcases with ⟨hnew, hpasses, hadded⟩ | ⟨hnot, hsame⟩
  · refine iff_of_false (fun hqueue => ?_) (not_not.mpr ⟨hnew, hpasses⟩)
    have hlonger := hadded.queue
    change (u.si id).queue = (g.si id).queue ++ _ at hlonger
    rw [hqueue] at hlonger
    exact List.cons_ne_nil _ _ (List.self_eq_append_right.mp hlonger)
  · exact iff_of_true (hsame.entry id).queue hnot

/-- Data that passes under the condition has no byte that was queued, and is within the limit. -/
theorem within_of_keeps (hs : RecvInv bidiLocal g) (hok : g.KeepsLimits bidiLocal e)
    (hoffers : g.Offers e id sd) (hnew : (g.si id).offset < sd.stop)
    (hpasses : g.Passes id (g.streams.trimmed id sd).len) :
    Disjoint (g.taken id) (g.streams.trimmed id sd).places ∧
      g.total + (g.streams.trimmed id sd).len ≤ g.streams.transParam.initialMaxData := by
  obtain ⟨hiff, hdisjoint⟩ := hok id sd hoffers hnew
  refine ⟨hdisjoint hpasses, ?_⟩
  have hfresh : g.fresh id sd = (g.streams.trimmed id sd).places := by
    rw [← fresh_trimmed hs hnew, fresh]
    exact Finset.sdiff_eq_self_of_disjoint (hdisjoint hpasses).symm
  rw [← Segment.card_places, ← hfresh]
  by_cases hsome : (g.fresh id sd).Nonempty
  · have hnot := (hiff hsome).mp hpasses
    rw [Exceeds, not_or, not_lt, not_lt] at hnot
    exact hnot.2
  · rw [Finset.not_nonempty_iff_eq_empty.mp hsome, Finset.card_empty]
    exact hs.within

/-- Every event that meets the condition keeps the counts exact. -/
theorem step_recvInv (hs : RecvInv bidiLocal g) (hok : g.KeepsLimits bidiLocal e)
    (h : step mem g e = some t) : RecvInv bidiLocal t := by
  obtain ⟨u, hu, rfl⟩ := Option.map_eq_some_iff.mp h
  have hkeeps := (Endpoint.step_written hu).keeps
  have hkind := Endpoint.step_sameKind hu
  by_cases hread : ∃ handle len, e = .read handle len
  · obtain ⟨handle, len, rfl⟩ := hread
    exact recvInv_of_read hs hkeeps hkind hu
  push Not at hread
  by_cases hoffers : ∃ id sd, g.Offers e id sd
  · obtain ⟨id, sd, hoffers⟩ := hoffers
    obtain ⟨u', hu', hcases⟩ := @offers_cases bidiLocal mem g e id sd hs hoffers
    cases hu'.symm.trans hu
    rcases hcases with ⟨hnew, hpasses, hadded⟩ | ⟨-, hsame⟩
    · obtain ⟨hdisjoint, hwithin⟩ := within_of_keeps hs hok hoffers hnew hpasses
      obtain ⟨type, frame, rfl, htype, hsd, htakes⟩ := hoffers
      have hfound : g.streams.Found id := ⟨htakes.1.1, htakes.1.2.1, htakes.1.2.2.1⟩
      exact recvInv_of_added hs hkeeps hkind hfound.lt_maxIdValue hadded hdisjoint hwithin
    · exact recvInv_of_same hs hkeeps hkind hsame
  · push Not at hoffers
    exact recvInv_of_same hs hkeeps hkind (sameReceived_of_not_offers hu hread hoffers)

/-- Sums of 64 bits that count a union count no element twice. -/
theorem disjoint_of_card_union {a b : Finset ℕ} (ha : a.card < 2 ^ 64)
    (h : (a ∪ b).card = (a.card + b.card) % 2 ^ 64) : Disjoint a b := by
  have hle := Finset.card_le_card (@Finset.subset_union_right _ _ a b)
  refine Finset.card_union_eq_card_add_card.mp ?_
  omega

/-- While the counts are exact, flow control works for an event exactly when the condition
holds. -/
theorem recvProper_iff (hs : RecvInv bidiLocal g) :
    RecvProper bidiLocal mem g e ↔ g.KeepsLimits bidiLocal e := by
  constructor
  · rintro ⟨-, hafter⟩ id sd hoffers hnew
    obtain ⟨u, hu, hcases⟩ := @offers_cases bidiLocal mem g e id sd hs hoffers
    obtain ⟨hcounted, hdropped⟩ := hafter _ (Option.map_eq_some_iff.mpr ⟨u, hu, rfl⟩)
    have hqueue := queue_eq_iff hs hoffers hu
    refine ⟨fun hfresh => ?_, fun hpasses => ?_⟩
    · have hexceeds := (hdropped id sd hoffers hfresh).symm.trans hqueue
      rw [hexceeds, not_not, and_iff_right hnew]
    · have hadded := (hcases.resolve_right fun hnot => hnot.1 ⟨hnew, hpasses⟩).2.2
      obtain ⟨type, frame, rfl, htype, hsd, htakes⟩ := hoffers
      have hid : id < g.streams.conf.maxIdValue :=
        QuicStreams.Found.lt_maxIdValue ⟨htakes.1.1, htakes.1.2.1, htakes.1.2.2.1⟩
      have hbound := (distinct_le_total hid).trans hs.within
      refine disjoint_of_card_union (hbound.trans_lt hs.bounded) ?_
      have hstream := hcounted.stream id
      have hbefore : (g.streams.si id).statBytes.recvd = g.distinct id := hs.counted.stream id
      change (u.streams.si id).statBytes.recvd =
        (g.taken id ∪ Segment.placesOf (u.si id).queue).card at hstream
      rw [hadded.recvd, QuicStreams.recvd, hbefore, taken_added hs hadded, if_pos rfl] at hstream
      rw [← hstream, Segment.card_places]
      rfl
  · intro hok
    refine ⟨hs.counted, fun t ht => ⟨(step_recvInv hs hok ht).counted, ?_⟩⟩
    intro id sd hoffers hfresh
    obtain ⟨u, hu, rfl⟩ := Option.map_eq_some_iff.mp ht
    have hnew := lt_stop_of_fresh hs hfresh
    have hqueue := queue_eq_iff hs hoffers hu
    refine hqueue.trans ?_
    rw [and_iff_right hnew, (hok id sd hoffers hnew).1 hfresh, not_not]

/-- Nothing was queued when the parameters are exchanged. -/
def start (s : Endpoint) : Receiver := ⟨s, fun _ => ∅⟩

/-- Nothing is counted then. -/
theorem total_start (s : Endpoint) : (start s).total = 0 :=
  Finset.sum_eq_zero fun _ _ => rfl

/-- The counts are exact when the parameters were exchanged. -/
theorem recvInv_start {s : Endpoint} (hs : s.Created)
    (hbounded : s.streams.transParam.initialMaxData < 2 ^ 64) : RecvInv bidiLocal (start s) := by
  obtain ⟨own, peer, hstreams, -, -⟩ := hs
  have hsi (i : ℕ) : s.si i = quicStreamInstanceInit i s.streams.server := by
    rw [Endpoint.si, hstreams, createdStreams_eq]
    rfl
  have hnothing : s.streams.conf.statAll.recvd = 0 := by
    rw [hstreams, createdStreams_eq]
    rfl
  have hentry (i : ℕ) : (s.si i).statBytes.recvd = 0 ∧ (s.si i).queue = [] ∧
      (s.si i).offset = 0 := by
    rw [hsi]
    exact ⟨rfl, rfl, rfl⟩
  refine ⟨⟨fun i => (hentry i).1, ?_⟩, fun i => ?_, fun i => ?_, ⟨fun i => ?_, fun i => ?_,
    fun i hpeer hdirection => ?_⟩, ?_, hbounded⟩
  · rw [total_start]
    exact hnothing
  · change Segment.placesOf (s.si i).queue ⊆ ∅
    rw [(hentry i).2.1]
    exact Finset.empty_subset _
  · change Finset.range (s.si i).offset ⊆ ∅
    rw [(hentry i).2.2, Finset.range_zero]
  · change (s.si i).localOpened = _
    rw [hsi]
    rfl
  · change (s.si i).uni = _
    rw [hsi]
    rfl
  · change (s.si i).recvState = _
    rw [hsi]
    change (if !quicStreamPeerOpened i s.streams.server && unidirectional i then _ else _) = _
    change quicStreamPeerOpened i s.streams.server = false at hpeer
    rw [hpeer, hdirection]
    rfl
  · rw [total_start]
    exact Nat.zero_le _

/-- In a run from the exchange of the parameters, flow control of received data works for every
event exactly when the condition holds for every event. -/
theorem recvProper_along_iff (mem : ℕ → Bool) (bidiLocal : ℕ) (s : Endpoint)
    (es : List StreamEvent) (hs : s.Created)
    (hbounded : s.streams.transParam.initialMaxData < 2 ^ 64) :
    Trace.Along (step mem) (RecvProper bidiLocal mem) (start s) es ↔
      Trace.Along (step mem) (KeepsLimits bidiLocal) (start s) es :=
  Trace.along_congr_of_invariant (RecvInv bidiLocal) (fun _ _ hs => recvProper_iff hs)
    (fun _ _ _ hs hok h => step_recvInv hs ((recvProper_iff hs).mp hok) h)
    (recvInv_start hs hbounded)

/-- A byte of a stream of the peer, within all limits. -/
theorem recvProper_along_iff_byte :
    Trace.Along (step fun _ => true) (RecvProper 4096 fun _ => true)
      (start (Endpoint.created true Endpoint.ordinaryParams Endpoint.ordinaryParams))
      [.frame 0x08 (rPacketBufInit [0x04, 0x61])] := by
  refine (recvProper_along_iff _ _ _ _ (Endpoint.created_created _ _ _)
    (by decide +kernel)).mpr
      ⟨?_, fun _ _ => Trace.along_nil⟩
  rintro id sd ⟨type, frame, he, htype, hread, htakes⟩ -
  cases he
  have hdata : (readStreamFrame 0x08 (rPacketBufInit [0x04, 0x61])).1 =
      .ok (4, ⟨0, [0x61]⟩) := by
    decide +kernel
  rw [hdata] at hread
  cases hread
  refine ⟨fun _ => iff_of_true ?_ ?_, fun _ => Finset.disjoint_empty_left _⟩
  · rw [Passes, total_start]
    decide +kernel
  · rw [Exceeds, total_start]
    decide +kernel

/-- The parameters of a peer that lets this endpoint send nothing on bidirectional streams. -/
def silencingParams : QuicTransParams := ⟨4096, 0, 4096, 8, 8⟩

/-- A client that lets its server send nothing makes it drop what it receives. -/
theorem recvFlowCtrl_drops : ¬ Trace.Along (step fun _ => true) (RecvProper 4096 fun _ => true)
    (start (Endpoint.created true Endpoint.ordinaryParams silencingParams))
    [.frame 0x08 (rPacketBufInit [0x04, 0x61])] := by
  rintro ⟨⟨-, hafter⟩, -⟩
  have hrun : (step (fun _ => true)
      (start (Endpoint.created true Endpoint.ordinaryParams silencingParams))
      (.frame 0x08 (rPacketBufInit [0x04, 0x61]))).map (fun t => (t.si 4).queue) = some [] := by
    decide +kernel
  have hbefore : ((start (Endpoint.created true Endpoint.ordinaryParams silencingParams)).si
      4).queue = [] := by
    decide +kernel
  obtain ⟨t, ht, hqueue⟩ := Option.map_eq_some_iff.mp hrun
  have hexceeds := ((hafter t ht).2 4 ⟨0, [0x61]⟩ ⟨0x08, _, rfl, by decide, by decide +kernel,
    by decide +kernel⟩ ⟨0, by decide +kernel⟩).mp (by rw [hqueue, hbefore])
  rw [Exceeds, total_start] at hexceeds
  exact absurd hexceeds (by decide +kernel)

end Receiver

end Tbquic
