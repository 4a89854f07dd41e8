import Mathlib.Algebra.BigOperators.Intervals
import Tbquic.Frame.Credit
import Tbquic.Frame.StreamStates

/-!
# Flow control of sent data

What flow control counts as sent stays within the limits of the peer, and the count of the
connection is the sum of those of the streams, as long as the comparisons of 32 bits agree with
the order and no frame takes back credit that was used.
-/

namespace Tbquic

namespace Endpoint

variable {mem : ℕ → Bool} {s t : Endpoint} {e : StreamEvent} {es : List StreamEvent} {id len : ℕ}
  {built : Bool}

/-- The bytes of a stream that were sent. -/
def sent (s : Endpoint) (id : ℕ) : ℕ := (s.si id).statBytes.sent

/-- The limit of the peer on them. -/
def maxStreamData (s : Endpoint) (id : ℕ) : ℕ := (s.si id).maxStreamData

/-- The bytes of all streams that were sent. -/
def totalSent (s : Endpoint) : ℕ := s.streams.conf.statAll.sent

/-- The limit of the peer on them. -/
def maxData (s : Endpoint) : ℕ := s.streams.peerParam.initialMaxData

/-- More bytes of a stream are within the limits. -/
def Within (s : Endpoint) (id len : ℕ) : Prop :=
  s.sent id + len ≤ s.maxStreamData id ∧ s.totalSent + len ≤ s.maxData

instance (s : Endpoint) (id len : ℕ) : Decidable (s.Within id len) :=
  inferInstanceAs (Decidable (_ ∧ _))

/-- The comparisons of flow control let more bytes of a stream pass. -/
def Passes (s : Endpoint) (id len : ℕ) : Prop :=
  ¬ quicGt (s.sent id + len : ℕ) (s.maxStreamData id) ∧
    ¬ quicGt (s.totalSent + len : ℕ) s.maxData

instance (s : Endpoint) (id len : ℕ) : Decidable (s.Passes id len) :=
  inferInstanceAs (Decidable (_ ∧ _))

/-- A call of flow control accepts exactly what is within the limits, and counts nothing when it
refuses. -/
def CallProper (s : Endpoint) : StreamEvent → Prop
  | .flowCtrl handle len built => ∀ id : ℕ, handle = id → s.streams.Found id →
    ((quicStreamSendFlowCtrl built handle len s.streams).1 = .ok () ↔ s.Within id len) ∧
    ((quicStreamSendFlowCtrl built handle len s.streams).1 ≠ .ok () →
      (∀ i, ((quicStreamSendFlowCtrl built handle len s.streams).2.si i).statBytes.sent =
        s.sent i) ∧
      (quicStreamSendFlowCtrl built handle len s.streams).2.conf.statAll.sent = s.totalSent)
  | _ => True

/-- What was sent is within the limits, and counted once for its stream and once for all. -/
structure SentWithin (s : Endpoint) : Prop where
  /-- Each stream is within its limit. -/
  stream (id : ℕ) : s.sent id ≤ s.maxStreamData id
  /-- The connection is within its limit. -/
  conn : s.totalSent ≤ s.maxData
  /-- The connection counts what the streams count. -/
  sum : s.totalSent = ∑ id ∈ Finset.range s.streams.conf.maxIdValue, s.sent id

/-- Flow control works: its calls are proper, and what was sent is within the limits before and
behind the event. -/
def SendProper (mem : ℕ → Bool) (s : Endpoint) (e : StreamEvent) : Prop :=
  CallProper s e ∧ SentWithin s ∧ ∀ t, step mem s e = some t → SentWithin t

/-- The comparisons of a call agree with the order, and a frame that moves a limit leaves the
credit that was used. -/
def KeepsCredit (s : Endpoint) : StreamEvent → Prop
  | .flowCtrl handle len _ => ∀ id : ℕ, handle = id → s.streams.Found id → len ≠ 0 →
    (s.Passes id len ↔ s.Within id len)
  | .frame type frame =>
    (type = 0x11 → ∀ id value, frameNumbers 2 frame = some [id, value] → TakesCredit s.conn id →
      quicLt (s.maxStreamData id) value → s.sent id ≤ value) ∧
    (type = 0x10 → ∀ value, frameNumbers 1 frame = some [value] → quicGt value s.maxData →
      s.totalSent ≤ value)
  | _ => True

/-- The credit that a stream starts with when this endpoint opens it. -/
def openCredit (s : Endpoint) (uni : Bool) : ℕ :=
  if uni then s.streams.peerParam.initialMaxStreamDataUni
  else s.streams.peerParam.initialMaxStreamDataBidiRemote

/-- All credit has 62 bits, as the peer can encode no more. -/
structure CreditBounded (s : Endpoint) : Prop where
  /-- The limits of the streams. -/
  stream (id : ℕ) : s.maxStreamData id < 2 ^ 62
  /-- The limit of the connection. -/
  conn : s.maxData < 2 ^ 62
  /-- The credit of new streams. -/
  opens (uni : Bool) : s.openCredit uni < 2 ^ 62

/-- Nothing was sent on a stream that this endpoint has not opened. -/
def Idle (s : Endpoint) : Prop :=
  ∀ id, quicStreamPeerOpened id s.streams.server = false → (s.si id).sendState = .start →
    s.sent id = 0

/-- Two states have the same counts and limits, and the later one keeps the streams. -/
structure SameCredit (s t : Endpoint) : Prop where
  /-- The streams sent the same. -/
  sent (id : ℕ) : t.sent id = s.sent id
  /-- They have the same limits. -/
  maxStreamData (id : ℕ) : t.maxStreamData id = s.maxStreamData id
  /-- The connection sent the same. -/
  totalSent : t.totalSent = s.totalSent
  /-- It has the same limit. -/
  maxData : t.maxData = s.maxData
  /-- The streams are kept. -/
  keeps : s.streams.Keeps t.streams

/-- Nothing changes for flow control. -/
theorem SameCredit.sentWithin (h : SameCredit s t) (hs : SentWithin s) : SentWithin t where
  stream id := by
    rw [h.sent, h.maxStreamData]
    exact hs.stream id
  conn := by
    rw [h.totalSent, h.maxData]
    exact hs.conn
  sum := by
    rw [h.totalSent, h.keeps.maxIdValue, hs.sum]
    exact Finset.sum_congr rfl fun id _ => (h.sent id).symm

/-- Streams that are kept and send nothing new stay idle. -/
theorem Idle.of_keeps (hs : Idle s) (hkeeps : s.streams.Keeps t.streams)
    (hsent : ∀ id, t.sent id = s.sent id) : Idle t := by
  intro id hlocal hstart
  rw [hkeeps.server] at hlocal
  rw [hsent]
  refine hs id hlocal ?_
  by_contra hne
  exact hkeeps.send id hne hstart

end Endpoint

/-- The numbers of bytes sent and the limits of the stream are the same. -/
def SameEntryCredit (si si' : QuicStreamInstance) : Prop :=
  si'.statBytes.sent = si.statBytes.sent ∧ si'.maxStreamData = si.maxStreamData

/-- Opening the receiving part leaves them. -/
theorem sameEntryCredit_recvOpen (si : QuicStreamInstance) :
    SameEntryCredit si (quicStreamInstanceRecvOpen si) := by
  unfold quicStreamInstanceRecvOpen
  split <;> exact ⟨rfl, rfl⟩

/-- A frame of another type leaves them. -/
theorem EntryWrite.sameCredit {type : ℕ} {frame : RPacket} {server : Bool} {id : ℕ}
    {si si' : QuicStreamInstance} (h : EntryWrite type frame server id si si')
    (htype : type ≠ 0x11) : SameEntryCredit si si' := by
  cases h with
  | recvOpen => exact sameEntryCredit_recvOpen si
  | recvReset =>
    unfold FrameState.recvReset
    split <;> exact ⟨rfl, rfl⟩
  | sendReady =>
    unfold Tbquic.sendReady
    split <;> exact ⟨rfl, rfl⟩
  | recvFin =>
    unfold Tbquic.recvFin
    split <;> exact ⟨rfl, rfl⟩
  | complete =>
    unfold recvComplete
    split <;> exact ⟨rfl, rfl⟩
  | stopSending | data | notify => exact ⟨rfl, rfl⟩
  | maxStreamData _ h => exact absurd h htype
  | acked =>
    unfold streamFlagsAcked SameEntryCredit
    dsimp only
    split_ifs <;> exact ⟨rfl, rfl⟩

/-- An event that neither opens a stream nor counts bytes leaves them. -/
theorem EventWrite.sameCredit {s : Endpoint} {id : ℕ} {e : StreamEvent}
    {si si' : QuicStreamInstance} (h : EventWrite s id e si si')
    (hframe : ∀ frame, e ≠ .frame 0x11 frame) (hopen : ∀ uni, e ≠ .streamOpen uni)
    (hcount : ∀ handle len built, e ≠ .flowCtrl handle len built) : SameEntryCredit si si' := by
  cases h with
  | @frame type frame _ _ h => exact h.sameCredit fun htype => hframe frame (by rw [htype])
  | recvOpen => exact sameEntryCredit_recvOpen si
  | @opened uni => exact absurd rfl (hopen uni)
  | read hread =>
    obtain ⟨-, -, -, hmax, hstat⟩ := quicStreamReadData_states hread
    exact ⟨by rw [hstat], hmax⟩
  | started =>
    unfold sendStarted
    split <;> exact ⟨rfl, rfl⟩
  | fin =>
    unfold sendFin
    split <;> exact ⟨rfl, rfl⟩
  | reset => exact ⟨rfl, rfl⟩
  | @counted len built => exact absurd rfl (hcount id len built)

namespace Endpoint

variable {mem : ℕ → Bool} {s t : Endpoint} {e : StreamEvent} {es : List StreamEvent} {id len : ℕ}
  {built : Bool}

/-- Writes that move no limit, open no stream and count no bytes change nothing for flow
control. -/
theorem sameCredit_of_written (h : Written s e s.streams t.streams)
    (hpeer : t.streams.peerParam = s.streams.peerParam) (hframe : ∀ frame, e ≠ .frame 0x11 frame)
    (hopen : ∀ uni, e ≠ .streamOpen uni)
    (hcount : ∀ handle len built, e ≠ .flowCtrl handle len built) : SameCredit s t := by
  have hentry (id : ℕ) : SameEntryCredit (s.streams.si id) (t.streams.si id) := by
    have hchain := h.entry id
    generalize t.streams.si id = si at hchain
    induction hchain with
    | refl => exact ⟨rfl, rfl⟩
    | tail _ hlast ih =>
      have hlast := hlast.sameCredit hframe hopen hcount
      exact ⟨hlast.1.trans ih.1, hlast.2.trans ih.2⟩
  exact ⟨fun id => (hentry id).1, fun id => (hentry id).2, h.total hcount,
    congrArg QuicTransParams.initialMaxData hpeer, h.keeps⟩

/-- An event that moves no limit, opens no stream and counts no bytes changes nothing for flow
control. -/
theorem step_sameCredit (h : step mem s e = some t) (hframe : ∀ frame, e ≠ .frame 0x11 frame)
    (hlimit : ∀ (k : LimitKind) frame, e ≠ .frame k.frameType frame)
    (hopen : ∀ uni, e ≠ .streamOpen uni)
    (hcount : ∀ handle len built, e ≠ .flowCtrl handle len built) : SameCredit s t := by
  refine sameCredit_of_written (step_written h) ?_ hframe hopen hcount
  by_cases harrives : ∀ type frame, e ≠ .frame type frame
  · exact (step_written h).peerParam harrives
  · push Not at harrives
    obtain ⟨type, frame, rfl⟩ := harrives
    exact (recvFrame_written h).1.peerParam fun k hk => hlimit k frame (by rw [hk])

/-- Opening streams changes nothing for flow control. -/
theorem sameCredit_opened (hstreams : t.streams = s.streams.opened id) : SameCredit s t := by
  have hentry (i : ℕ) : SameEntryCredit (s.streams.si i) (t.streams.si i) := by
    rw [hstreams, opened_si_eq]
    split_ifs
    · exact sameEntryCredit_recvOpen _
    · exact ⟨rfl, rfl⟩
  refine ⟨fun i => (hentry i).1, fun i => (hentry i).2, ?_, ?_, ?_⟩
  · change t.streams.conf.statAll.sent = s.streams.conf.statAll.sent
    rw [hstreams, opened_limits.1]
  · change t.streams.peerParam.initialMaxData = s.streams.peerParam.initialMaxData
    rw [hstreams, opened_limits.2]
  · rw [hstreams]
    exact QuicStreams.keeps_opened

/-- The same streams have the same credit. -/
theorem sameCredit_of_eq (hstreams : t.streams = s.streams) : SameCredit s t := by
  refine ⟨fun i => ?_, fun i => ?_, ?_, ?_, ?_⟩
  · rw [sent, si, hstreams]
    rfl
  · rw [maxStreamData, si, hstreams]
    rfl
  · rw [totalSent, hstreams]
    rfl
  · rw [maxData, hstreams]
    rfl
  · rw [hstreams]
    exact QuicStreams.Keeps.refl _

/-- The streams behind a call of flow control that accepts. -/
def counted (s : Endpoint) (id len : ℕ) : QuicStreams :=
  { (s.streams.opened id).updateSi id fun si =>
      { si with statBytes.sent := (s.sent id + len) % 2 ^ 64 } with
    conf.statAll.sent := (s.totalSent + len) % 2 ^ 64 }

/-- The stream that is found has sent as much as before. -/
theorem opened_credit : SameEntryCredit (s.streams.si id) ((s.streams.opened id).si id) := by
  rw [opened_si]
  split_ifs
  · exact sameEntryCredit_recvOpen _
  · exact ⟨rfl, rfl⟩

/-- No bytes are always accepted. -/
theorem quicStreamSendFlowCtrl_zero (handle : ℤ) :
    quicStreamSendFlowCtrl built handle 0 s.streams = (.ok (), s.streams) := by
  rw [quicStreamSendFlowCtrl, if_pos rfl]
  rfl

/-- Bytes that pass the comparisons are counted. -/
theorem quicStreamSendFlowCtrl_of_passes (hfound : s.streams.Found id) (hlen : len ≠ 0)
    (hpasses : s.Passes id len) :
    quicStreamSendFlowCtrl built id len s.streams = (.ok (), s.counted id len) := by
  obtain ⟨hstream, hconn⟩ := hpasses
  obtain ⟨hsent, hmax⟩ := @opened_credit s id
  obtain ⟨hstat, hpeer⟩ := @opened_limits s.streams id
  rw [quicStreamSendFlowCtrl, if_neg hlen, Prog.attempt_bind,
    quicStreamGetInstance_of_found hfound]
  dsimp only
  rw [sendFlowCtrlFound, Prog.get_bind]
  dsimp only
  rw [hsent, hmax, hstat, hpeer, if_neg, if_neg]
  · rfl
  · rw [quicGt_mod]
    exact hconn
  · rw [quicGt_mod]
    exact hstream

/-- Bytes that do not pass are refused, and nothing is counted. -/
theorem quicStreamSendFlowCtrl_of_not_passes (hfound : s.streams.Found id) (hlen : len ≠ 0)
    (hpasses : ¬ s.Passes id len) :
    (quicStreamSendFlowCtrl built id len s.streams).1 = .error .ret ∧
      SameCredit s (s.setStreams (quicStreamSendFlowCtrl built id len s.streams).2) := by
  obtain ⟨hsent, hmax⟩ := @opened_credit s id
  obtain ⟨hstat, hpeer⟩ := @opened_limits s.streams id
  rw [quicStreamSendFlowCtrl, if_neg hlen, Prog.attempt_bind,
    quicStreamGetInstance_of_found hfound]
  dsimp only
  rw [sendFlowCtrlFound, Prog.get_bind]
  dsimp only
  rw [hsent, hmax, hstat, hpeer]
  by_cases hstream : quicGt (s.sent id + len : ℕ) (s.maxStreamData id)
  · rw [if_pos (quicGt_mod.mpr (by exact hstream)), Prog.attempt_bind]
    refine ⟨rfl, ?_⟩
    have hblocked : Written s (.blockedBuild id) s.streams
        (quicStreamDataBlockedFrameBuild built id (s.streams.opened id)).2 :=
      Written.opened.trans (quicStreamDataBlockedFrameBuild_written id built fun i hi =>
        .inl (by rw [hi]))
    refine sameCredit_of_written (t := s.setStreams _) hblocked (hblocked.peerParam ?_) ?_ ?_ ?_
    · exact fun _ _ h => by cases h
    · exact fun _ h => by cases h
    · exact fun _ h => by cases h
    · exact fun _ _ _ h => by cases h
  · have hconn : quicGt (s.totalSent + len : ℕ) s.maxData := by
      by_contra hconn
      exact hpasses ⟨hstream, hconn⟩
    have hstream' : ¬ quicGt (((s.streams.si id).statBytes.sent + len) % 2 ^ 64 : ℕ)
        (s.streams.si id).maxStreamData := fun h => hstream (quicGt_mod.mp h)
    rw [if_neg hstream', if_pos (quicGt_mod.mpr (by exact hconn))]
    exact ⟨rfl, sameCredit_opened rfl⟩

/-- What a call of flow control does: it counts the bytes of a stream that is found and passes, and
nothing otherwise. -/
theorem step_flowCtrl {handle : ℤ} (h : step mem s (.flowCtrl handle len built) = some t) :
    (∃ id : ℕ, handle = id ∧ s.streams.Found id ∧ len ≠ 0 ∧ s.Passes id len ∧
      t = s.setStreams (s.counted id len)) ∨ SameCredit s t := by
  obtain ⟨rfl, -⟩ := run_eq_some h
  by_cases hlen : len = 0
  · subst hlen
    rw [quicStreamSendFlowCtrl_zero]
    exact .inr (sameCredit_of_eq rfl)
  rcases quicStreamGetInstance_cases handle s.streams with ⟨id, rfl, hfound, -⟩ | ⟨hget, -⟩
  · by_cases hpasses : s.Passes id len
    · rw [quicStreamSendFlowCtrl_of_passes hfound hlen hpasses]
      exact .inl ⟨id, rfl, hfound, hlen, hpasses, rfl⟩
    · exact .inr (quicStreamSendFlowCtrl_of_not_passes hfound hlen hpasses).2
  · rw [quicStreamSendFlowCtrl, if_neg hlen, Prog.attempt_bind, hget]
    exact .inr (sameCredit_of_eq rfl)

/-- A call is proper when its comparisons agree with the order. -/
theorem callProper_iff (hs : SentWithin s) {handle : ℤ} :
    CallProper s (.flowCtrl handle len built) ↔ KeepsCredit s (.flowCtrl handle len built) := by
  refine forall_congr' fun id => imp_congr_right fun hid => imp_congr_right fun hfound => ?_
  subst hid
  by_cases hlen : len = 0
  · subst hlen
    rw [quicStreamSendFlowCtrl_zero]
    have hwithin : s.Within id 0 := ⟨hs.stream id, hs.conn⟩
    exact ⟨fun _ h => absurd rfl h, fun _ => ⟨iff_of_true rfl hwithin, fun h => absurd rfl h⟩⟩
  by_cases hpasses : s.Passes id len
  · rw [quicStreamSendFlowCtrl_of_passes hfound hlen hpasses]
    refine ⟨fun h _ => iff_of_true hpasses (h.1.mp rfl), fun h => ?_⟩
    exact ⟨iff_of_true rfl ((h hlen).mp hpasses), fun hne => absurd rfl hne⟩
  · obtain ⟨hrefused, hsame⟩ :=
      @quicStreamSendFlowCtrl_of_not_passes s id len built hfound hlen hpasses
    have hne : (quicStreamSendFlowCtrl built id len s.streams).1 ≠ .ok () := by
      rw [hrefused]
      exact fun h => (by cases h)
    refine ⟨fun h _ => iff_of_false hpasses fun hwithin => hne (h.1.mpr hwithin), fun h => ?_⟩
    refine ⟨iff_of_false hne fun hwithin => hpasses ((h hlen).mpr hwithin), fun _ => ?_⟩
    exact ⟨fun i => hsame.sent i, hsame.totalSent⟩

/-- The entries behind a call that accepts. -/
theorem counted_si (i : ℕ) : (s.counted id len).si i =
    ((s.streams.opened id).updateSi id fun si =>
      { si with statBytes.sent := (s.sent id + len) % 2 ^ 64 }).si i := rfl

/-- The counts behind a call that accepts. -/
theorem sent_counted (i : ℕ) : (s.setStreams (s.counted id len)).sent i =
    if i = id then (s.sent id + len) % 2 ^ 64 else s.sent i := by
  change ((s.counted id len).si i).statBytes.sent = _
  rw [counted_si]
  by_cases hi : i = id
  · rw [if_pos hi, hi, QuicStreams.updateSi_si]
  · rw [if_neg hi, QuicStreams.updateSi_si_of_ne _ _ hi]
    exact (sameCredit_opened (t := s.setStreams (s.streams.opened id)) rfl).sent i

/-- A call that accepts moves no limit. -/
theorem maxStreamData_counted (i : ℕ) :
    (s.setStreams (s.counted id len)).maxStreamData i = s.maxStreamData i := by
  have hopened := (sameCredit_opened (t := s.setStreams (s.streams.opened id)) rfl).maxStreamData i
  change ((s.counted id len).si i).maxStreamData = _
  rw [counted_si]
  by_cases hi : i = id
  · subst hi
    rw [QuicStreams.updateSi_si]
    exact hopened
  · rw [QuicStreams.updateSi_si_of_ne _ _ hi]
    exact hopened

/-- A call that accepts leaves the parameters of the peer. -/
theorem peerParam_counted : (s.counted id len).peerParam = s.streams.peerParam :=
  opened_limits.2

/-- The credit is in order, and no unopened stream has used any. -/
structure CreditInv (s : Endpoint) : Prop where
  /-- What was sent is within the limits. -/
  within : SentWithin s
  /-- The unopened streams are idle. -/
  idle : Idle s
  /-- The credit is bounded. -/
  bounded : CreditBounded s

/-- What a call counts within the limits is within the limits. -/
theorem sentWithin_counted (hs : SentWithin s) (hbounded : CreditBounded s)
    (hfound : s.streams.Found id) (hwithin : s.Within id len) :
    SentWithin (s.setStreams (s.counted id len)) := by
  obtain ⟨hstream, hconn⟩ := hwithin
  have hsent (i : ℕ) : (s.setStreams (s.counted id len)).sent i =
      if i = id then s.sent id + len else s.sent i := by
    rw [sent_counted, Nat.mod_eq_of_lt]
    exact (hstream.trans_lt (hbounded.stream id)).trans (by decide)
  have htotal : (s.setStreams (s.counted id len)).totalSent = s.totalSent + len :=
    Nat.mod_eq_of_lt ((hconn.trans_lt hbounded.conn).trans (by decide))
  have hkeeps : (s.counted id len).conf.maxIdValue = s.streams.conf.maxIdValue :=
    (@QuicStreams.keeps_opened s.streams id).maxIdValue
  refine ⟨fun i => ?_, ?_, ?_⟩
  · rw [hsent, maxStreamData_counted]
    by_cases hi : i = id
    · rw [if_pos hi, hi]
      exact hstream
    · rw [if_neg hi]
      exact hs.stream i
  · rw [htotal]
    change _ ≤ (s.counted id len).peerParam.initialMaxData
    rw [peerParam_counted]
    exact hconn
  · have hmem : id ∈ Finset.range s.streams.conf.maxIdValue :=
      Finset.mem_range.mpr hfound.lt_maxIdValue
    have hrest : ∀ i ∈ (Finset.range s.streams.conf.maxIdValue).erase id,
        (s.setStreams (s.counted id len)).sent i = s.sent i := fun i hi => by
      rw [hsent, if_neg (Finset.ne_of_mem_erase hi)]
    change (s.setStreams (s.counted id len)).totalSent =
      ∑ i ∈ Finset.range (s.counted id len).conf.maxIdValue, _
    rw [htotal, hkeeps, ← Finset.add_sum_erase _ _ hmem, Finset.sum_congr rfl hrest, hsent,
      if_pos rfl, hs.sum, ← Finset.add_sum_erase _ _ hmem]
    exact Nat.add_right_comm _ _ _

/-- Only streams that are opened count bytes. -/
theorem idle_counted (hs : Idle s) (hfound : s.streams.Found id) :
    Idle (s.setStreams (s.counted id len)) := by
  have hkeeps := @QuicStreams.keeps_opened s.streams id
  have hsend (i : ℕ) : ((s.counted id len).si i).sendState = (s.streams.si i).sendState := by
    have hopened : ((s.streams.opened id).si i).sendState = (s.streams.si i).sendState := by
      rw [opened_si_eq]
      unfold quicStreamInstanceRecvOpen
      split_ifs <;> rfl
    rw [counted_si, ← hopened]
    by_cases hi : i = id
    · rw [hi, QuicStreams.updateSi_si]
    · rw [QuicStreams.updateSi_si_of_ne _ _ hi]
  intro i hlocal hstart
  change quicStreamPeerOpened i (s.streams.opened id).server = false at hlocal
  change ((s.counted id len).si i).sendState = .start at hstart
  rw [hkeeps.server] at hlocal
  rw [hsend] at hstart
  have hi : i ≠ id := by
    rintro rfl
    rcases hfound.2.2 with hpeer | hopen
    · rw [hlocal] at hpeer
      cases hpeer
    · exact hopen hstart
  rw [sent_counted, if_neg hi]
  exact hs i hlocal hstart

/-- A call moves no limit. -/
theorem creditBounded_counted (hs : CreditBounded s) :
    CreditBounded (s.setStreams (s.counted id len)) where
  stream i := by
    rw [maxStreamData_counted]
    exact hs.stream i
  conn := by
    change (s.counted id len).peerParam.initialMaxData < _
    rw [peerParam_counted]
    exact hs.conn
  opens uni := by
    have hopens := hs.opens uni
    unfold openCredit at hopens ⊢
    change (if uni then (s.counted id len).peerParam.initialMaxStreamDataUni
      else (s.counted id len).peerParam.initialMaxStreamDataBidiRemote) < _
    rwa [peerParam_counted]

/-- An event that changes nothing for flow control keeps the credit in order. -/
theorem CreditInv.of_sameCredit (hs : CreditInv s) (h : SameCredit s t)
    (hpeer : t.streams.peerParam = s.streams.peerParam) : CreditInv t where
  within := h.sentWithin hs.within
  idle := hs.idle.of_keeps h.keeps h.sent
  bounded := by
    refine ⟨fun id => ?_, ?_, fun uni => ?_⟩
    · rw [h.maxStreamData]
      exact hs.bounded.stream id
    · rw [h.maxData]
      exact hs.bounded.conn
    · rw [openCredit, hpeer]
      exact hs.bounded.opens uni

/-- The entry of a stream that this endpoint opens. -/
theorem openLocal_credit (uni : Bool) (si : QuicStreamInstance) :
    (openLocal s.streams.peerParam uni si).statBytes = si.statBytes ∧
      (openLocal s.streams.peerParam uni si).maxStreamData = s.openCredit uni := by
  cases uni with
  | false =>
    obtain ⟨hsent, hmax⟩ := sameEntryCredit_recvOpen { si with
      sendState := .ready
      maxStreamData := s.streams.peerParam.initialMaxStreamDataBidiRemote }
    refine ⟨?_, hmax⟩
    change (quicStreamInstanceRecvOpen _).statBytes = _
    unfold quicStreamInstanceRecvOpen
    split <;> rfl
  | true => exact ⟨rfl, rfl⟩

/-- A stream that is opened is idle, and its credit is that of its kind. -/
theorem creditInv_opened (hs : CreditInv s) {uni : Bool}
    (hstart : (s.streams.si (s.table.nextId uni)).sendState = .start)
    (hkeeps : s.streams.Keeps (s.setTable (s.table.opened uni)).streams) :
    CreditInv (s.setTable (s.table.opened uni)) := by
  have hidle : s.sent (s.table.nextId uni) = 0 :=
    hs.idle _ (QuicStreamTable.nextId_local s.table uni).1 hstart
  have hsi (i : ℕ) : (s.setTable (s.table.opened uni)).si i =
      (s.streams.updateSi (s.table.nextId uni) (openLocal s.streams.peerParam uni)).si i := rfl
  have hcredit := @openLocal_credit s uni (s.streams.si (s.table.nextId uni))
  have hsent (i : ℕ) : (s.setTable (s.table.opened uni)).sent i = s.sent i := by
    rw [sent, hsi]
    by_cases hi : i = s.table.nextId uni
    · rw [hi, QuicStreams.updateSi_si, hcredit.1]
      rfl
    · rw [QuicStreams.updateSi_si_of_ne _ _ hi]
      rfl
  have hmax (i : ℕ) : (s.setTable (s.table.opened uni)).maxStreamData i =
      if i = s.table.nextId uni then s.openCredit uni else s.maxStreamData i := by
    rw [maxStreamData, hsi]
    by_cases hi : i = s.table.nextId uni
    · rw [hi, QuicStreams.updateSi_si, hcredit.2, if_pos rfl]
    · rw [QuicStreams.updateSi_si_of_ne _ _ hi, if_neg hi]
      rfl
  refine ⟨⟨fun i => ?_, hs.within.conn, ?_⟩, hs.idle.of_keeps hkeeps hsent,
    ⟨fun i => ?_, hs.bounded.conn, hs.bounded.opens⟩⟩
  · rw [hsent, hmax]
    by_cases hi : i = s.table.nextId uni
    · rw [if_pos hi, hi, hidle]
      exact Nat.zero_le _
    · rw [if_neg hi]
      exact hs.within.stream i
  · refine hs.within.sum.trans ?_
    exact Finset.sum_congr rfl fun i _ => (hsent i).symm
  · rw [hmax]
    split
    · exact hs.bounded.opens uni
    · exact hs.bounded.stream i

/-- A limit of the connection that leaves the credit that was used keeps the credit in order. -/
theorem creditInv_limit (hs : CreditInv s) {k : LimitKind} {value : ℕ} (hvalue : value < 2 ^ 62)
    (hused : k = .data → s.totalSent ≤ value) : CreditInv (s.setStreams { s.streams with
      peerParam := k.set value s.streams.peerParam }) := by
  refine ⟨⟨hs.within.stream, ?_, hs.within.sum⟩, fun i hlocal hstart => hs.idle i hlocal hstart,
    ⟨hs.bounded.stream, ?_, fun uni => ?_⟩⟩
  · cases k with
    | data => exact hused rfl
    | streamsBidi | streamsUni => exact hs.within.conn
  · cases k with
    | data => exact hvalue
    | streamsBidi | streamsUni => exact hs.bounded.conn
  · cases k <;> exact hs.bounded.opens uni

/-- The limit behind a MAX_STREAM_DATA frame. -/
theorem raiseMaxStreamData_credit (value : ℕ) (si : QuicStreamInstance) :
    (raiseMaxStreamData value si).statBytes = si.statBytes ∧
      (raiseMaxStreamData value si).sendState = si.sendState ∧
      (raiseMaxStreamData value si).maxStreamData =
        if quicLt si.maxStreamData value then value else si.maxStreamData := by
  unfold raiseMaxStreamData
  split <;> exact ⟨rfl, rfl, rfl⟩

/-- The counts and limits behind a MAX_STREAM_DATA frame that is taken. -/
theorem credit_raised {value : ℕ}
    (h : t.streams = (s.streams.opened id).updateSi id (raiseMaxStreamData value)) (i : ℕ) :
    t.sent i = s.sent i ∧ t.maxStreamData i =
      if i = id ∧ quicLt (s.maxStreamData id) value then value else s.maxStreamData i := by
  have hsame : SameCredit s (s.setStreams (s.streams.opened id)) := sameCredit_opened rfl
  have hsent := hsame.sent i
  have hmax := hsame.maxStreamData i
  change ((s.streams.opened id).si i).statBytes.sent = _ at hsent
  change ((s.streams.opened id).si i).maxStreamData = _ at hmax
  rw [sent, maxStreamData, si, h]
  by_cases hi : i = id
  · subst hi
    obtain ⟨hstat, -, hraise⟩ := raiseMaxStreamData_credit value ((s.streams.opened i).si i)
    rw [QuicStreams.updateSi_si, hstat, hraise, hmax]
    refine ⟨hsent, ?_⟩
    split <;> rename_i hlt
    · rw [if_pos ⟨rfl, hlt⟩]
    · rw [if_neg fun h => hlt h.2]
  · rw [QuicStreams.updateSi_si_of_ne _ _ hi, if_neg fun h => hi h.1]
    exact ⟨hsent, hmax⟩

/-- A limit of a stream that leaves the credit that was used keeps the credit in order. -/
theorem creditInv_raised (hs : CreditInv s) {value : ℕ} (hvalue : value < 2 ^ 62)
    (h : t.streams = (s.streams.opened id).updateSi id (raiseMaxStreamData value))
    (hkeeps : s.streams.Keeps t.streams)
    (hused : quicLt (s.maxStreamData id) value → s.sent id ≤ value) : CreditInv t := by
  have hcredit := credit_raised h
  have hpeer : t.streams.peerParam = s.streams.peerParam := by
    rw [h]
    exact opened_limits.2
  have htotal : t.totalSent = s.totalSent := by
    rw [totalSent, h]
    exact congrArg QuicDataStat.sent opened_limits.1
  have hmax : t.maxData = s.maxData := congrArg QuicTransParams.initialMaxData hpeer
  refine ⟨⟨fun i => ?_, ?_, ?_⟩, hs.idle.of_keeps hkeeps fun i => (hcredit i).1,
    ⟨fun i => ?_, ?_, fun uni => ?_⟩⟩
  · rw [(hcredit i).1, (hcredit i).2]
    split <;> rename_i hi
    · rw [hi.1]
      exact hused hi.2
    · exact hs.within.stream i
  · rw [htotal, hmax]
    exact hs.within.conn
  · rw [htotal, hkeeps.maxIdValue, hs.within.sum]
    exact Finset.sum_congr rfl fun i _ => (hcredit i).1.symm
  · rw [(hcredit i).2]
    split
    · exact hvalue
    · exact hs.bounded.stream i
  · rw [hmax]
    exact hs.bounded.conn
  · rw [openCredit, hpeer]
    exact hs.bounded.opens uni

/-- The frames that move a limit or open no stream leave the parameters of the peer. -/
theorem step_peerParam (h : step mem s e = some t)
    (hlimit : ∀ (k : LimitKind) frame, e ≠ .frame k.frameType frame) :
    t.streams.peerParam = s.streams.peerParam := by
  by_cases harrives : ∀ type frame, e ≠ .frame type frame
  · exact (step_written h).peerParam harrives
  · push Not at harrives
    obtain ⟨type, frame, rfl⟩ := harrives
    exact (recvFrame_written h).1.peerParam fun k hk => hlimit k frame (by rw [hk])

/-- Every event whose comparisons agree keeps the credit in order. -/
theorem step_creditInv (hs : CreditInv s) (hok : KeepsCredit s e) (h : step mem s e = some t) :
    CreditInv t := by
  by_cases hlimit : ∃ (k : LimitKind) (frame : RPacket), e = .frame k.frameType frame
  · obtain ⟨k, frame, rfl⟩ := hlimit
    rcases step_limit h with rfl | ⟨value, hframe, hgt, rfl⟩
    · exact hs
    · refine creditInv_limit hs (frameNumbers_lt hframe value (List.mem_singleton_self value)) ?_
      rintro rfl
      exact hok.2 rfl value hframe hgt
  push Not at hlimit
  have hpeer := step_peerParam h hlimit
  cases e with
  | frame type frame =>
    by_cases htype : type = 0x11
    · subst htype
      rcases step_maxStreamData h with ⟨id, value, hframe, htakes, ht⟩ | ⟨-, ht | ⟨id, ht⟩⟩
      · refine creditInv_raised hs ?_ ht (step_written h).keeps (hok.1 rfl id value hframe htakes)
        exact frameNumbers_lt hframe value (List.mem_cons_of_mem _ (List.mem_singleton_self value))
      · exact hs.of_sameCredit (sameCredit_of_eq ht) hpeer
      · exact hs.of_sameCredit (sameCredit_opened ht) hpeer
    · refine hs.of_sameCredit (step_sameCredit h (fun f hf => htype ?_) hlimit ?_ ?_) hpeer
      · exact (StreamEvent.frame.inj hf).1
      · exact fun _ h => by cases h
      · exact fun _ _ _ h => by cases h
  | streamOpen uni =>
    have hkeeps := (step_written h).keeps
    rcases step_open h with ⟨-, hstart, rfl⟩ | ht
    · exact creditInv_opened hs hstart hkeeps
    · exact hs.of_sameCredit (sameCredit_of_eq ht) hpeer
  | flowCtrl handle len built =>
    rcases step_flowCtrl h with ⟨id, hid, hfound, hlen, hpasses, rfl⟩ | hsame
    · have hwithin := (hok id hid hfound hlen).mp hpasses
      exact ⟨sentWithin_counted hs.within hs.bounded hfound hwithin, idle_counted hs.idle hfound,
        creditBounded_counted hs.bounded⟩
    · exact hs.of_sameCredit hsame hpeer
  | read | streamBuild | blockedBuild | resetBuild | sent =>
    refine hs.of_sameCredit (step_sameCredit h ?_ hlimit ?_ ?_) hpeer
    · exact fun _ h => by cases h
    · exact fun _ h => by cases h
    · exact fun _ _ _ h => by cases h

/-- While the credit is in order, flow control works exactly when the comparisons agree. -/
theorem sendProper_iff (hs : CreditInv s) : SendProper mem s e ↔ KeepsCredit s e := by
  constructor
  · rintro ⟨hcall, -, hafter⟩
    cases e with
    | flowCtrl handle len built => exact (callProper_iff hs.within).mp hcall
    | frame type frame =>
      refine ⟨?_, ?_⟩
      · rintro rfl id value hframe htakes hlt
        obtain ⟨t, ht, hstreams⟩ := @step_maxStreamData_of_takes mem s frame id value hframe htakes
        have hstream := (hafter t ht).stream id
        obtain ⟨hsent, hmax⟩ := credit_raised hstreams id
        rwa [hsent, hmax, if_pos ⟨rfl, hlt⟩] at hstream
      · rintro rfl value hframe hgt
        exact (hafter _ (@step_limit_of_gt mem s frame .data value hframe hgt)).conn
    | streamOpen | read | streamBuild | blockedBuild | resetBuild | sent => trivial
  · refine fun hok => ⟨?_, hs.within, fun t ht => (step_creditInv hs hok ht).within⟩
    cases e with
    | flowCtrl handle len built => exact (callProper_iff hs.within).mpr hok
    | frame | streamOpen | read | streamBuild | blockedBuild | resetBuild | sent => trivial

/-- The credit is in order when the parameters were exchanged. -/
theorem Created.creditInv (hs : s.Created) (hdata : s.streams.peerParam.initialMaxData < 2 ^ 62)
    (hopens : ∀ uni, s.openCredit uni < 2 ^ 62) : CreditInv s := by
  obtain ⟨own, peer, hstreams, -, -⟩ := hs
  have hconf := createdStreams_eq s.streams.server own peer
  rw [← hstreams] at hconf
  have hsi (i : ℕ) : s.si i = quicStreamInstanceInit i s.streams.server := by
    rw [si, hconf]
    rfl
  have hsent (i : ℕ) : s.sent i = 0 := by
    rw [sent, hsi]
    rfl
  have hmax (i : ℕ) : s.maxStreamData i = 0 := by
    rw [maxStreamData, hsi]
    rfl
  have htotal : s.totalSent = 0 := by
    rw [totalSent, hconf]
    rfl
  refine ⟨⟨fun i => ?_, ?_, ?_⟩, fun i _ _ => hsent i, ⟨fun i => ?_, hdata, hopens⟩⟩
  · rw [hsent]
    exact Nat.zero_le _
  · rw [htotal]
    exact Nat.zero_le _
  · rw [htotal, Finset.sum_eq_zero fun i _ => hsent i]
  · rw [hmax]
    decide

/-- Flow control works along a run exactly when the comparisons of its calls agree with the order
and no frame takes back credit that was used. -/
theorem sendProper_along_iff (mem : ℕ → Bool) (s : Endpoint) (es : List StreamEvent)
    (hs : s.Created) (hdata : s.streams.peerParam.initialMaxData < 2 ^ 62)
    (hopens : ∀ uni, s.openCredit uni < 2 ^ 62) :
    Trace.Along (step mem) (SendProper mem) s es ↔ Trace.Along (step mem) KeepsCredit s es :=
  Trace.along_congr_of_invariant CreditInv (fun _ _ => sendProper_iff)
    (fun _ _ _ hv hproper hw => step_creditInv hv ((sendProper_iff hv).mp hproper) hw)
    (hs.creditInv hdata hopens)

/-- A stream that is opened and sends what an ordinary limit allows. -/
theorem sendProper_along_open :
    Trace.Along (step fun _ => true) (SendProper fun _ => true)
      (created true ordinaryParams ordinaryParams) [.streamOpen true, .flowCtrl 3 100 false] := by
  refine (sendProper_along_iff _ _ _ (created_created _ _ _) (by decide +kernel)
    (by decide +kernel)).mpr ⟨trivial, fun t ht => ⟨fun id hid _ _ => ?_, fun _ _ => trivial⟩⟩
  have hrun : (step (fun _ => true) (created true ordinaryParams ordinaryParams)
      (.streamOpen true)).map (fun t => decide (t.Passes 3 100 ↔ t.Within 3 100)) = some true := by
    decide +kernel
  rw [ht] at hrun
  obtain rfl : id = 3 := by omega
  exact of_decide_eq_true (Option.some.inj hrun)

/-- Parameters with limits beyond 32 bits. -/
def generousParams : QuicTransParams := ⟨2 ^ 32, 2 ^ 32, 2 ^ 32, 8, 8⟩

/-- The first bytes of a stream are refused below a limit of `2 ^ 32`. -/
theorem flowCtrl_refuses : ¬ Trace.Along (step fun _ => true) (SendProper fun _ => true)
    (created true ordinaryParams generousParams) [.streamOpen true, .flowCtrl 3 100 false] := by
  rintro ⟨-, halong⟩
  have hrun : (step (fun _ => true) (created true ordinaryParams generousParams)
      (.streamOpen true)).map (fun t => ((quicStreamGetInstance 3 t.streams).1.isOk,
        (quicStreamSendFlowCtrl false 3 100 t.streams).1.isOk, decide (t.Within 3 100))) =
          some (true, false, true) := by
    decide +kernel
  obtain ⟨t, ht, hfacts⟩ := Option.map_eq_some_iff.mp hrun
  obtain ⟨hget, hctrl⟩ := Prod.mk.inj hfacts
  obtain ⟨hrefused, hwithin⟩ := Prod.mk.inj hctrl
  have hfound : t.streams.Found 3 := by
    by_contra hfound
    rw [show (3 : ℤ) = (3 : ℕ) from rfl, quicStreamGetInstance_of_not_found hfound] at hget
    cases hget
  have hcall := ((halong t ht).1.1 3 rfl hfound).1.mpr (of_decide_eq_true hwithin)
  rw [hcall] at hrefused
  cases hrefused

end Endpoint

end Tbquic
