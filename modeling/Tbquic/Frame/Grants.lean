import Tbquic.Frame.SendLimits

/-!
# Credit for each stream

The limit on the bytes of a stream is the larger of the limit that the peer gives to its kind and
of what MAX_STREAM_DATA frames grant. What was granted is kept beside the endpoint.
-/

namespace Tbquic

/-- The sending part of a stream sends. -/
def Sends (si : QuicStreamInstance) : Prop := si.sendState = .ready ∨ si.sendState = .send

/-- The sending part of a stream sends or waits to. -/
def MaySend (si : QuicStreamInstance) : Prop := si.sendState = .start ∨ Sends si

instance (si : QuicStreamInstance) : Decidable (Sends si) := inferInstanceAs (Decidable (_ ∨ _))

instance (q : QuicStreams) (id : ℕ) : Decidable (q.Found id) :=
  inferInstanceAs (Decidable (_ ∧ _))

instance (c : FrameConn) (id : ℕ) : Decidable (TakesCredit c id) :=
  inferInstanceAs (Decidable (_ ∧ _))

/-- The stream and the limit of a MAX_STREAM_DATA frame. -/
def eventGrant : StreamEvent → Option (ℕ × ℕ)
  | .frame type frame =>
    if type = 0x11 then
      match frameNumbers 2 frame with
      | some [id, value] => some (id, value)
      | _ => none
    else none
  | _ => none

/-- A grant is that of a whole MAX_STREAM_DATA frame. -/
theorem eventGrant_eq_some {e : StreamEvent} {id value : ℕ} :
    eventGrant e = some (id, value) ↔
      ∃ frame, e = .frame 0x11 frame ∧ frameNumbers 2 frame = some [id, value] := by
  constructor
  · intro h
    cases e with
    | frame type frame =>
      dsimp only [eventGrant] at h
      split_ifs at h with htype
      subst htype
      split at h
      · rename_i i v hframe
        cases h
        exact ⟨frame, rfl, hframe⟩
      · cases h
    | streamOpen | read | streamBuild | blockedBuild | resetBuild | flowCtrl | sent => cases h
  · rintro ⟨frame, rfl, hframe⟩
    simp only [eventGrant, if_true, hframe]

/-- An endpoint with the largest limit that was granted to each stream. -/
structure Granted where
  /-- The endpoint. -/
  endpoint : Endpoint
  /-- The largest limit granted to a stream. -/
  granted : ℕ → ℕ

namespace Granted

variable {mem : ℕ → Bool} {bidiLocal : ℕ} {g g' : Granted} {e : StreamEvent} {id value : ℕ}

/-- The entry of a stream. -/
def si (g : Granted) (id : ℕ) : QuicStreamInstance := g.endpoint.si id

/-- The peer opens the stream. -/
def peerOpened (g : Granted) (id : ℕ) : Bool := quicStreamPeerOpened id g.endpoint.streams.server

/-- The stream has a sending part. -/
def HasSending (g : Granted) (id : ℕ) : Prop :=
  ¬ (g.peerOpened id = true ∧ unidirectional id = true)

/-- The stream is there: this endpoint opened it, or the peer may open it. -/
def Present (g : Granted) (id : ℕ) : Prop :=
  if g.peerOpened id then id / 4 < g.endpoint.streams.transParam.maxStreams (unidirectional id)
  else (g.si id).sendState ≠ .start

instance (g : Granted) (id : ℕ) : Decidable (g.Present id) :=
  inferInstanceAs (Decidable (if g.peerOpened id then
    id / 4 < g.endpoint.streams.transParam.maxStreams (unidirectional id)
  else (g.si id).sendState ≠ .start))

/-- The limit of the peer for a kind of streams. No routine reads its
`initial_max_stream_data_bidi_local`, which is `bidiLocal` here. -/
def firstCredit (bidiLocal : ℕ) (g : Granted) (id : ℕ) : ℕ :=
  if g.peerOpened id then bidiLocal else g.endpoint.openCredit (unidirectional id)

/-- The grants after an event. A grant counts when its stream is there or takes it. -/
def grant (g : Granted) (e : StreamEvent) : ℕ → ℕ :=
  match eventGrant e with
  | some (id, value) =>
    if g.Present id ∨ TakesCredit g.endpoint.conn id then
      Function.update g.granted id (max (g.granted id) value)
    else g.granted
  | none => g.granted

/-- The state behind an event. -/
def step (mem : ℕ → Bool) (g : Granted) (e : StreamEvent) : Option Granted :=
  (Endpoint.step mem g.endpoint e).map fun t => ⟨t, g.grant e⟩

/-- The limit of each stream that sends is the larger of its first one and of those granted. -/
def CreditExact (bidiLocal : ℕ) (g : Granted) : Prop :=
  ∀ id, Sends (g.si id) → (g.si id).maxStreamData = max (g.firstCredit bidiLocal id) (g.granted id)

/-- A MAX_STREAM_DATA frame is accepted for a stream that is there and has a sending part. -/
def GrantAccepted (g : Granted) (e : StreamEvent) : Prop :=
  ∀ frame, e = .frame 0x11 frame → ∀ id value, frameNumbers 2 frame = some [id, value] →
    g.Present id → g.HasSending id →
    (FrameState.quicFrameMaxStreamDataParser ⟨frame, g.endpoint.conn, false, false⟩).1 = .ok ()

/-- The credit of the streams is exact before and behind an event, and a grant is accepted. -/
def GrantProper (bidiLocal : ℕ) (mem : ℕ → Bool) (g : Granted) (e : StreamEvent) : Prop :=
  g.CreditExact bidiLocal ∧ g.GrantAccepted e ∧
    ∀ g', step mem g e = some g' → g'.CreditExact bidiLocal

/-- A grant for a stream that is there and has a sending part finds the receiving part open,
`QUIC_LT` compares the limits as they are, and a STREAM frame makes no stream ready whose first
limit is above the one stored. -/
def KeepsGrant (bidiLocal : ℕ) (g : Granted) : StreamEvent → Prop
  | .frame type frame =>
    (type = 0x11 → ∀ id value, frameNumbers 2 frame = some [id, value] → g.HasSending id →
      (g.Present id → TakesCredit g.endpoint.conn id) ∧
      (TakesCredit g.endpoint.conn id → MaySend (g.si id) →
        (quicLt (g.si id).maxStreamData value ↔ (g.si id).maxStreamData < value))) ∧
    (StreamType type → ∀ id, streamFrameId type frame = some id →
      g.peerOpened id = true → unidirectional id = false → g.endpoint.streams.Found id →
      (g.si id).sendState = .start → bidiLocal ≤ (g.si id).maxStreamData)
  | _ => True

end Granted

/-- A stream that opens its receiving part sends as before. -/
theorem sendState_recvOpen (si : QuicStreamInstance) :
    (quicStreamInstanceRecvOpen si).sendState = si.sendState := by
  unfold quicStreamInstanceRecvOpen
  split <;> rfl

section Entries

variable {type : ℕ} {frame : RPacket} {server : Bool} {id : ℕ} {si si' : QuicStreamInstance}

/-- A frame makes no stream send that is closed for sending, and only a STREAM frame makes one
ready. -/
theorem EntryWrite.maySend (h : EntryWrite type frame server id si si') :
    (MaySend si' → MaySend si) ∧ (¬ StreamType type → Sends si' → Sends si) := by
  have hsame (hsend : si'.sendState = si.sendState) :
      (MaySend si' → MaySend si) ∧ (¬ StreamType type → Sends si' → Sends si) := by
    unfold MaySend Sends
    rw [hsend]
    exact ⟨fun h => h, fun _ h => h⟩
  have hclosed (hsend : ¬ MaySend si') :
      (MaySend si' → MaySend si) ∧ (¬ StreamType type → Sends si' → Sends si) :=
    ⟨fun h => absurd h hsend, fun _ h => absurd (.inr h) hsend⟩
  cases h with
  | recvOpen => exact hsame (sendState_recvOpen si)
  | recvReset =>
    refine hsame ?_
    unfold FrameState.recvReset
    split <;> rfl
  | stopSending =>
    refine hclosed ?_
    rintro (h | h | h) <;> cases h
  | sendReady htype =>
    refine ⟨fun h => ?_, fun hne => absurd htype hne⟩
    by_cases hstart : si.sendState = .start
    · exact .inl hstart
    · rwa [Tbquic.sendReady, if_neg hstart] at h
  | recvFin =>
    refine hsame ?_
    unfold Tbquic.recvFin
    split <;> rfl
  | data | notify => exact hsame rfl
  | complete =>
    refine hsame ?_
    unfold recvComplete
    split <;> rfl
  | maxStreamData value =>
    refine hsame ?_
    split <;> rfl
  | acked flags =>
    have hacked : (streamFlagsAcked flags si).sendState = si.sendState ∨
        (streamFlagsAcked flags si).sendState = .dataRecvd ∨
        (streamFlagsAcked flags si).sendState = .resetRecvd := by
      unfold streamFlagsAcked
      dsimp only
      split_ifs <;> simp
    rcases hacked with h | h | h
    · exact hsame h
    · refine hclosed ?_
      unfold MaySend Sends
      rw [h]
      decide
    · refine hclosed ?_
      unfold MaySend Sends
      rw [h]
      decide

end Entries

/-- No event makes a stream send that is closed for sending, and only STREAM frames and the
application make one ready. -/
theorem EventWrite.maySend {s : Endpoint} {id : ℕ} {e : StreamEvent} {si si' : QuicStreamInstance}
    (h : EventWrite s id e si si') : (MaySend si' → MaySend si) ∧
      ((∀ type frame, e = .frame type frame → ¬ StreamType type) → (∀ uni, e ≠ .streamOpen uni) →
        Sends si' → Sends si) := by
  have hsame (hsend : si'.sendState = si.sendState) : (MaySend si' → MaySend si) ∧
      ((∀ type frame, e = .frame type frame → ¬ StreamType type) → (∀ uni, e ≠ .streamOpen uni) →
        Sends si' → Sends si) := by
    unfold MaySend Sends
    rw [hsend]
    exact ⟨fun h => h, fun _ _ h => h⟩
  cases h with
  | @frame type frame _ _ h =>
    exact ⟨h.maySend.1, fun htype _ => h.maySend.2 (htype type frame rfl)⟩
  | recvOpen => exact hsame (sendState_recvOpen si)
  | @opened uni _ _ _ hstart => exact ⟨fun _ => .inl hstart, fun _ hopen => absurd rfl (hopen uni)⟩
  | read hread => exact hsame (quicStreamReadData_states hread).2.2.1
  | started =>
    unfold sendStarted
    split
    · rename_i hready
      exact ⟨fun _ => .inr (.inl hready), fun _ _ _ => .inl hready⟩
    · exact ⟨fun h => h, fun _ _ h => h⟩
  | fin =>
    unfold sendFin
    split
    · rename_i hsend
      exact ⟨fun _ => .inr (.inr hsend.2), fun _ _ _ => .inr hsend.2⟩
    · exact ⟨fun h => h, fun _ _ h => h⟩
  | reset hresettable =>
    constructor
    · rintro (h | h | h) <;> cases h
    · rintro - - (h | h) <;> cases h
  | counted => exact hsame rfl

section Ready

variable {type : ℕ} {frame : RPacket} {c d : FrameConn} {id : ℕ}

/-- A STREAM frame finds a stream whose sending part waits. -/
def MakesReady (type : ℕ) (frame : RPacket) (c : FrameConn) (id : ℕ) : Prop :=
  streamFrameId type frame = some id ∧ c.streams.Found id ∧ (c.streams.si id).sendState = .start

/-- A write of a STREAM frame makes only the stream that it finds ready. -/
theorem FrameMove.sends (h : FrameMove type frame c d) (htype : StreamType type)
    (hsends : Sends (d.streams.si id)) : Sends (c.streams.si id) ∨ MakesReady type frame c id := by
  have hsame (hsend : (d.streams.si id).sendState = (c.streams.si id).sendState) :
      Sends (c.streams.si id) ∨ MakesReady type frame c id := by
    left
    unfold Sends at hsends ⊢
    rwa [← hsend]
  have hupdate {i : ℕ} {f : QuicStreamInstance → QuicStreamInstance}
      (hf : ∀ si, (f si).sendState = si.sendState) :
      ((c.streams.updateSi i f).si id).sendState = (c.streams.si id).sendState := by
    by_cases hi : id = i
    · rw [hi, QuicStreams.updateSi_si, hf]
    · rw [QuicStreams.updateSi_si_of_ne _ _ hi]
  obtain ⟨hlo, hhi⟩ := htype
  cases h with
  | find i =>
    refine hsame ?_
    dsimp only
    rw [opened_si_eq]
    split
    · exact sendState_recvOpen _
    · rfl
  | recvReset _ _ _ _ ht | stopSending _ _ ht | maxStreamData _ _ _ ht => omega
  | recvOpen => exact hsame (hupdate sendState_recvOpen)
  | sendReady i hfound _ _ hframe =>
    by_cases hi : id = i
    · subst hi
      by_cases hstart : (c.streams.si id).sendState = .start
      · exact .inr ⟨hframe, hfound, hstart⟩
      · refine hsame ?_
        dsimp only
        rw [QuicStreams.updateSi_si, Tbquic.sendReady, if_neg hstart]
    · refine hsame ?_
      dsimp only
      rw [QuicStreams.updateSi_si_of_ne _ _ hi]
  | recvFin =>
    refine hsame (hupdate fun si => ?_)
    unfold Tbquic.recvFin
    split <;> rfl
  | dataAdd i sd =>
    obtain ⟨hother, hid⟩ := quicStreamDataAdd_entries c.streams i sd
    refine hsame ?_
    dsimp only
    by_cases hi : id = i
    · subst hi
      rcases hid with h | ⟨recvd, queue, h | h⟩ <;> rw [h]
      unfold recvComplete
      split <;> rfl
    · rw [hother id hi]
  | notify i =>
    refine hsame ?_
    dsimp only
    unfold QuicStreams.notify
    split
    · rfl
    · exact hupdate (f := fun si => { si with notified := true }) fun _ => rfl
  | limit | raise | aside | draining | handshakeDone => exact hsame rfl
  | acked _ ht =>
    rw [ht] at hlo
    exact absurd hlo (by decide)

/-- A STREAM frame makes only the stream that it finds ready. -/
theorem FrameMoves.sends (h : FrameMoves type frame c d) (htype : StreamType type)
    (hsends : Sends (d.streams.si id)) : Sends (c.streams.si id) ∨ MakesReady type frame c id := by
  induction h with
  | refl => exact .inl hsends
  | @tail b d hchain hlast ih =>
    rcases hlast.sends htype hsends with hsends | ⟨hframe, hfound, hstart⟩
    · exact ih hsends
    · have hkeeps : c.streams.Keeps b.streams := (FrameMoves.entriesWritten hchain).2
      have hcstart : (c.streams.si id).sendState = .start := by
        by_contra hne
        exact hkeeps.send id hne hstart
      obtain ⟨hinited, hcheck, hpeer⟩ := hfound
      refine .inr ⟨hframe, ⟨hkeeps.inited.symm.trans hinited, ?_, ?_⟩, hcstart⟩
      · rwa [QuicStreams.idCheck, QuicStreams.idCheckPeer, hkeeps.server, hkeeps.transParam,
          hkeeps.maxIdValue] at hcheck
      · rw [← hkeeps.server]
        exact .inl (hpeer.resolve_right fun hne => hne hstart)

end Ready

namespace Endpoint

variable {mem : ℕ → Bool} {s t : Endpoint} {e : StreamEvent} {id : ℕ}

/-- No event makes a stream send that is closed for sending. -/
theorem step_maySend (h : step mem s e = some t) (hsend : MaySend (t.si id)) :
    MaySend (s.si id) := by
  have hchain := (step_written h).entry id
  change Relation.ReflTransGen _ (s.si id) (t.si id) at hchain
  generalize t.si id = si at hchain hsend
  induction hchain with
  | refl => exact hsend
  | tail _ hlast ih => exact ih (hlast.maySend.1 hsend)

/-- A stream that starts to send was opened by the application or found by a STREAM frame. -/
theorem step_sends (h : step mem s e = some t) (hopen : ∀ uni, e ≠ .streamOpen uni)
    (hsends : Sends (t.si id)) : Sends (s.si id) ∨
      ∃ type frame, e = .frame type frame ∧ StreamType type ∧ MakesReady type frame s.conn id := by
  by_cases hstream : ∃ type frame, e = .frame type frame ∧ StreamType type
  · obtain ⟨type, frame, rfl, htype⟩ := hstream
    rcases (recvFrame_written h).1.sends htype hsends with hbefore | hready
    · exact .inl hbefore
    · exact .inr ⟨type, frame, rfl, htype, hready⟩
  · have hchain := (step_written h).entry id
    have hother : ∀ type frame, e = .frame type frame → ¬ StreamType type :=
      fun type frame he htype => hstream ⟨type, frame, he, htype⟩
    change Relation.ReflTransGen _ (s.si id) (t.si id) at hchain
    generalize t.si id = si at hchain hsends
    left
    induction hchain with
    | refl => exact hsends
    | tail _ hlast ih => exact ih (hlast.maySend.2 hother hopen hsends)

/-- Only a MAX_STREAM_DATA frame and the opening of the stream change its limit. -/
theorem step_maxStreamData_eq (h : step mem s e = some t) (hframe : ∀ frame, e ≠ .frame 0x11 frame)
    (hopen : ∀ uni, e ≠ .streamOpen uni) : t.maxStreamData id = s.maxStreamData id := by
  have hchain := (step_written h).entry id
  change Relation.ReflTransGen _ (s.si id) (t.si id) at hchain
  unfold maxStreamData
  generalize t.si id = si at hchain
  induction hchain with
  | refl => rfl
  | tail _ hlast ih =>
    refine Eq.trans ?_ ih
    by_cases hcount : ∀ handle len built, e ≠ .flowCtrl handle len built
    · exact (hlast.sameCredit hframe hopen hcount).2
    · push Not at hcount
      obtain ⟨handle, len, built, rfl⟩ := hcount
      cases hlast with
      | recvOpen => exact (sameEntryCredit_recvOpen _).2
      | started =>
        unfold sendStarted
        split <;> rfl
      | counted => rfl

/-- No event changes the credit of new streams. -/
theorem step_openCredit (h : step mem s e = some t) (uni : Bool) :
    t.openCredit uni = s.openCredit uni := by
  by_cases hlimit : ∃ (k : LimitKind) (frame : RPacket), e = .frame k.frameType frame
  · obtain ⟨k, frame, rfl⟩ := hlimit
    rcases step_limit h with rfl | ⟨value, -, -, rfl⟩
    · rfl
    · cases k <;> rfl
  · push Not at hlimit
    rw [openCredit, step_peerParam h hlimit, openCredit]

end Endpoint

namespace Granted

variable {mem : ℕ → Bool} {bidiLocal : ℕ} {g g' : Granted} {e : StreamEvent} {id value : ℕ}

/-- The credit is exact, and that of the streams that wait is what was granted. -/
structure GrantInv (bidiLocal : ℕ) (g : Granted) : Prop where
  /-- The credit of the streams that send is exact. -/
  exact : g.CreditExact bidiLocal
  /-- A stream of the peer that waits to send has what was granted. -/
  waits (id : ℕ) : g.peerOpened id = true → (g.si id).sendState = .start →
    (g.si id).maxStreamData = g.granted id
  /-- Nothing was granted to a stream that this endpoint has not opened. -/
  idle (id : ℕ) : g.peerOpened id = false → (g.si id).sendState = .start → g.granted id = 0
  /-- A stream that may send has a sending part. -/
  sending (id : ℕ) : MaySend (g.si id) → g.HasSending id

/-- An event that raises the limits as it grants them, and makes no stream ready whose limit is too
small, keeps the credit exact. -/
theorem GrantInv.of_raised (hs : GrantInv bidiLocal g)
    (hserver : g'.endpoint.streams.server = g.endpoint.streams.server)
    (hopen : ∀ uni, g'.endpoint.openCredit uni = g.endpoint.openCredit uni)
    (hmay : ∀ i, MaySend (g'.si i) → MaySend (g.si i))
    (hstart : ∀ i, (g'.si i).sendState = .start → (g.si i).sendState = .start)
    (hraise : ∀ i, MaySend (g.si i) → ∃ v,
      (g'.si i).maxStreamData = max (g.si i).maxStreamData v ∧ g'.granted i = max (g.granted i) v)
    (hidle : ∀ i, g.peerOpened i = false → (g.si i).sendState = .start →
      g'.granted i = g.granted i)
    (hready : ∀ i, Sends (g'.si i) → Sends (g.si i) ∨ g.peerOpened i = true ∧
      (g.si i).sendState = .start ∧ bidiLocal ≤ (g.si i).maxStreamData) :
    GrantInv bidiLocal g' := by
  have hpeer (i : ℕ) : g'.peerOpened i = g.peerOpened i := by
    rw [peerOpened, hserver, peerOpened]
  have hfirst (i : ℕ) : g'.firstCredit bidiLocal i = g.firstCredit bidiLocal i := by
    rw [firstCredit, hpeer, hopen, firstCredit]
  refine ⟨fun i hsends => ?_, fun i hi hwait => ?_, fun i hi hwait => ?_, fun i hsend => ?_⟩
  · obtain ⟨v, hmax, hgranted⟩ := hraise i (hmay i (.inr hsends))
    rw [hfirst, hmax, hgranted]
    rcases hready i hsends with hbefore | ⟨hi, hwait, hle⟩
    · rw [hs.exact i hbefore, max_assoc]
    · have hwaits := hs.waits i hi hwait
      rw [firstCredit, if_pos hi, ← hwaits, max_eq_right (hle.trans (le_max_left _ _))]
  · rw [hpeer] at hi
    obtain ⟨v, hmax, hgranted⟩ := hraise i (.inl (hstart i hwait))
    rw [hmax, hgranted, hs.waits i hi (hstart i hwait)]
  · rw [hpeer] at hi
    rw [hidle i hi (hstart i hwait)]
    exact hs.idle i hi (hstart i hwait)
  · unfold HasSending
    rw [hpeer]
    exact hs.sending i (hmay i hsend)

/-- Other events grant nothing. -/
theorem grant_of_ne (hframe : ∀ frame, e ≠ .frame 0x11 frame) : g.grant e = g.granted := by
  have hnone : eventGrant e = none := by
    by_contra hsome
    obtain ⟨⟨id, value⟩, hgrant⟩ := Option.ne_none_iff_exists'.mp hsome
    obtain ⟨frame, he, -⟩ := eventGrant_eq_some.mp hgrant
    exact hframe frame he
  rw [grant, hnone]

/-- The grants behind a MAX_STREAM_DATA frame. -/
theorem grant_of_frame {frame : RPacket} (hframe : frameNumbers 2 frame = some [id, value])
    (i : ℕ) : g.grant (.frame 0x11 frame) i =
      if i = id ∧ (g.Present id ∨ TakesCredit g.endpoint.conn id) then max (g.granted i) value
      else g.granted i := by
  rw [grant, eventGrant_eq_some.mpr ⟨frame, rfl, hframe⟩]
  dsimp only
  by_cases hcounts : g.Present id ∨ TakesCredit g.endpoint.conn id
  · rw [if_pos hcounts]
    by_cases hi : i = id
    · rw [if_pos ⟨hi, hcounts⟩, hi, Function.update_self]
    · rw [if_neg fun h => hi h.1, Function.update_of_ne hi]
  · rw [if_neg hcounts, if_neg fun h => hcounts h.2]

/-- An event raises the limits as it grants them. -/
theorem step_raise (hs : GrantInv bidiLocal g) (hok : g.KeepsGrant bidiLocal e) {t : Endpoint}
    (h : Endpoint.step mem g.endpoint e = some t) (hopen : ∀ uni, e ≠ .streamOpen uni) (i : ℕ)
    (hsend : MaySend (g.si i)) : ∃ v, (t.si i).maxStreamData = max (g.si i).maxStreamData v ∧
      g.grant e i = max (g.granted i) v := by
  by_cases hframe : ∃ frame, e = .frame 0x11 frame
  swap
  · push Not at hframe
    refine ⟨0, ?_, ?_⟩
    · rw [Nat.max_zero]
      exact Endpoint.step_maxStreamData_eq h hframe hopen
    · rw [Nat.max_zero, grant_of_ne hframe]
  obtain ⟨frame, rfl⟩ := hframe
  rcases Endpoint.step_maxStreamData h with ⟨id, value, hnumbers, htakes, hstreams⟩ |
    ⟨hnot, hstreams⟩
  · have hmax := (Endpoint.credit_raised hstreams i).2
    change (t.si i).maxStreamData = _ at hmax
    rw [hmax, grant_of_frame hnumbers]
    by_cases hi : i = id
    · subst hi
      have hlt := (hok.1 rfl i value hnumbers (hs.sending i hsend)).2 htakes hsend
      refine ⟨value, ?_, if_pos ⟨rfl, .inr htakes⟩⟩
      change _ = max (g.endpoint.maxStreamData i) value
      change (quicLt (g.endpoint.maxStreamData i) value ↔ g.endpoint.maxStreamData i < value) at hlt
      split
      · rename_i hquic
        exact (max_eq_right (hlt.mp hquic.2).le).symm
      · rename_i hquic
        exact (max_eq_left (not_lt.mp fun hless => hquic ⟨rfl, hlt.mpr hless⟩)).symm
    · refine ⟨0, ?_, ?_⟩
      · rw [if_neg fun h => hi h.1, Nat.max_zero]
        rfl
      · rw [if_neg fun h => hi h.1, Nat.max_zero]
  · have hsame : Endpoint.SameCredit g.endpoint t := by
      rcases hstreams with hstreams | ⟨id, hstreams⟩
      · exact Endpoint.sameCredit_of_eq hstreams
      · exact Endpoint.sameCredit_opened hstreams
    refine ⟨0, ?_, ?_⟩
    · rw [Nat.max_zero]
      exact hsame.maxStreamData i
    · rw [Nat.max_zero]
      cases hgrant : eventGrant (.frame 0x11 frame) with
      | none => rw [grant, hgrant]
      | some p =>
        obtain ⟨frame', hframe', hnumbers⟩ := eventGrant_eq_some.mp hgrant
        obtain ⟨-, rfl⟩ := StreamEvent.frame.inj hframe'
        rw [grant_of_frame hnumbers, if_neg]
        rintro ⟨rfl, hpresent | htakes⟩
        · exact hnot _ _ hnumbers ((hok.1 rfl _ _ hnumbers (hs.sending _ hsend)).1 hpresent)
        · exact hnot _ _ hnumbers htakes

/-- Nothing is granted to a stream that this endpoint has not opened. -/
theorem grant_of_idle (i : ℕ) (hlocal : g.peerOpened i = false)
    (hstart : (g.si i).sendState = .start) : g.grant e i = g.granted i := by
  by_cases hframe : ∃ frame, e = .frame 0x11 frame
  swap
  · push Not at hframe
    rw [grant_of_ne hframe]
  obtain ⟨frame, rfl⟩ := hframe
  cases hgrant : eventGrant (.frame 0x11 frame) with
  | none => rw [grant, hgrant]
  | some p =>
    obtain ⟨frame', hframe', hnumbers⟩ := eventGrant_eq_some.mp hgrant
    obtain ⟨-, rfl⟩ := StreamEvent.frame.inj hframe'
    rw [grant_of_frame hnumbers, if_neg]
    rintro ⟨rfl, hpresent | htakes⟩
    · rw [Present, if_neg (by rw [hlocal]; exact Bool.false_ne_true)] at hpresent
      exact hpresent hstart
    · rcases htakes.1.2.2 with hpeer | hopen
      · exact absurd hpeer (Bool.eq_false_iff.mp hlocal)
      · exact hopen hstart

/-- The opening of a stream keeps the credit exact. -/
theorem grantInv_opened (hs : GrantInv bidiLocal g) {uni : Bool}
    (h : Endpoint.step mem g.endpoint (.streamOpen uni) = some g'.endpoint)
    (hgranted : g'.granted = g.granted) : GrantInv bidiLocal g' := by
  have hkeeps := (Endpoint.step_written h).keeps
  have hcredit := Endpoint.step_openCredit h
  have hpeer (i : ℕ) : g'.peerOpened i = g.peerOpened i := by
    rw [peerOpened, hkeeps.server, peerOpened]
  rcases Endpoint.step_open h with ⟨-, hstart, hopened⟩ | hsame
  · obtain ⟨hlocal, huni⟩ := QuicStreamTable.nextId_local g.endpoint.table uni
    set id := g.endpoint.table.nextId uni with hid
    have hsi (i : ℕ) : g'.si i = if i = id then
        openLocal g.endpoint.streams.peerParam uni (g.si id) else g.si i := by
      rw [si, hopened]
      change (g.endpoint.streams.updateSi id _).si i = _
      by_cases hi : i = id
      · rw [if_pos hi, hi, QuicStreams.updateSi_si]
        rfl
      · rw [if_neg hi, QuicStreams.updateSi_si_of_ne _ _ hi]
        rfl
    have hready : (g'.si id).sendState = .ready := by
      rw [hsi, if_pos rfl]
      cases uni with
      | false => exact sendState_recvOpen _
      | true => rfl
    have hfirst (i : ℕ) : g'.firstCredit bidiLocal i = g.firstCredit bidiLocal i := by
      rw [firstCredit, hpeer, hcredit, firstCredit]
    have hother {i : ℕ} (hi : i ≠ id) : g'.si i = g.si i := by rw [hsi, if_neg hi]
    have hnext {i : ℕ} (hwait : (g'.si i).sendState = .start) : i ≠ id := by
      rintro rfl
      rw [hready] at hwait
      cases hwait
    refine ⟨fun i hsends => ?_, fun i hi hwait => ?_, fun i hi hwait => ?_, fun i hsend => ?_⟩
    · rw [hfirst, hgranted]
      by_cases hi : i = id
      · rw [hi, hsi, if_pos rfl, (Endpoint.openLocal_credit uni _).2, hs.idle id hlocal hstart,
          Nat.max_zero, firstCredit, if_neg (by exact Bool.eq_false_iff.mp hlocal), huni]
      · rw [hother hi] at hsends ⊢
        exact hs.exact i hsends
    · rw [hpeer] at hi
      have hne := hnext hwait
      rw [hother hne] at hwait ⊢
      rw [hgranted]
      exact hs.waits i hi hwait
    · rw [hpeer] at hi
      have hne := hnext hwait
      rw [hother hne] at hwait
      rw [hgranted]
      exact hs.idle i hi hwait
    · rw [HasSending, hpeer]
      by_cases hi : i = id
      · rw [hi]
        exact hs.sending id (.inl hstart)
      · rw [hother hi] at hsend
        exact hs.sending i hsend
  · have hsi (i : ℕ) : g'.si i = g.si i := by
      rw [si, Endpoint.si, hsame]
      rfl
    refine hs.of_raised hkeeps.server hcredit (fun i => ?_) (fun i => ?_) (fun i _ => ⟨0, ?_, ?_⟩)
      (fun i _ _ => ?_) fun i hsends => .inl ?_
    · rw [hsi]
      exact fun h => h
    · rw [hsi]
      exact fun h => h
    · rw [hsi, Nat.max_zero]
    · rw [hgranted, Nat.max_zero]
    · rw [hgranted]
    · rwa [hsi] at hsends

/-- Every event whose comparisons agree keeps the credit exact. -/
theorem step_grantInv (hs : GrantInv bidiLocal g) (hok : g.KeepsGrant bidiLocal e)
    (h : step mem g e = some g') : GrantInv bidiLocal g' := by
  obtain ⟨t, ht, rfl⟩ := Option.map_eq_some_iff.mp h
  by_cases hopen : ∃ uni, e = .streamOpen uni
  · obtain ⟨uni, rfl⟩ := hopen
    exact grantInv_opened hs ht (grant_of_ne (e := .streamOpen uni) fun _ h => (by cases h))
  push Not at hopen
  have hkeeps := (Endpoint.step_written ht).keeps
  refine hs.of_raised hkeeps.server (Endpoint.step_openCredit ht)
    (fun i => Endpoint.step_maySend ht) (fun i hstart => ?_) (step_raise hs hok ht hopen)
    (fun i hlocal hstart => grant_of_idle i hlocal hstart) fun i hsends => ?_
  · by_contra hne
    exact hkeeps.send i hne hstart
  · rcases Endpoint.step_sends ht hopen hsends with hbefore | ⟨type, frame, rfl, htype, hready⟩
    · exact .inl hbefore
    · obtain ⟨hframe, hfound, hstart⟩ := hready
      have hpeer : g.peerOpened i = true := hfound.2.2.resolve_right fun hne => hne hstart
      have huni : unidirectional i = false := by
        have hsending := hs.sending i (.inl hstart)
        rw [HasSending, hpeer] at hsending
        exact Bool.eq_false_iff.mpr fun h => hsending ⟨rfl, h⟩
      exact .inr ⟨hpeer, hstart, hok.2 htype i hframe hpeer huni hfound hstart⟩

/-- A grant that finds its stream is accepted. -/
theorem grantAccepted_of_keeps (hok : g.KeepsGrant bidiLocal e) : g.GrantAccepted e := by
  rintro frame rfl id value hframe hpresent hsending
  have htakes := (hok.1 rfl id value hframe hsending).1 hpresent
  rcases maxStreamData_run g.endpoint.conn frame with ⟨-, -, -, -, haccepted, -⟩ | ⟨-, hnot, -⟩
  · exact haccepted
  · exact absurd htakes (hnot id value hframe)

/-- The credit is exact when the parameters were exchanged. -/
theorem grantInv_created {s : Endpoint} (hs : s.Created) : GrantInv bidiLocal ⟨s, fun _ => 0⟩ := by
  obtain ⟨own, peer, hstreams, -, -⟩ := hs
  have hsi (i : ℕ) : s.si i = quicStreamInstanceInit i s.streams.server := by
    rw [Endpoint.si, hstreams, createdStreams_eq]
    rfl
  have hsend (i : ℕ) : (s.si i).sendState =
      if quicStreamPeerOpened i s.streams.server && unidirectional i then .disable else .start := by
    rw [hsi]
    rfl
  refine ⟨fun i hsends => ?_, fun i _ _ => ?_, fun i _ _ => rfl, fun i hmay hnone => ?_⟩
  · change Sends (s.si i) at hsends
    unfold Sends at hsends
    rw [hsend] at hsends
    split at hsends <;> rcases hsends with h | h <;> cases h
  · change (s.si i).maxStreamData = 0
    rw [hsi]
    rfl
  · change MaySend (s.si i) at hmay
    change quicStreamPeerOpened i s.streams.server = true ∧ _ at hnone
    unfold MaySend Sends at hmay
    rw [hsend, hnone.1, hnone.2] at hmay
    rcases hmay with h | h | h <;> cases h

/-- While the credit is exact, an event that meets the condition is proper. -/
theorem grantProper_of_keeps (hs : GrantInv bidiLocal g) (hok : g.KeepsGrant bidiLocal e) :
    GrantProper bidiLocal mem g e :=
  ⟨hs.exact, grantAccepted_of_keeps hok, fun _ h => (step_grantInv hs hok h).exact⟩

/-- In every run whose events meet the condition, the credit of every stream that sends is exact
and no grant is refused that has a stream to send on. -/
theorem grantProper_along (mem : ℕ → Bool) (bidiLocal : ℕ) (s : Endpoint) (es : List StreamEvent)
    (hs : s.Created) (hok : Trace.Along (step mem) (KeepsGrant bidiLocal) ⟨s, fun _ => 0⟩ es) :
    Trace.Along (step mem) (GrantProper bidiLocal mem) ⟨s, fun _ => 0⟩ es :=
  hok.mono_of_invariant (GrantInv bidiLocal) (fun _ _ => grantProper_of_keeps)
    (fun _ _ _ => step_grantInv) (grantInv_created hs)

/-- A stream of the peer that gets its credit by a frame before its first data. -/
theorem grantProper_along_granted :
    Trace.Along (step fun _ => true) (GrantProper 4096 fun _ => true)
      ⟨Endpoint.created true Endpoint.ordinaryParams Endpoint.ordinaryParams, fun _ => 0⟩
      [.frame 0x11 (rPacketBufInit [0x04, 0x50, 0x00]),
        .frame 0x08 (rPacketBufInit [0x04, 0x61])] := by
  refine grantProper_along _ _ _ _ (Endpoint.created_created _ _ _) ⟨⟨fun _ => ?_, ?_⟩, ?_⟩
  · intro id value hframe _
    have hnumbers : frameNumbers 2 (rPacketBufInit [0x04, 0x50, 0x00]) = some [4, 4096] := by
      decide +kernel
    rw [hnumbers] at hframe
    cases hframe
    refine ⟨fun _ => ?_, fun _ _ => ?_⟩ <;> decide +kernel
  · exact fun htype => absurd htype (by decide)
  · refine fun g hg => ⟨⟨fun h => absurd h (by decide), fun _ id hframe _ _ _ _ => ?_⟩, ?_⟩
    · have hid : streamFrameId 0x08 (rPacketBufInit [0x04, 0x61]) = some 4 := by
        decide +kernel
      rw [hid] at hframe
      cases hframe
      have hcredit : (step (fun _ => true)
          ⟨Endpoint.created true Endpoint.ordinaryParams Endpoint.ordinaryParams, fun _ => 0⟩
          (.frame 0x11 (rPacketBufInit [0x04, 0x50, 0x00]))).map
            (fun g => (g.si 4).maxStreamData) = some 4096 := by
        decide +kernel
      rw [hg] at hcredit
      exact (Option.some.inj hcredit).ge
    · exact fun _ _ => Trace.along_nil

/-- The first data of a stream makes it send without the credit of its kind. -/
theorem stream_withoutCredit : ¬ Trace.Along (step fun _ => true) (GrantProper 4096 fun _ => true)
    ⟨Endpoint.created true Endpoint.ordinaryParams Endpoint.ordinaryParams, fun _ => 0⟩
    [.frame 0x08 (rPacketBufInit [0x04, 0x61])] := by
  rintro ⟨⟨-, -, hafter⟩, -⟩
  have hrun : (step (fun _ => true)
      ⟨Endpoint.created true Endpoint.ordinaryParams Endpoint.ordinaryParams, fun _ => 0⟩
      (.frame 0x08 (rPacketBufInit [0x04, 0x61]))).map (fun g => ((g.si 4).sendState,
        (g.si 4).maxStreamData, g.firstCredit 4096 4)) = some (.ready, 0, 4096) := by
    decide +kernel
  obtain ⟨g, hg, hfacts⟩ := Option.map_eq_some_iff.mp hrun
  obtain ⟨hready, hcredit⟩ := Prod.mk.inj hfacts
  obtain ⟨hzero, hfirst⟩ := Prod.mk.inj hcredit
  have hexact := hafter g hg 4 (.inl hready)
  rw [hzero, hfirst] at hexact
  exact absurd (le_max_left 4096 (g.granted 4)) (by rw [← hexact]; decide)

end Granted

end Tbquic
