import Tbquic.Frame.Moves

/-!
# What the frames write to a stream

The writes of a frame to the entry of one stream. Each is one assignment of the source, with the
checks that come before it.
-/

namespace Tbquic

/-- A write of the parser of a frame to the entry `si` of the stream `id`. -/
inductive EntryWrite (type : ℕ) (frame : RPacket) (server : Bool) (id : ℕ)
    (si : QuicStreamInstance) : QuicStreamInstance → Prop
  /-- The receiving part is opened. -/
  | recvOpen : EntryWrite type frame server id si (quicStreamInstanceRecvOpen si)
  /-- The receiving part is reset. -/
  | recvReset (code size : ℕ) (htype : type = 0x04)
      (hframe : frameNumbers 3 frame = some [id, code, size]) :
    EntryWrite type frame server id si (FrameState.recvReset si)
  /-- The sending part is disabled. -/
  | stopSending (htype : type = 0x05) (hframe : frameNumbers 1 frame = some [id])
      (hsend : ¬ (si.sendState = .start ∨ si.sendState = .disable)) :
    EntryWrite type frame server id si { si with sendState := .disable }
  /-- The sending part becomes ready. -/
  | sendReady (htype : StreamType type) (hframe : frameNumbers 1 frame = some [id])
      (hpeer : quicStreamPeerOpened id server = true ∨ si.sendState ≠ .start)
      (hrecv : si.recvState ≠ .disable) :
    EntryWrite type frame server id si (sendReady si)
  /-- The size becomes known. -/
  | recvFin (htype : StreamType type) (hframe : frameNumbers 1 frame = some [id]) :
    EntryWrite type frame server id si (recvFin (streamBitFin type) si)
  /-- Data is counted and queued. -/
  | data (recvd : ℕ) (queue : List QuicStreamData) (htype : StreamType type)
      (hrecv : si.recvState = .recv ∨ si.recvState = .sizeKnown) (sd : QuicStreamData)
      (hframe : (readStreamFrame type frame).1 = .ok (id, sd)) :
    EntryWrite type frame server id si { si with statBytes.recvd := recvd, queue }
  /-- All data has been received. -/
  | complete (htype : StreamType type) (hrecv : si.recvState = .recv ∨ si.recvState = .sizeKnown) :
    EntryWrite type frame server id si (recvComplete si)
  /-- The application is told of data. -/
  | notify (htype : StreamType type) :
    EntryWrite type frame server id si { si with notified := true }
  /-- The limit on the bytes sent is raised. -/
  | maxStreamData (value : ℕ) (htype : type = 0x11)
      (hframe : frameNumbers 2 frame = some [id, value]) :
    EntryWrite type frame server id si
      (if quicLt si.maxStreamData value then { si with maxStreamData := value } else si)
  /-- A buffer of the stream is acknowledged. -/
  | acked (flags : ℕ) (htype : type = quicFrameTypeAck) :
    EntryWrite type frame server id si (streamFlagsAcked flags si)

/-- Some writes to an entry in a row. -/
def EntryWrites (type : ℕ) (frame : RPacket) (server : Bool) (id : ℕ) :
    QuicStreamInstance → QuicStreamInstance → Prop :=
  Relation.ReflTransGen (EntryWrite type frame server id)

section Entries

variable {type : ℕ} {frame : RPacket} {server : Bool} {id i : ℕ} {q t : QuicStreams}
  {si si' : QuicStreamInstance}

/-- What every write to an entry preserves is preserved by some in a row. -/
theorem EntryWrites.preserves {R : QuicStreamInstance → QuicStreamInstance → Prop}
    (hrefl : ∀ si, R si si) (htrans : ∀ a b c, R a b → R b c → R a c)
    (hwrite : ∀ a b, EntryWrite type frame server id a b → R a b)
    (h : EntryWrites type frame server id si si') : R si si' := by
  induction h with
  | refl => exact hrefl si
  | tail _ hlast ih => exact htrans _ _ _ ih (hwrite _ _ hlast)

/-- The entries of one table are written to those of another. -/
def EntriesWritten (type : ℕ) (frame : RPacket) (q t : QuicStreams) : Prop :=
  ∀ id, EntryWrites type frame q.server id (q.si id) (t.si id)

/-- Nothing is written. -/
theorem EntriesWritten.refl (q : QuicStreams) : EntriesWritten type frame q q := fun _ =>
  Relation.ReflTransGen.refl

/-- One entry is written. -/
theorem entriesWritten_updateSi {f : QuicStreamInstance → QuicStreamInstance}
    (hf : EntryWrites type frame q.server id (q.si id) (f (q.si id))) :
    EntriesWritten type frame q (q.updateSi id f) := by
  intro i
  by_cases hi : i = id
  · subst hi
    rwa [QuicStreams.updateSi_si]
  · rw [QuicStreams.updateSi_si_of_ne q f hi]
    exact Relation.ReflTransGen.refl

/-- Writes follow one another. -/
theorem EntriesWritten.trans {u : QuicStreams} (hserver : t.server = q.server)
    (h : EntriesWritten type frame q t) (h' : EntriesWritten type frame t u) :
    EntriesWritten type frame q u := by
  intro i
  have hi := h' i
  rw [hserver] at hi
  exact (h i).trans hi

/-- The entry of a stream behind the opening of streams. -/
theorem opened_si_eq (q : QuicStreams) (id i : ℕ) : (q.opened id).si i =
    if q.conf.maxIdOpened < i ∧ i ≤ id then quicStreamInstanceRecvOpen (q.si i) else q.si i := by
  unfold QuicStreams.opened
  by_cases h : q.conf.maxIdOpened < id
  · rw [if_pos h]
    rfl
  · rw [if_neg h, if_neg fun hi => h (hi.1.trans_le hi.2)]

/-- Streams are opened. -/
theorem entriesWritten_opened : EntriesWritten type frame q (q.opened id) := by
  intro i
  rw [opened_si_eq]
  split_ifs
  · exact Relation.ReflTransGen.single EntryWrite.recvOpen
  · exact Relation.ReflTransGen.refl

/-- An accepted count changes the numbers of bytes received. -/
theorem quicStreamRecvFlowCtrl_si {len : ℕ} (h : quicStreamRecvFlowCtrl q id len = some t) :
    t.si id = { q.si id with statBytes.recvd := q.recvd id len } ∧
      ∀ i, i ≠ id → t.si i = q.si i := by
  unfold quicStreamRecvFlowCtrl at h
  split at h
  · cases h
    have hid := q.updateSi_si id fun si => { si with statBytes.recvd := q.recvd id len }
    have hother (i : ℕ) (hi : i ≠ id) :=
      q.updateSi_si_of_ne (fun si => { si with statBytes.recvd := q.recvd id len }) hi
    exact ⟨hid, hother⟩
  · cases h

/-- Adding data counts and queues it, and may complete the stream. -/
theorem quicStreamDataAdd_entries (q : QuicStreams) (id : ℕ) (sd : QuicStreamData) :
    (∀ i, i ≠ id → (quicStreamDataAdd q id sd).si i = q.si i) ∧
      ((quicStreamDataAdd q id sd).si id = q.si id ∨ ∃ recvd queue,
        (quicStreamDataAdd q id sd).si id = { q.si id with statBytes.recvd := recvd, queue } ∨
        (quicStreamDataAdd q id sd).si id =
          recvComplete { q.si id with statBytes.recvd := recvd, queue }) := by
  unfold quicStreamDataAdd quicStreamDataAddOfo
  split
  · exact ⟨fun _ _ => rfl, .inl rfl⟩
  · split
    · split
      · exact ⟨fun _ _ => rfl, .inl rfl⟩
      · rename_i t ht
        obtain ⟨hid, hother⟩ := quicStreamRecvFlowCtrl_si ht
        refine ⟨fun i hi => ?_, .inr ⟨q.recvd id sd.len, (q.si id).queue ++ [sd], .inl ?_⟩⟩
        · rw [QuicStreams.push, QuicStreams.updateSi_si_of_ne _ _ hi, hother i hi]
        · rw [QuicStreams.push_si, hid]
    · split
      · exact ⟨fun _ _ => rfl, .inl rfl⟩
      · rename_i t ht
        obtain ⟨hid, hother⟩ := quicStreamRecvFlowCtrl_si ht
        refine ⟨fun i hi => ?_, .inr ⟨q.recvd id (q.trimmed id sd).len,
          (q.si id).queue ++ [q.trimmed id sd], .inr ?_⟩⟩
        · rw [QuicStreams.updateSi_si_of_ne _ _ hi, QuicStreams.push,
            QuicStreams.updateSi_si_of_ne _ _ hi, hother i hi]
        · rw [QuicStreams.updateSi_si, QuicStreams.push_si, hid]

/-- An acknowledged buffer writes to its stream. -/
theorem entriesWritten_ackEffect (htype : type = quicFrameTypeAck) (qb : QBuff) :
    EntriesWritten type frame q (ackEffect q qb) := by
  unfold ackEffect qBufStreamFlagsProc
  split
  · exact EntriesWritten.refl q
  · rename_i hneg
    obtain ⟨id, hid⟩ := Int.eq_ofNat_of_zero_le (not_lt.mp hneg)
    rw [hid]
    by_cases hfound : q.Found id
    · rw [quicStreamGetInstance_of_found hfound]
      refine entriesWritten_opened.trans (@QuicStreams.keeps_opened q id).server ?_
      exact entriesWritten_updateSi (Relation.ReflTransGen.single (EntryWrite.acked _ htype))
    · rw [quicStreamGetInstance_of_not_found hfound]
      exact EntriesWritten.refl q

/-- An acknowledged buffer keeps the streams. -/
theorem keeps_ackEffect (qb : QBuff) : q.Keeps (ackEffect q qb) :=
  QuicStreams.keeps_flagsProc qb.streamId qb.flags

/-- Acknowledged buffers write to their streams. -/
theorem entriesWritten_acked (htype : type = quicFrameTypeAck) (qbs : List QBuff) :
    EntriesWritten type frame q (qbs.foldl ackEffect q) := by
  induction qbs generalizing q with
  | nil => exact EntriesWritten.refl q
  | cons qb qbs ih =>
    exact (entriesWritten_ackEffect htype qb).trans (keeps_ackEffect qb).server ih

/-- A write of a frame writes to the entries. -/
theorem FrameMove.entriesWritten {c d : FrameConn} (h : FrameMove type frame c d) :
    EntriesWritten type frame c.streams d.streams := by
  have hone (id : ℕ) (f : QuicStreamInstance → QuicStreamInstance)
      (hf : EntryWrite type frame c.streams.server id (c.streams.si id) (f (c.streams.si id))) :
      EntriesWritten type frame c.streams (c.streams.updateSi id f) :=
    entriesWritten_updateSi (Relation.ReflTransGen.single hf)
  cases h with
  | find => exact entriesWritten_opened
  | recvReset id code size found htype hframe => exact hone id _ (.recvReset code size htype hframe)
  | stopSending id found htype hframe hsend =>
    exact hone id (fun si => { si with sendState := .disable }) (.stopSending htype hframe hsend)
  | recvOpen id => exact hone id _ .recvOpen
  | sendReady id found htype hframe _ hrecv =>
    exact hone id _ (.sendReady htype hframe found.2.2 hrecv)
  | recvFin id found htype hframe => exact hone id _ (.recvFin htype hframe)
  | dataAdd id sd found htype hframe hrecv =>
    obtain ⟨hother, hid⟩ := quicStreamDataAdd_entries c.streams id sd
    intro i
    by_cases hi : i = id
    · subst hi
      rcases hid with hid | ⟨recvd, queue, hid | hid⟩ <;> rw [hid]
      · exact Relation.ReflTransGen.refl
      · exact Relation.ReflTransGen.single (.data recvd queue htype hrecv sd hframe)
      · refine Relation.ReflTransGen.tail
          (Relation.ReflTransGen.single (.data recvd queue htype hrecv sd hframe)) ?_
        exact EntryWrite.complete htype hrecv
    · rw [hother i hi]
      exact Relation.ReflTransGen.refl
  | notify id found htype =>
    unfold QuicStreams.notify
    split
    · exact EntriesWritten.refl _
    · have hnotify := hone id (fun si => { si with notified := true }) (.notify htype)
      exact hnotify
  | limit => exact EntriesWritten.refl _
  | maxStreamData id value found htype hframe =>
    exact hone id (fun si => if quicLt si.maxStreamData value then
      { si with maxStreamData := value } else si) (.maxStreamData value htype hframe)
  | raise | aside | draining | handshakeDone => exact EntriesWritten.refl _
  | acked p htype => exact entriesWritten_acked htype _

/-- The writes of a frame write to the entries, and keep the streams. -/
theorem FrameMoves.entriesWritten {c d : FrameConn} (h : FrameMoves type frame c d) :
    EntriesWritten type frame c.streams d.streams ∧ c.streams.Keeps d.streams := by
  refine FrameMoves.preserves (R := fun c d => EntriesWritten type frame c.streams d.streams ∧
    c.streams.Keeps d.streams) (fun c => ⟨.refl _, .refl _⟩) ?_ ?_ h
  · exact fun _ _ _ h h' => ⟨h.1.trans h.2.server h'.1, h.2.trans h'.2⟩
  · exact fun _ _ hmove => ⟨hmove.entriesWritten, hmove.keeps⟩

end Entries

/-- What was opened stays open, and the mark of the opened streams passes no unopened one. -/
structure QuicStreams.Opens (q t : QuicStreams) : Prop where
  /-- No receiving part goes back to the start. -/
  recv (id : ℕ) : (q.si id).recvState ≠ .start → (t.si id).recvState ≠ .start
  /-- The largest stream opened does not shrink. -/
  mark : q.conf.maxIdOpened ≤ t.conf.maxIdOpened
  /-- The streams that it passes are open. -/
  passed (id : ℕ) : q.conf.maxIdOpened < id → id ≤ t.conf.maxIdOpened →
    (t.si id).recvState ≠ .start

namespace QuicStreams.Opens

variable {q t u : QuicStreams} {id : ℕ}

theorem refl (q : QuicStreams) : q.Opens q :=
  ⟨fun _ h => h, le_refl _, fun _ hlt hle => absurd hle (not_le.mpr hlt)⟩

theorem trans (h : q.Opens t) (h' : t.Opens u) : q.Opens u where
  recv i hi := h'.recv i (h.recv i hi)
  mark := h.mark.trans h'.mark
  passed i hlt hle := by
    by_cases hi : i ≤ t.conf.maxIdOpened
    · exact h'.recv i (h.passed i hlt hi)
    · exact h'.passed i (not_le.mp hi) hle

/-- The mark stays. -/
theorem of_mark (hmark : t.conf.maxIdOpened = q.conf.maxIdOpened)
    (hrecv : ∀ i, (q.si i).recvState ≠ .start → (t.si i).recvState ≠ .start) : q.Opens t :=
  ⟨hrecv, hmark.ge, fun _ hlt hle => absurd (hle.trans hmark.le) (not_le.mpr hlt)⟩

/-- One entry is changed. -/
theorem updateSi {f : QuicStreamInstance → QuicStreamInstance}
    (hf : (q.si id).recvState ≠ .start → (f (q.si id)).recvState ≠ .start) :
    q.Opens (q.updateSi id f) := by
  refine .of_mark rfl fun i hi => ?_
  by_cases heq : i = id
  · subst heq
    rw [QuicStreams.updateSi_si]
    exact hf hi
  · rwa [QuicStreams.updateSi_si_of_ne _ _ heq]

/-- An opened receiving part has left the start. -/
theorem recvOpen_ne_start (si : QuicStreamInstance) :
    (quicStreamInstanceRecvOpen si).recvState ≠ .start := by
  unfold quicStreamInstanceRecvOpen
  split
  · exact fun h => (by cases h)
  · assumption

/-- Streams are opened. -/
theorem opened : q.Opens (q.opened id) where
  recv i hi := by
    rw [opened_si_eq]
    split
    · exact recvOpen_ne_start _
    · exact hi
  mark := by
    unfold QuicStreams.opened
    split
    · rename_i h
      exact h.le
    · exact le_refl _
  passed i hlt hle := by
    have hi : i ≤ id := by
      unfold QuicStreams.opened at hle
      split at hle
      · exact hle
      · exact absurd hle (not_le.mpr hlt)
    rw [opened_si_eq, if_pos ⟨hlt, hi⟩]
    exact recvOpen_ne_start _

end QuicStreams.Opens

section Opens

variable {type : ℕ} {frame : RPacket} {server : Bool} {id : ℕ} {si si' : QuicStreamInstance}
  {q : QuicStreams} {c d : FrameConn}

/-- An acknowledgement leaves the receiving part. -/
theorem streamFlagsAcked_recvState (flags : ℕ) (si : QuicStreamInstance) :
    (streamFlagsAcked flags si).recvState = si.recvState := by
  unfold streamFlagsAcked
  dsimp only
  split_ifs <;> rfl

/-- A write of a frame does not send a receiving part back to the start. -/
theorem EntryWrite.leavesStart (h : EntryWrite type frame server id si si')
    (hsi : si.recvState ≠ .start) : si'.recvState ≠ .start := by
  cases h with
  | recvOpen => exact QuicStreams.Opens.recvOpen_ne_start si
  | recvReset =>
    unfold FrameState.recvReset
    split
    · exact fun h => (by cases h)
    · exact hsi
  | stopSending | data | notify => exact hsi
  | sendReady =>
    unfold Tbquic.sendReady
    split <;> exact hsi
  | recvFin =>
    unfold Tbquic.recvFin
    split
    · exact fun h => (by cases h)
    · exact hsi
  | complete =>
    unfold recvComplete
    split
    · exact fun h => (by cases h)
    · exact hsi
  | maxStreamData value => split <;> exact hsi
  | acked flags => rwa [streamFlagsAcked_recvState]

/-- Adding data leaves the mark. -/
theorem quicStreamDataAdd_mark (sd : QuicStreamData) :
    (quicStreamDataAdd q id sd).conf.maxIdOpened = q.conf.maxIdOpened := by
  have hctrl {len : ℕ} {t : QuicStreams} (h : quicStreamRecvFlowCtrl q id len = some t) :
      t.conf.maxIdOpened = q.conf.maxIdOpened := by
    unfold quicStreamRecvFlowCtrl at h
    split at h
    · cases h
      rfl
    · cases h
  unfold quicStreamDataAdd quicStreamDataAddOfo
  split
  · rfl
  · split <;> split
    · rfl
    · rename_i hcount
      have ht := hctrl hcount
      exact ht
    · rfl
    · rename_i hcount
      have ht := hctrl hcount
      exact ht

/-- An acknowledged buffer opens streams. -/
theorem opens_ackEffect (qb : QBuff) : q.Opens (ackEffect q qb) := by
  unfold ackEffect qBufStreamFlagsProc
  split
  · exact .refl q
  · rename_i hneg
    obtain ⟨id, hid⟩ := Int.eq_ofNat_of_zero_le (not_lt.mp hneg)
    rw [hid]
    by_cases hfound : q.Found id
    · rw [quicStreamGetInstance_of_found hfound]
      refine QuicStreams.Opens.opened.trans (.updateSi fun hi => ?_)
      rwa [streamFlagsAcked_recvState]
    · rw [quicStreamGetInstance_of_not_found hfound]
      exact .refl q

/-- A write of a frame opens streams. -/
theorem FrameMove.opens (h : FrameMove type frame c d) : c.streams.Opens d.streams := by
  have hrecv (i : ℕ) (hi : (c.streams.si i).recvState ≠ .start) :
      (d.streams.si i).recvState ≠ .start :=
    (h.entriesWritten i).preserves
      (R := fun si si' => si.recvState ≠ .start → si'.recvState ≠ .start)
      (fun _ h => h) (fun _ _ _ h h' hsi => h' (h hsi)) (fun _ _ h => h.leavesStart) hi
  cases h with
  | find => exact .opened
  | recvReset | stopSending | recvOpen | sendReady | recvFin | maxStreamData =>
    exact .of_mark rfl hrecv
  | dataAdd => exact .of_mark (quicStreamDataAdd_mark _) hrecv
  | notify =>
    refine .of_mark ?_ hrecv
    unfold QuicStreams.notify
    split <;> rfl
  | limit | raise | aside | draining | handshakeDone => exact .of_mark rfl hrecv
  | acked p =>
    have hacked (qbs : List QBuff) (q : QuicStreams) : q.Opens (qbs.foldl ackEffect q) := by
      induction qbs generalizing q with
      | nil => exact .refl q
      | cons qb qbs ih => exact (opens_ackEffect qb).trans (ih _)
    exact hacked _ _

/-- The writes of a frame open streams. -/
theorem FrameMoves.opens (h : FrameMoves type frame c d) : c.streams.Opens d.streams :=
  h.preserves (R := fun c d => c.streams.Opens d.streams) (fun _ => .refl _)
    (fun _ _ _ h h' => h.trans h') fun _ _ h => h.opens

end Opens

section Limits

variable {type : ℕ} {frame : RPacket} {q : QuicStreams} {id : ℕ} {c d : FrameConn}

/-- Opening streams leaves the counts of the connection and the parameters of the peer. -/
theorem opened_limits : (q.opened id).conf.statAll = q.conf.statAll ∧
    (q.opened id).peerParam = q.peerParam := by
  unfold QuicStreams.opened
  split <;> exact ⟨rfl, rfl⟩

/-- An acknowledged buffer leaves them. -/
theorem ackEffect_limits (qb : QBuff) : (ackEffect q qb).conf.statAll = q.conf.statAll ∧
    (ackEffect q qb).peerParam = q.peerParam := by
  unfold ackEffect qBufStreamFlagsProc
  split
  · exact ⟨rfl, rfl⟩
  · rename_i hneg
    obtain ⟨id, hid⟩ := Int.eq_ofNat_of_zero_le (not_lt.mp hneg)
    rw [hid]
    by_cases hfound : q.Found id
    · rw [quicStreamGetInstance_of_found hfound]
      exact @opened_limits q id
    · rw [quicStreamGetInstance_of_not_found hfound]
      exact ⟨rfl, rfl⟩

/-- Acknowledged buffers leave the counts of the connection. -/
theorem acked_statAll (qbs : List QBuff) (q : QuicStreams) :
    (qbs.foldl ackEffect q).conf.statAll = q.conf.statAll := by
  induction qbs generalizing q with
  | nil => rfl
  | cons qb qbs ih => exact (ih _).trans (ackEffect_limits qb).1

/-- Adding data leaves the number of bytes sent and the parameters of the peer. -/
theorem quicStreamDataAdd_limits (sd : QuicStreamData) :
    (quicStreamDataAdd q id sd).conf.statAll.sent = q.conf.statAll.sent ∧
      (quicStreamDataAdd q id sd).peerParam = q.peerParam := by
  have hctrl {len : ℕ} {t : QuicStreams} (h : quicStreamRecvFlowCtrl q id len = some t) :
      t.conf.statAll.sent = q.conf.statAll.sent ∧ t.peerParam = q.peerParam := by
    unfold quicStreamRecvFlowCtrl at h
    split at h
    · cases h
      exact ⟨rfl, rfl⟩
    · cases h
  unfold quicStreamDataAdd quicStreamDataAddOfo
  split
  · exact ⟨rfl, rfl⟩
  · split <;> split
    · exact ⟨rfl, rfl⟩
    · rename_i hcount
      have ht := hctrl hcount
      exact ht
    · exact ⟨rfl, rfl⟩
    · rename_i hcount
      have ht := hctrl hcount
      exact ht

/-- Only a STREAM frame that can be read changes the number of bytes received. -/
theorem FrameMove.statAll_recvd (h : FrameMove type frame c d)
    (hread : StreamType type → ∀ id sd, (readStreamFrame type frame).1 ≠ .ok (id, sd)) :
    d.streams.conf.statAll.recvd = c.streams.conf.statAll.recvd := by
  cases h with
  | find => rw [opened_limits.1]
  | recvReset | stopSending | recvOpen | sendReady | recvFin | maxStreamData => rfl
  | dataAdd id sd _ htype hframe => exact absurd hframe (hread htype id sd)
  | notify =>
    unfold QuicStreams.notify
    split <;> rfl
  | limit | raise | aside | draining | handshakeDone => rfl
  | acked p => exact congrArg QuicDataStat.recvd (acked_statAll _ _)

/-- No frame changes the number of bytes sent. -/
theorem FrameMove.statAll_sent (h : FrameMove type frame c d) :
    d.streams.conf.statAll.sent = c.streams.conf.statAll.sent := by
  cases h with
  | find => rw [opened_limits.1]
  | recvReset | stopSending | recvOpen | sendReady | recvFin | maxStreamData => rfl
  | dataAdd => exact (quicStreamDataAdd_limits _).1
  | notify =>
    unfold QuicStreams.notify
    split <;> rfl
  | limit | raise | aside | draining | handshakeDone => rfl
  | acked p => exact congrArg QuicDataStat.sent (acked_statAll _ _)

/-- A frame of another type leaves the parameters of the peer. -/
theorem FrameMove.peerParam (h : FrameMove type frame c d)
    (htype : ∀ k : LimitKind, type ≠ k.frameType) :
    d.streams.peerParam = c.streams.peerParam := by
  cases h with
  | find => rw [opened_limits.2]
  | recvReset | stopSending | recvOpen | sendReady | recvFin | maxStreamData => rfl
  | dataAdd => exact (quicStreamDataAdd_limits _).2
  | notify =>
    unfold QuicStreams.notify
    split <;> rfl
  | limit k _ hk => exact absurd hk (htype k)
  | raise | aside | draining | handshakeDone => rfl
  | acked p =>
    have hacked (qbs : List QBuff) (q : QuicStreams) :
        (qbs.foldl ackEffect q).peerParam = q.peerParam := by
      induction qbs generalizing q with
      | nil => rfl
      | cons qb qbs ih => exact (ih _).trans (ackEffect_limits qb).2
    exact hacked _ _

/-- No frame changes the number of bytes sent. -/
theorem FrameMoves.statAll_sent (h : FrameMoves type frame c d) :
    d.streams.conf.statAll.sent = c.streams.conf.statAll.sent :=
  h.preserves (R := fun c d => d.streams.conf.statAll.sent = c.streams.conf.statAll.sent)
    (fun _ => rfl) (fun _ _ _ h h' => h'.trans h) fun _ _ h => h.statAll_sent

/-- Only a STREAM frame that can be read changes the number of bytes received. -/
theorem FrameMoves.statAll_recvd (h : FrameMoves type frame c d)
    (hread : StreamType type → ∀ id sd, (readStreamFrame type frame).1 ≠ .ok (id, sd)) :
    d.streams.conf.statAll.recvd = c.streams.conf.statAll.recvd :=
  h.preserves (R := fun c d => d.streams.conf.statAll.recvd = c.streams.conf.statAll.recvd)
    (fun _ => rfl) (fun _ _ _ h h' => h'.trans h) fun _ _ h => h.statAll_recvd hread

/-- A frame of another type leaves the parameters of the peer. -/
theorem FrameMoves.peerParam (h : FrameMoves type frame c d)
    (htype : ∀ k : LimitKind, type ≠ k.frameType) :
    d.streams.peerParam = c.streams.peerParam :=
  h.preserves (R := fun c d => d.streams.peerParam = c.streams.peerParam)
    (fun _ => rfl) (fun _ _ _ h h' => h'.trans h) fun _ _ h => h.peerParam htype

end Limits

end Tbquic
