import Mathlib.Tactic.IntervalCases
import Tbquic.Frame.AckSent
import Tbquic.Frame.Connection
import Tbquic.Frame.StreamParser

/-!
# Rejected frames

A parser that rejects a frame should leave the connection as it was. Several parsers change the
connection before they have read the frame to its end, so it is shown for every type exactly
which frames are rejected without a trace.
-/

namespace Tbquic

/-- A connection is as before, apart from the buffer of the handshake. -/
def FrameConn.Same (c d : FrameConn) : Prop := { d with buffer := c.buffer } = c

/-- A run on a connection that changes nothing when it is rejected, and releases no memory that
was never allocated. -/
structure Atomic {α : Type} (c : FrameConn) (run : Except Fail α × FrameState) : Prop where
  /-- An error leaves the connection as it was. -/
  unchanged : run.1 = .error .ret → c.Same run.2.conn
  /-- Only allocated memory is released. -/
  released : run.2.badFree = false

/-- The bytes of a packet end before what is read. -/
def CutShort {α : Type} (read : Prog Fail RPacket α) (pkt : RPacket) : Prop :=
  (read pkt).1 = .error .ret

section Conditions

variable (mem : ℕ → Bool) (type : ℕ) (c : FrameConn) (pkt : RPacket)

/-- An ACK frame that is cut short or has a bound with a negative sign does not raise
`largest_acked`, and no range in front takes a packet, unless a null pointer is followed first. -/
def AckWhole : Prop :=
  ∀ largest pkt', quicVariableLengthDecode pkt = (.ok largest, pkt') →
    (readAckBody largest pkt').result = .error .ret →
    Sweep.Unstopped ((readAckBody largest pkt').calls.map ackSweep) c.sentQueue.reverse →
    (quicGe largest c.largestAcked → largest = c.largestAcked) ∧
      Sweep.takenBy ((readAckBody largest pkt').calls.map ackSweep) c.sentQueue.reverse = []

/-- A STOP_SENDING frame finds a stream that can send and has its error code, or it opens no
stream. -/
def StopSendingWhole : Prop :=
  ∀ h pkt', quicVariableLengthDecode pkt = (.ok h, pkt') → c.streams.Found h →
    if (c.streams.si h).sendState = .start ∨ (c.streams.si h).sendState = .disable then
      h ≤ c.streams.conf.maxIdOpened
    else ¬ CutShort quicVariableLengthDecode pkt'

/-- A NEW_TOKEN frame for a client has its token, or there is no memory for it and there was no
token before. -/
def NewTokenWhole : Prop :=
  c.streams.server = false → ∀ len pkt', quicVariableLengthDecode pkt = (.ok len, pkt') →
    if mem len = true then ¬ CutShort (rPacketGetBytes len) pkt' else c.token = none

/-- A STREAM frame that is rejected behind its numbers opens no stream and changes none: its stream
does not receive, its data is cut short, or there is no memory for its data. -/
def StreamWhole : Prop :=
  ∀ h pkt₁, quicVariableLengthDecode pkt = (.ok h, pkt₁) →
    ∀ offset pkt₂, quicFrameStreamOffset type pkt₁ = (.ok offset, pkt₂) →
    ∀ len pkt₃, quicFrameStreamLen type pkt₂ = (.ok len, pkt₃) → c.streams.Found h →
    ((c.streams.si h).recvState = .disable → h ≤ c.streams.conf.maxIdOpened) ∧
    ((c.streams.si h).recvState ≠ .disable →
      CutShort (rPacketGetBytes len) pkt₃ ∨
        (∃ data pkt₄, rPacketGetBytes len pkt₃ = (.ok data, pkt₄)) ∧ c.buf = false ∧
          (c.streams.si h).recvState ∈ [StreamState.start, .recv, .sizeKnown] →
      h ≤ c.streams.conf.maxIdOpened ∧ (c.streams.si h).sendState ≠ .start ∧
        ¬ (streamBitFin type = true ∧ (c.streams.si h).recvState = .recv) ∧
        (¬ CutShort (rPacketGetBytes len) pkt₃ → (c.streams.si h).recvState ≠ .start))

/-- A frame with a limit of a stream opens no stream, or the stream receives and the limit is
there. -/
def StreamLimitWhole : Prop :=
  ∀ h pkt', quicVariableLengthDecode pkt = (.ok h, pkt') → c.streams.Found h →
    c.streams.conf.maxIdOpened < h →
    (c.streams.si h).recvState ≠ .disable ∧ ¬ CutShort quicVariableLengthDecode pkt'

/-- A NEW_CONNECTION_ID frame that is rejected behind its numbers retires nothing, and its
connection ID is there. -/
def NewConnIdWhole : Prop :=
  ∀ seq pkt₁, quicVariableLengthDecode pkt = (.ok seq, pkt₁) →
    ∀ retirePriorTo pkt₂, quicVariableLengthDecode pkt₁ = (.ok retirePriorTo, pkt₂) →
    ∀ len pkt₃, quicVariableLengthDecode pkt₂ = (.ok len, pkt₃) → c.dcidLen ≠ 0 →
    if quicGe (c.cidPool.retirePriorTo retirePriorTo).num c.activeConnLimit ∨ mem len = false then
      c.cidPool.prior retirePriorTo = []
    else ¬ CutShort (rPacketGetBytes len) pkt₃ ∧
      ∀ id pkt₄, rPacketGetBytes len pkt₃ = (.ok id, pkt₄) →
        CutShort (rPacketGetBytes quicStatelessResetTokenLen) pkt₄ →
        c.cidPool.prior retirePriorTo = []

/-- The frames that leave no trace when they are rejected. Types without a field always do. -/
@[mk_iff]
structure FrameWhole : Prop where
  /-- ACK. -/
  ack : type = 0x02 → AckWhole c pkt
  /-- STOP_SENDING. -/
  stopSending : type = 0x05 → StopSendingWhole c pkt
  /-- NEW_TOKEN. -/
  newToken : type = 0x07 → NewTokenWhole mem c pkt
  /-- STREAM. -/
  stream : 0x08 ≤ type → type ≤ 0x0f → StreamWhole type c pkt
  /-- MAX_STREAM_DATA and STREAM_DATA_BLOCKED. -/
  streamLimit : type = 0x11 ∨ type = 0x15 → StreamLimitWhole c pkt
  /-- NEW_CONNECTION_ID. -/
  newConnId : type = 0x18 → NewConnIdWhole mem c pkt

end Conditions

section Same

variable {c d : FrameConn}

/-- Nothing changed. -/
theorem FrameConn.Same.refl (c : FrameConn) : c.Same c := rfl

/-- Changes of the streams alone. -/
theorem FrameConn.same_streams {q : QuicStreams} :
    c.Same { c with streams := q } ↔ q = c.streams := by
  constructor
  · intro h
    exact congrArg FrameConn.streams h
  · rintro rfl
    exact Same.refl c

/-- Changes of the token alone. -/
theorem FrameConn.same_token {token : Option (List UInt8)} :
    c.Same { c with token } ↔ token = c.token := by
  constructor
  · intro h
    exact congrArg FrameConn.token h
  · rintro rfl
    exact Same.refl c

/-- Connection IDs that are retired leave the pool. -/
theorem FrameConn.same_retirePriorTo {priorTo : ℕ} :
    c.Same { c with cidPool := c.cidPool.retirePriorTo priorTo } ↔
      c.cidPool.prior priorTo = [] := by
  constructor
  · intro h
    have hqueue := congrArg (fun d : FrameConn => d.cidPool.queue) h
    have hsplit : c.cidPool.prior priorTo ++ (c.cidPool.retirePriorTo priorTo).queue =
        c.cidPool.queue := List.takeWhile_append_dropWhile
    rw [show (c.cidPool.retirePriorTo priorTo).queue = c.cidPool.queue from hqueue] at hsplit
    exact List.append_left_eq_self.mp hsplit
  · intro h
    have hsplit : c.cidPool.prior priorTo ++ (c.cidPool.retirePriorTo priorTo).queue =
        c.cidPool.queue := List.takeWhile_append_dropWhile
    rw [h, List.nil_append] at hsplit
    have hpool : c.cidPool.retirePriorTo priorTo = c.cidPool := by
      unfold QuicCidPool.retirePriorTo at hsplit ⊢
      rw [show c.cidPool.queue.dropWhile _ = c.cidPool.queue from hsplit, h, List.length_nil,
        Nat.cast_zero, sub_zero]
    rw [hpool]
    exact Same.refl c

/-- Changes of one entry after another. -/
theorem QuicStreams.updateSi_updateSi (q : QuicStreams) (id : ℕ)
    (f g : QuicStreamInstance → QuicStreamInstance) :
    (q.updateSi id f).updateSi id g = q.updateSi id fun si => g (f si) := by
  simp [updateSi, setSi, si]

/-- An opened and changed stream is as before when it was open and the change does nothing. -/
theorem QuicStreams.opened_updateSi_eq {q : QuicStreams} {id : ℕ}
    {f : QuicStreamInstance → QuicStreamInstance} :
    (q.opened id).updateSi id f = q ↔ id ≤ q.conf.maxIdOpened ∧ f (q.si id) = q.si id := by
  constructor
  · intro h
    have hmax := congrArg (fun q : QuicStreams => q.conf.maxIdOpened) h
    change (q.opened id).conf.maxIdOpened = q.conf.maxIdOpened at hmax
    have hopen : id ≤ q.conf.maxIdOpened := by
      unfold opened at hmax
      split_ifs at hmax with hlt
      · exact hmax.le
      · exact not_lt.mp hlt
    refine ⟨hopen, ?_⟩
    have hsi := congrArg (fun q : QuicStreams => q.si id) h
    change ((q.opened id).updateSi id f).si id = q.si id at hsi
    rwa [updateSi_si, opened_si, if_neg (not_lt.mpr hopen)] at hsi
  · rintro ⟨hopen, hsi⟩
    rw [opened, if_neg (not_lt.mpr hopen), updateSi, hsi, setSi, si, Function.update_eq_self]

/-- A stream that was open is found without a change. -/
theorem QuicStreams.opened_eq {q : QuicStreams} {id : ℕ} :
    q.opened id = q ↔ id ≤ q.conf.maxIdOpened := by
  have h := @QuicStreams.opened_updateSi_eq q id fun si => si
  rw [updateSi, setSi, si, Function.update_eq_self] at h
  rw [h]
  exact and_iff_left rfl

end Same

namespace FrameState

variable {α β : Type} {c : FrameConn} {s : FrameState}

/-- A result is no error. -/
theorem atomic_ok {a : α} (h : s.badFree = false) : Atomic c (Except.ok (ε := Fail) a, s) := by
  constructor
  · intro h
    cases h
  · exact h

/-- An error leaves no trace when nothing changed. -/
theorem atomic_error (h : s.badFree = false) :
    Atomic c ((.error .ret, s) : Except Fail α × FrameState) ↔ c.Same s.conn := by
  constructor
  · intro h
    exact h.unchanged rfl
  · intro hsame
    exact ⟨fun _ => hsame, h⟩

/-- What is read from the packet first. -/
theorem atomic_zoom_bind {read : Prog Fail RPacket α} {k : α → Prog Fail FrameState β}
    (h : s.badFree = false) :
    Atomic c ((Prog.zoom FrameState.pkt (fun pkt s => { s with pkt }) read >>= k) s) ↔
      (∀ a pkt, read s.pkt = (.ok a, pkt) → Atomic c (k a { s with pkt })) ∧
        (CutShort read s.pkt → c.Same s.conn) := by
  unfold CutShort
  rcases hread : read s.pkt with ⟨r, pkt⟩
  cases r with
  | ok a =>
    rw [Prog.bind_of_ok (Prog.zoom_of_ok hread)]
    constructor
    · intro hk
      refine ⟨fun a' pkt' heq => ?_, fun h => (by cases h)⟩
      cases heq
      exact hk
    · intro hk
      exact hk.1 a pkt rfl
  | error e =>
    rw [Prog.bind_of_error (Prog.zoom_of_error hread)]
    constructor
    · intro hk
      refine ⟨fun _ _ h => (by cases h), ?_⟩
      intro he
      cases he
      exact hk.unchanged rfl
    · intro hk
      refine ⟨fun he => ?_, h⟩
      cases he
      exact hk.2 rfl

/-- A change of the connection. -/
theorem atomic_modify_bind {f : FrameConn → FrameConn} {k : Unit → Prog Fail FrameState β} :
    Atomic c ((connection (Prog.modify f) >>= k) s) ↔
      Atomic c (k () { s with conn := f s.conn }) := by
  have hstep : connection (Prog.modify f) s = (.ok (), { s with conn := f s.conn }) := rfl
  rw [Prog.bind_of_ok hstep]

/-- A change of the streams. -/
theorem atomic_modifyStreams_bind {f : QuicStreams → QuicStreams}
    {k : Unit → Prog Fail FrameState β} :
    Atomic c ((connection (FrameConn.withStreams (Prog.modify f)) >>= k) s) ↔
      Atomic c (k () { s with conn.streams := f s.conn.streams }) := by
  have hstep : connection (FrameConn.withStreams (Prog.modify f)) s =
      (.ok (), { s with conn.streams := f s.conn.streams }) := rfl
  rw [Prog.bind_of_ok hstep]

/-- A check of the connection. -/
theorem atomic_check_bind {p : FrameConn → Prop} [DecidablePred p]
    {k : Unit → Prog Fail FrameState β} (h : s.badFree = false) :
    Atomic c ((check p >>= k) s) ↔
      (p s.conn → Atomic c (k () s)) ∧ (¬ p s.conn → c.Same s.conn) := by
  have hrun : (do let c ← Prog.get; Prog.ensure Fail.ret (p c)) s.conn =
      Prog.ensure Fail.ret (p s.conn) s.conn := Prog.get_bind _ _
  by_cases hp : p s.conn
  · have hstep : check p s = (.ok (), s) := by
      rw [check, connection, hrun, Prog.ensure_of_pos hp]
      rfl
    rw [Prog.bind_of_ok hstep]
    simp only [hp, true_imp_iff, not_true, false_imp_iff, and_true]
  · have hstep : check p s = (.error .ret, { s with refused := true }) := by
      rw [check, connection, hrun, Prog.ensure_of_neg hp]
      rfl
    rw [Prog.bind_of_error hstep]
    refine Iff.trans (atomic_error (α := β) (s := { s with refused := true }) h) ?_
    simp only [hp, false_imp_iff, not_false_iff, true_imp_iff, true_and]

/-- A stream is looked up. -/
theorem atomic_getInstance_bind {h : ℕ} {k : ℕ → Prog Fail FrameState β}
    (hfree : s.badFree = false) :
    Atomic c ((connection (FrameConn.withStreams (quicStreamGetInstance h)) >>= k) s) ↔
      (s.conn.streams.Found h →
        Atomic c (k h { s with conn.streams := s.conn.streams.opened h })) ∧
      (¬ s.conn.streams.Found h → c.Same s.conn) := by
  by_cases hfound : s.conn.streams.Found h
  · have hstep : connection (FrameConn.withStreams (quicStreamGetInstance h)) s =
        (.ok h, { s with conn.streams := s.conn.streams.opened h }) := by
      rw [connection, FrameConn.withStreams,
        Prog.zoom_of_ok (quicStreamGetInstance_of_found hfound)]
    rw [Prog.bind_of_ok hstep]
    simp only [hfound, true_imp_iff, not_true, false_imp_iff, and_true]
  · have hstep : connection (FrameConn.withStreams (quicStreamGetInstance h)) s =
        (.error .ret, { s with refused := true }) := by
      rw [connection, FrameConn.withStreams,
        Prog.zoom_of_error (quicStreamGetInstance_of_not_found hfound)]
    rw [Prog.bind_of_error hstep]
    refine Iff.trans (atomic_error (α := β) (s := { s with refused := true }) hfree) ?_
    simp only [hfound, false_imp_iff, not_false_iff, true_imp_iff, true_and]

/-- A copy of bytes is taken. -/
theorem atomic_dataParse_bind {mem : ℕ → Bool} {len : ℕ} {k : List UInt8 → Prog Fail FrameState β}
    (h : s.badFree = false) :
    Atomic c ((quicDataParse mem len >>= k) s) ↔
      if mem len = true then ¬ CutShort (rPacketGetBytes len) s.pkt ∧
        ∀ bytes pkt, rPacketGetBytes len s.pkt = (.ok bytes, pkt) →
          Atomic c (k bytes { s with pkt })
      else c.Same s.conn := by
  rw [quicDataParse, Prog.bind_assoc, atomic_check_bind h]
  by_cases hmem : mem len = true
  · unfold CutShort
    rcases hread : rPacketGetBytes len s.pkt with ⟨r, pkt⟩
    have hattempt : Prog.attempt (readBytes len) s = (.ok r, { s with pkt }) := by
      rw [Prog.attempt, readBytes, Prog.zoom_apply, hread]
    rw [if_pos hmem, Prog.bind_assoc, Prog.bind_of_ok hattempt]
    simp only [hmem, true_imp_iff, not_true, false_imp_iff, and_true]
    cases r with
    | ok bytes =>
      dsimp only
      rw [Prog.pure_bind]
      constructor
      · intro hk
        refine ⟨fun h => (by cases h), fun bytes' pkt' heq => ?_⟩
        cases heq
        exact hk
      · intro hk
        exact hk.2 bytes pkt rfl
    | error e =>
      have hother (he : e ≠ .ret) : Atomic c ((Prog.fail e : Prog Fail FrameState β) { s with pkt })
          ↔
          ¬ (Except.error e : Except Fail (List UInt8)) = .error .ret ∧
            ∀ bytes pkt', ((Except.error e : Except Fail (List UInt8)), pkt) = (.ok bytes, pkt') →
              Atomic c (k bytes { s with pkt := pkt' }) := by
        have hne {γ : Type} : (Except.error e : Except Fail γ) ≠ .error .ret :=
          fun h => he (Except.error.inj h)
        refine iff_of_true ⟨fun h => absurd h hne, h⟩ ⟨hne, fun bytes pkt' h => ?_⟩
        cases h
      cases e with
      | ret =>
        dsimp only
        rw [Prog.bind_of_error (show invalidFree { s with pkt } = _ from rfl)]
        refine iff_of_false (fun hk => ?_) (fun hk => hk.1 rfl)
        have hreleased := hk.released
        cases hreleased
      | assert =>
        dsimp only
        rw [Prog.fail_bind]
        exact hother (by decide)
      | ub =>
        dsimp only
        rw [Prog.fail_bind]
        exact hother (by decide)
      | fuel =>
        dsimp only
        rw [Prog.fail_bind]
        exact hother (by decide)
  · simp only [hmem, false_imp_iff, not_false_iff, true_imp_iff, true_and, if_false,
      Bool.false_eq_true]

section Parsers

variable {mem : ℕ → Bool} {type : ℕ} {pkt : RPacket} {refused : Bool}

/-- A frame that is cut short before anything changed leaves no trace. -/
theorem atomic_read_bind {read : Prog Fail RPacket α} {k : α → Prog Fail FrameState β} :
    Atomic c ((Prog.zoom FrameState.pkt (fun pkt s => { s with pkt }) read >>= k)
        ⟨pkt, c, refused, false⟩) ↔
      ∀ a pkt', read pkt = (.ok a, pkt') → Atomic c (k a ⟨pkt', c, refused, false⟩) :=
  (atomic_zoom_bind rfl).trans (and_iff_left fun _ => FrameConn.Same.refl c)

/-- A stream that is not found leaves no trace when nothing changed before. -/
theorem atomic_find_bind {h : ℕ} {k : ℕ → Prog Fail FrameState β} :
    Atomic c ((connection (FrameConn.withStreams (quicStreamGetInstance h)) >>= k)
        ⟨pkt, c, refused, false⟩) ↔
      (c.streams.Found h →
        Atomic c (k h ⟨pkt, { c with streams := c.streams.opened h }, refused, false⟩)) :=
  (atomic_getInstance_bind rfl).trans (and_iff_left fun _ => FrameConn.Same.refl c)

/-- Finding a stream leaves its sending part alone. -/
theorem opened_sendState {q : QuicStreams} {id : ℕ} :
    ((q.opened id).si id).sendState = (q.si id).sendState := by
  rw [opened_si, quicStreamInstanceRecvOpen]
  split_ifs <;> rfl

/-- Finding a stream disables no receiving part and enables none. -/
theorem opened_recvState_eq_disable {q : QuicStreams} {id : ℕ} :
    ((q.opened id).si id).recvState = .disable ↔ (q.si id).recvState = .disable := by
  rw [opened_si, quicStreamInstanceRecvOpen]
  split_ifs with hopen hstart
  · simp [hstart]
  · exact Iff.rfl
  · exact Iff.rfl

/-- STOP_SENDING frames. -/
theorem atomic_stopSending :
    Atomic c (quicFrameStopSendingParser ⟨pkt, c, refused, false⟩) ↔ StopSendingWhole c pkt := by
  rw [quicFrameStopSendingParser, readVar, atomic_read_bind]
  refine forall₃_congr fun h pkt' _ => ?_
  rw [atomic_find_bind]
  refine forall_congr' fun _ => ?_
  rw [atomic_check_bind rfl]
  simp only [opened_sendState, FrameConn.same_streams, QuicStreams.opened_eq, not_not]
  by_cases hstate : (c.streams.si h).sendState = .start ∨ (c.streams.si h).sendState = .disable
  · simp only [hstate, not_true, false_imp_iff, true_imp_iff, true_and, if_true]
  · rw [if_neg hstate, atomic_modifyStreams_bind, atomic_zoom_bind rfl]
    simp only [hstate, not_false_iff, true_imp_iff, false_imp_iff, and_true]
    have hchanged : ¬ c.Same { c with
        streams := (c.streams.opened h).updateSi h
            fun si => { si with sendState := .disable } } := by
      rw [FrameConn.same_streams, QuicStreams.opened_updateSi_eq]
      rintro ⟨-, hsi⟩
      exact hstate (Or.inr (congrArg QuicStreamInstance.sendState hsi).symm)
    constructor
    · intro hread hcut
      exact hchanged (hread.2 hcut)
    · intro hwhole
      exact ⟨fun _ _ _ => atomic_ok rfl, fun hcut => absurd hcut hwhole⟩

/-- NEW_TOKEN frames. -/
theorem atomic_newToken :
    Atomic c (quicFrameNewTokenParser mem ⟨pkt, c, refused, false⟩) ↔ NewTokenWhole mem c pkt := by
  rw [quicFrameNewTokenParser, atomic_check_bind rfl]
  refine (and_iff_left fun _ => FrameConn.Same.refl c).trans ?_
  refine forall_congr' fun _ => ?_
  rw [readVar, atomic_read_bind]
  refine forall₃_congr fun len pkt' _ => ?_
  rw [atomic_modify_bind, atomic_dataParse_bind rfl, FrameConn.same_token]
  split_ifs with hmem
  · exact and_iff_left fun _ _ _ => atomic_ok rfl
  · exact eq_comm

/-- A frame with a limit of a stream, behind the number of its stream. The check that its parser
makes passes a stream that was just opened and can receive. -/
theorem atomic_streamLimit_bind {h : ℕ} {p : FrameConn → Prop} [DecidablePred p]
    {f : ℕ → QuicStreams → QuicStreams}
    (hp : c.streams.conf.maxIdOpened < h →
      (p { c with streams := c.streams.opened h } ↔ (c.streams.si h).recvState ≠ .disable)) :
    Atomic c ((check p >>= fun _ => readVar >>= fun n =>
        connection (FrameConn.withStreams (Prog.modify (f n))))
        ⟨pkt, { c with streams := c.streams.opened h }, refused, false⟩) ↔
      (c.streams.conf.maxIdOpened < h →
        (c.streams.si h).recvState ≠ .disable ∧ ¬ CutShort quicVariableLengthDecode pkt) := by
  rw [atomic_check_bind rfl, readVar, atomic_zoom_bind rfl]
  dsimp only
  rw [FrameConn.same_streams, QuicStreams.opened_eq]
  by_cases hopen : c.streams.conf.maxIdOpened < h
  · have hlast : ∀ n pkt', quicVariableLengthDecode pkt = (.ok n, pkt') →
        Atomic c (connection (FrameConn.withStreams (Prog.modify (f n)))
          ⟨pkt', { c with streams := c.streams.opened h }, refused, false⟩) :=
      fun _ _ _ => atomic_ok rfl
    simp only [hp hopen, hopen, not_le.mpr hopen, true_imp_iff, imp_false, not_not]
    constructor
    · intro hread
      exact ⟨hread.2, (hread.1 hread.2).2⟩
    · intro hwhole
      exact ⟨fun _ => ⟨hlast, hwhole.2⟩, hwhole.1⟩
  · refine iff_of_true ⟨fun _ => ⟨fun _ _ _ => atomic_ok rfl, fun _ => not_lt.mp hopen⟩,
      fun _ => not_lt.mp hopen⟩ fun h => absurd h hopen

/-- STREAM_DATA_BLOCKED frames. -/
theorem atomic_streamDataBlocked :
    Atomic c (quicFrameStreamDataBlockedParser ⟨pkt, c, refused, false⟩) ↔
      StreamLimitWhole c pkt := by
  rw [quicFrameStreamDataBlockedParser, readVar, atomic_read_bind]
  refine forall₃_congr fun h pkt' _ => ?_
  rw [atomic_find_bind]
  refine forall_congr' fun _ => ?_
  exact atomic_streamLimit_bind fun _ => opened_recvState_eq_disable.not

/-- MAX_STREAM_DATA frames. -/
theorem atomic_maxStreamData :
    Atomic c (quicFrameMaxStreamDataParser ⟨pkt, c, refused, false⟩) ↔ StreamLimitWhole c pkt := by
  rw [quicFrameMaxStreamDataParser, readVar, atomic_read_bind]
  refine forall₃_congr fun h pkt' _ => ?_
  rw [atomic_find_bind]
  refine forall_congr' fun _ => ?_
  refine atomic_streamLimit_bind fun hopen => ?_
  have hstart : ((c.streams.opened h).si h).recvState ≠ .start := by
    rw [opened_si, if_pos hopen, quicStreamInstanceRecvOpen]
    split_ifs with hstart
    · intro h
      cases h
    · exact hstart
  rw [not_or]
  exact (and_iff_left hstart).trans opened_recvState_eq_disable.not

/-- `QuicFrameStreamOffset` on the packet of a connection. -/
theorem readStreamOffset_eq (type : ℕ) : readStreamOffset type =
    Prog.zoom FrameState.pkt (fun pkt s => { s with pkt }) (quicFrameStreamOffset type) := by
  rw [readStreamOffset, quicFrameStreamOffset]
  split_ifs <;> rfl

/-- `QuicFrameStreamLen` on the packet of a connection. -/
theorem readStreamLen_eq (type : ℕ) : readStreamLen type =
    Prog.zoom FrameState.pkt (fun pkt s => { s with pkt }) (quicFrameStreamLen type) := by
  rw [readStreamLen, quicFrameStreamLen]
  split_ifs
  · rfl
  · funext s
    rw [readRemaining, Prog.get_bind, Prog.zoom_apply, Prog.get_bind]
    rfl

/-- The data of a STREAM frame is refused when its stream waits for data and there is no memory. -/
theorem atomic_streamStore {id offset : ℕ} {data : List UInt8} (h : s.badFree = false) :
    Atomic c (connection (quicFrameStreamStore id offset data) s) ↔
      (((quicStreamInstanceRecvOpen (s.conn.streams.si id)).recvState = .recv ∨
          (quicStreamInstanceRecvOpen (s.conn.streams.si id)).recvState = .sizeKnown) →
        s.conn.buf = false → c.Same { s.conn with
          streams := s.conn.streams.updateSi id quicStreamInstanceRecvOpen }) := by
  have hopen : FrameConn.withStreams (Prog.modify (·.updateSi id quicStreamInstanceRecvOpen))
      s.conn = (.ok (), { s.conn with
        streams := s.conn.streams.updateSi id quicStreamInstanceRecvOpen }) := rfl
  unfold connection
  rw [quicFrameStreamStore, Prog.bind_of_ok hopen, Prog.get_bind]
  dsimp only
  rw [QuicStreams.updateSi_si]
  split_ifs with hstate
  · refine iff_of_true (atomic_ok h) ?_
    rintro (hrecv | hsize)
    · exact absurd hrecv hstate.1
    · exact absurd hsize hstate.2
  · have hstate : (quicStreamInstanceRecvOpen (s.conn.streams.si id)).recvState = .recv ∨
        (quicStreamInstanceRecvOpen (s.conn.streams.si id)).recvState = .sizeKnown := by
      simpa only [ne_eq, not_and_or, not_not] using hstate
    cases hbuf : s.conn.buf with
    | true =>
      rw [Prog.ensure_of_pos rfl, Prog.pure_bind,
        Prog.bind_of_ok (show FrameConn.withStreams (Prog.modify _) _ = (.ok (), _) from rfl)]
      exact iff_of_true (atomic_ok h) fun _ h => by cases h
    | false =>
      rw [Prog.ensure_of_neg (by decide), Prog.fail_bind]
      simp only [hstate, true_imp_iff]
      exact atomic_error h

/-- The flags of a STREAM frame leave its stream alone when it can send, unless its size becomes
known. -/
theorem recvFin_sendReady_eq {fin : Bool} {si : QuicStreamInstance} :
    recvFin fin (sendReady si) = si ↔
      si.sendState ≠ .start ∧ ¬ (fin = true ∧ si.recvState = .recv) := by
  unfold recvFin sendReady
  cases si
  split_ifs <;> simp_all

/-- The data of a STREAM frame leaves its stream alone when that does not wait for its first
data. -/
theorem recvOpen_recvFin_sendReady_eq {fin : Bool} {si : QuicStreamInstance} :
    quicStreamInstanceRecvOpen (recvFin fin (sendReady si)) = si ↔
      (si.sendState ≠ .start ∧ ¬ (fin = true ∧ si.recvState = .recv)) ∧ si.recvState ≠ .start := by
  unfold quicStreamInstanceRecvOpen recvFin sendReady
  cases si
  split_ifs <;> simp_all

/-- A stream waits for data behind the flags of a STREAM frame when it did before. -/
theorem recvState_arrived {q : QuicStreams} {id : ℕ} {fin : Bool} :
    ((quicStreamInstanceRecvOpen (recvFin fin (sendReady ((q.opened id).si id)))).recvState =
        .recv ∨ (quicStreamInstanceRecvOpen
          (recvFin fin (sendReady ((q.opened id).si id)))).recvState = .sizeKnown) ↔
      (q.si id).recvState ∈ [StreamState.start, .recv, .sizeKnown] := by
  have hstates (si : QuicStreamInstance) :
      ((quicStreamInstanceRecvOpen (recvFin fin (sendReady si))).recvState = .recv ∨
        (quicStreamInstanceRecvOpen (recvFin fin (sendReady si))).recvState = .sizeKnown) ↔
        si.recvState ∈ [StreamState.start, .recv, .sizeKnown] := by
    unfold quicStreamInstanceRecvOpen recvFin sendReady
    cases si with
    | mk recvState =>
      cases recvState <;> cases fin <;> split_ifs <;> simp_all
  rw [hstates, opened_si, quicStreamInstanceRecvOpen]
  split_ifs with hopen hstart
  · simp [hstart]
  · exact Iff.rfl
  · exact Iff.rfl

/-- STREAM frames. -/
theorem atomic_stream :
    Atomic c (quicFrameStreamParser type ⟨pkt, c, refused, false⟩) ↔ StreamWhole type c pkt := by
  rw [quicFrameStreamParser, readVar, atomic_read_bind]
  refine forall₃_congr fun h pkt₁ _ => ?_
  rw [readStreamOffset_eq, atomic_read_bind]
  refine forall₃_congr fun offset pkt₂ _ => ?_
  rw [readStreamLen_eq, atomic_read_bind]
  refine forall₃_congr fun len pkt₃ _ => ?_
  rw [quicFrameStreamBody, atomic_find_bind]
  refine forall_congr' fun _ => ?_
  rw [atomic_check_bind rfl, and_comm]
  refine and_congr ?_ ?_
  · rw [FrameConn.same_streams, QuicStreams.opened_eq]
    dsimp only
    rw [not_not, opened_recvState_eq_disable]
  · dsimp only
    rw [ne_eq, opened_recvState_eq_disable]
    refine forall_congr' fun _ => ?_
    rw [atomic_modifyStreams_bind, atomic_modifyStreams_bind, readBytes, atomic_zoom_bind rfl]
    simp only [atomic_streamStore, QuicStreams.updateSi_updateSi, QuicStreams.updateSi_si,
      FrameConn.same_streams, QuicStreams.opened_updateSi_eq, recvState_arrived,
      recvFin_sendReady_eq, recvOpen_recvFin_sendReady_eq]
    constructor
    · rintro ⟨hstore, hread⟩ (hcut | ⟨⟨data, pkt₄, hdata⟩, hbuf, hstate⟩)
      · obtain ⟨hopen, hsend, hfin⟩ := hread hcut
        exact ⟨hopen, hsend, hfin, fun hnot => absurd hcut hnot⟩
      · obtain ⟨hopen, ⟨hsend, hfin⟩, hstart⟩ := hstore data pkt₄ hdata hstate hbuf
        exact ⟨hopen, hsend, hfin, fun _ => hstart⟩
    · intro hwhole
      constructor
      · intro data pkt₄ hdata hstate hbuf
        have hcut : ¬ CutShort (rPacketGetBytes len) pkt₃ := by
          rw [CutShort, hdata]
          intro h
          cases h
        obtain ⟨hopen, hsend, hfin, hstart⟩ := hwhole (Or.inr ⟨⟨data, pkt₄, hdata⟩, hbuf, hstate⟩)
        exact ⟨hopen, ⟨hsend, hfin⟩, hstart hcut⟩
      · intro hcut
        obtain ⟨hopen, hsend, hfin, -⟩ := hwhole (Or.inl hcut)
        exact ⟨hopen, hsend, hfin⟩

/-- NEW_CONNECTION_ID frames. -/
theorem atomic_newConnId :
    Atomic c (quicFrameNewConnIdParser mem ⟨pkt, c, refused, false⟩) ↔
      NewConnIdWhole mem c pkt := by
  rw [quicFrameNewConnIdParser, readVar, atomic_read_bind]
  refine forall₃_congr fun seq pkt₁ _ => ?_
  rw [atomic_read_bind]
  refine forall₃_congr fun retirePriorTo pkt₂ _ => ?_
  rw [atomic_read_bind]
  refine forall₃_congr fun len pkt₃ _ => ?_
  rw [atomic_check_bind rfl]
  refine (and_iff_left fun _ => FrameConn.Same.refl c).trans ?_
  refine forall_congr' fun _ => ?_
  rw [atomic_modify_bind, atomic_check_bind rfl]
  simp only [not_not, FrameConn.same_retirePriorTo]
  by_cases hlimit : quicGe (c.cidPool.retirePriorTo retirePriorTo).num c.activeConnLimit
  · have hlimit' : quicGe (c.cidPool.retirePriorTo retirePriorTo).num
        ({ c with cidPool := c.cidPool.retirePriorTo retirePriorTo } : FrameConn).activeConnLimit :=
      hlimit
    simp only [hlimit, hlimit', not_true, false_imp_iff, true_imp_iff, true_and, true_or, if_true]
  · have hlimit' : ¬ quicGe (c.cidPool.retirePriorTo retirePriorTo).num
        ({ c with cidPool := c.cidPool.retirePriorTo retirePriorTo } : FrameConn).activeConnLimit :=
      hlimit
    rw [atomic_dataParse_bind rfl]
    simp only [hlimit, hlimit', not_false_iff, true_imp_iff, false_imp_iff, and_true, false_or,
      FrameConn.same_retirePriorTo]
    by_cases hmem : mem len = true
    · simp only [hmem, if_true, Bool.true_eq_false, if_false, readBytes]
      refine and_congr_right fun _ => forall₃_congr fun id pkt₄ _ => ?_
      rw [atomic_zoom_bind rfl, FrameConn.same_retirePriorTo]
      exact and_iff_right fun _ _ _ => atomic_ok rfl
    · simp only [hmem, if_false, if_true, Bool.false_eq_true]

end Parsers

section Acks

variable {pkt : RPacket} {refused : Bool}

/-- Ranges change the sent packets and the streams alone, and a range that stops the parser follows
a null pointer. -/
theorem passRanges_frame (calls : List (ℕ × ℕ)) (start : Bool) (s : FrameState) :
    Prog.Post (ackHandlers.passRanges calls start)
      (fun _ t => t = { s with
        conn := { s.conn with sentQueue := t.conn.sentQueue, streams := t.conn.streams } })
      (fun e t => e = .ub ∧ t.badFree = s.badFree) s := by
  induction calls generalizing start s with
  | nil => exact rfl
  | cons p calls ih =>
    rw [AckHandlers.passRanges, Prog.post_bind]
    change Prog.Post (connection (FrameConn.withSent (qBufAckSentPkt p.1 p.2 start))) _ _ s
    cases start with
    | true =>
      unfold Prog.Post connection FrameConn.withSent
      rw [Prog.zoom_of_error (qBufAckSentPkt_true p.1 p.2 _)]
      exact ⟨rfl, rfl⟩
    | false =>
      unfold Prog.Post connection FrameConn.withSent
      rw [Prog.zoom_of_ok (qBufAckSentPkt_false_eq p _)]
      exact ih _ _

/-- Ranges sweep over the sent packets of a connection. -/
theorem passRanges_ackRun (calls : List (ℕ × ℕ)) (start : Bool) (s : FrameState) :
    AckRun (calls.map ackSweep) start s.conn.sent
      ((ackHandlers.passRanges calls start s).1,
        (ackHandlers.passRanges calls start s).2.conn.sent) := by
  induction calls generalizing start s with
  | nil => exact AckRun.nil (fun h => by cases h) rfl rfl
  | cons p calls ih =>
    rw [AckHandlers.passRanges]
    cases start with
    | true =>
      have hrun : ackHandlers.ackSentPkt p.1 p.2 true s =
          (.error .ub, { s with refused := true }) := by
        change connection (FrameConn.withSent _) s = _
        rw [connection, FrameConn.withSent, Prog.zoom_of_error (qBufAckSentPkt_true p.1 p.2 _)]
        rfl
      rw [Prog.bind_of_error hrun]
      constructor
      · simp
      · intro h
        exact absurd rfl h
      · intro h
        exact absurd rfl h
    | false =>
      have hrun : ackHandlers.ackSentPkt p.1 p.2 false s =
          (.ok (s.conn.sent.sentQueue.reverse.any (ackSweep p).stops),
            { s with conn := { s.conn with
              streams := (ackSwept p s.conn.sent).streams
              sentQueue := (ackSwept p s.conn.sent).sentQueue } }) := by
        change connection (FrameConn.withSent _) s = _
        rw [connection, FrameConn.withSent, Prog.zoom_of_ok (qBufAckSentPkt_false_eq p _)]
      rw [Prog.bind_of_ok hrun]
      have hrest := ih (s.conn.sent.sentQueue.reverse.any (ackSweep p).stops)
        { s with conn := { s.conn with
          streams := (ackSwept p s.conn.sent).streams
          sentQueue := (ackSwept p s.conn.sent).sentQueue } }
      exact AckRun.cons hrest

/-- Sweeps change the connection when they take a packet, and at no other time. -/
theorem same_swept_iff {ws : List (Sweep QBuff)} {start : Bool} {d : FrameConn} {t : FrameRecv}
    {r : Except Fail Unit} (h : AckRun ws start t (r, d.sent)) (hr : r ≠ .error .ub)
    (hqueue : t.sentQueue = c.sentQueue) (hstreams : t.streams = c.streams) :
    c.Same { c with sentQueue := d.sentQueue, streams := d.streams } ↔
      Sweep.takenBy ws c.sentQueue.reverse = [] := by
  have hleft : d.sentQueue = (Sweep.leftBy ws t.sentQueue.reverse).reverse := h.sentQueue hr
  have htaken : d.streams = (Sweep.takenBy ws t.sentQueue.reverse).foldl ackEffect t.streams :=
    h.streams hr
  rw [hqueue] at hleft htaken
  rw [hstreams] at htaken
  constructor
  · intro hsame
    have hsame := congrArg FrameConn.sentQueue hsame
    change d.sentQueue = c.sentQueue at hsame
    exact Sweep.leftBy_eq_iff.mp (List.reverse_eq_iff.mp (hleft.symm.trans hsame))
  · intro hnone
    rw [Sweep.leftBy_eq_iff.mpr hnone, List.reverse_reverse] at hleft
    rw [hnone] at htaken
    rw [hleft, htaken]
    exact FrameConn.Same.refl c

/-- A frame raises `largest_acked` only to another number. -/
theorem same_raise_iff {largest : ℕ} {queue : List QBuff} {q : QuicStreams} :
    c.Same { (ackHandlers.raise largest ⟨pkt, c, refused, false⟩).conn with
        sentQueue := queue, streams := q } ↔
      (quicGe largest c.largestAcked → largest = c.largestAcked) ∧
        c.Same { c with sentQueue := queue, streams := q } := by
  change c.Same { (ite _ _ _ : FrameState).conn with sentQueue := queue, streams := q } ↔ _
  split_ifs with hraise
  · constructor
    · intro hsame
      have hlargest := congrArg FrameConn.largestAcked hsame
      change largest = c.largestAcked at hlargest
      subst hlargest
      exact ⟨fun _ => rfl, hsame⟩
    · rintro ⟨hlargest, hsame⟩
      rw [hlargest hraise]
      exact hsame
  · exact (and_iff_right fun h => absurd h hraise).symm

/-- ACK frames. -/
theorem atomic_ack :
    Atomic c (quicFrameAckParser ⟨pkt, c, refused, false⟩) ↔ AckWhole c pkt := by
  have hpasses := ackHandlers.parser_passes pkt ⟨pkt, c, refused, false⟩
  unfold AckWhole
  rcases hlargest : quicVariableLengthDecode pkt with ⟨largest, pkt₁⟩
  rw [hlargest] at hpasses
  cases largest with
  | error e =>
    have hrun : quicFrameAckParser ⟨pkt, c, refused, false⟩ =
        (.error e, ⟨pkt₁, c, refused, false⟩) := hpasses
    rw [hrun]
    refine iff_of_true ⟨fun _ => FrameConn.Same.refl c, rfl⟩ ?_
    rintro _ _ ⟨⟩
  | ok largest =>
    set s := ackHandlers.raise largest ⟨pkt, c, refused, false⟩ with hs
    have hfree : s.badFree = false := by
      rw [hs]
      change (ite _ _ _ : FrameState).badFree = false
      split_ifs <;> rfl
    have hqueue : s.conn.sent.sentQueue = c.sentQueue := by
      rw [hs]
      change (ite _ _ _ : FrameState).conn.sentQueue = c.sentQueue
      split_ifs <;> rfl
    have hstreams : s.conn.sent.streams = c.streams := by
      rw [hs]
      change (ite _ _ _ : FrameState).conn.streams = c.streams
      split_ifs <;> rfl
    have hframe := passRanges_frame (readAckBody largest pkt₁).calls false s
    have hack := passRanges_ackRun (readAckBody largest pkt₁).calls false s
    rcases hpass : ackHandlers.passRanges (readAckBody largest pkt₁).calls false s with ⟨r, t⟩
    rw [hpass] at hack
    have hub := hack.no_ub
    simp only [Bool.false_eq_true, false_imp_iff, true_and, hqueue] at hub
    change Atomic c (ackHandlers.parser ⟨pkt, c, refused, false⟩) ↔ _
    cases r with
    | error e =>
      obtain ⟨pkt₂, hrun⟩ := hpasses.of_error e t hpass
      obtain ⟨rfl, hfree'⟩ := hframe.of_error hpass
      rw [show ackHandlers.parser ⟨pkt, c, refused, false⟩ = _ from hrun]
      refine iff_of_true ⟨fun h => (by cases h), hfree'.trans hfree⟩ ?_
      intro largest' pkt' hread _ hunstopped
      cases hread
      exact absurd rfl (hub.mpr hunstopped)
    | ok u =>
      have hrun := hpasses.of_ok t hpass
      have ht := hframe.of_ok hpass
      have hne : (Except.ok u : Except Fail Unit) ≠ .error .ub := fun h => by cases h
      have hsame : c.Same t.conn ↔ (quicGe largest c.largestAcked → largest = c.largestAcked) ∧
          Sweep.takenBy ((readAckBody largest pkt₁).calls.map ackSweep)
              c.sentQueue.reverse = [] := by
        rw [ht, ← same_swept_iff hack hne hqueue hstreams]
        exact same_raise_iff
      rw [show ackHandlers.parser ⟨pkt, c, refused, false⟩ = _ from hrun]
      constructor
      · intro hatomic largest' pkt' hread hresult _
        cases hread
        exact hsame.mp (hatomic.unchanged hresult)
      · intro hwhole
        refine ⟨fun hresult => ?_, ?_⟩
        · exact hsame.mpr (hwhole largest pkt₁ rfl hresult (hub.mp hne))
        · change t.badFree = false
          rw [ht]
          exact hfree

end Acks

section Whole

variable {pkt : RPacket} {refused : Bool}

/-- RESET_STREAM frames are read before their stream is looked up. -/
theorem atomic_resetStream : Atomic c (quicFrameResetStreamParser ⟨pkt, c, refused, false⟩) := by
  rw [quicFrameResetStreamParser, readVar, atomic_read_bind]
  intro streamId pkt₁ _
  rw [atomic_read_bind]
  intro errorCode pkt₂ _
  rw [atomic_read_bind]
  intro finalSize pkt₃ _
  rw [atomic_find_bind]
  intro _
  exact atomic_ok rfl

/-- A step of the buffer of the handshake. -/
theorem atomic_withBuffer_bind {m : Prog Fail QuicBuffer α} {k : α → Prog Fail FrameState β}
    (hs : c.Same s.conn) (hfree : s.badFree = false)
    (hk : ∀ a t, c.Same t.conn → t.badFree = false → Atomic c (k a t)) :
    Atomic c ((connection (FrameConn.withBuffer m) >>= k) s) := by
  rcases hrun : m s.conn.buffer with ⟨r, buffer⟩
  cases r with
  | ok a =>
    have hstep : connection (FrameConn.withBuffer m) s =
          (.ok a, { s with conn.buffer := buffer }) := by
      rw [connection, FrameConn.withBuffer, Prog.zoom_of_ok hrun]
    rw [Prog.bind_of_ok hstep]
    exact hk a _ hs hfree
  | error e =>
    have hstep : connection (FrameConn.withBuffer m) s =
        (.error e, { s with conn.buffer := buffer, refused := true }) := by
      rw [connection, FrameConn.withBuffer, Prog.zoom_of_error hrun]
    rw [Prog.bind_of_error hstep]
    exact ⟨fun _ => hs, hfree⟩

/-- CRYPTO frames change the buffer of the handshake alone. -/
theorem atomic_crypto (mem : ℕ → Bool) :
    Atomic c (quicFrameCryptoParser mem ⟨pkt, c, refused, false⟩) := by
  rw [quicFrameCryptoParser, readVar, atomic_read_bind]
  intro offset pkt₁ _
  rw [atomic_read_bind]
  intro length pkt₂ _
  refine atomic_withBuffer_bind (FrameConn.Same.refl c) rfl fun _ t ht hfree => ?_
  rw [readBytes, atomic_zoom_bind hfree]
  refine ⟨fun bytes pkt₃ _ => ?_, fun _ => ht⟩
  refine atomic_withBuffer_bind ht hfree fun _ t' ht' hfree' => ?_
  exact atomic_ok hfree'

/-- Frames with one number for the peer's parameters. -/
theorem atomic_streamParamUpdate (get : QuicTransParams → ℕ)
    (set : ℕ → QuicTransParams → QuicTransParams) :
    Atomic c (quicFrameStreamParamUpdate get set ⟨pkt, c, refused, false⟩) := by
  rw [quicFrameStreamParamUpdate, readVar, atomic_read_bind]
  intro maxStreams pkt' _
  exact atomic_ok rfl

/-- DATA_BLOCKED frames change nothing. -/
theorem atomic_dataBlocked : Atomic c (quicFrameDataBlockedParser ⟨pkt, c, refused, false⟩) := by
  rw [quicFrameDataBlockedParser, readVar, atomic_read_bind]
  intro maxData pkt' _
  exact atomic_ok rfl

/-- RETIRE_CONNECTION_ID frames are read before they retire. -/
theorem atomic_retireConnId :
    Atomic c (quicFrameRetireConnIdParser ⟨pkt, c, refused, false⟩) := by
  rw [quicFrameRetireConnIdParser, readVar, atomic_read_bind]
  intro seq pkt' _
  exact atomic_ok rfl

/-- CONNECTION_CLOSE frames are read before the connection drains. -/
theorem atomic_connClose (type : ℕ) :
    Atomic c (quicFrameConnCloseParser type ⟨pkt, c, refused, false⟩) := by
  have hphrase (pkt : RPacket) : Atomic c ((readVar >>= fun len => readBytes len >>= fun _ =>
      connection (Prog.modify fun c : FrameConn => { c with statem := .draining }))
        ⟨pkt, c, refused, false⟩) := by
    rw [readVar, atomic_read_bind]
    intro len pkt₁ _
    rw [readBytes, atomic_read_bind]
    intro phrase pkt₂ _
    exact atomic_ok rfl
  rw [quicFrameConnCloseParser, readVar, atomic_read_bind]
  intro errCode pkt₁ _
  split_ifs
  · rw [atomic_read_bind]
    intro frameType pkt₂ _
    exact hphrase pkt₂
  · rw [Prog.pure_bind]
    exact hphrase pkt₁

end Whole

/-- A parser leaves no trace of a frame that it rejects exactly when the frame is one of those
above. -/
theorem frameParser_atomic_iff (mem : ℕ → Bool) (c : FrameConn) (pkt : RPacket) {type : ℕ}
    {parser : Prog Fail FrameState Unit} (hparser : frameParser mem type = some parser) :
    Atomic c (parser ⟨pkt, c, false, false⟩) ↔ FrameWhole mem type c pkt := by
  have hmax : type < quicFrameTypeMax := by
    unfold quicFrameTypeMax
    by_contra hge
    unfold frameParser at hparser
    split at hparser <;> first | omega | cases hparser
  have halways {type : ℕ} {run : Except Fail Unit × FrameState} (hrun : Atomic c run)
      (htype : type ∉ [0x02, 0x05, 0x07, 0x11, 0x15, 0x18]) (hstream : ¬ (8 ≤ type ∧ type ≤ 15)) :
      Atomic c run ↔ FrameWhole mem type c pkt := by
    refine iff_of_true hrun ?_
    simp only [List.mem_cons, List.not_mem_nil, or_false, not_or] at htype
    constructor <;> intros <;> omega
  unfold quicFrameTypeMax at hmax
  interval_cases type <;> cases hparser
  · exact halways (atomic_ok rfl) (by decide) (by decide)
  · exact atomic_ack.trans (by simp [frameWhole_iff])
  · exact halways atomic_resetStream (by decide) (by decide)
  · exact atomic_stopSending.trans (by simp [frameWhole_iff])
  · exact halways (atomic_crypto mem) (by decide) (by decide)
  · exact atomic_newToken.trans (by simp [frameWhole_iff])
  all_goals first
    | exact atomic_stream.trans (by simp [frameWhole_iff])
    | exact halways (atomic_streamParamUpdate _ _) (by decide) (by decide)
    | exact atomic_maxStreamData.trans (by simp [frameWhole_iff])
    | exact halways atomic_dataBlocked (by decide) (by decide)
    | exact atomic_streamDataBlocked.trans (by simp [frameWhole_iff])
    | exact atomic_newConnId.trans (by simp [frameWhole_iff])
    | exact halways atomic_retireConnId (by decide) (by decide)
    | exact halways (atomic_connClose _) (by decide) (by decide)
    | exact halways (atomic_ok rfl) (by decide) (by decide)

/-- A whole STOP_SENDING frame is no error. -/
theorem stopSending_atomic : Atomic openedConn
    (quicFrameStopSendingParser ⟨rPacketBufInit [0x04, 0x00], openedConn, false, false⟩) := by
  have hid : quicVariableLengthDecode (rPacketBufInit [0x04, 0x00]) =
      (.ok 4, { past := [0x04], rest := [0x00] }) := by decide +kernel
  refine (@frameParser_atomic_iff (fun _ => true) openedConn _ 0x05 _ rfl).mpr ?_
  refine ⟨fun h => ?_, fun _ h pkt' hread _ => ?_, fun h => ?_, fun h _ => ?_, fun h => ?_,
    fun h => ?_⟩
  · cases h
  · rw [hid] at hread
    cases hread
    rw [if_neg (by decide)]
    unfold CutShort
    decide +kernel
  · cases h
  · exact absurd h (by decide)
  · exact absurd h (by decide)
  · cases h

/-- A STOP_SENDING frame without its error code disables the stream before it is rejected. -/
theorem stopSending_not_atomic : ¬ Atomic openedConn
    (quicFrameStopSendingParser ⟨rPacketBufInit [0x04], openedConn, false, false⟩) := by
  intro h
  have hsame := h.unchanged (by decide +kernel)
  have hstate := congrArg (fun c => (c.streams.si 4).sendState) hsame
  revert hstate
  decide +kernel

end FrameState

end Tbquic
