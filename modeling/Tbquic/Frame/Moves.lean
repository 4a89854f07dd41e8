import Mathlib.Logic.Relation
import Tbquic.Frame.AckSent
import Tbquic.Frame.Limits
import Tbquic.Stream.Send

/-!
# What the frames of a connection write

Every write of a frame parser to its connection is one of a few moves. A parser makes some of them
in a row, whether it accepts the frame or not, so whatever all moves of a type preserve is preserved
by its parser.
-/

namespace Tbquic

/-- The types of STREAM frames. -/
def StreamType (type : ℕ) : Prop := 0x08 ≤ type ∧ type ≤ 0x0f

instance (type : ℕ) : Decidable (StreamType type) := inferInstanceAs (Decidable (_ ∧ _))

/-- The first numbers of a frame behind its type. -/
def frameNumbers : ℕ → RPacket → Option (List ℕ)
  | 0, _ => some []
  | n + 1, pkt =>
    match quicVariableLengthDecode pkt with
    | (.ok v, pkt) => (frameNumbers n pkt).map (v :: ·)
    | (.error _, _) => none

/-- The stream of a STREAM frame whose numbers are all there. -/
def streamFrameId (type : ℕ) (frame : RPacket) : Option ℕ :=
  (quicFrameStreamHeader type frame).1.toOption.map StreamHeader.id

section Numbers

variable {frame pkt₁ pkt₂ pkt₃ : RPacket} {a b c : ℕ}

/-- The numbers of a frame begin with the first one. -/
theorem frameNumbers_cons {n : ℕ} {l : List ℕ} (h : frameNumbers (n + 1) frame = some (a :: l)) :
    ∃ pkt, quicVariableLengthDecode frame = (.ok a, pkt) ∧ frameNumbers n pkt = some l := by
  unfold frameNumbers at h
  split at h
  · rename_i v pkt hread
    obtain ⟨l', hl', hcons⟩ := Option.map_eq_some_iff.mp h
    rw [List.cons.injEq] at hcons
    obtain ⟨rfl, rfl⟩ := hcons
    exact ⟨pkt, hread, hl'⟩
  · cases h

/-- The numbers of a frame have 62 bits. -/
theorem frameNumbers_lt {n : ℕ} {l : List ℕ} (h : frameNumbers n frame = some l) :
    ∀ v ∈ l, v < 2 ^ 62 := by
  induction n generalizing frame l with
  | zero =>
    cases h
    exact fun v hv => by cases hv
  | succ n ih =>
    unfold frameNumbers at h
    split at h
    · rename_i v pkt hread
      obtain ⟨l', hl', rfl⟩ := Option.map_eq_some_iff.mp h
      rw [List.forall_mem_cons]
      exact ⟨(quicVariableLengthDecode_post frame).of_ok hread, ih hl'⟩
    · cases h

/-- The first number of a frame. -/
theorem frameNumbers_one (ha : quicVariableLengthDecode frame = (.ok a, pkt₁)) :
    frameNumbers 1 frame = some [a] := by
  simp only [frameNumbers, ha, Option.map_some]

/-- The first two numbers of a frame. -/
theorem frameNumbers_two (ha : quicVariableLengthDecode frame = (.ok a, pkt₁))
    (hb : quicVariableLengthDecode pkt₁ = (.ok b, pkt₂)) :
    frameNumbers 2 frame = some [a, b] := by
  simp only [frameNumbers, ha, hb, Option.map_some]

/-- The first three numbers of a frame. -/
theorem frameNumbers_three (ha : quicVariableLengthDecode frame = (.ok a, pkt₁))
    (hb : quicVariableLengthDecode pkt₁ = (.ok b, pkt₂))
    (hc : quicVariableLengthDecode pkt₂ = (.ok c, pkt₃)) :
    frameNumbers 3 frame = some [a, b, c] := by
  simp only [frameNumbers, ha, hb, hc, Option.map_some]

end Numbers

/-- A write of the parser of a frame. -/
inductive FrameMove (type : ℕ) (frame : RPacket) (c : FrameConn) : FrameConn → Prop
  /-- A stream is found, and those below it are opened. -/
  | find (id : ℕ) (found : c.streams.Found id) (hframe : frameNumbers 1 frame = some [id]) :
    FrameMove type frame c { c with streams := c.streams.opened id }
  /-- The receiving part of a stream is reset. -/
  | recvReset (id code size : ℕ) (found : c.streams.Found id) (htype : type = 0x04)
      (hframe : frameNumbers 3 frame = some [id, code, size]) :
    FrameMove type frame c { c with streams := c.streams.updateSi id FrameState.recvReset }
  /-- The sending part of a stream is disabled. -/
  | stopSending (id : ℕ) (found : c.streams.Found id) (htype : type = 0x05)
      (hframe : frameNumbers 1 frame = some [id])
      (hsend : ¬ ((c.streams.si id).sendState = .start ∨ (c.streams.si id).sendState = .disable)) :
    FrameMove type frame c { c with
      streams := c.streams.updateSi id fun si => { si with sendState := .disable } }
  /-- The receiving part of a stream is opened. -/
  | recvOpen (id : ℕ) (found : c.streams.Found id)
      (htype : type = 0x05 ∨ type = 0x15 ∨ StreamType type)
      (hframe : frameNumbers 1 frame = some [id]) :
    FrameMove type frame c { c with streams := c.streams.updateSi id quicStreamInstanceRecvOpen }
  /-- The sending part of a stream becomes ready. -/
  | sendReady (id : ℕ) (found : c.streams.Found id) (htype : StreamType type)
      (hframe : frameNumbers 1 frame = some [id]) (hid : streamFrameId type frame = some id)
      (hrecv : (c.streams.si id).recvState ≠ .disable) :
    FrameMove type frame c { c with streams := c.streams.updateSi id sendReady }
  /-- The size of a stream becomes known. -/
  | recvFin (id : ℕ) (found : c.streams.Found id) (htype : StreamType type)
      (hframe : frameNumbers 1 frame = some [id])
      (hrecv : (c.streams.si id).recvState ≠ .disable) :
    FrameMove type frame c { c with
      streams := c.streams.updateSi id (recvFin (streamBitFin type)) }
  /-- Data is added to a stream. -/
  | dataAdd (id : ℕ) (sd : QuicStreamData) (found : c.streams.Found id) (htype : StreamType type)
      (hframe : (readStreamFrame type frame).1 = .ok (id, sd))
      (hrecv : (c.streams.si id).recvState = .recv ∨ (c.streams.si id).recvState = .sizeKnown) :
    FrameMove type frame c { c with streams := quicStreamDataAdd c.streams id sd }
  /-- The application is told of data. -/
  | notify (id : ℕ) (found : c.streams.Found id) (htype : StreamType type) :
    FrameMove type frame c { c with streams := c.streams.notify id }
  /-- A limit of the connection is raised. -/
  | limit (k : LimitKind) (value : ℕ) (htype : type = k.frameType)
      (hframe : frameNumbers 1 frame = some [value]) :
    FrameMove type frame c { c with
      streams.peerParam := if quicGt value (k.get c.streams.peerParam) then
          k.set value c.streams.peerParam
        else c.streams.peerParam }
  /-- The limit of a stream is raised. -/
  | maxStreamData (id value : ℕ) (found : c.streams.Found id) (htype : type = 0x11)
      (hframe : frameNumbers 2 frame = some [id, value]) :
    FrameMove type frame c { c with
      streams := c.streams.updateSi id fun si =>
        if quicLt si.maxStreamData value then { si with maxStreamData := value } else si }
  /-- The largest number acknowledged is raised. -/
  | raise (largest : ℕ) (htype : type = quicFrameTypeAck)
      (hframe : frameNumbers 1 frame = some [largest]) :
    FrameMove type frame c { c with
      largestAcked := if quicGe largest c.largestAcked then largest else c.largestAcked }
  /-- The packets of a range are acknowledged. -/
  | acked (p : ℕ × ℕ) (htype : type = quicFrameTypeAck) :
    FrameMove type frame c { c with
      streams := (ackSwept p c.sent).streams
      sentQueue := (ackSwept p c.sent).sentQueue }
  /-- The token, the connection IDs or the buffer of the handshake change. -/
  | aside (token : Option (List UInt8)) (cidPool : QuicCidPool) (buffer : QuicBuffer)
      (hpool : cidPool = c.cidPool ∨ type = 0x18 ∨ type = 0x19) :
    FrameMove type frame c { c with token, cidPool, buffer }
  /-- The connection is closed by the peer. -/
  | draining (htype : type = 0x1c ∨ type = 0x1d) :
      FrameMove type frame c { c with statem := .draining }
  /-- The handshake is done. -/
  | handshakeDone (htype : type = quicFrameTypeHandshakeDone)
      (hclient : c.streams.server = false) :
      FrameMove type frame c { c with statem := .handshakeDone }

/-- Some writes in a row. -/
def FrameMoves (type : ℕ) (frame : RPacket) : FrameConn → FrameConn → Prop :=
  Relation.ReflTransGen (FrameMove type frame)

namespace FrameMoves

variable {type : ℕ} {frame : RPacket} {c d : FrameConn}

/-- What every write preserves is preserved by some in a row. -/
theorem preserves {R : FrameConn → FrameConn → Prop} (hrefl : ∀ c, R c c)
    (htrans : ∀ c d e, R c d → R d e → R c e) (hmove : ∀ c d, FrameMove type frame c d → R c d)
    (h : FrameMoves type frame c d) : R c d := by
  induction h with
  | refl => exact hrefl c
  | tail _ hlast ih => exact htrans _ _ _ ih (hmove _ _ hlast)

end FrameMoves

/-- A stream that is found is found again when the streams are kept. -/
theorem QuicStreams.Found.keeps {q t : QuicStreams} {id : ℕ} (hfound : q.Found id)
    (h : q.Keeps t) : t.Found id := by
  obtain ⟨hinited, hcheck, hopened⟩ := hfound
  refine ⟨h.inited.trans hinited, ?_, ?_⟩
  · rwa [QuicStreams.idCheck, QuicStreams.idCheckPeer, h.server, h.transParam, h.maxIdValue]
  · rw [h.server]
    exact hopened.imp_right (h.send id)

/-- A stream that is found is in the table. -/
theorem QuicStreams.Found.lt_maxIdValue {q : QuicStreams} {id : ℕ} (h : q.Found id) :
    id < q.conf.maxIdValue := by
  obtain ⟨-, hcheck, -⟩ := h
  rw [QuicStreams.idCheck, Bool.and_eq_true, decide_eq_true_iff] at hcheck
  exact hcheck.2

/-- Disabling the sending part keeps the entry open. -/
theorem keepsStates_sendDisable :
    QuicStreams.KeepsStates fun si => { si with sendState := .disable } := by
  refine fun si => ⟨fun h => h, fun _ h => ?_⟩
  cases h

/-- Resetting the receiving part keeps the entry open. -/
theorem keepsStates_recvReset : QuicStreams.KeepsStates FrameState.recvReset := by
  intro si
  unfold FrameState.recvReset
  split <;> simp_all

/-- A limit has no effect on the states. -/
theorem keepsStates_maxStreamData (value : ℕ) : QuicStreams.KeepsStates fun si =>
    if quicLt si.maxStreamData value then { si with maxStreamData := value } else si := by
  intro si
  dsimp only
  split
  · exact ⟨fun h => h, fun h => h⟩
  · exact ⟨fun h => h, fun h => h⟩

/-- A write keeps the streams. -/
theorem FrameMove.keeps {type : ℕ} {frame : RPacket} {c d : FrameConn}
    (h : FrameMove type frame c d) :
    c.streams.Keeps d.streams := by
  cases h with
  | find => exact QuicStreams.keeps_opened
  | recvReset => exact QuicStreams.keeps_updateSi keepsStates_recvReset
  | stopSending => exact QuicStreams.keeps_updateSi keepsStates_sendDisable
  | recvOpen => exact QuicStreams.keeps_updateSi QuicStreams.keepsStates_recvOpen
  | sendReady => exact QuicStreams.keeps_updateSi QuicStreams.keepsStates_sendReady
  | recvFin => exact QuicStreams.keeps_updateSi (QuicStreams.keepsStates_recvFin _)
  | dataAdd => exact QuicStreams.keeps_dataAdd _
  | notify => exact QuicStreams.keeps_notify
  | limit => exact ⟨rfl, rfl, rfl, rfl, fun _ h => h, fun _ h => h⟩
  | maxStreamData id value =>
    have hkeeps := @QuicStreams.keeps_updateSi c.streams id _ (keepsStates_maxStreamData value)
    exact hkeeps
  | raise | aside | draining | handshakeDone => exact QuicStreams.Keeps.refl _
  | acked p =>
    have hkeeps := @QuicStreams.keeps_ackLoop c.streams p.1 p.2 c.sentQueue.reverse
    rw [qBufAckLoop_eq] at hkeeps
    exact hkeeps

namespace FrameState

variable {s : FrameState} {h : ℕ} {p : FrameConn → Prop} [DecidablePred p]

/-- A check that passes. -/
theorem check_of_pos (hp : p s.conn) : check p s = (.ok (), s) := by
  rw [check, connection, Prog.get_bind, Prog.ensure_of_pos hp]
  rfl

/-- A check that fails. -/
theorem check_of_neg (hp : ¬ p s.conn) : check p s = (.error .ret, { s with refused := true }) := by
  rw [check, connection, Prog.get_bind, Prog.ensure_of_neg hp]
  rfl

/-- A stream that is found. -/
theorem getInstance_of_found (hfound : s.conn.streams.Found h) :
    connection (FrameConn.withStreams (quicStreamGetInstance h)) s =
      (.ok h, { s with conn.streams := s.conn.streams.opened h }) := by
  rw [connection, FrameConn.withStreams, Prog.zoom_of_ok (quicStreamGetInstance_of_found hfound)]

/-- A stream that is not found. -/
theorem getInstance_of_not_found (hfound : ¬ s.conn.streams.Found h) :
    connection (FrameConn.withStreams (quicStreamGetInstance h)) s =
      (.error .ret, { s with refused := true }) := by
  rw [connection, FrameConn.withStreams,
    Prog.zoom_of_error (quicStreamGetInstance_of_not_found hfound)]

/-- A run that ends normally read its number. -/
theorem readVar_bind_of_ok {β : Type} {k : ℕ → Prog Fail FrameState β} {b : β}
    (hrun : ((readVar >>= k) s).1 = .ok b) :
    ∃ a pkt, quicVariableLengthDecode s.pkt = (.ok a, pkt) ∧
      (readVar >>= k) s = k a { s with pkt } := by
  rcases hread : quicVariableLengthDecode s.pkt with ⟨r, pkt⟩
  cases r with
  | error e =>
    rw [readVar, Prog.bind_of_error (Prog.zoom_of_error hread)] at hrun
    cases hrun
  | ok a =>
    refine ⟨a, pkt, rfl, ?_⟩
    rw [readVar, Prog.bind_of_ok (Prog.zoom_of_ok hread)]

end FrameState

/-- The run of a program makes some writes of a frame. -/
def Moving {α : Type} (type : ℕ) (frame : RPacket) (m : Prog Fail FrameState α)
    (s : FrameState) : Prop :=
  FrameMoves type frame s.conn (m s).2.conn

namespace Moving

open FrameState

variable {α β : Type} {type : ℕ} {frame : RPacket} {s : FrameState}

/-- A result writes nothing. -/
theorem pure (a : α) : Moving type frame (Pure.pure a : Prog Fail FrameState α) s :=
  Relation.ReflTransGen.refl

/-- A failure writes nothing. -/
theorem fail (e : Fail) : Moving type frame (Prog.fail e : Prog Fail FrameState α) s :=
  Relation.ReflTransGen.refl

/-- A read writes nothing. -/
theorem zoom_bind {read : Prog Fail RPacket α} {k : α → Prog Fail FrameState β}
    (hk : ∀ a pkt, read s.pkt = (.ok a, pkt) → Moving type frame (k a) { s with pkt }) :
    Moving type frame
      (Prog.zoom FrameState.pkt (fun pkt s => { s with pkt }) read >>= k) s := by
  unfold Moving
  rcases hread : read s.pkt with ⟨r, pkt⟩
  cases r with
  | error e =>
    rw [Prog.bind_of_error (Prog.zoom_of_error hread)]
    exact Relation.ReflTransGen.refl
  | ok a =>
    rw [Prog.bind_of_ok (Prog.zoom_of_ok hread)]
    exact hk a pkt hread

/-- A number is read. -/
theorem readVar_bind {k : ℕ → Prog Fail FrameState β}
    (hk : ∀ a pkt, quicVariableLengthDecode s.pkt = (.ok a, pkt) →
      Moving type frame (k a) { s with pkt }) : Moving type frame (readVar >>= k) s :=
  zoom_bind hk

/-- Bytes are read. -/
theorem readBytes_bind {len : ℕ} {k : List UInt8 → Prog Fail FrameState β}
    (hk : ∀ a pkt, rPacketGetBytes len s.pkt = (.ok a, pkt) →
      Moving type frame (k a) { s with pkt }) : Moving type frame (readBytes len >>= k) s :=
  zoom_bind hk

/-- A check writes nothing. -/
theorem check_bind {p : FrameConn → Prop} [DecidablePred p] {k : Unit → Prog Fail FrameState β}
    (hk : p s.conn → Moving type frame (k ()) s) : Moving type frame (check p >>= k) s := by
  unfold Moving
  by_cases hp : p s.conn
  · rw [Prog.bind_of_ok (check_of_pos hp)]
    exact hk hp
  · rw [Prog.bind_of_error (check_of_neg hp)]
    exact Relation.ReflTransGen.refl

/-- A stream is found. -/
theorem getInstance_bind {h : ℕ} {k : ℕ → Prog Fail FrameState β}
    (hframe : frameNumbers 1 frame = some [h])
    (hk : s.conn.streams.Found h → Moving type frame (k h)
      { s with conn.streams := s.conn.streams.opened h }) :
    Moving type frame (connection (FrameConn.withStreams (quicStreamGetInstance h)) >>= k) s := by
  unfold Moving
  by_cases hfound : s.conn.streams.Found h
  · rw [Prog.bind_of_ok (getInstance_of_found hfound)]
    exact Relation.ReflTransGen.head (FrameMove.find h hfound hframe) (hk hfound)
  · rw [Prog.bind_of_error (getInstance_of_not_found hfound)]
    exact Relation.ReflTransGen.refl

/-- The connection is written. -/
theorem modify {f : FrameConn → FrameConn} (hmove : FrameMove type frame s.conn (f s.conn)) :
    Moving type frame (connection (Prog.modify f)) s :=
  Relation.ReflTransGen.single hmove

/-- The connection is written, and the program goes on. -/
theorem modify_bind {f : FrameConn → FrameConn} {k : Unit → Prog Fail FrameState β}
    (hmove : FrameMove type frame s.conn (f s.conn))
    (hk : Moving type frame (k ()) { s with conn := f s.conn }) :
    Moving type frame (connection (Prog.modify f) >>= k) s := by
  unfold Moving
  rw [Prog.bind_of_ok (show connection (Prog.modify f) s = (.ok (), { s with conn := f s.conn })
    from rfl)]
  exact Relation.ReflTransGen.head hmove hk

/-- The buffer of the handshake is written. -/
theorem withBuffer_bind {m : Prog Fail QuicBuffer α} {k : α → Prog Fail FrameState β}
    (hk : ∀ a buffer, Moving type frame (k a) { s with conn.buffer := buffer }) :
    Moving type frame (connection (FrameConn.withBuffer m) >>= k) s := by
  unfold Moving
  have hmove (buffer : QuicBuffer) : FrameMove type frame s.conn { s.conn with buffer } :=
    FrameMove.aside s.conn.token s.conn.cidPool buffer (.inl rfl)
  rcases hrun : m s.conn.buffer with ⟨r, buffer⟩
  cases r with
  | error e =>
    have hstep : connection (FrameConn.withBuffer m) s =
        (.error e, { s with conn.buffer := buffer, refused := true }) := by
      rw [connection, FrameConn.withBuffer, Prog.zoom_of_error hrun]
    rw [Prog.bind_of_error hstep]
    exact Relation.ReflTransGen.single (hmove buffer)
  | ok a =>
    have hstep : connection (FrameConn.withBuffer m) s =
        (.ok a, { s with conn.buffer := buffer }) := by
      rw [connection, FrameConn.withBuffer, Prog.zoom_of_ok hrun]
    rw [Prog.bind_of_ok hstep]
    exact Relation.ReflTransGen.head (hmove buffer) (hk a buffer)

/-- A copy of bytes is taken. -/
theorem dataParse_bind {mem : ℕ → Bool} {len : ℕ} {k : List UInt8 → Prog Fail FrameState β}
    (hk : ∀ a pkt, Moving type frame (k a) { s with pkt }) :
    Moving type frame (quicDataParse mem len >>= k) s := by
  rw [quicDataParse, Prog.bind_assoc]
  refine check_bind fun _ => ?_
  unfold Moving
  rcases hread : rPacketGetBytes len s.pkt with ⟨r, pkt⟩
  have hattempt : Prog.attempt (readBytes len) s = (.ok r, { s with pkt }) := by
    rw [Prog.attempt, readBytes, Prog.zoom_apply, hread]
  rw [Prog.bind_assoc, Prog.bind_of_ok hattempt]
  cases r with
  | ok bytes =>
    dsimp only
    rw [Prog.pure_bind]
    exact hk bytes pkt
  | error e =>
    cases e with
    | ret =>
      dsimp only
      rw [Prog.bind_of_error (show invalidFree { s with pkt } = _ from rfl)]
      exact Relation.ReflTransGen.refl
    | assert | ub | fuel =>
      dsimp only
      rw [Prog.fail_bind]
      exact Relation.ReflTransGen.refl

/-- A condition is checked. -/
theorem ensure_bind {e : Fail} {p : Prop} [Decidable p] {k : Unit → Prog Fail FrameState β}
    (hk : Moving type frame (k ()) s) : Moving type frame (Prog.ensure e p >>= k) s := by
  by_cases hp : p
  · rw [Prog.ensure_of_pos hp, Prog.pure_bind]
    exact hk
  · rw [Prog.ensure_of_neg hp, Prog.fail_bind]
    exact Moving.fail e

section Parsers

variable {type : ℕ} (mem : ℕ → Bool) (s : FrameState)

theorem crypto : Moving type frame (FrameState.quicFrameCryptoParser mem) s := by
  rw [FrameState.quicFrameCryptoParser]
  refine readVar_bind fun offset _ _ => readVar_bind fun length _ _ => ?_
  refine withBuffer_bind fun _ _ => readBytes_bind fun bytes _ _ => withBuffer_bind fun _ _ => ?_
  rw [← Prog.bind_pure_unit (connection _)]
  exact withBuffer_bind fun a buffer => Moving.pure ()

theorem newToken : Moving type frame (quicFrameNewTokenParser mem) s := by
  rw [quicFrameNewTokenParser]
  refine check_bind fun _ => readVar_bind fun length _ _ => modify_bind ?_ ?_
  · exact FrameMove.aside none s.conn.cidPool s.conn.buffer (.inl rfl)
  · refine dataParse_bind fun bytes _ => modify ?_
    exact FrameMove.aside (some bytes) s.conn.cidPool s.conn.buffer (.inl rfl)

theorem resetStream : Moving 0x04 s.pkt quicFrameResetStreamParser s := by
  rw [quicFrameResetStreamParser]
  refine readVar_bind fun h _ hid => readVar_bind fun code _ hcode => ?_
  refine readVar_bind fun size _ hsize => ?_
  refine getInstance_bind (frameNumbers_one hid) fun hfound => modify ?_
  exact FrameMove.recvReset h code size (hfound.keeps QuicStreams.keeps_opened) rfl
    (frameNumbers_three hid hcode hsize)

theorem stopSending : Moving 0x05 s.pkt quicFrameStopSendingParser s := by
  rw [quicFrameStopSendingParser]
  refine readVar_bind fun h _ hid => getInstance_bind (frameNumbers_one hid) fun hfound => ?_
  refine check_bind fun hsend => ?_
  have hstop := FrameMove.stopSending h (hfound.keeps QuicStreams.keeps_opened) rfl
    (frameNumbers_one hid) hsend
  refine modify_bind hstop (readVar_bind fun _ _ _ => modify ?_)
  exact FrameMove.recvOpen h ((hfound.keeps QuicStreams.keeps_opened).keeps hstop.keeps) (.inl rfl)
    (frameNumbers_one hid)

theorem streamParamUpdate (k : LimitKind) :
    Moving k.frameType s.pkt (quicFrameStreamParamUpdate k.get k.set) s := by
  rw [quicFrameStreamParamUpdate]
  refine readVar_bind fun value _ hvalue => modify ?_
  have hmove := @FrameMove.limit k.frameType s.pkt s.conn k value rfl (frameNumbers_one hvalue)
  rw [Prog.modify_apply]
  dsimp only
  split_ifs at hmove ⊢ <;> exact hmove

theorem maxStreamData : Moving 0x11 s.pkt quicFrameMaxStreamDataParser s := by
  rw [quicFrameMaxStreamDataParser]
  refine readVar_bind fun h _ hid => getInstance_bind (frameNumbers_one hid) fun hfound => ?_
  refine check_bind fun _ => readVar_bind fun value _ hvalue => modify ?_
  exact FrameMove.maxStreamData h value (hfound.keeps QuicStreams.keeps_opened) rfl
    (frameNumbers_two hid hvalue)

theorem dataBlocked : Moving type frame quicFrameDataBlockedParser s := by
  rw [quicFrameDataBlockedParser]
  exact readVar_bind fun _ _ _ => Moving.pure ()

theorem streamDataBlocked : Moving 0x15 s.pkt quicFrameStreamDataBlockedParser s := by
  rw [quicFrameStreamDataBlockedParser]
  refine readVar_bind fun h _ hid => getInstance_bind (frameNumbers_one hid) fun hfound => ?_
  refine check_bind fun _ => readVar_bind fun value _ _ => modify ?_
  exact FrameMove.recvOpen h (hfound.keeps QuicStreams.keeps_opened) (.inr (.inl rfl))
    (frameNumbers_one hid)

theorem newConnId : Moving 0x18 frame (quicFrameNewConnIdParser mem) s := by
  rw [quicFrameNewConnIdParser]
  refine readVar_bind fun seq _ _ => readVar_bind fun prior _ _ => readVar_bind fun len _ _ => ?_
  refine check_bind fun _ => modify_bind ?_ (check_bind fun _ => dataParse_bind fun id _ => ?_)
  · exact FrameMove.aside s.conn.token _ s.conn.buffer (.inr (.inl rfl))
  · exact readBytes_bind fun token _ _ => modify
      (FrameMove.aside s.conn.token _ s.conn.buffer (.inr (.inl rfl)))

theorem retireConnId : Moving 0x19 frame quicFrameRetireConnIdParser s := by
  rw [quicFrameRetireConnIdParser]
  exact readVar_bind fun seq _ _ => modify
    (FrameMove.aside s.conn.token _ s.conn.buffer (.inr (.inr rfl)))

theorem connClose (htype : type = 0x1c ∨ type = 0x1d) :
    Moving type frame (quicFrameConnCloseParser type) s := by
  have hrest (n : ℕ) (t : FrameState) : Moving type frame (do
      let _frameType ← (Pure.pure n : Prog Fail FrameState ℕ)
      let len ← readVar
      let _reasonPhrase ← readBytes len
      connection (Prog.modify fun c => { c with statem := .draining })) t := by
    rw [Prog.pure_bind]
    refine readVar_bind fun len _ _ => readBytes_bind fun _ _ _ => modify ?_
    exact FrameMove.draining htype
  rw [quicFrameConnCloseParser]
  refine readVar_bind fun _ _ _ => ?_
  split_ifs
  · refine readVar_bind fun _ _ _ => readVar_bind fun len _ _ => readBytes_bind fun _ _ _ => ?_
    exact modify (FrameMove.draining htype)
  · exact hrest 0 _

theorem handshakeDone :
    Moving quicFrameTypeHandshakeDone frame quicFrameHandshakeDoneParser s := by
  rw [quicFrameHandshakeDoneParser]
  unfold Moving connection
  rw [Prog.modify_apply]
  dsimp only
  split_ifs with hserver
  · exact Relation.ReflTransGen.refl
  · exact Relation.ReflTransGen.single
      (FrameMove.handshakeDone rfl (Bool.eq_false_iff.mpr hserver))

/-- The end of the parser of a STREAM frame. -/
theorem streamStore {id offset : ℕ} {data : List UInt8} (htype : StreamType type)
    (hframe : frameNumbers 1 frame = some [id])
    (hread : (readStreamFrame type frame).1 = .ok (id, ⟨offset, data⟩))
    (hfound : s.conn.streams.Found id) :
    Moving type frame (connection (quicFrameStreamStore id offset data)) s := by
  have hopen := FrameMove.recvOpen id hfound (.inr (.inr htype)) hframe
  have hfound' := hfound.keeps hopen.keeps
  refine Relation.ReflTransGen.head hopen ?_
  unfold connection
  rw [quicFrameStreamStore, FrameConn.withStreams,
    Prog.bind_of_ok (Prog.zoom_of_ok (Prog.modify_apply _ _)), Prog.get_bind]
  dsimp only
  split_ifs with hstate
  · exact Relation.ReflTransGen.refl
  · rw [not_and_or, not_not, not_not] at hstate
    by_cases hbuf : s.conn.buf = true
    · rw [Prog.ensure_of_pos hbuf, Prog.pure_bind, FrameConn.withStreams,
        Prog.bind_of_ok (Prog.zoom_of_ok (Prog.modify_apply _ _))]
      have hadd := FrameMove.dataAdd id ⟨offset, data⟩ hfound' htype hread hstate
      refine Relation.ReflTransGen.head hadd ?_
      exact Relation.ReflTransGen.single (FrameMove.notify id (hfound'.keeps hadd.keeps) htype)
    · rw [Prog.ensure_of_neg hbuf, Prog.fail_bind]
      exact Relation.ReflTransGen.refl

/-- The parser of a STREAM frame behind its numbers. -/
theorem streamBody (htype : StreamType type) {h offset len : ℕ}
    (hframe : frameNumbers 1 frame = some [h])
    (hheader : quicFrameStreamHeader type frame = (.ok ⟨h, offset, len⟩, s.pkt)) :
    Moving type frame (quicFrameStreamBody type h offset len) s := by
  rw [quicFrameStreamBody]
  refine getInstance_bind hframe fun hfound => check_bind fun hrecv => ?_
  have hfound₁ := hfound.keeps (@QuicStreams.keeps_opened s.conn.streams h)
  have hid : streamFrameId type frame = some h := by
    rw [streamFrameId, hheader]
    rfl
  have hready := FrameMove.sendReady h hfound₁ htype hframe hid hrecv
  have hfound₂ := hfound₁.keeps hready.keeps
  have hfin := FrameMove.recvFin h hfound₂ htype hframe (hready.keeps.recv h hrecv)
  refine modify_bind hready (modify_bind hfin (readBytes_bind fun data pkt hdata => ?_))
  refine streamStore _ htype hframe ?_ (hfound₂.keeps hfin.keeps)
  rw [readStreamFrame, Prog.bind_of_ok hheader]
  dsimp only at hdata ⊢
  rw [Prog.bind_of_ok hdata]
  rfl

/-- The length of the data of a STREAM frame is read. -/
theorem streamLen_bind {k : ℕ → Prog Fail FrameState β}
    (hk : ∀ len pkt, quicFrameStreamLen type s.pkt = (.ok len, pkt) →
      Moving type frame (k len) { s with pkt }) :
    Moving type frame (readStreamLen type >>= k) s := by
  unfold quicFrameStreamLen at hk
  rw [readStreamLen]
  split_ifs at hk ⊢
  · exact readVar_bind hk
  · unfold Moving
    rw [readRemaining, Prog.bind_assoc, Prog.get_bind, Prog.pure_bind]
    exact hk s.pkt.remaining s.pkt (by rw [Prog.get_bind]; rfl)

/-- The offset of the data of a STREAM frame is read. -/
theorem streamOffset_bind {k : ℕ → Prog Fail FrameState β}
    (hk : ∀ offset pkt, quicFrameStreamOffset type s.pkt = (.ok offset, pkt) →
      Moving type frame (k offset) { s with pkt }) :
    Moving type frame (readStreamOffset type >>= k) s := by
  unfold quicFrameStreamOffset at hk
  rw [readStreamOffset]
  split_ifs at hk ⊢
  · exact readVar_bind hk
  · rw [Prog.pure_bind]
    exact hk 0 s.pkt rfl

theorem stream (htype : StreamType type) :
    Moving type s.pkt (FrameState.quicFrameStreamParser type) s := by
  rw [FrameState.quicFrameStreamParser]
  refine readVar_bind fun h _ hid => streamOffset_bind _ fun offset _ hoffset => ?_
  refine streamLen_bind _ fun len pkt hlen => streamBody _ htype (frameNumbers_one hid) ?_
  dsimp only at hoffset hlen
  rw [quicFrameStreamHeader, Prog.bind_of_ok hid, Prog.bind_of_ok hoffset, Prog.bind_of_ok hlen]
  rfl

/-- The packets of a range are acknowledged. -/
theorem ackSentPkt_bind {smallest largest : ℕ} {start : Bool} {k : Bool → Prog Fail FrameState β}
    (hk : ∀ found t, Moving quicFrameTypeAck frame (k found) t) :
    Moving quicFrameTypeAck frame (ackHandlers.ackSentPkt smallest largest start >>= k) s := by
  unfold Moving
  change FrameMoves _ _ _ ((connection (FrameConn.withSent _) >>= k) s).2.conn
  cases start with
  | true =>
    have hstep : connection (FrameConn.withSent (qBufAckSentPkt smallest largest true)) s =
        (.error .ub, { s with refused := true }) := by
      rw [connection, FrameConn.withSent, Prog.zoom_of_error (qBufAckSentPkt_true _ _ _)]
      rfl
    rw [Prog.bind_of_error hstep]
    exact Relation.ReflTransGen.refl
  | false =>
    rw [Prog.bind_of_ok (show connection (FrameConn.withSent _) s = _ by
      rw [connection, FrameConn.withSent,
        Prog.zoom_of_ok (qBufAckSentPkt_false_eq (smallest, largest) _)])]
    refine Relation.ReflTransGen.head (FrameMove.acked (smallest, largest) rfl) ?_
    have hrest := hk (s.conn.sent.sentQueue.reverse.any (ackSweep (smallest, largest)).stops)
      { s with conn := { s.conn with
        streams := (ackSwept (smallest, largest) s.conn.sent).streams
        sentQueue := (ackSwept (smallest, largest) s.conn.sent).sentQueue } }
    exact hrest

/-- The ranges of an ACK frame. -/
theorem ackRanges (count smallest : ℕ) (start : Bool) :
    Moving quicFrameTypeAck frame (ackHandlers.ranges smallest start count) s := by
  induction count generalizing smallest start s with
  | zero => exact Moving.pure ()
  | succ count ih =>
    rw [AckHandlers.ranges]
    refine readVar_bind fun gap _ _ => readVar_bind fun len _ _ => ensure_bind ?_
    exact ackSentPkt_bind _ fun found t => ih t _ found

theorem ack : Moving quicFrameTypeAck s.pkt FrameState.quicFrameAckParser s := by
  rw [FrameState.quicFrameAckParser, AckHandlers.parser]
  refine readVar_bind fun largest pkt hlargest => ?_
  have hraise := @FrameMove.raise quicFrameTypeAck s.pkt s.conn largest rfl
    (frameNumbers_one hlargest)
  have hconn : (ackHandlers.raise largest { s with pkt }).conn = { s.conn with
      largestAcked := if quicGe largest s.conn.largestAcked then largest
        else s.conn.largestAcked } := by
    change (if quicGe largest s.conn.largestAcked then _ else _ : FrameState).conn = _
    split_ifs <;> rfl
  unfold Moving
  rw [Prog.modify_bind]
  refine Relation.ReflTransGen.head hraise ?_
  rw [← hconn]
  refine readVar_bind fun delay _ _ => readVar_bind fun count _ _ => readVar_bind
    fun first _ _ => ?_
  exact ensure_bind (ackSentPkt_bind _ fun found t => ackRanges t count _ found)

end Parsers

end Moving

/-- A parser makes writes of its frame. -/
theorem frameParser_moving {mem : ℕ → Bool} {type : ℕ} {parser : Prog Fail FrameState Unit}
    (hparser : FrameState.frameParser mem type = some parser) (s : FrameState) :
    Moving type s.pkt parser s := by
  unfold FrameState.frameParser at hparser
  split at hparser <;> cases hparser
  · exact Moving.pure ()
  · exact Moving.ack s
  · exact Moving.resetStream s
  · exact Moving.stopSending s
  · exact Moving.crypto mem s
  · exact Moving.newToken mem s
  · exact Moving.stream s (by decide)
  · exact Moving.stream s (by decide)
  · exact Moving.stream s (by decide)
  · exact Moving.stream s (by decide)
  · exact Moving.stream s (by decide)
  · exact Moving.stream s (by decide)
  · exact Moving.stream s (by decide)
  · exact Moving.stream s (by decide)
  · exact Moving.streamParamUpdate s .data
  · exact Moving.maxStreamData s
  · exact Moving.streamParamUpdate s .streamsBidi
  · exact Moving.streamParamUpdate s .streamsUni
  · exact Moving.dataBlocked s
  · exact Moving.streamDataBlocked s
  · exact Moving.newConnId mem s
  · exact Moving.retireConnId s
  · exact Moving.connClose s (by decide)
  · exact Moving.connClose s (by decide)
  · exact Moving.handshakeDone s

end Tbquic
