import Mathlib.Tactic.IntervalCases
import Tbquic.Frame.Connection

/-!
# The layouts of frames

What a frame consists of, apart from the connection that receives it. A parser reads its packet as
the layout of its frame says, unless the connection stops it.
-/

namespace Tbquic

/-- A part of a frame. -/
inductive FrameItem
  /-- A number. -/
  | number
  /-- Bytes behind their number. -/
  | counted
  /-- Bytes behind their number that are copied to memory of their own. -/
  | owned
  /-- The rest of the packet. -/
  | toEnd
  /-- A fixed number of bytes. -/
  | fixed (len : ℕ)
  /-- The numbers of an ACK frame. -/
  | ack
  deriving DecidableEq, Repr

/-- The parts of a STREAM frame. -/
def streamLayout (type : ℕ) : List FrameItem :=
  .number :: ((if streamBitOff type then [.number] else []) ++
    [if streamBitLen type then .counted else .toEnd])

/-- The parts of a frame behind its type, for the types with an entry in `frame_handler`. -/
def frameLayout (type : ℕ) : Option (List FrameItem) :=
  match type with
  | 0x00 | 0x01 | 0x1e => some []
  | 0x02 => some [.ack]
  | 0x04 => some [.number, .number, .number]
  | 0x05 | 0x11 | 0x15 => some [.number, .number]
  | 0x06 => some [.number, .counted]
  | 0x07 => some [.owned]
  | 0x08 | 0x09 | 0x0a | 0x0b | 0x0c | 0x0d | 0x0e | 0x0f => some (streamLayout type)
  | 0x10 | 0x12 | 0x13 | 0x14 | 0x19 => some [.number]
  | 0x18 => some [.number, .number, .owned, .fixed quicStatelessResetTokenLen]
  | 0x1c => some [.number, .number, .counted]
  | 0x1d => some [.number, .counted]
  | _ => none

/-- Read bytes that `QuicDataParse` copies. -/
def readOwned (len : ℕ) : Prog Fail RPacket (List UInt8) := do
  match ← Prog.attempt (rPacketGetBytes len) with
  | .ok bytes => pure bytes
  | .error .ret => Prog.fail .ub
  | .error e => Prog.fail e

/-- Read the numbers of an ACK frame behind Largest Acknowledged. -/
def readAckRest (largest : ℕ) : Prog Fail RPacket Unit := fun pkt =>
  ((readAckBody largest pkt).result, (readAckBody largest pkt).pkt)

/-- Read the numbers of an ACK frame. -/
def readAck : Prog Fail RPacket Unit := do
  let largest ← quicVariableLengthDecode
  readAckRest largest

/-- Read a part of a frame. -/
def FrameItem.read : FrameItem → Prog Fail RPacket Unit
  | number => do
    let _ ← quicVariableLengthDecode
    pure ()
  | counted => do
    let len ← quicVariableLengthDecode
    let _ ← rPacketGetBytes len
    pure ()
  | owned => do
    let len ← quicVariableLengthDecode
    let _ ← readOwned len
    pure ()
  | toEnd => do
    let pkt ← Prog.get
    let _ ← rPacketGetBytes pkt.remaining
    pure ()
  | fixed len => do
    let _ ← rPacketGetBytes len
    pure ()
  | ack => readAck

/-- Read the parts of a frame. -/
def readItems : List FrameItem → Prog Fail RPacket Unit
  | [] => pure ()
  | i :: items => do
    i.read
    readItems items

/-- The frame loop on the bytes of a packet alone. -/
def layoutHandlers : FrameHandlers RPacket where
  pkt := id
  setPkt pkt _ := pkt
  setPkt_pkt _ := rfl
  parser type := (frameLayout type).map readItems
  ackFrameBuild := pure ()
  cryptoFound := pure ()

namespace FrameState

variable {α β γ δ : Type}

section Halting

/-- A check fails with an error of the parser. -/
theorem never_ensure (p : FrameConn → Prop) [DecidablePred p] : Prog.Never .fuel
    (do let c ← Prog.get; Prog.ensure Fail.ret (p c)) :=
  Prog.Never.bind Prog.Never.get fun _ => Prog.Never.ensure (by decide) _

/-- A step of the streams always ends. -/
theorem never_modifyStreams (f : QuicStreams → QuicStreams) :
    Prog.Never .fuel (FrameConn.withStreams (Prog.modify f)) :=
  Prog.Never.zoom (Prog.Never.modify f)

/-- `QuicStreamGetInstance` always ends. -/
theorem never_getInstance (h : ℤ) :
    Prog.Never .fuel (FrameConn.withStreams (quicStreamGetInstance h)) := by
  refine Prog.Never.zoom (Prog.Never.bind Prog.Never.get fun q => ?_)
  refine Prog.Never.bind (Prog.Never.ensure (by decide) _) fun _ => ?_
  refine Prog.Never.bind (Prog.Never.ensure (by decide) _) fun _ => ?_
  refine Prog.Never.bind (Prog.Never.ensure (by decide) _) fun _ => ?_
  refine Prog.Never.ite ?_ (Prog.Never.pure _)
  exact Prog.Never.bind (Prog.Never.modify _) fun _ => Prog.Never.pure _

/-- The data of a STREAM frame is always stored or refused. -/
theorem never_streamStore (id offset : ℕ) (data : List UInt8) :
    Prog.Never .fuel (quicFrameStreamStore id offset data) := by
  refine Prog.Never.bind (never_modifyStreams _) fun _ => Prog.Never.bind Prog.Never.get fun c => ?_
  refine Prog.Never.ite (Prog.Never.pure ()) ?_
  refine Prog.Never.bind (Prog.Never.ensure (by decide) _) fun _ => ?_
  exact Prog.Never.bind (never_modifyStreams _) fun _ => never_modifyStreams _

/-- Room for a CRYPTO frame is made or refused. -/
theorem never_cryptoGrow (mem : ℕ → Bool) (totalLen : ℕ) :
    Prog.Never .fuel (FrameConn.withBuffer (quicFrameCryptoGrow mem totalLen)) := by
  refine Prog.Never.zoom (Prog.Never.bind Prog.Never.get fun buf => ?_)
  refine Prog.Never.ite ?_ (Prog.Never.pure ())
  exact Prog.Never.bind (Prog.Never.ofOption (by decide) _) fun _ => Prog.Never.modify _

/-- The data of a CRYPTO frame is always copied, also to other memory. -/
theorem never_cryptoCopy (offset : ℕ) (bytes : List UInt8) :
    Prog.Never .fuel (FrameConn.withBuffer (quicFrameCryptoCopy offset bytes)) := by
  refine Prog.Never.zoom (Prog.Never.bind Prog.Never.get fun buf => ?_)
  exact Prog.Never.bind (Prog.Never.ensure (by decide) _) fun _ => Prog.Never.modify _

/-- `QBufAckSentPkt` always ends. -/
theorem never_ackSentPkt (smallest largest : ℕ) (start : Bool) :
    Prog.Never .fuel (FrameConn.withSent (qBufAckSentPkt smallest largest start)) := by
  refine Prog.Never.zoom (Prog.Never.bind (Prog.Never.ensure (by decide) _) fun _ => ?_)
  refine Prog.Never.bind Prog.Never.get fun s => ?_
  exact Prog.Never.bind (Prog.Never.modify _) fun _ => Prog.Never.pure _

end Halting

/-- A run on a connection reads its packet as another one reads the bytes alone, unless the
connection stops it. -/
structure ReadsAs (refused : Bool) (run : Except Fail α × FrameState)
    (read : Except Fail β × RPacket) : Prop where
  /-- What stopped before is not resumed. -/
  stays : refused = true → run.2.refused = true
  /-- The connection stops the run with an error. -/
  halts : refused = false → run.2.refused = true → ∃ e, run.1 = .error e ∧ e ≠ .fuel
  /-- A run that is not stopped reads the bytes. -/
  reads : run.2.refused = false →
    run.1.map (fun _ => ()) = read.1.map (fun _ => ()) ∧ run.2.pkt = read.2

/-- A program on a connection reads its packet as another one reads the bytes alone, unless the
connection stops it. -/
def Reads (m : Prog Fail FrameState α) (read : Prog Fail RPacket β) : Prop :=
  ∀ s, ReadsAs s.refused (m s) (read s.pkt)

/-- A run that leaves the note of refusals alone. -/
theorem ReadsAs.of_eq {refused : Bool} {run : Except Fail α × FrameState}
    {read : Except Fail β × RPacket} (hrefused : run.2.refused = refused)
    (hresult : run.1.map (fun _ => ()) = read.1.map (fun _ => ())) (hpkt : run.2.pkt = read.2) :
    ReadsAs refused run read where
  stays h := hrefused.trans h
  halts h h' := by
    rw [hrefused, h] at h'
    cases h'
  reads _ := ⟨hresult, hpkt⟩

/-- A run that the connection stops. -/
theorem ReadsAs.of_refused {refused : Bool} {run : Except Fail α × FrameState}
    {read : Except Fail β × RPacket} (hrefused : run.2.refused = true) {e : Fail}
    (hresult : run.1 = .error e) (he : e ≠ .fuel) : ReadsAs refused run read where
  stays _ := hrefused
  halts _ _ := ⟨e, hresult, he⟩
  reads h := by
    rw [hrefused] at h
    cases h

namespace Reads

/-- Nothing is read by a result. -/
theorem pure (a : α) (b : β) : Reads (Pure.pure a) (Pure.pure b) :=
  fun _ => ReadsAs.of_eq rfl rfl rfl

/-- A failure reads nothing. -/
theorem fail (e : Fail) :
    Reads (Prog.fail e : Prog Fail FrameState α) (Prog.fail e : Prog Fail RPacket β) :=
  fun _ => ReadsAs.of_eq rfl rfl rfl

/-- What is read from the packet first. -/
theorem zoom_bind (read : Prog Fail RPacket α) {k : α → Prog Fail FrameState β}
    {k' : α → Prog Fail RPacket γ} (h : ∀ a, Reads (k a) (k' a)) :
    Reads (Prog.zoom FrameState.pkt (fun pkt s => { s with pkt }) read >>= k) (read >>= k') := by
  intro s
  rcases hread : read s.pkt with ⟨r, pkt⟩
  cases r with
  | error e =>
    rw [Prog.bind_of_error (Prog.zoom_of_error hread), Prog.bind_of_error hread]
    exact ReadsAs.of_eq rfl rfl rfl
  | ok a =>
    rw [Prog.bind_of_ok (Prog.zoom_of_ok hread), Prog.bind_of_ok hread]
    exact h a { s with pkt }

/-- A step of the connection reads nothing. -/
theorem connection_bind {m : Prog Fail FrameConn α} (hm : Prog.Never .fuel m)
    {k : α → Prog Fail FrameState β} {read : Prog Fail RPacket γ} (h : ∀ a, Reads (k a) read) :
    Reads (connection m >>= k) read := by
  intro s
  have hhalts := hm s.conn
  rcases hrun : m s.conn with ⟨r, conn⟩
  rw [hrun] at hhalts
  cases r with
  | error e =>
    have hstep : connection m s = (.error e, { s with conn, refused := true }) := by
      rw [connection, hrun]
    rw [Prog.bind_of_error hstep]
    exact ReadsAs.of_refused rfl rfl fun he => hhalts (congrArg Except.error he)
  | ok a =>
    have hstep : connection m s = (.ok a, { s with conn }) := by
      rw [connection, hrun]
    rw [Prog.bind_of_ok hstep]
    exact h a { s with conn }

/-- A check of the connection reads nothing. -/
theorem check_bind {p : FrameConn → Prop} [DecidablePred p] {k : Unit → Prog Fail FrameState β}
    {read : Prog Fail RPacket γ} (h : ∀ u, Reads (k u) read) : Reads (check p >>= k) read :=
  connection_bind (never_ensure p) h

/-- A last step of the connection. -/
theorem connection {m : Prog Fail FrameConn α} (hm : Prog.Never .fuel m) (b : β) :
    Reads (connection m) (Pure.pure b) := by
  intro s
  have hhalts := hm s.conn
  rcases hrun : m s.conn with ⟨r, conn⟩
  rw [hrun] at hhalts
  unfold FrameState.connection
  rw [hrun]
  cases r with
  | error e => exact ReadsAs.of_refused rfl rfl fun he => hhalts (congrArg Except.error he)
  | ok a => exact ReadsAs.of_eq rfl rfl rfl

/-- A number is read. -/
theorem number {k : ℕ → Prog Fail FrameState β} {items : List FrameItem}
    (h : ∀ n, Reads (k n) (readItems items)) :
    Reads (readVar >>= k) (readItems (.number :: items)) := by
  rw [readItems, FrameItem.read, Prog.bind_assoc]
  simp only [Prog.pure_bind]
  exact zoom_bind _ h

/-- Bytes are read behind their number. -/
theorem counted {k : ℕ → Prog Fail FrameState β} {items : List FrameItem}
    (h : ∀ n, Reads (k n) (rPacketGetBytes n >>= fun _ => readItems items)) :
    Reads (readVar >>= k) (readItems (.counted :: items)) := by
  rw [readItems, FrameItem.read, Prog.bind_assoc]
  refine zoom_bind _ fun n => ?_
  rw [Prog.bind_assoc]
  simp only [Prog.pure_bind]
  exact h n

/-- Bytes of which the parser takes a copy are read behind their number. -/
theorem owned {k : ℕ → Prog Fail FrameState β} {items : List FrameItem}
    (h : ∀ n, Reads (k n) (readOwned n >>= fun _ => readItems items)) :
    Reads (readVar >>= k) (readItems (.owned :: items)) := by
  rw [readItems, FrameItem.read, Prog.bind_assoc]
  refine zoom_bind _ fun n => ?_
  rw [Prog.bind_assoc]
  simp only [Prog.pure_bind]
  exact h n

/-- A fixed number of bytes is read. -/
theorem fixed {len : ℕ} {k : List UInt8 → Prog Fail FrameState β} {items : List FrameItem}
    (h : ∀ bytes, Reads (k bytes) (readItems items)) :
    Reads (readBytes len >>= k) (readItems (.fixed len :: items)) := by
  rw [readItems, FrameItem.read, Prog.bind_assoc]
  simp only [Prog.pure_bind]
  exact zoom_bind _ h

/-- The rest of the packet is read. -/
theorem toEnd {k : ℕ → Prog Fail FrameState β} {items : List FrameItem}
    (h : ∀ n, Reads (k n) (rPacketGetBytes n >>= fun _ => readItems items)) :
    Reads (readRemaining >>= k) (readItems (.toEnd :: items)) := by
  intro s
  have hread : readItems (.toEnd :: items) s.pkt =
      (rPacketGetBytes s.pkt.remaining >>= fun _ => readItems items) s.pkt := by
    rw [readItems, FrameItem.read, Prog.bind_assoc, Prog.get_bind, Prog.bind_assoc]
    simp only [Prog.pure_bind]
  have hrun : (readRemaining >>= k) s = k s.pkt.remaining s := by
    rw [readRemaining, Prog.bind_assoc, Prog.get_bind, Prog.pure_bind]
  rw [hread, hrun]
  exact h s.pkt.remaining s

/-- Bytes whose number is known are read. -/
theorem bytes {len : ℕ} {k : List UInt8 → Prog Fail FrameState β} {items : List FrameItem}
    (h : ∀ bytes, Reads (k bytes) (readItems items)) :
    Reads (readBytes len >>= k) (rPacketGetBytes len >>= fun _ => readItems items) :=
  zoom_bind _ h

/-- `QuicDataParse` reads the bytes of which it takes a copy. -/
theorem dataParse {mem : ℕ → Bool} {len : ℕ} {k : List UInt8 → Prog Fail FrameState β}
    {items : List FrameItem} (h : ∀ bytes, Reads (k bytes) (readItems items)) :
    Reads (quicDataParse mem len >>= k) (readOwned len >>= fun _ => readItems items) := by
  rw [quicDataParse, Prog.bind_assoc]
  refine check_bind fun _ => ?_
  intro s
  rcases hread : rPacketGetBytes len s.pkt with ⟨r, pkt⟩
  have hattempt : Prog.attempt (readBytes len) s = (.ok r, { s with pkt }) := by
    rw [Prog.attempt, readBytes, Prog.zoom_apply, hread]
  have hattempt' : Prog.attempt (rPacketGetBytes len) s.pkt = (.ok r, pkt) := by
    rw [Prog.attempt, hread]
  rw [Prog.bind_assoc, Prog.bind_of_ok hattempt, readOwned, Prog.bind_assoc,
    Prog.bind_of_ok hattempt']
  cases r with
  | ok bytes =>
    dsimp only
    rw [Prog.pure_bind, Prog.pure_bind]
    exact h bytes { s with pkt }
  | error e =>
    cases e with
    | ret =>
      dsimp only
      rw [Prog.fail_bind, Prog.bind_of_error (show invalidFree { s with pkt } = _ from rfl)]
      exact ReadsAs.of_eq rfl rfl rfl
    | assert =>
      dsimp only
      rw [Prog.fail_bind, Prog.fail_bind]
      exact ReadsAs.of_eq rfl rfl rfl
    | ub =>
      dsimp only
      rw [Prog.fail_bind, Prog.fail_bind]
      exact ReadsAs.of_eq rfl rfl rfl
    | fuel =>
      dsimp only
      rw [Prog.fail_bind, Prog.fail_bind]
      exact ReadsAs.of_eq rfl rfl rfl

end Reads

/-- The bytes of a CRYPTO frame. -/
theorem reads_crypto (mem : ℕ → Bool) :
    Reads (quicFrameCryptoParser mem) (readItems [.number, .counted]) := by
  refine Reads.number fun offset => Reads.counted fun length => ?_
  refine Reads.connection_bind (never_cryptoGrow mem _) fun _ => Reads.bytes fun bytes => ?_
  refine Reads.connection_bind (never_cryptoCopy offset bytes) fun _ => ?_
  exact Reads.connection (Prog.Never.zoom (Prog.Never.modify _)) ()

/-- The bytes of a NEW_TOKEN frame. -/
theorem reads_newToken (mem : ℕ → Bool) :
    Reads (quicFrameNewTokenParser mem) (readItems [.owned]) := by
  refine Reads.check_bind fun _ => Reads.owned fun length => ?_
  refine Reads.connection_bind (Prog.Never.modify _) fun _ => Reads.dataParse fun bytes => ?_
  exact Reads.connection (Prog.Never.modify _) ()

/-- The bytes of a RESET_STREAM frame. -/
theorem reads_resetStream :
    Reads quicFrameResetStreamParser (readItems [.number, .number, .number]) := by
  refine Reads.number fun streamId => Reads.number fun errorCode => Reads.number fun finalSize => ?_
  refine Reads.connection_bind (never_getInstance _) fun id => ?_
  exact Reads.connection (never_modifyStreams _) ()

/-- The bytes of a STOP_SENDING frame. -/
theorem reads_stopSending : Reads quicFrameStopSendingParser (readItems [.number, .number]) := by
  refine Reads.number fun h => Reads.connection_bind (never_getInstance _) fun id => ?_
  refine Reads.check_bind fun _ => Reads.connection_bind (never_modifyStreams _) fun _ => ?_
  exact Reads.number fun errCode => Reads.connection (never_modifyStreams _) ()

/-- The bytes of a STREAM frame. -/
theorem reads_stream (type : ℕ) : Reads (quicFrameStreamParser type)
    (readItems (streamLayout type)) := by
  have hdata (h offset len : ℕ) : Reads (quicFrameStreamBody type h offset len)
      (rPacketGetBytes len >>= fun _ => readItems []) := by
    refine Reads.connection_bind (never_getInstance _) fun id => Reads.check_bind fun _ => ?_
    refine Reads.connection_bind (never_modifyStreams _) fun _ => ?_
    refine Reads.connection_bind (never_modifyStreams _) fun _ => ?_
    exact Reads.bytes fun data => Reads.connection (never_streamStore id offset data) ()
  have hlen (h offset : ℕ) :
      Reads (readStreamLen type >>= quicFrameStreamBody type h offset)
        (readItems [if streamBitLen type then .counted else .toEnd]) := by
    rw [readStreamLen]
    split
    · exact Reads.counted (hdata h offset)
    · exact Reads.toEnd (hdata h offset)
  refine Reads.number fun h => ?_
  rw [readStreamOffset]
  split
  · exact Reads.number fun offset => hlen h offset
  · rw [Prog.pure_bind]
    exact hlen h 0

/-- The bytes of a DATA_BLOCKED frame. -/
theorem reads_dataBlocked : Reads quicFrameDataBlockedParser (readItems [.number]) := by
  refine Reads.number fun maxData => ?_
  exact Reads.pure () ()

/-- The bytes of a RETIRE_CONNECTION_ID frame. -/
theorem reads_retireConnId : Reads quicFrameRetireConnIdParser (readItems [.number]) := by
  refine Reads.number fun seq => ?_
  exact Reads.connection (Prog.Never.modify _) ()

/-- The bytes of a frame with one number. -/
theorem reads_streamParamUpdate (get : QuicTransParams → ℕ)
    (set : ℕ → QuicTransParams → QuicTransParams) :
    Reads (quicFrameStreamParamUpdate get set) (readItems [.number]) := by
  refine Reads.number fun maxStreams => ?_
  exact Reads.connection (never_modifyStreams _) ()

/-- The bytes of a STREAM_DATA_BLOCKED frame. -/
theorem reads_streamDataBlocked :
    Reads quicFrameStreamDataBlockedParser (readItems [.number, .number]) := by
  refine Reads.number fun h => Reads.connection_bind (never_getInstance _) fun id => ?_
  refine Reads.check_bind fun _ => ?_
  exact Reads.number fun maxStreamData => Reads.connection (never_modifyStreams _) ()

/-- The bytes of a MAX_STREAM_DATA frame. -/
theorem reads_maxStreamData :
    Reads quicFrameMaxStreamDataParser (readItems [.number, .number]) := by
  refine Reads.number fun h => Reads.connection_bind (never_getInstance _) fun id => ?_
  refine Reads.check_bind fun _ => ?_
  exact Reads.number fun maxStreamData => Reads.connection (never_modifyStreams _) ()

/-- The bytes of a NEW_CONNECTION_ID frame. -/
theorem reads_newConnId (mem : ℕ → Bool) : Reads (quicFrameNewConnIdParser mem)
    (readItems [.number, .number, .owned, .fixed quicStatelessResetTokenLen]) := by
  refine Reads.number fun seq => Reads.number fun retirePriorTo => Reads.owned fun len => ?_
  refine Reads.check_bind fun _ => Reads.connection_bind (Prog.Never.modify _) fun _ => ?_
  refine Reads.check_bind fun _ => Reads.dataParse fun id => ?_
  exact Reads.fixed fun token => Reads.connection (Prog.Never.modify _) ()

/-- The bytes of a CONNECTION_CLOSE frame. -/
theorem reads_connClose :
    Reads (quicFrameConnCloseParser quicFrameTypeConnectionClose)
      (readItems [.number, .number, .counted]) := by
  refine Reads.number fun errCode => ?_
  rw [if_pos rfl]
  refine Reads.number fun frameType => Reads.counted fun len => ?_
  exact Reads.bytes fun phrase => Reads.connection (Prog.Never.modify _) ()

/-- The bytes of a CONNECTION_CLOSE frame of the application. -/
theorem reads_connCloseApp {type : ℕ} (h : type ≠ quicFrameTypeConnectionClose) :
    Reads (quicFrameConnCloseParser type) (readItems [.number, .counted]) := by
  refine Reads.number fun errCode => ?_
  rw [if_neg h, Prog.pure_bind]
  refine Reads.counted fun len => Reads.bytes fun phrase => ?_
  exact Reads.connection (Prog.Never.modify _) ()

/-- Ranges are passed on without a look at the packet, and a range that fails stops the parser. -/
theorem ackHandlers_passRanges (calls : List (ℕ × ℕ)) (start : Bool) (s : FrameState) :
    Prog.Post (ackHandlers.passRanges calls start) (fun _ t => t.refused = s.refused)
      (fun e t => t.refused = true ∧ e ≠ .fuel) s := by
  induction calls generalizing start s with
  | nil => exact rfl
  | cons c calls ih =>
    rw [AckHandlers.passRanges, Prog.post_bind]
    change Prog.Post (connection (FrameConn.withSent (qBufAckSentPkt c.1 c.2 start))) _ _ s
    have hhalts := never_ackSentPkt c.1 c.2 start s.conn
    rcases hrun : FrameConn.withSent (qBufAckSentPkt c.1 c.2 start) s.conn with ⟨r, conn⟩
    rw [hrun] at hhalts
    unfold Prog.Post connection
    rw [hrun]
    cases r with
    | error e => exact ⟨rfl, fun he => hhalts (congrArg Except.error he)⟩
    | ok start' => exact ih start' { s with conn }

/-- The bytes of an ACK frame. -/
theorem reads_ack : Reads quicFrameAckParser (readItems [.ack]) := by
  intro s
  have hitems : readItems [.ack] = readAck := Prog.bind_pure_unit _
  have hpasses := ackHandlers.parser_passes s.pkt s
  have hset : ackHandlers.setPkt s.pkt s = s := rfl
  rw [hset] at hpasses
  rw [hitems, readAck]
  rcases hlargest : quicVariableLengthDecode s.pkt with ⟨largest, pkt⟩
  rw [hlargest] at hpasses
  cases largest with
  | error e =>
    have hrun : quicFrameAckParser s = (.error e, { s with pkt }) := hpasses
    rw [Prog.bind_of_error hlargest, hrun]
    exact ReadsAs.of_eq rfl rfl rfl
  | ok largest =>
    rw [Prog.bind_of_ok hlargest, show quicFrameAckParser s = ackHandlers.parser s from rfl]
    have hraise : (ackHandlers.raise largest s).refused = s.refused := by
      change (ite _ _ _ : FrameState).refused = _
      split_ifs <;> rfl
    have hpost := ackHandlers_passRanges (readAckBody largest pkt).calls false
      (ackHandlers.raise largest s)
    rcases hpass : ackHandlers.passRanges (readAckBody largest pkt).calls false
      (ackHandlers.raise largest s) with ⟨r, t⟩
    cases r with
    | error e =>
      obtain ⟨pkt', hrun⟩ := hpasses.of_error e t hpass
      have hrefused := hpost.of_error hpass
      rw [hrun]
      exact ReadsAs.of_refused hrefused.1 rfl hrefused.2
    | ok u =>
      have hrun := hpasses.of_ok t hpass
      have hrefused : t.refused = _ := hpost.of_ok hpass
      rw [hrun]
      exact ReadsAs.of_eq (hrefused.trans hraise) rfl rfl

/-- One part is read after the other. -/
theorem Reads.bind {m : Prog Fail FrameState α} {read : Prog Fail RPacket β}
    {k : Prog Fail FrameState γ} {read' : Prog Fail RPacket δ} (hm : Reads m read)
    (hk : Reads k read') : Reads (m >>= fun _ => k) (read >>= fun _ => read') := by
  intro s
  have hfirst := hm s
  rcases hrun : m s with ⟨r, t⟩
  rcases hread : read s.pkt with ⟨r', pkt⟩
  rw [hrun, hread] at hfirst
  cases r with
  | error e =>
    rw [Prog.bind_of_error hrun]
    constructor
    · exact hfirst.stays
    · intro h h'
      obtain ⟨e', he, hne⟩ := hfirst.halts h h'
      cases he
      exact ⟨e, rfl, hne⟩
    · intro h
      obtain ⟨hresult, hpkt⟩ := hfirst.reads h
      cases r' with
      | error e' =>
        rw [Prog.bind_of_error hread]
        exact ⟨by cases hresult; rfl, hpkt⟩
      | ok b => cases hresult
  | ok a =>
    have hsecond := hk t
    rw [Prog.bind_of_ok hrun]
    constructor
    · exact fun h => hsecond.stays (hfirst.stays h)
    · intro h h'
      cases hrefused : t.refused with
      | false => exact hsecond.halts hrefused h'
      | true =>
        obtain ⟨e, he, -⟩ := hfirst.halts h hrefused
        cases he
    · intro h
      have hfree : t.refused = false := by
        cases hrefused : t.refused with
        | false => rfl
        | true =>
          rw [hsecond.stays hrefused] at h
          cases h
      obtain ⟨hresult, hpkt⟩ := hfirst.reads hfree
      cases r' with
      | error e' => cases hresult
      | ok b =>
        have hpkt : t.pkt = pkt := hpkt
        rw [Prog.bind_of_ok hread, ← hpkt]
        exact hsecond.reads h

/-- Nothing is read by a check. -/
theorem Reads.ensure_bind {p : Prop} [Decidable p] {e : Fail} {k : Prog Fail FrameState α}
    {read : Prog Fail RPacket β} (h : p → Reads k read) :
    Reads (Prog.ensure e p >>= fun _ => k) (Prog.ensure e p >>= fun _ => read) := by
  by_cases hp : p
  · rw [Prog.ensure_of_pos hp, Prog.ensure_of_pos hp, Prog.pure_bind, Prog.pure_bind]
    exact h hp
  · rw [Prog.ensure_of_neg hp, Prog.ensure_of_neg hp, Prog.fail_bind, Prog.fail_bind]
    exact Reads.fail e

/-- Every parser reads its packet as the layout of its frame says. -/
theorem reads_of_handler (mem : ℕ → Bool) {type : ℕ} (hmax : type < quicFrameTypeMax)
    (hpadding : type ≠ quicFrameTypePadding) :
    (frameParser mem type = none ∧ frameLayout type = none) ∨
      ∃ parser items, frameParser mem type = some parser ∧ frameLayout type = some items ∧
        Reads parser (readItems items) := by
  unfold quicFrameTypeMax at hmax
  unfold quicFrameTypePadding at hpadding
  interval_cases type
  · exact absurd rfl hpadding
  · exact Or.inr ⟨_, _, rfl, rfl, Reads.pure () ()⟩
  · exact Or.inr ⟨_, _, rfl, rfl, reads_ack⟩
  · exact Or.inl ⟨rfl, rfl⟩
  · exact Or.inr ⟨_, _, rfl, rfl, reads_resetStream⟩
  · exact Or.inr ⟨_, _, rfl, rfl, reads_stopSending⟩
  · exact Or.inr ⟨_, _, rfl, rfl, reads_crypto mem⟩
  · exact Or.inr ⟨_, _, rfl, rfl, reads_newToken mem⟩
  all_goals first
    | exact Or.inr ⟨_, _, rfl, rfl, reads_stream _⟩
    | exact Or.inr ⟨_, _, rfl, rfl, reads_streamParamUpdate _ _⟩
    | exact Or.inr ⟨_, _, rfl, rfl, reads_maxStreamData⟩
    | exact Or.inr ⟨_, _, rfl, rfl, reads_dataBlocked⟩
    | exact Or.inr ⟨_, _, rfl, rfl, reads_streamDataBlocked⟩
    | exact Or.inl ⟨rfl, rfl⟩
    | exact Or.inr ⟨_, _, rfl, rfl, reads_newConnId mem⟩
    | exact Or.inr ⟨_, _, rfl, rfl, reads_retireConnId⟩
    | exact Or.inr ⟨_, _, rfl, rfl, reads_connClose⟩
    | exact Or.inr ⟨_, _, rfl, rfl, reads_connCloseApp (by decide)⟩
    | exact Or.inr ⟨_, _, rfl, rfl, Reads.connection (Prog.Never.modify _) ()⟩

/-- The frame loop reads its packet as the layouts say. -/
theorem reads_loop (mem : ℕ → Bool) (fuel : ℕ) (flags : FrameFlags) :
    Reads (quicFrameLoop (frameHandlers mem) fuel flags)
      (quicFrameLoop layoutHandlers fuel flags) := by
  induction fuel generalizing flags with
  | zero => exact Reads.fail .fuel
  | succ fuel ih =>
    intro s
    rcases hdecode : quicVariableLengthDecode s.pkt with ⟨r, pkt⟩
    cases r with
    | error e =>
      have hret : e = .ret := (quicVariableLengthDecode_post s.pkt).of_error hdecode
      rw [hret] at hdecode
      rw [quicFrameLoop_of_no_type (frameHandlers mem) hdecode,
        quicFrameLoop_of_no_type layoutHandlers hdecode]
      exact ReadsAs.of_eq rfl rfl rfl
    | ok type =>
      rw [quicFrameLoop_of_type (frameHandlers mem) hdecode,
        quicFrameLoop_of_type layoutHandlers hdecode]
      suffices hround : Reads (quicFrameRound (frameHandlers mem) fuel flags type)
          (quicFrameRound layoutHandlers fuel flags type) from hround { s with pkt }
      refine Reads.ensure_bind fun hmax => ?_
      by_cases hpadding : type = quicFrameTypePadding
      · rw [if_pos hpadding, if_pos hpadding]
        exact ih flags
      · rw [if_neg hpadding, if_neg hpadding]
        change Reads (Prog.ofOption .ret (frameParser mem type) >>= _)
          (Prog.ofOption .ret ((frameLayout type).map readItems) >>= _)
        rcases reads_of_handler mem hmax hpadding with
          ⟨hnone, hnone'⟩ | ⟨parser, items, hparser, hitems, hreads⟩
        · rw [hnone, hnone', Option.map_none, Prog.ofOption_none, Prog.ofOption_none,
            Prog.fail_bind, Prog.fail_bind]
          exact Reads.fail .ret
        · rw [hparser, hitems, Option.map_some, Prog.ofOption_some, Prog.ofOption_some,
            Prog.pure_bind, Prog.pure_bind]
          exact Reads.bind hreads (ih (flags.add type))

end FrameState

end Tbquic
