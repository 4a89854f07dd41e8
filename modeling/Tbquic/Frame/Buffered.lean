import Tbquic.Frame.Buffers
import Tbquic.Frame.Notices

/-!
# Streams with their buffers

The parser of STREAM frames and the reads of the application once more, now with the buffers that
the queued data lies in. Without the buffers they are the routines of the streams, and each leaves
the buffers fitting the queues.
-/

namespace Tbquic

/-- A state with the buffers of the received packets. -/
structure Buffered (σ : Type) where
  /-- The state. -/
  plain : σ
  /-- The buffers. -/
  bufs : DataBufs

namespace Buffered

section Programs

variable {σ α : Type}

/-- A program that leaves the buffers alone. -/
def on (m : Prog Fail σ α) : Prog Fail (Buffered σ) α :=
  Prog.zoom Buffered.plain (fun plain s => { s with plain }) m

/-- A step that depends on the connection alone. When it fails, the connection is the reason. -/
def connection (m : Prog Fail (Buffered FrameConn) α) : Prog Fail (Buffered FrameState) α :=
  fun s =>
    match m ⟨s.plain.conn, s.bufs⟩ with
    | (.ok a, t) => (.ok a, ⟨{ s.plain with conn := t.plain }, t.bufs⟩)
    | (.error e, t) => (.error e, ⟨{ s.plain with conn := t.plain, refused := true }, t.bufs⟩)

end Programs

/-- `QuicDataBufGet` in `QuicStreamDataCreate`. -/
def quicStreamDataCreate : Prog Fail (Buffered FrameConn) Unit :=
  Prog.modify fun s => { s with bufs := s.bufs.get s.bufs.current }

/-- `QuicStreamDataAdd` of an entry that points to the buffer of the packet. -/
def quicStreamDataAdd (id : ℕ) (sd : QuicStreamData) : Prog Fail (Buffered FrameConn) Unit :=
  Prog.modify fun s =>
    ⟨{ s.plain with streams := Tbquic.quicStreamDataAdd s.plain.streams id sd },
      s.bufs.dataAdd s.plain.streams id sd s.bufs.current⟩

/-- The data of a STREAM frame, at the end of `QuicFrameStreamParser`. -/
def quicFrameStreamStore (id offset : ℕ) (data : List UInt8) :
    Prog Fail (Buffered FrameConn) Unit := do
  on (FrameConn.withStreams (Prog.modify (·.updateSi id quicStreamInstanceRecvOpen)))
  let s ← Prog.get
  if (s.plain.streams.si id).recvState ≠ .recv ∧ (s.plain.streams.si id).recvState ≠ .sizeKnown then
    pure ()
  else do
    Prog.ensure .ret (s.plain.buf = true)
    quicStreamDataCreate
    quicStreamDataAdd id { offset, data }
    on (FrameConn.withStreams (Prog.modify (·.notify id)))

/-- The part of `QuicFrameStreamParser` behind the numbers of the frame. -/
def quicFrameStreamBody (type h offset len : ℕ) : Prog Fail (Buffered FrameState) Unit := do
  let id ← on (FrameState.connection (FrameConn.withStreams (quicStreamGetInstance h)))
  on (FrameState.check fun c => (c.streams.si id).recvState ≠ .disable)
  on (FrameState.connection (FrameConn.withStreams (Prog.modify (·.updateSi id sendReady))))
  on (FrameState.connection
    (FrameConn.withStreams (Prog.modify (·.updateSi id (recvFin (streamBitFin type))))))
  let data ← on (FrameState.readBytes len)
  connection (quicFrameStreamStore id offset data)

/-- `QuicFrameStreamParser`. -/
def quicFrameStreamParser (type : ℕ) : Prog Fail (Buffered FrameState) Unit := do
  let h ← on FrameState.readVar
  let offset ← on (FrameState.readStreamOffset type)
  let len ← on (FrameState.readStreamLen type)
  quicFrameStreamBody type h offset len

/-- The parsers of `frame_handler`. Only STREAM frames queue data. -/
def frameParser (mem : ℕ → Bool) (type : ℕ) : Option (Prog Fail (Buffered FrameState) Unit) :=
  if StreamType type then some (quicFrameStreamParser type)
  else (FrameState.frameParser mem type).map on

/-- `QuicStreamReadData` from a stream. -/
def quicStreamReadData (id len : ℕ) : Prog Fail (Buffered QuicStreams) ReadResult := do
  let s ← Prog.get
  let r ← Prog.ofExcept (Tbquic.quicStreamReadData (s.plain.si id) len)
  Prog.modify fun s => ⟨s.plain.setSi id r.2, s.bufs.readData id (s.plain.si id) len⟩
  pure r.1

/-- `QuicStreamRecv` where it reads what is queued. -/
def quicStreamRecv (handle : ℤ) (len : ℕ) : Prog Fail (Buffered QuicStreams) ReadResult := do
  let id ← on (quicStreamGetInstance handle)
  quicStreamReadData id len

/-- The inner loop of `QuicStreamReadV`. -/
def readVStream (id : ℕ) :
    List ℕ → ReadVOut → Prog Fail (Buffered QuicStreams) (Option (List ℕ) × ReadVOut)
  | [], out => pure (none, out)
  | len :: iov, out => do
    match ← Prog.attempt (on (quicStreamGetInstance id)) with
    | .error _ => pure (some (len :: iov), out)
    | .ok id => do
      let r ← quicStreamReadData id len
      if r.data.length = 0 then
        -- a read into a buffer without room is repeated for ever
        if len = 0 then Prog.fail .fuel else pure (some (len :: iov), out.flag r)
      else if r.data.length < len then pure (some iov, (out.flag r).report id r)
      else readVStream id iov ((out.flag r).report id r)

/-- The outer loop of `QuicStreamReadV` over the messages. -/
def readVLoop : List QuicStreamMsg → List ℕ → ReadVOut →
    Prog Fail (Buffered QuicStreams) (List StreamReport)
  | [], _, out => pure out.reports
  | msg :: msgs, iov, out => do
    match ← readVStream msg.id iov out with
    | (none, out) => pure out.reports
    | (some iov, out) => do
      on (Prog.modify fun q => { q with conf.msgQueue := msgs })
      readVLoop msgs iov out

/-- `QuicStreamReadV` where it reads what is queued, into buffers of the given lengths. -/
def quicStreamReadV (iov : List ℕ) : Prog Fail (Buffered QuicStreams) (List StreamReport) := do
  let s ← Prog.get
  Prog.ensure .ret (s.plain.conf.inited = true)
  if iov = [] then pure []
  else readVLoop s.plain.conf.msgQueue iov { reports := [], fin := false, reset := false }

/-- Without the buffers, the first program is the second one. -/
def Erases {σ α : Type} (m : Prog Fail (Buffered σ) α) (n : Prog Fail σ α) : Prop :=
  ∀ s, (m s).1 = (n s.plain).1 ∧ (m s).2.plain = (n s.plain).2

namespace Erases

variable {σ α β : Type} {m : Prog Fail (Buffered σ) α} {n : Prog Fail σ α}
  {f : α → Prog Fail (Buffered σ) β} {g : α → Prog Fail σ β}

theorem on (n : Prog Fail σ α) : Erases (Buffered.on n) n := fun _ => ⟨rfl, rfl⟩

theorem pure (a : α) : Erases (Pure.pure a : Prog Fail (Buffered σ) α) (Pure.pure a) :=
  fun _ => ⟨rfl, rfl⟩

theorem fail (e : Fail) : Erases (Prog.fail e : Prog Fail (Buffered σ) α) (Prog.fail e) :=
  fun _ => ⟨rfl, rfl⟩

theorem ensure (p : Prop) [Decidable p] :
    Erases (Prog.ensure .ret p : Prog Fail (Buffered σ) Unit) (Prog.ensure .ret p) := by
  intro s
  unfold Prog.ensure
  split <;> exact ⟨rfl, rfl⟩

theorem ofExcept (x : Except Fail α) :
    Erases (Prog.ofExcept x : Prog Fail (Buffered σ) α) (Prog.ofExcept x) := by
  intro s
  cases x <;> exact ⟨rfl, rfl⟩

/-- The rule of sequencing. -/
theorem bind (hm : Erases m n) (hf : ∀ a, Erases (f a) (g a)) :
    Erases (m >>= f) (n >>= g) := by
  intro s
  obtain ⟨hresult, hplain⟩ := hm s
  rcases hms : m s with ⟨r, t⟩
  rcases hns : n s.plain with ⟨r', u⟩
  rw [hms, hns] at hresult hplain
  dsimp only at hresult hplain
  subst hresult hplain
  cases r with
  | error e =>
    rw [Prog.bind_of_error hms, Prog.bind_of_error hns]
    exact ⟨rfl, rfl⟩
  | ok a =>
    rw [Prog.bind_of_ok hms, Prog.bind_of_ok hns]
    exact hf a t

/-- Programs that read the state. -/
theorem get_bind {f : Buffered σ → Prog Fail (Buffered σ) α} {g : σ → Prog Fail σ α}
    (h : ∀ s, Erases (f s) (g s.plain)) : Erases (Prog.get >>= f) (Prog.get >>= g) := by
  intro s
  rw [Prog.get_bind, Prog.get_bind]
  exact h s s

/-- A program whose outcome is observed. -/
theorem attempt (hm : Erases m n) : Erases (Prog.attempt m) (Prog.attempt n) := fun s =>
  ⟨congrArg Except.ok (hm s).1, (hm s).2⟩

/-- An update of both parts. -/
theorem modify {p : Buffered σ → Buffered σ} {q : σ → σ} (h : ∀ s, (p s).plain = q s.plain) :
    Erases (Prog.modify p) (Prog.modify q) := fun s => ⟨rfl, h s⟩

/-- An update of the buffers is none without them. -/
theorem bufs_bind {p : Buffered σ → Buffered σ} {k : Unit → Prog Fail (Buffered σ) α}
    (h : ∀ s, (p s).plain = s.plain) (hk : Erases (k ()) n) :
    Erases (Prog.modify p >>= k) n := by
  intro s
  rw [Prog.modify_bind, ← h s]
  exact hk (p s)

/-- Both take the same branch. -/
theorem ite {p : Prop} [Decidable p] {m' : Prog Fail (Buffered σ) α} {n' : Prog Fail σ α}
    (hm : Erases m n) (hm' : Erases m' n') :
    Erases (if p then m else m') (if p then n else n') := by
  split_ifs
  · exact hm
  · exact hm'

/-- A step that depends on the connection alone. -/
theorem connection {m : Prog Fail (Buffered FrameConn) α} {n : Prog Fail FrameConn α}
    (hm : Erases m n) : Erases (Buffered.connection m) (FrameState.connection n) := by
  intro s
  obtain ⟨hresult, hplain⟩ := hm ⟨s.plain.conn, s.bufs⟩
  unfold Buffered.connection FrameState.connection
  rcases hms : m ⟨s.plain.conn, s.bufs⟩ with ⟨r, t⟩
  rcases hns : n s.plain.conn with ⟨r', c⟩
  rw [hms, hns] at hresult hplain
  dsimp only at hresult hplain
  subst hresult hplain
  cases r <;> exact ⟨rfl, rfl⟩

end Erases

/-- The end of the parser of STREAM frames. -/
theorem quicFrameStreamStore_erases (id offset : ℕ) (data : List UInt8) :
    Erases (quicFrameStreamStore id offset data)
      (FrameState.quicFrameStreamStore id offset data) := by
  unfold quicFrameStreamStore FrameState.quicFrameStreamStore
  refine (Erases.on _).bind fun _ => .get_bind fun s => .ite (.pure ()) ?_
  refine (Erases.ensure _).bind fun _ => .bufs_bind (fun _ => rfl) ?_
  exact (Erases.modify fun _ => rfl).bind fun _ => .on _

/-- The parser of STREAM frames. -/
theorem quicFrameStreamParser_erases (type : ℕ) :
    Erases (quicFrameStreamParser type) (FrameState.quicFrameStreamParser type) := by
  unfold quicFrameStreamParser FrameState.quicFrameStreamParser
  refine (Erases.on _).bind fun h => (Erases.on _).bind fun offset => ?_
  refine (Erases.on _).bind fun len => ?_
  unfold quicFrameStreamBody FrameState.quicFrameStreamBody
  refine (Erases.on _).bind fun id => (Erases.on _).bind fun _ => (Erases.on _).bind fun _ => ?_
  refine (Erases.on _).bind fun _ => (Erases.on _).bind fun data => ?_
  exact (quicFrameStreamStore_erases id offset data).connection

/-- The parser of every frame. -/
theorem frameParser_erases {mem : ℕ → Bool} {type : ℕ} :
    (frameParser mem type = none ∧ FrameState.frameParser mem type = none) ∨
      ∃ m n, frameParser mem type = some m ∧ FrameState.frameParser mem type = some n ∧
        Erases m n := by
  unfold frameParser
  by_cases htype : StreamType type
  · rw [if_pos htype]
    refine .inr ⟨_, FrameState.quicFrameStreamParser type, rfl, ?_,
      quicFrameStreamParser_erases type⟩
    exact frameParser_stream mem htype
  · rw [if_neg htype]
    cases FrameState.frameParser mem type with
    | none => exact .inl ⟨rfl, rfl⟩
    | some n => exact .inr ⟨_, n, rfl, rfl, .on n⟩

/-- A read from a stream, before others. -/
theorem quicStreamReadData_bind_erases {α : Type} (id len : ℕ)
    {k : ReadResult → Prog Fail (Buffered QuicStreams) α}
    {l : ReadResult × QuicStreamInstance → Prog Fail QuicStreams α}
    (hk : ∀ r, Erases (k r.1) (l r)) :
    Erases (quicStreamReadData id len >>= k) (do
      let q ← Prog.get
      let r ← Prog.ofExcept (Tbquic.quicStreamReadData (q.si id) len)
      Prog.modify (·.setSi id r.2)
      l r) := by
  unfold quicStreamReadData
  rw [Prog.bind_assoc]
  refine .get_bind fun s => ?_
  rw [Prog.bind_assoc]
  refine (Erases.ofExcept _).bind fun r => ?_
  rw [Prog.bind_assoc]
  refine (Erases.modify fun _ => rfl).bind fun _ => ?_
  rw [Prog.pure_bind]
  exact hk r

/-- `QuicStreamRecv`. -/
theorem quicStreamRecv_erases (handle : ℤ) (len : ℕ) :
    Erases (quicStreamRecv handle len) (Tbquic.quicStreamRecv handle len) := by
  unfold quicStreamRecv Tbquic.quicStreamRecv
  refine (Erases.on _).bind fun id => .get_bind fun s => (Erases.ofExcept _).bind fun r => ?_
  exact (Erases.modify fun _ => rfl).bind fun _ => .pure r.1

/-- The inner loop of `QuicStreamReadV`. -/
theorem readVStream_erases (id : ℕ) (iov : List ℕ) (out : ReadVOut) :
    Erases (readVStream id iov out) (Tbquic.readVStream id iov out) := by
  induction iov generalizing id out with
  | nil => exact .pure _
  | cons len iov ih =>
    unfold readVStream Tbquic.readVStream
    refine (Erases.on _).attempt.bind fun r => ?_
    cases r with
    | error e => exact .pure _
    | ok id =>
      dsimp only
      refine quicStreamReadData_bind_erases id len fun r => ?_
      refine .ite (.ite (.fail _) (.pure _)) (.ite (.pure _) ?_)
      exact ih id _

/-- The outer loop of `QuicStreamReadV`. -/
theorem readVLoop_erases (msgs : List QuicStreamMsg) (iov : List ℕ) (out : ReadVOut) :
    Erases (readVLoop msgs iov out) (Tbquic.readVLoop msgs iov out) := by
  induction msgs generalizing iov out with
  | nil => exact .pure _
  | cons msg msgs ih =>
    unfold readVLoop Tbquic.readVLoop
    refine (readVStream_erases msg.id iov out).bind fun r => ?_
    rcases r with ⟨_ | iov, out⟩
    · exact .pure _
    · exact (Erases.on _).bind fun _ => ih iov out

/-- `QuicStreamReadV`. -/
theorem quicStreamReadV_erases (iov : List ℕ) :
    Erases (quicStreamReadV iov) (Tbquic.quicStreamReadV iov) := by
  unfold quicStreamReadV Tbquic.quicStreamReadV
  refine .get_bind fun s => (Erases.ensure _).bind fun _ => .ite (.pure _) ?_
  exact readVLoop_erases _ iov _

end Buffered

end Tbquic
