import Tbquic.Stream.State

/-!
# Opening streams

The table of streams is allocated once, when the parameters of both endpoints are known. An
endpoint numbers the streams that it opens by kind, within the limit of the peer and within the
table.
-/

namespace Tbquic

/-- `QuicStreamInstanceInit` on zeroed memory. -/
def quicStreamInstanceInit (id : ℕ) (server : Bool) : QuicStreamInstance where
  recvState := if !quicStreamPeerOpened id server && unidirectional id then .disable else .start
  sendState := if quicStreamPeerOpened id server && unidirectional id then .disable else .start
  notified := false
  localOpened := !quicStreamPeerOpened id server
  uni := unidirectional id
  maxStreamData := 0
  statBytes := { sent := 0, recvd := 0 }
  offset := 0
  queue := []

/-- `QuicStreamConfInit`. -/
def quicStreamConfInit (maxStreamBidi maxStreamUni : ℕ) (server : Bool) :
    Prog Fail QuicStreamConf Unit := do
  let scf ← Prog.get
  Prog.ensure .ret (scf.inited = false)
  let maxBidiStreamId := quicStreamComputeMaxId maxStreamBidi false server
  let maxUniStreamId := quicStreamComputeMaxId maxStreamUni true server
  Prog.modify fun scf => { scf with
    maxIdValue := quicMax maxBidiStreamId maxUniStreamId
    inited := true
    stream := fun id => quicStreamInstanceInit id server
    msgQueue := [] }

/-- `QuicStreamInit`. The maxima are stored in 32 bits. -/
def quicStreamInit : Prog Fail QuicStreams Unit := do
  let q ← Prog.get
  let maxStreamBidi : ℕ :=
    quicMax q.transParam.initialMaxStreamBidi q.peerParam.initialMaxStreamBidi % 2 ^ 32
  let maxStreamUni : ℕ :=
    quicMax q.transParam.initialMaxStreamUni q.peerParam.initialMaxStreamUni % 2 ^ 32
  Prog.zoom QuicStreams.conf (fun conf q => { q with conf })
    (quicStreamConfInit maxStreamBidi maxStreamUni q.server)

/-- The stream part of a new connection. -/
def zeroedConf : QuicStreamConf where
  statAll := { sent := 0, recvd := 0 }
  maxIdOpened := 0
  maxIdValue := 0
  inited := false
  stream := fun _ =>
    { recvState := .disable, sendState := .disable, notified := false, localOpened := false
      uni := false, maxStreamData := 0, statBytes := { sent := 0, recvd := 0 }, offset := 0
      queue := [] }
  msgQueue := []

/-- The streams of a connection whose parameters were exchanged. -/
def createdStreams (server : Bool) (transParam peerParam : QuicTransParams) : QuicStreams :=
  (quicStreamInit { server, conf := zeroedConf, transParam, peerParam }).2

/-- The streams with the counters of those that this endpoint opened. -/
structure QuicStreamTable where
  /-- The streams. -/
  streams : QuicStreams
  /-- `bidi_id_alloced`. -/
  bidiIdAlloced : ℕ
  /-- `uni_id_alloced`. -/
  uniIdAlloced : ℕ

/-- `initial_max_stream_uni` or `initial_max_stream_bidi`. -/
def QuicTransParams.maxStreams (p : QuicTransParams) (uni : Bool) : ℕ :=
  if uni then p.initialMaxStreamUni else p.initialMaxStreamBidi

namespace QuicStreamTable

/-- The counter of a kind of streams. -/
def alloced (s : QuicStreamTable) (uni : Bool) : ℕ :=
  if uni then s.uniIdAlloced else s.bidiIdAlloced

/-- `(*alloced)++`. -/
def allocate (s : QuicStreamTable) (uni : Bool) : QuicStreamTable :=
  if uni then { s with uniIdAlloced := s.uniIdAlloced + 1 }
  else { s with bidiIdAlloced := s.bidiIdAlloced + 1 }

end QuicStreamTable

/-- The number of the stream with an index among those of its kind, in 64 bits. -/
def quicStreamId (index : ℕ) (uni server : Bool) : ℕ :=
  let id := (index <<< 2) % 2 ^ 64
  let id := if uni then id ||| 2 else id
  if server then id ||| 1 else id

/-- `QuicStreamIdGen`. -/
def quicStreamIdGen (uni : Bool) : Prog Fail QuicStreamTable ℕ := do
  let s ← Prog.get
  Prog.ensure .ret (s.alloced uni < s.streams.peerParam.maxStreams uni)
  let id := quicStreamId (s.alloced uni) uni s.streams.server
  Prog.ensure .ret (id < s.streams.conf.maxIdValue)
  Prog.modify (·.allocate uni)
  pure id

/-- The entry of a stream that this endpoint opens. -/
def openLocal (peer : QuicTransParams) (uni : Bool) (si : QuicStreamInstance) :
    QuicStreamInstance :=
  let si := { si with sendState := .ready }
  if uni then { si with maxStreamData := peer.initialMaxStreamDataUni }
  else quicStreamInstanceRecvOpen { si with maxStreamData := peer.initialMaxStreamDataBidiRemote }

/-- `QuicStreamOpen`. -/
def quicStreamOpen (uni : Bool) : Prog Fail QuicStreamTable ℕ := do
  let s ← Prog.get
  Prog.ensure .ret (s.streams.conf.inited = true)
  let id ← quicStreamIdGen uni
  Prog.ensure .ret (id < 2 ^ 63)
  let s ← Prog.get
  Prog.ensure .assert ((s.streams.si id).sendState = .start)
  Prog.modify fun s => { s with
    streams := s.streams.updateSi id (openLocal s.streams.peerParam uni) }
  pure id

/-- The type bits of the streams that an endpoint opens. -/
def streamTypeBits (uni server : Bool) : ℕ := (if uni then 2 else 0) + if server then 1 else 0

theorem streamTypeBits_lt (uni server : Bool) : streamTypeBits uni server < 4 := by
  cases uni <;> cases server <;> decide

/-- The stream with an index is four times the index and the type bits. -/
theorem quicStreamId_eq (index : ℕ) (uni server : Bool) :
    quicStreamId index uni server = 4 * (index % 2 ^ 62) + streamTypeBits uni server := by
  have hshift : (index <<< 2) % 2 ^ 64 = 4 * (index % 2 ^ 62) := by
    rw [Nat.shiftLeft_eq]
    omega
  have hor (b : ℕ) (hb : b < 4) : 4 * (index % 2 ^ 62) ||| b = 4 * (index % 2 ^ 62) + b := by
    have hadd := Nat.shiftLeft_add_eq_or_of_lt (show b < 2 ^ 2 from hb) (index % 2 ^ 62)
    rw [Nat.shiftLeft_eq, Nat.mul_comm] at hadd
    exact hadd.symm
  unfold quicStreamId
  rw [hshift]
  cases uni <;> cases server
  · exact (Nat.add_zero _).symm
  · exact hor 1 (by decide)
  · exact hor 2 (by decide)
  · change 4 * (index % 2 ^ 62) ||| 2 ||| 1 = _
    rw [Nat.or_assoc]
    exact hor 3 (by decide)

section Bits

variable {id : ℕ} {server uni : Bool}

/-- The last bit says whether the server opened the stream. -/
theorem initiatedByServer_iff : initiatedByServer id = true ↔ id % 2 = 1 := by
  rw [initiatedByServer, Nat.testBit_zero, decide_eq_true_iff]

/-- The second bit says whether the stream is unidirectional. -/
theorem unidirectional_iff : unidirectional id = true ↔ id / 2 % 2 = 1 := by
  rw [unidirectional, Nat.testBit_succ, Nat.testBit_zero, decide_eq_true_iff]

/-- The peer opens the streams whose last bit is not that of this endpoint. -/
theorem quicStreamPeerOpened_iff :
    quicStreamPeerOpened id server = true ↔ (initiatedByServer id ≠ server) := by
  unfold quicStreamPeerOpened
  cases server <;> cases initiatedByServer id <;> decide

/-- The type bits of a stream are its number modulo four. -/
theorem mod_four_eq_iff : id % 4 = streamTypeBits uni server ↔
    quicStreamPeerOpened id server = false ∧ unidirectional id = uni := by
  have hserver := @initiatedByServer_iff id
  have huni := @unidirectional_iff id
  have hpeer := @quicStreamPeerOpened_iff id server
  unfold streamTypeBits
  cases hs : server <;> cases hu : uni <;> cases hi : initiatedByServer id <;>
    cases hd : unidirectional id <;> simp_all <;> omega

end Bits

namespace QuicStreamTable

variable {s : QuicStreamTable} {uni : Bool}

@[simp] theorem allocate_streams (s : QuicStreamTable) (uni : Bool) :
    (s.allocate uni).streams = s.streams := by
  cases uni <;> rfl

@[simp] theorem allocate_alloced (s : QuicStreamTable) (uni : Bool) :
    (s.allocate uni).alloced uni = s.alloced uni + 1 := by
  cases uni <;> rfl

/-- The stream that is opened next. -/
def nextId (s : QuicStreamTable) (uni : Bool) : ℕ :=
  quicStreamId (s.alloced uni) uni s.streams.server

/-- The stream that is opened next is one that this endpoint opens. -/
theorem nextId_local (s : QuicStreamTable) (uni : Bool) :
    quicStreamPeerOpened (s.nextId uni) s.streams.server = false ∧
      unidirectional (s.nextId uni) = uni := by
  have hbits := streamTypeBits_lt uni s.streams.server
  rw [← mod_four_eq_iff, nextId, quicStreamId_eq]
  omega

/-- A stream of a kind can be opened. -/
def CanOpen (s : QuicStreamTable) (uni : Bool) : Prop :=
  s.streams.conf.inited = true ∧ s.alloced uni < s.streams.peerParam.maxStreams uni ∧
    s.nextId uni < s.streams.conf.maxIdValue

/-- The table behind the opening of a stream. -/
def opened (s : QuicStreamTable) (uni : Bool) : QuicStreamTable :=
  { s.allocate uni with
    streams := s.streams.updateSi (s.nextId uni) (openLocal s.streams.peerParam uni) }

/-- A number within the limits is taken. -/
theorem quicStreamIdGen_of_lt (hlimit : s.alloced uni < s.streams.peerParam.maxStreams uni)
    (hid : s.nextId uni < s.streams.conf.maxIdValue) :
    quicStreamIdGen uni s = (.ok (s.nextId uni), s.allocate uni) := by
  rw [nextId] at hid
  rw [quicStreamIdGen, Prog.get_bind, Prog.ensure_of_pos hlimit, Prog.pure_bind,
    Prog.ensure_of_pos hid, Prog.pure_bind, Prog.modify_bind]
  rfl

/-- A stream within the limits is opened. -/
theorem quicStreamOpen_of_canOpen (h : s.CanOpen uni) (hsize : s.streams.conf.maxIdValue ≤ 2 ^ 63)
    (hstart : (s.streams.si (s.nextId uni)).sendState = .start) :
    quicStreamOpen uni s = (.ok (s.nextId uni), s.opened uni) := by
  obtain ⟨hinited, hlimit, hid⟩ := h
  rw [quicStreamOpen, Prog.get_bind, Prog.ensure_of_pos hinited, Prog.pure_bind,
    Prog.bind_of_ok (quicStreamIdGen_of_lt hlimit hid), Prog.ensure_of_pos (hid.trans_le hsize),
    Prog.pure_bind, Prog.get_bind,
    allocate_streams, Prog.ensure_of_pos hstart, Prog.pure_bind, Prog.modify_bind]
  rw [allocate_streams]
  rfl

/-- Beyond the limits nothing happens. -/
theorem quicStreamOpen_of_not_canOpen (h : ¬ s.CanOpen uni) :
    quicStreamOpen uni s = (.error .ret, s) := by
  rw [quicStreamOpen, Prog.get_bind]
  by_cases hinited : s.streams.conf.inited = true
  · have hgen : quicStreamIdGen uni s = (.error .ret, s) := by
      rw [quicStreamIdGen, Prog.get_bind]
      by_cases hlimit : s.alloced uni < s.streams.peerParam.maxStreams uni
      · have hid : ¬ s.nextId uni < s.streams.conf.maxIdValue :=
          fun hid => h ⟨hinited, hlimit, hid⟩
        rw [nextId] at hid
        rw [Prog.ensure_of_pos hlimit, Prog.pure_bind, Prog.ensure_of_neg hid, Prog.fail_bind]
        rfl
      · rw [Prog.ensure_of_neg hlimit, Prog.fail_bind]
        rfl
    rw [Prog.ensure_of_pos hinited, Prog.pure_bind, Prog.bind_of_error hgen]
  · rw [Prog.ensure_of_neg hinited, Prog.fail_bind]
    rfl

end QuicStreamTable

/-- The table is allocated for the larger parameters. -/
theorem createdStreams_eq (server : Bool) (transParam peerParam : QuicTransParams) :
    createdStreams server transParam peerParam =
      { server, transParam, peerParam
        conf := { zeroedConf with
          maxIdValue := quicMax
            (quicStreamComputeMaxId (quicMax transParam.initialMaxStreamBidi
              peerParam.initialMaxStreamBidi % 2 ^ 32) false server)
            (quicStreamComputeMaxId (quicMax transParam.initialMaxStreamUni
              peerParam.initialMaxStreamUni % 2 ^ 32) true server)
          inited := true
          stream := fun id => quicStreamInstanceInit id server } } := by
  rw [createdStreams, quicStreamInit, Prog.get_bind]
  dsimp only
  rw [Prog.zoom_apply, quicStreamConfInit, Prog.get_bind, Prog.ensure_of_pos (by rfl),
    Prog.pure_bind]
  rfl

/-- The largest number of a kind is small. -/
theorem quicStreamComputeMaxId_lt {num : ℕ} (h : num < 2 ^ 32) (uni server : Bool) :
    quicStreamComputeMaxId num uni server < 2 ^ 34 := by
  have hbase : num % 4 < 2 ^ 34 := by omega
  have htop : num / 4 * 4 * 2 % 2 ^ 64 < 2 ^ 34 := by omega
  unfold quicStreamComputeMaxId
  refine Nat.or_lt_two_pow htop ?_
  cases uni <;> cases server
  · exact hbase
  · exact Nat.or_lt_two_pow hbase (by decide)
  · exact Nat.or_lt_two_pow hbase (by decide)
  · exact Nat.or_lt_two_pow (Nat.or_lt_two_pow hbase (by decide)) (by decide)

/-- The table is small. -/
theorem createdStreams_maxIdValue_lt (server : Bool) (transParam peerParam : QuicTransParams) :
    (createdStreams server transParam peerParam).conf.maxIdValue < 2 ^ 34 := by
  have hmax (a b : ℕ) : quicMax a b = a ∨ quicMax a b = b := by
    unfold quicMax
    split
    · exact .inl rfl
    · exact .inr rfl
  rw [createdStreams_eq]
  dsimp only
  rcases hmax (quicStreamComputeMaxId (quicMax transParam.initialMaxStreamBidi
      peerParam.initialMaxStreamBidi % 2 ^ 32) false server)
    (quicStreamComputeMaxId (quicMax transParam.initialMaxStreamUni
      peerParam.initialMaxStreamUni % 2 ^ 32) true server) with h | h <;> rw [h]
  · exact quicStreamComputeMaxId_lt (Nat.mod_lt _ (by decide)) _ _
  · exact quicStreamComputeMaxId_lt (Nat.mod_lt _ (by decide)) _ _

end Tbquic
