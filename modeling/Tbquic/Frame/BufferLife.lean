import Tbquic.Frame.Buffered

/-!
# The life of a receive buffer

Packets arrive, their frames are parsed, the application reads, and the connection is torn down. In
every run a buffer counts the entries that point to it, and one more while its packet is parsed. So
no entry points to a released buffer, and every buffer is released once.
-/

namespace Tbquic

/-- All bytes of a packet, read or not. -/
def RPacket.all (pkt : RPacket) : List UInt8 := pkt.past ++ pkt.rest

/-- Bytes that are read lie in the packet, which stays whole. -/
theorem rPacketGetBytes_all (len : ℕ) (pkt : RPacket) :
    Prog.Post (rPacketGetBytes len) (fun bytes t => t.all = pkt.all ∧ bytes <:+: pkt.all)
      (fun _ t => t.all = pkt.all) pkt := by
  rw [rPacketGetBytes, Prog.post_bind]
  unfold Prog.Post rPacketPeekBytes
  split_ifs with hcheck hshort
  · rfl
  · rfl
  · dsimp only
    rw [Prog.modify_bind]
    refine ⟨?_, ?_⟩
    · change pkt.past ++ pkt.rest.take len ++ pkt.rest.drop len = _
      rw [List.append_assoc, List.take_append_drop, RPacket.all]
    · exact (List.take_prefix len pkt.rest).isInfix.trans (List.suffix_append pkt.past _).isInfix

/-- The packet stays whole. -/
def RPacket.SameAll (pkt t : RPacket) : Prop := t.all = pkt.all

/-- A read leaves the packet whole. -/
theorem keeps_rPacketGetBytes (len : ℕ) : Prog.Keeps RPacket.SameAll (rPacketGetBytes len) := by
  intro pkt
  have h := rPacketGetBytes_all len pkt
  unfold Prog.Post at h
  unfold RPacket.SameAll
  split at h
  · rename_i heq
    rw [heq]
    exact h.1
  · rename_i heq
    rw [heq]
    exact h

/-- Reading a number leaves the packet whole. -/
theorem keeps_quicVariableLengthDecode : Prog.Keeps RPacket.SameAll quicVariableLengthDecode := by
  have htrans {s t u : RPacket} (h : s.SameAll t) (h' : t.SameAll u) : s.SameAll u := h'.trans h
  have hget : Prog.Keeps RPacket.SameAll rPacketGet1 :=
    (keeps_rPacketGetBytes 1).bind htrans fun _ => fun _ => rfl
  have htail (i length : ℕ) : Prog.Keeps RPacket.SameAll (varLengthTail i length) := by
    induction i generalizing length with
    | zero => exact fun _ => rfl
    | succ i ih => exact hget.bind htrans fun v => ih _
  exact hget.bind htrans fun v => htail _ _

namespace FrameState

/-- What leaves the packet and the queues. -/
structure Undisturbed (s t : FrameState) : Prop where
  /-- Whether the packet has a buffer. -/
  buf : t.conn.buf = s.conn.buf
  /-- The bytes of the packet. -/
  all : t.pkt.all = s.pkt.all
  /-- The size of the table. -/
  maxIdValue : t.conn.streams.conf.maxIdValue = s.conn.streams.conf.maxIdValue
  /-- The received data. -/
  received : s.conn.streams.SameReceived t.conn.streams

namespace Undisturbed

variable {s t u : FrameState}

theorem refl (s : FrameState) : s.Undisturbed s := ⟨rfl, rfl, rfl, .refl _⟩

/-- A read from the packet. -/
theorem zoom {α : Type} {m : Prog Fail RPacket α} (hm : Prog.Keeps RPacket.SameAll m) :
    Prog.Keeps Undisturbed (Prog.zoom FrameState.pkt (fun pkt s => { s with pkt }) m) :=
  fun s => ⟨rfl, hm s.pkt, rfl, .refl _⟩

/-- A check of the connection. -/
theorem check (p : FrameConn → Prop) [DecidablePred p] :
    Prog.Keeps Undisturbed (FrameState.check p) := by
  intro s
  by_cases hp : p s.conn
  · rw [check_of_pos hp]
    exact refl s
  · rw [check_of_neg hp]
    exact ⟨rfl, rfl, rfl, .refl _⟩

/-- An entry is changed beside its received data. -/
theorem updateSi (id : ℕ) {f : QuicStreamInstance → QuicStreamInstance}
    (hf : ∀ si, KeepsReceived si (f si)) :
    Prog.Keeps Undisturbed
      (connection (FrameConn.withStreams (Prog.modify (·.updateSi id f)))) :=
  fun _ => ⟨rfl, rfl, rfl, QuicStreams.SameReceived.updateSi (hf _)⟩

/-- Streams are opened. -/
theorem getInstance (h : ℕ) :
    Prog.Keeps Undisturbed (connection (FrameConn.withStreams (quicStreamGetInstance h))) := by
  intro s
  by_cases hfound : s.conn.streams.Found h
  · rw [getInstance_of_found hfound]
    exact ⟨rfl, rfl, (@QuicStreams.keeps_opened s.conn.streams h).maxIdValue, .opened⟩
  · rw [getInstance_of_not_found hfound]
    exact ⟨rfl, rfl, rfl, .refl _⟩

end Undisturbed

end FrameState

namespace Buffered

/-- A packet whose buffers fit the queues, and which lies in its own buffer, if it has one. -/
structure Parsing (s : Buffered FrameState) : Prop where
  /-- The buffers fit the queues. -/
  fits : s.bufs.Fits s.plain.conn.streams
  /-- Only the data of a packet with a buffer is queued. -/
  buf : s.plain.conn.buf = true → s.bufs.current.isSome
  /-- The bytes of the packet are those of its buffer. -/
  bytes (a : ℕ) (bytes : List UInt8) : s.bufs.current = some a →
    s.bufs.heap.content a = some bytes → s.plain.pkt.all = bytes

/-- The buffers fit the queues behind a run. -/
def EndsFitting {α : Type} (r : Except Fail α × Buffered FrameState) : Prop :=
  r.2.bufs.Fits r.2.plain.conn.streams

variable {α : Type} {s : Buffered FrameState}

/-- A step that leaves the packet and the queues, before others. -/
theorem on_bind_fits {β : Type} {m : Prog Fail FrameState α}
    {k : α → Prog Fail (Buffered FrameState) β} (hm : Prog.Keeps FrameState.Undisturbed m)
    (hs : s.Parsing) (hk : ∀ a t, m s.plain = (.ok a, t) → s.plain.Undisturbed t →
      Parsing ⟨t, s.bufs⟩ → EndsFitting (k a ⟨t, s.bufs⟩)) :
    EndsFitting ((on m >>= k) s) := by
  have hstep := hm s.plain
  rcases hrun : m s.plain with ⟨r, t⟩
  rw [hrun] at hstep
  have hfits : s.bufs.Fits t.conn.streams :=
    hs.fits.of_queues hstep.maxIdValue fun i => (hstep.received.entry i).queue
  cases r with
  | error e =>
    rw [on, Prog.bind_of_error (Prog.zoom_of_error hrun)]
    exact hfits
  | ok a =>
    rw [on, Prog.bind_of_ok (Prog.zoom_of_ok hrun)]
    refine hk a t hrun hstep ⟨hfits, fun hbuf => hs.buf (hstep.buf ▸ hbuf), fun i bytes hi hb => ?_⟩
    exact hstep.all.trans (hs.bytes i bytes hi hb)

/-- A step on the connection that ends with fitting buffers. -/
theorem connection_fits {m : Prog Fail (Buffered FrameConn) α}
    (h : (m ⟨s.plain.conn, s.bufs⟩).2.bufs.Fits (m ⟨s.plain.conn, s.bufs⟩).2.plain.streams) :
    EndsFitting (connection m s) := by
  unfold EndsFitting connection
  rcases hm : m ⟨s.plain.conn, s.bufs⟩ with ⟨r, t⟩
  rw [hm] at h
  cases r <;> exact h

/-- The data of a STREAM frame is queued with a reference to its buffer. -/
theorem quicFrameStreamStore_fits {s : Buffered FrameConn} {id offset : ℕ} {data : List UInt8}
    (hfits : s.bufs.Fits s.plain.streams) (hid : id < s.plain.streams.conf.maxIdValue)
    (hbuf : s.plain.buf = true → s.bufs.current.isSome)
    (hold : ∀ a, s.bufs.current = some a → DataBufs.Holds s.bufs.heap ⟨offset, data⟩ (some a)) :
    (quicFrameStreamStore id offset data s).2.bufs.Fits
      (quicFrameStreamStore id offset data s).2.plain.streams := by
  have hopen : s.plain.streams.SameReceived
      (s.plain.streams.updateSi id quicStreamInstanceRecvOpen) := .updateSi .recvOpen
  have hfits' : s.bufs.Fits (s.plain.streams.updateSi id quicStreamInstanceRecvOpen) :=
    hfits.of_queues rfl fun i => (hopen.entry i).queue
  unfold quicFrameStreamStore
  rw [Prog.bind_of_ok (show on _ s = (.ok (), ⟨{ s.plain with
    streams := s.plain.streams.updateSi id quicStreamInstanceRecvOpen }, s.bufs⟩) from rfl),
    Prog.get_bind]
  split
  · exact hfits'
  · by_cases hb : s.plain.buf = true
    · obtain ⟨a, ha⟩ := Option.isSome_iff_exists.mp (hbuf hb)
      rw [Prog.ensure_of_pos (by exact hb), Prog.pure_bind, quicStreamDataCreate,
        Prog.modify_bind, quicStreamDataAdd, Prog.modify_bind]
      have hadd := hfits'.dataAdd ha hid (hold a ha)
      change ((s.bufs.get s.bufs.current).dataAdd _ id ⟨offset, data⟩
        (s.bufs.get s.bufs.current).current).Fits ((Tbquic.quicStreamDataAdd _ id _).notify id)
      rw [DataBufs.get_current, ha]
      exact hadd.of_queues QuicStreams.keeps_notify.maxIdValue fun i =>
        (QuicStreams.SameReceived.notify.entry i).queue
    · rw [Prog.ensure_of_neg (by exact hb), Prog.fail_bind]
      exact hfits'

/-- The bytes of a packet lie in its buffer. -/
theorem Parsing.holds (h : s.Parsing) {data : List UInt8} (hdata : data <:+: s.plain.pkt.all)
    (offset a : ℕ) (ha : s.bufs.current = some a) :
    DataBufs.Holds s.bufs.heap ⟨offset, data⟩ (some a) :=
  ⟨a, rfl, fun bytes hb => h.bytes a bytes ha hb ▸ hdata⟩

/-- The parser of STREAM frames. -/
theorem quicFrameStreamParser_fits (type : ℕ) (hs : s.Parsing) :
    EndsFitting (quicFrameStreamParser type s) := by
  have hvar : Prog.Keeps FrameState.Undisturbed FrameState.readVar :=
    .zoom keeps_quicVariableLengthDecode
  unfold quicFrameStreamParser
  refine on_bind_fits hvar hs fun h t₁ _ _ ht₁ => ?_
  refine on_bind_fits ?_ ht₁ fun offset t₂ _ _ ht₂ => ?_
  · unfold FrameState.readStreamOffset
    split
    · exact hvar
    · exact fun t => .refl t
  refine on_bind_fits ?_ ht₂ fun len t₃ _ _ ht₃ => ?_
  · unfold FrameState.readStreamLen
    split
    · exact hvar
    · exact Prog.keeps_get_bind fun t => .refl t
  unfold quicFrameStreamBody
  refine on_bind_fits (.getInstance h) ht₃ fun id t hget hsame ht => ?_
  have hid : id < t.conn.streams.conf.maxIdValue := by
    rw [hsame.maxIdValue]
    by_cases hfound : t₃.conn.streams.Found h
    · rw [FrameState.getInstance_of_found hfound] at hget
      cases hget
      exact hfound.lt_maxIdValue
    · rw [FrameState.getInstance_of_not_found hfound] at hget
      cases hget
  refine on_bind_fits (.check _) ht fun _ u₁ _ hsame₁ hu₁ => ?_
  refine on_bind_fits (.updateSi id fun _ => .sendReady) hu₁ fun _ u₂ _ hsame₂ hu₂ => ?_
  refine on_bind_fits (.updateSi id fun _ => .recvFin) hu₂ fun _ u₃ _ hsame₃ hu₃ => ?_
  refine on_bind_fits (.zoom (keeps_rPacketGetBytes len)) hu₃ fun data u hread hsame₄ hu => ?_
  have hdata : data <:+: u.pkt.all := by
    rcases hbytes : rPacketGetBytes len u₃.pkt with ⟨r, pkt⟩
    rw [FrameState.readBytes, Prog.zoom_apply, hbytes] at hread
    cases hread
    obtain ⟨hall, hinfix⟩ := (rPacketGetBytes_all len u₃.pkt).of_ok hbytes
    exact hall ▸ hinfix
  refine connection_fits (quicFrameStreamStore_fits hu.fits ?_ hu.buf (hu.holds hdata offset))
  rw [hsame₄.maxIdValue, hsame₃.maxIdValue, hsame₂.maxIdValue, hsame₁.maxIdValue]
  exact hid

/-- The buffers fit the queues. -/
def Fitting (s : Buffered QuicStreams) : Prop := s.bufs.Fits s.plain

section Reads

variable {s : Buffered QuicStreams} {id len : ℕ}

/-- A stream is found, and then it is read. -/
theorem getInstance_fits (handle : ℤ) (hs : s.Fitting) :
    (∃ id t, on (quicStreamGetInstance handle) s = (.ok id, t) ∧ t.Fitting ∧
      id < t.plain.conf.maxIdValue) ∨ on (quicStreamGetInstance handle) s = (.error .ret, s) := by
  rcases quicStreamGetInstance_cases handle s.plain with ⟨id, -, hfound, hget⟩ | ⟨hget, -⟩
  · have hmax := (@QuicStreams.keeps_opened s.plain id).maxIdValue
    refine .inl ⟨id, ⟨s.plain.opened id, s.bufs⟩, Prog.zoom_of_ok hget, ?_, ?_⟩
    · exact DataBufs.Fits.of_queues hs hmax fun i => (QuicStreams.SameReceived.opened.entry i).queue
    · rw [hmax]
      exact hfound.lt_maxIdValue
  · exact .inr (Prog.zoom_of_error hget)

/-- A read gives the references of the entries back that it copies in full. -/
theorem quicStreamReadData_fits (hs : s.Fitting) (hid : id < s.plain.conf.maxIdValue) :
    (quicStreamReadData id len s).2.Fitting := by
  unfold quicStreamReadData
  rw [Prog.get_bind]
  cases hread : Tbquic.quicStreamReadData (s.plain.si id) len with
  | error e =>
    rw [Prog.ofExcept_error, Prog.fail_bind]
    exact hs
  | ok r =>
    rw [Prog.ofExcept_ok, Prog.pure_bind, Prog.modify_bind]
    exact DataBufs.Fits.readData hs hid hread

/-- A read before others. -/
theorem quicStreamReadData_bind_fits {α : Type}
    {k : ReadResult → Prog Fail (Buffered QuicStreams) α} (hs : s.Fitting)
    (hid : id < s.plain.conf.maxIdValue) (hk : ∀ r t, t.Fitting → (k r t).2.Fitting) :
    ((quicStreamReadData id len >>= k) s).2.Fitting := by
  have hread := @quicStreamReadData_fits s id len hs hid
  rcases hrun : quicStreamReadData id len s with ⟨r, t⟩
  rw [hrun] at hread
  cases r with
  | error e => rwa [Prog.bind_of_error hrun]
  | ok r =>
    rw [Prog.bind_of_ok hrun]
    exact hk r t hread

/-- `QuicStreamRecv`. -/
theorem quicStreamRecv_fits (handle : ℤ) (len : ℕ) (hs : s.Fitting) :
    (quicStreamRecv handle len s).2.Fitting := by
  unfold quicStreamRecv
  rcases getInstance_fits handle hs with ⟨id, t, hget, ht, hid⟩ | hget
  · rw [Prog.bind_of_ok hget]
    exact quicStreamReadData_fits ht hid
  · rw [Prog.bind_of_error hget]
    exact hs

/-- The inner loop of `QuicStreamReadV`. -/
theorem readVStream_fits (id : ℕ) (iov : List ℕ) (out : ReadVOut) (hs : s.Fitting) :
    (readVStream id iov out s).2.Fitting := by
  induction iov generalizing s id out with
  | nil => exact hs
  | cons len iov ih =>
    unfold readVStream
    rcases getInstance_fits id hs with ⟨id, t, hget, ht, hid⟩ | hget
    · rw [Prog.bind_of_ok (Prog.attempt_of_eq hget)]
      refine quicStreamReadData_bind_fits ht hid fun r u hu => ?_
      split_ifs
      · exact hu
      · exact hu
      · exact hu
      · exact ih id _ hu
    · rw [Prog.bind_of_ok (Prog.attempt_of_eq hget)]
      exact hs

/-- The outer loop of `QuicStreamReadV`. -/
theorem readVLoop_fits (msgs : List QuicStreamMsg) (iov : List ℕ) (out : ReadVOut)
    (hs : s.Fitting) : (readVLoop msgs iov out s).2.Fitting := by
  induction msgs generalizing s iov out with
  | nil => exact hs
  | cons msg msgs ih =>
    unfold readVLoop
    have hstream := readVStream_fits msg.id iov out hs
    rcases hrun : readVStream msg.id iov out s with ⟨_ | ⟨_ | iov, out⟩, t⟩
    · rw [Prog.bind_of_error hrun]
      rwa [hrun] at hstream
    · rw [Prog.bind_of_ok hrun]
      rwa [hrun] at hstream
    · rw [Prog.bind_of_ok hrun]
      rw [hrun] at hstream
      dsimp only
      rw [Prog.bind_of_ok (show on (Prog.modify _) t = (.ok (), _) from rfl)]
      exact ih iov out (hstream.of_queues rfl fun _ => rfl)

/-- `QuicStreamReadV`. -/
theorem quicStreamReadV_fits (iov : List ℕ) (hs : s.Fitting) :
    (quicStreamReadV iov s).2.Fitting := by
  unfold quicStreamReadV
  rw [Prog.get_bind]
  by_cases hinited : s.plain.conf.inited = true
  · rw [Prog.ensure_of_pos hinited, Prog.pure_bind]
    split_ifs
    · exact hs
    · exact readVLoop_fits _ iov _ hs
  · rw [Prog.ensure_of_neg hinited, Prog.fail_bind]
    exact hs

end Reads

end Buffered

/-- An endpoint with the buffers of the packets that it received. -/
structure BufferedEndpoint where
  /-- The endpoint. -/
  endpoint : Endpoint
  /-- The buffers. -/
  bufs : DataBufs
  /-- Whether the connection is torn down. -/
  freed : Bool

/-- What happens to the buffers of an endpoint. -/
inductive BufferEvent
  /-- `QuicOneRttParse` up to the frames, with what is decrypted, if this succeeds, and whether
  there is memory for a buffer. -/
  | oneRttParse (mem : Bool) (payload : Option (List UInt8))
  /-- The end of `QuicOneRttParse`. -/
  | parsed
  /-- An event of the streams. The frames of the packet that is parsed are such events. -/
  | notice (e : NoticeEvent)
  /-- `QuicStreamConfDeInit` in `QuicFree`. -/
  | deInit

namespace BufferedEndpoint

variable (mem : ℕ → Bool)

/-- The packet that is parsed has a buffer or not. -/
def parsing (s : BufferedEndpoint) : BufferedEndpoint :=
  { s with endpoint.conn.buf := s.bufs.current.isSome }

/-- The start of `QuicOneRttParse`: a buffer that nothing can be decrypted into is released. -/
def oneRttParse (memory : Bool) (payload : Option (List UInt8)) (s : BufferedEndpoint) :
    BufferedEndpoint :=
  if memory then
    let bufs := s.bufs.create (payload.getD [])
    let buf := some s.bufs.heap.next
    match payload with
    | none => { s with bufs := bufs.free buf }
    | some _ => { s with bufs := { bufs with current := buf } }
  else s

/-- The parser of a frame. A type without a parser is refused before it. -/
def recvFrame (type : ℕ) (frame : RPacket) (s : BufferedEndpoint) : Option BufferedEndpoint :=
  match Buffered.frameParser mem type with
  | none => some s
  | some parser =>
    (returned (parser ⟨⟨frame, s.endpoint.conn, false, false⟩, s.bufs⟩)).map fun t =>
      { s with endpoint := { s.endpoint with conn := t.plain.conn }, bufs := t.bufs }

/-- A routine on the streams. -/
def run {α : Type} (m : Prog Fail (Buffered QuicStreams) α) (s : BufferedEndpoint) :
    Option BufferedEndpoint :=
  (returned (m ⟨s.endpoint.streams, s.bufs⟩)).map fun t =>
    { s with endpoint := s.endpoint.setStreams t.plain, bufs := t.bufs }

/-- The frame lies in the buffer of the packet that is parsed, if it has one. -/
def InBuffer (s : BufferedEndpoint) (frame : RPacket) : Prop :=
  s.bufs.current.all fun a => s.bufs.heap.content a = some frame.all

instance (s : BufferedEndpoint) (frame : RPacket) : Decidable (s.InBuffer frame) :=
  inferInstanceAs (Decidable (_ = true))

/-- The state behind an event of the streams. -/
def noticeStep (s : BufferedEndpoint) : NoticeEvent → Option BufferedEndpoint
  | .stream (.frame type frame) =>
    if s.InBuffer frame then recvFrame mem type frame s else none
  | .stream (.read handle len) => run (Buffered.quicStreamRecv handle len) s
  | .readV iov => run (Buffered.quicStreamReadV iov) s
  | .stream e => (s.endpoint.step mem e).map fun endpoint => { s with endpoint }

/-- The state behind an event. Nothing happens behind the teardown, which does not happen while a
packet is parsed, and neither does the parsing of another packet. -/
def step (s : BufferedEndpoint) (e : BufferEvent) : Option BufferedEndpoint :=
  if s.freed then none
  else
    match e with
    | .oneRttParse memory payload =>
      if s.bufs.current = none then some (s.oneRttParse memory payload) else none
    | .parsed =>
      if s.bufs.current = none then none
      else some { s with bufs := { s.bufs.free s.bufs.current with current := none } }
    | .notice e => noticeStep mem s.parsing e
    | .deInit =>
      if s.bufs.current = none then
        let n := s.endpoint.streams.conf.maxIdValue
        some { s with
          endpoint := s.endpoint.setStreams
            ((List.range n).foldl DataBufs.queueDeInit s.endpoint.streams)
          bufs := s.bufs.confDeInit n
          freed := true }
      else none

/-- An endpoint without buffers. -/
def start (endpoint : Endpoint) : BufferedEndpoint := ⟨endpoint, .empty, false⟩

/-- The buffers fit the queues, and no buffer has an owner behind the teardown. -/
structure Inv (s : BufferedEndpoint) : Prop where
  /-- The buffers fit the queues. -/
  fits : s.bufs.Fits s.endpoint.streams
  /-- The teardown leaves no owner. -/
  freed : s.freed = true → ∀ a, s.bufs.owners s.endpoint.streams.conf.maxIdValue a = 0

variable {mem} {s t : BufferedEndpoint}

/-- No buffer is there at the start. -/
theorem inv_start {endpoint : Endpoint} (hempty : ∀ id, (endpoint.si id).queue = []) :
    (start endpoint).Inv := by
  refine ⟨⟨DataBufs.owned_empty.congr fun a => ?_, fun id => ?_, fun _ _ => rfl⟩,
    fun h => by cases h⟩
  · exact (Finset.sum_eq_zero fun _ _ => rfl : DataBufs.empty.entries _ a = 0)
  · have hid : (endpoint.streams.si id).queue = [] := hempty id
    change List.Forall₂ _ (endpoint.streams.si id).queue []
    rw [hid]
    exact .nil

/-- A packet is decrypted into a new buffer. -/
theorem oneRttParse_fits (hs : s.bufs.Fits s.endpoint.streams) (hcurrent : s.bufs.current = none)
    (memory : Bool) (payload : Option (List UInt8)) :
    (s.oneRttParse memory payload).bufs.Fits (s.oneRttParse memory payload).endpoint.streams := by
  unfold oneRttParse
  cases memory with
  | false => exact hs
  | true =>
    obtain ⟨howned, hqueued⟩ := hs.create (payload.getD [])
    cases payload with
    | none =>
      obtain ⟨hfree, hshrinks⟩ := howned.free
      refine hs.of_heap (hfree.congr fun a => ?_) DataBufs.free_origin fun id => ?_
      · change (DataBufs.free _ _).owners _ a = _
        rw [DataBufs.owners, DataBufs.entries, DataBufs.free_origin, DataBufs.free_current]
        rfl
      · exact (hqueued id).imp fun _ _ => DataBufs.Holds.shrinks hshrinks
    | some bytes =>
      have hparsed : (s.bufs.create bytes).Owned fun a =>
          s.bufs.entries s.endpoint.streams.conf.maxIdValue a +
            RefHeap.held (some s.bufs.heap.next) a := by
        refine howned.congr fun a => ?_
        rw [DataBufs.owners, hcurrent]
        rfl
      exact hs.of_heap ⟨hparsed.counts, hparsed.fresh, hparsed.released, hparsed.proper⟩ rfl hqueued

/-- Decryption is no teardown. -/
theorem oneRttParse_freed (memory : Bool) (payload : Option (List UInt8)) :
    (s.oneRttParse memory payload).freed = s.freed := by
  cases memory <;> cases payload <;> rfl

/-- The buffer of a parsed packet loses its reference. -/
theorem parsed_fits (hs : s.bufs.Fits s.endpoint.streams) :
    ({ s.bufs.free s.bufs.current with current := none } : DataBufs).Fits s.endpoint.streams := by
  obtain ⟨hfree, hshrinks⟩ := hs.owned.free
  have hparsed : (s.bufs.free s.bufs.current).Owned (({ s.bufs.free s.bufs.current with
      current := none } : DataBufs).owners s.endpoint.streams.conf.maxIdValue) := by
    refine hfree.congr fun a => ?_
    rw [DataBufs.owners, DataBufs.entries, DataBufs.free_origin]
    rfl
  refine hs.of_heap ⟨hparsed.counts, hparsed.fresh, hparsed.released, hparsed.proper⟩
    DataBufs.free_origin fun id => ?_
  exact (hs.queued id).imp fun _ _ => DataBufs.Holds.shrinks hshrinks

/-- The state behind a run that erases to another one. -/
theorem returned_erases {σ α : Type} {m : Prog Fail (Buffered σ) α} {n : Prog Fail σ α}
    (h : Buffered.Erases m n) (s : Buffered σ) :
    (returned (m s)).map Buffered.plain = returned (n s.plain) := by
  obtain ⟨hresult, hplain⟩ := h s
  rcases hm : m s with ⟨r, t⟩
  rcases hn : n s.plain with ⟨r', u⟩
  rw [hm, hn] at hresult hplain
  dsimp only at hresult hplain
  subst hresult hplain
  rcases r with e | a
  · cases e <;> rfl
  · rfl

/-- Without the buffers, a frame is one of the endpoint. -/
theorem recvFrame_endpoint (type : ℕ) (frame : RPacket) :
    (recvFrame mem type frame s).map BufferedEndpoint.endpoint =
      Endpoint.recvFrame mem type frame s.endpoint := by
  unfold recvFrame Endpoint.recvFrame
  rcases @Buffered.frameParser_erases mem type with ⟨hm, hn⟩ | ⟨m, n, hm, hn, herases⟩
  · rw [hm, hn]
    rfl
  · rw [hm, hn]
    dsimp only
    rw [← returned_erases herases ⟨⟨frame, s.endpoint.conn, false, false⟩, s.bufs⟩, Option.map_map,
      Option.map_map]
    rfl

/-- Without the buffers, a routine is one of the endpoint. -/
theorem run_endpoint {α : Type} {m : Prog Fail (Buffered QuicStreams) α}
    {n : Prog Fail QuicStreams α} (h : Buffered.Erases m n) :
    (run m s).map BufferedEndpoint.endpoint = s.endpoint.run n := by
  unfold run Endpoint.run
  rw [← returned_erases h ⟨s.endpoint.streams, s.bufs⟩, Option.map_map, Option.map_map]
  rfl

/-- A frame leaves the buffers fitting. -/
theorem recvFrame_fits {type : ℕ} {frame : RPacket} (hs : s.bufs.Fits s.endpoint.streams)
    (hbuf : s.endpoint.conn.buf = s.bufs.current.isSome) (hframe : s.InBuffer frame)
    (h : recvFrame mem type frame s = some t) :
    t.bufs.Fits t.endpoint.streams ∧ t.freed = s.freed := by
  by_cases htype : StreamType type
  · have hparser : Buffered.frameParser mem type = some (Buffered.quicFrameStreamParser type) :=
      if_pos htype
    unfold recvFrame at h
    rw [hparser] at h
    obtain ⟨u, hu, rfl⟩ := Option.map_eq_some_iff.mp h
    obtain ⟨rfl, -⟩ := Endpoint.returned_eq_some hu
    refine ⟨Buffered.quicFrameStreamParser_fits type ⟨hs, fun hb => hbuf ▸ hb, ?_⟩, rfl⟩
    intro a bytes ha hb
    change s.bufs.current = some a at ha
    rw [InBuffer, ha] at hframe
    have hall : s.bufs.heap.content a = some frame.all := of_decide_eq_true hframe
    exact Option.some.inj (hall.symm.trans hb)
  · have hendpoint := @recvFrame_endpoint mem s type frame
    rw [h] at hendpoint
    have hsame := Endpoint.step_sameReceived (e := .frame type frame) hendpoint.symm
      (fun _ _ he htype' => by cases he; exact absurd htype' htype) fun _ _ he => by cases he
    have hkeeps := (Endpoint.step_written (e := .frame type frame) hendpoint.symm).keeps
    have hbufs : t.bufs = s.bufs ∧ t.freed = s.freed := by
      unfold recvFrame Buffered.frameParser at h
      rw [if_neg htype] at h
      cases hn : FrameState.frameParser mem type with
      | none =>
        rw [hn] at h
        cases h
        exact ⟨rfl, rfl⟩
      | some n =>
        rw [hn] at h
        obtain ⟨u, hu, rfl⟩ := Option.map_eq_some_iff.mp h
        obtain ⟨rfl, -⟩ := Endpoint.returned_eq_some hu
        exact ⟨rfl, rfl⟩
    rw [hbufs.1]
    exact ⟨hs.of_queues hkeeps.maxIdValue fun i => (hsame.entry i).queue, hbufs.2⟩

/-- A routine leaves the buffers fitting. -/
theorem run_fits {α : Type} {m : Prog Fail (Buffered QuicStreams) α}
    (hm : ∀ u : Buffered QuicStreams, u.Fitting → (m u).2.Fitting)
    (hs : s.bufs.Fits s.endpoint.streams) (h : run m s = some t) :
    t.bufs.Fits t.endpoint.streams ∧ t.freed = s.freed := by
  obtain ⟨u, hu, rfl⟩ := Option.map_eq_some_iff.mp h
  obtain ⟨rfl, -⟩ := Endpoint.returned_eq_some hu
  exact ⟨hm _ hs, rfl⟩

/-- An event that neither queues nor reads data leaves the buffers. -/
theorem endpoint_fits {e : StreamEvent} (hs : s.bufs.Fits s.endpoint.streams)
    (hframe : ∀ type frame, e ≠ .frame type frame) (hread : ∀ handle len, e ≠ .read handle len)
    (h : (s.endpoint.step mem e).map (fun endpoint => { s with endpoint }) = some t) :
    t.bufs.Fits t.endpoint.streams ∧ t.freed = s.freed := by
  obtain ⟨u, hu, rfl⟩ := Option.map_eq_some_iff.mp h
  have hsame := Endpoint.step_sameReceived hu (fun type frame he => absurd he (hframe type frame))
    hread
  have hkeeps := (Endpoint.step_written hu).keeps
  exact ⟨hs.of_queues hkeeps.maxIdValue fun i => (hsame.entry i).queue, rfl⟩

/-- An event of the streams leaves the buffers fitting. -/
theorem noticeStep_fits {e : NoticeEvent} (hs : s.bufs.Fits s.endpoint.streams)
    (hbuf : s.endpoint.conn.buf = s.bufs.current.isSome) (h : noticeStep mem s e = some t) :
    t.bufs.Fits t.endpoint.streams ∧ t.freed = s.freed := by
  cases e with
  | readV iov => exact run_fits (fun _ => Buffered.quicStreamReadV_fits iov) hs h
  | stream e =>
    cases e with
    | frame type frame =>
      simp only [noticeStep] at h
      split_ifs at h with hframe
      exact recvFrame_fits hs hbuf hframe h
    | read handle len => exact run_fits (fun _ => Buffered.quicStreamRecv_fits handle len) hs h
    | streamOpen | streamBuild | blockedBuild | resetBuild | flowCtrl | sent =>
      simp only [noticeStep] at h
      exact endpoint_fits hs (fun _ _ he => StreamEvent.noConfusion he)
        (fun _ _ he => StreamEvent.noConfusion he) h

/-- Without the buffers, an event of the streams is one of the endpoint. -/
theorem noticeStep_endpoint {e : NoticeEvent} (h : noticeStep mem s e = some t) :
    e.step mem s.endpoint = some t.endpoint := by
  cases e with
  | readV iov =>
    exact (run_endpoint (Buffered.quicStreamReadV_erases iov)).symm.trans
      (congrArg (Option.map BufferedEndpoint.endpoint) h)
  | stream e =>
    cases e with
    | frame type frame =>
      simp only [noticeStep] at h
      split_ifs at h
      exact (recvFrame_endpoint type frame).symm.trans
        (congrArg (Option.map BufferedEndpoint.endpoint) h)
    | read handle len =>
      exact (run_endpoint (Buffered.quicStreamRecv_erases handle len)).symm.trans
        (congrArg (Option.map BufferedEndpoint.endpoint) h)
    | streamOpen | streamBuild | blockedBuild | resetBuild | flowCtrl | sent =>
      simp only [noticeStep] at h
      obtain ⟨u, hu, rfl⟩ := Option.map_eq_some_iff.mp h
      exact hu

/-- Without the buffers, a run of events of the streams is one of the endpoint. -/
theorem run_noticeStep_endpoint {es : List NoticeEvent}
    (h : Trace.run (noticeStep mem) s es = some t) :
    Trace.run (NoticeEvent.step mem) s.endpoint es = some t.endpoint :=
  Trace.run_image (fun _ _ _ hstep => noticeStep_endpoint hstep) h

/-- Every step keeps the buffers fitting. -/
theorem step_inv {e : BufferEvent} (hs : s.Inv) (h : step mem s e = some t) : t.Inv := by
  unfold step at h
  split at h
  · cases h
  · rename_i hfreed
    cases e with
    | oneRttParse memory payload =>
      dsimp only at h
      split_ifs at h with hcurrent
      cases h
      refine ⟨oneRttParse_fits hs.fits hcurrent memory payload, fun hf => absurd ?_ hfreed⟩
      rwa [oneRttParse_freed] at hf
    | parsed =>
      dsimp only at h
      split_ifs at h with hcurrent
      cases h
      exact ⟨parsed_fits hs.fits, fun hf => absurd hf hfreed⟩
    | notice e =>
      obtain ⟨hfits, hsame⟩ := noticeStep_fits (s := s.parsing) hs.fits rfl h
      exact ⟨hfits, fun hf => absurd (hsame ▸ hf) hfreed⟩
    | deInit =>
      dsimp only at h
      split_ifs at h with hcurrent
      cases h
      obtain ⟨hfits, hmax⟩ := hs.fits.confDeInit (le_refl _)
      refine ⟨hfits, fun _ a => ?_⟩
      change (s.bufs.confDeInit _).owners
        ((List.range _).foldl DataBufs.queueDeInit s.endpoint.streams).conf.maxIdValue a = 0
      rw [hmax, DataBufs.confDeInit_owners, hcurrent]
      rfl

/-- The buffers and the entries that point to them are as they should be. -/
structure BuffersProper (s : BufferedEndpoint) : Prop where
  /-- A buffer counts the queued entries that point to it, and the packet that is parsed. -/
  count (a : ℕ) : s.bufs.heap.references a =
    s.bufs.entries s.endpoint.streams.conf.maxIdValue a + if s.bufs.current = some a then 1 else 0
  /-- The bytes of every entry lie in its buffer, which is allocated. -/
  queued (id : ℕ) : List.Forall₂
    (fun sd buf => ∃ a bytes, buf = some a ∧ s.bufs.heap.content a = some bytes ∧
      sd.data <:+: bytes)
    (s.endpoint.si id).queue (s.bufs.origin id)
  /-- A buffer that was created was released once when it has no owner left, and never before. -/
  released (a : ℕ) : s.bufs.released a =
    if a < s.bufs.heap.next ∧ s.bufs.owners s.endpoint.streams.conf.maxIdValue a = 0 then 1 else 0
  /-- No buffer was used that is not allocated. -/
  proper : s.bufs.misused = false
  /-- Behind the teardown every buffer was released. -/
  freed : s.freed = true → ∀ a < s.bufs.heap.next, s.bufs.released a = 1

/-- The invariant says so. -/
theorem Inv.proper (hs : s.Inv) : s.BuffersProper := by
  have hreleased (a : ℕ) : s.bufs.released a = if a < s.bufs.heap.next ∧
      s.bufs.owners s.endpoint.streams.conf.maxIdValue a = 0 then 1 else 0 := by
    have halive := hs.fits.owned.counts.isSome_iff (a := a)
    rw [hs.fits.owned.released]
    refine if_congr (and_congr_right fun _ => ?_) rfl rfl
    rw [← not_iff_not, ← Ne, Option.ne_none_iff_isSome, halive]
    omega
  refine ⟨hs.fits.owned.counts.count, hs.fits.allocated, hreleased, hs.fits.owned.proper, ?_⟩
  intro hfreed a ha
  rw [hreleased, if_pos ⟨ha, hs.freed hfreed a⟩]

/-- A packet with two STREAM frames, of three bytes for stream 0 and of two for stream 4. -/
def twoFrames : List UInt8 := [0x0a, 0, 3, 1, 2, 3, 0x0a, 4, 2, 4, 5]

/-- In every run of an endpoint the buffers are as they should be. -/
theorem buffersProper_of_run {endpoint : Endpoint} (hcreated : endpoint.Created)
    {es : List BufferEvent} (h : Trace.run (step mem) (start endpoint) es = some t) :
    t.BuffersProper := by
  obtain ⟨own, peer, hstreams, -, -⟩ := hcreated
  have hempty (id : ℕ) : (endpoint.si id).queue = [] := by
    rw [Endpoint.si, hstreams, createdStreams_eq]
    rfl
  exact (Trace.run_invariant Inv (fun _ _ _ => step_inv) (inv_start hempty) h).proper

/-- It holds along a run with a packet of two STREAM frames, of which the application reads one in
part, and with the teardown. -/
theorem buffersProper_of_run_twoFrames :
    ∃ t, Trace.run (step fun _ => true)
        (start (.created true Endpoint.ordinaryParams Endpoint.ordinaryParams))
        [.oneRttParse true (some twoFrames),
          .notice (.stream (.frame 0x0a ⟨twoFrames.take 1, twoFrames.drop 1⟩)),
          .notice (.stream (.frame 0x0a ⟨twoFrames.take 7, twoFrames.drop 7⟩)),
          .parsed, .notice (.stream (.read 0 2)), .deInit] = some t ∧ t.BuffersProper := by
  obtain ⟨t, ht⟩ := Option.isSome_iff_exists.mp (show (Trace.run (step fun _ => true)
        (start (.created true Endpoint.ordinaryParams Endpoint.ordinaryParams))
        [.oneRttParse true (some twoFrames),
          .notice (.stream (.frame 0x0a ⟨twoFrames.take 1, twoFrames.drop 1⟩)),
          .notice (.stream (.frame 0x0a ⟨twoFrames.take 7, twoFrames.drop 7⟩)),
          .parsed, .notice (.stream (.read 0 2)), .deInit]).isSome = true by decide +kernel)
  exact ⟨t, ht, buffersProper_of_run (Endpoint.created_created true _ _) ht⟩

end BufferedEndpoint

end Tbquic
