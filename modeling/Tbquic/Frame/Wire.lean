import Tbquic.Frame.Receive

/-!
# Frames on the wire

The bytes of ACK and STREAM frames, and what the parser reads when they stand one after the
other in a packet. A STREAM frame without a length takes the rest of the packet as its data.
-/

namespace Tbquic

/-- The type of a STREAM frame with the given bits. -/
def streamFrameType (off len fin : Bool) : ℕ :=
  quicFrameTypeStream ||| (if off then 4 else 0) ||| (if len then 2 else 0) |||
    (if fin then 1 else 0)

/-- A STREAM frame as it is written. -/
structure StreamPiece where
  /-- Whether the frame has the LEN bit and its length. -/
  hasLen : Bool
  /-- The FIN bit. -/
  fin : Bool
  /-- The stream. -/
  id : ℕ
  /-- The offset, which is written unless it is zero. -/
  offset : ℕ
  /-- The data. -/
  data : List UInt8
  deriving DecidableEq, Repr

namespace StreamPiece

/-- The type of the frame. -/
def type (p : StreamPiece) : ℕ := streamFrameType (p.offset ≠ 0) p.hasLen p.fin

/-- The bytes of the offset. -/
def offsetBytes (p : StreamPiece) : List UInt8 :=
  if p.offset ≠ 0 then varLengthBytes p.offset else []

/-- The bytes of the length. -/
def lenBytes (p : StreamPiece) : List UInt8 :=
  if p.hasLen then varLengthBytes p.data.length else []

/-- The bytes behind the type. -/
def body (p : StreamPiece) : List UInt8 :=
  varLengthBytes p.id ++ p.offsetBytes ++ p.lenBytes ++ p.data

/-- The bytes of the frame. -/
def bytes (p : StreamPiece) : List UInt8 := varLengthBytes p.type ++ p.body

/-- The numbers of the frame can be encoded. -/
def Valid (p : StreamPiece) : Prop :=
  p.id < 2 ^ 62 ∧ p.offset < 2 ^ 62 ∧ p.data.length < 2 ^ 62

/-- What a parser reads of the frame, with more bytes at the end of its data. -/
def read (p : StreamPiece) (more : List UInt8) : StreamRead where
  fin := p.fin
  id := p.id
  sd := { offset := p.offset, data := p.data ++ more }

end StreamPiece

/-- An ACK frame with one range. -/
structure AckPiece where
  /-- The largest number acknowledged. -/
  largest : ℕ
  /-- The delay. -/
  delay : ℕ
  /-- The length of the range. -/
  first : ℕ
  deriving DecidableEq, Repr

namespace AckPiece

/-- The bytes behind the type. -/
def body (p : AckPiece) : List UInt8 :=
  varLengthBytes p.largest ++ varLengthBytes p.delay ++ varLengthBytes 0 ++ varLengthBytes p.first

/-- The bytes of the frame. -/
def bytes (p : AckPiece) : List UInt8 := varLengthBytes quicFrameTypeAck ++ p.body

/-- The numbers of the frame can be encoded. -/
def Valid (p : AckPiece) : Prop := p.largest < 2 ^ 62 ∧ p.delay < 2 ^ 62 ∧ p.first < 2 ^ 62

/-- `QuicFrameAckParser` accepts the range. It reads the sign of a number of 32 bits. -/
def Accepted (p : AckPiece) : Prop :=
  ¬ quicLt (((((p.largest : ℤ) - p.first) % 2 ^ 64).toNat : ℕ) : ℤ) 0

instance (p : AckPiece) : Decidable p.Accepted := inferInstanceAs (Decidable (¬ _))

end AckPiece

/-- The frames that `QuicStreamFrameBuild` writes. -/
inductive Piece
  /-- An ACK frame. -/
  | ack (p : AckPiece)
  /-- A STREAM frame. -/
  | stream (p : StreamPiece)
  deriving DecidableEq, Repr

namespace Piece

/-- The bytes of a frame. -/
def bytes : Piece → List UInt8
  | ack p => p.bytes
  | stream p => p.bytes

/-- The numbers of a frame can be encoded. -/
def Valid : Piece → Prop
  | ack p => p.Valid
  | stream p => p.Valid

/-- A frame is accepted in the given state of the streams. -/
def Accepted (q : QuicStreams) : Piece → Prop
  | ack p => p.Accepted
  | stream p => q.Receivable p.id

end Piece

/-- What the parser reads of the frames of a packet. A STREAM frame without a length takes the
frames behind it as data. -/
def readPieces : List Piece → List StreamRead
  | [] => []
  | .ack _ :: ps => readPieces ps
  | .stream p :: ps =>
    if p.hasLen then p.read [] :: readPieces ps else [p.read (ps.flatMap Piece.bytes)]

namespace StreamPiece

variable (p : StreamPiece)

theorem isStreamType_type : isStreamType p.type = true := by
  unfold type
  cases decide (p.offset ≠ 0) <;> cases p.hasLen <;> cases p.fin <;> rfl

theorem streamBitOff_type : streamBitOff p.type = decide (p.offset ≠ 0) := by
  unfold type
  cases decide (p.offset ≠ 0) <;> cases p.hasLen <;> cases p.fin <;> rfl

theorem streamBitLen_type : streamBitLen p.type = p.hasLen := by
  unfold type
  cases decide (p.offset ≠ 0) <;> cases p.hasLen <;> cases p.fin <;> rfl

theorem streamBitFin_type : streamBitFin p.type = p.fin := by
  unfold type
  cases decide (p.offset ≠ 0) <;> cases p.hasLen <;> cases p.fin <;> rfl

/-- The type of a STREAM frame is one of eight. -/
theorem type_bounds : 8 ≤ p.type ∧ p.type < 16 := by
  have h := p.isStreamType_type
  rwa [isStreamType, Bool.and_eq_true, decide_eq_true_iff, decide_eq_true_iff] at h

end StreamPiece

section Read

variable {past rest : List UInt8} {p : StreamPiece}

/-- The offset of a frame is read back. -/
theorem quicFrameStreamOffset_append (hvalid : p.Valid)
    (hrest : (p.offsetBytes ++ rest).length < 2 ^ 31) :
    quicFrameStreamOffset p.type { past, rest := p.offsetBytes ++ rest } =
      (.ok p.offset, { past := past ++ p.offsetBytes, rest }) := by
  rw [quicFrameStreamOffset, p.streamBitOff_type]
  rw [StreamPiece.offsetBytes] at hrest ⊢
  by_cases hoffset : p.offset ≠ 0
  · rw [if_pos hoffset] at hrest ⊢
    rw [if_pos (decide_eq_true hoffset), quicVariableLengthDecode_append _ hvalid.2.1 hrest]
  · rw [if_neg hoffset, if_neg (by simpa using hoffset), not_not.mp hoffset]
    simp

/-- The length of a frame is read back, or it is the rest of the packet. -/
theorem quicFrameStreamLen_append (hvalid : p.Valid)
    (hrest : (p.lenBytes ++ (p.data ++ rest)).length < 2 ^ 31) :
    quicFrameStreamLen p.type { past, rest := p.lenBytes ++ (p.data ++ rest) } =
      (.ok (if p.hasLen then p.data.length else (p.data ++ rest).length),
        { past := past ++ p.lenBytes, rest := p.data ++ rest }) := by
  rw [quicFrameStreamLen, p.streamBitLen_type]
  rw [StreamPiece.lenBytes] at hrest ⊢
  cases hlen : p.hasLen with
  | true =>
    rw [hlen, if_pos rfl] at hrest
    rw [if_pos rfl, if_pos rfl, if_pos rfl, quicVariableLengthDecode_append _ hvalid.2.2 hrest]
  | false => simp [RPacket.remaining]

/-- The header of a frame is read back. -/
theorem quicFrameStreamHeader_body (past : List UInt8) (hvalid : p.Valid)
    (hrest : (p.body ++ rest).length < 2 ^ 31) :
    ∃ past', quicFrameStreamHeader p.type { past, rest := p.body ++ rest } =
      (.ok ⟨p.id, p.offset, if p.hasLen then p.data.length else (p.data ++ rest).length⟩,
        { past := past', rest := p.data ++ rest }) := by
  have hbody : p.body ++ rest =
      varLengthBytes p.id ++ (p.offsetBytes ++ (p.lenBytes ++ (p.data ++ rest))) := by
    simp [StreamPiece.body]
  rw [hbody] at hrest ⊢
  have hoffset := List.length_append ▸ hrest
  have hlen : (p.lenBytes ++ (p.data ++ rest)).length < 2 ^ 31 := by
    simp only [List.length_append] at hrest ⊢
    omega
  refine ⟨past ++ varLengthBytes p.id ++ p.offsetBytes ++ p.lenBytes, ?_⟩
  rw [quicFrameStreamHeader, Prog.bind_of_ok (quicVariableLengthDecode_append _ hvalid.1 hrest),
    Prog.bind_of_ok (quicFrameStreamOffset_append hvalid (by omega)),
    Prog.bind_of_ok (quicFrameStreamLen_append hvalid hlen)]
  rfl

/-- A frame with a length is read back, and the bytes behind it are left. -/
theorem readStreamFrame_len (past : List UInt8) (hvalid : p.Valid) (hlen : p.hasLen = true)
    (hrest : (p.body ++ rest).length < 2 ^ 31) :
    ∃ past', readStreamFrame p.type { past, rest := p.body ++ rest } =
      (.ok (p.id, ⟨p.offset, p.data⟩), { past := past', rest }) := by
  obtain ⟨past', hheader⟩ := quicFrameStreamHeader_body past hvalid hrest
  have hlength : rest.length < 2 ^ 31 := by
    rw [List.length_append] at hrest
    omega
  have hdata := rPacketGetBytes_append past' p.data hlength
  rw [hlen, if_pos rfl] at hheader
  exact ⟨_, by rw [readStreamFrame, Prog.bind_of_ok hheader, Prog.bind_of_ok hdata]; rfl⟩

/-- A frame without a length takes the bytes behind it. -/
theorem readStreamFrame_rest (past : List UInt8) (hvalid : p.Valid) (hlen : p.hasLen = false)
    (hrest : (p.body ++ rest).length < 2 ^ 31) :
    ∃ past', readStreamFrame p.type { past, rest := p.body ++ rest } =
      (.ok (p.id, ⟨p.offset, p.data ++ rest⟩), { past := past', rest := [] }) := by
  obtain ⟨past', hheader⟩ := quicFrameStreamHeader_body past hvalid hrest
  have hnil : ([] : List UInt8).length < 2 ^ 31 := by decide
  have hdata := rPacketGetBytes_append past' (p.data ++ rest) hnil
  rw [List.append_nil] at hdata
  rw [hlen, if_neg Bool.false_ne_true] at hheader
  exact ⟨_, by rw [readStreamFrame, Prog.bind_of_ok hheader, Prog.bind_of_ok hdata]; rfl⟩

end Read

section Receive

variable {s : FrameRecv} {rest : List UInt8}

/-- A number at the start of the packet is read. -/
theorem recvVar_append (s : FrameRecv) (past : List UInt8) {n : ℕ} (hn : n < 2 ^ 62)
    (hrest : (varLengthBytes n ++ rest).length < 2 ^ 31) :
    recvVar { s with pkt := ⟨past, varLengthBytes n ++ rest⟩ } =
      (.ok n, { s with pkt := ⟨past ++ varLengthBytes n, rest⟩ }) := by
  rw [recvVar, Prog.zoom_apply, quicVariableLengthDecode_append _ hn hrest]

/-- A STREAM frame of a stream that can receive is read and handed to the stream. -/
theorem recvStreamFrame_of_receivable {type id : ℕ} {sd : QuicStreamData} {pkt : RPacket}
    (hread : readStreamFrame type s.pkt = (.ok (id, sd), pkt)) (h : s.streams.Receivable id) :
    recvStreamFrame type s =
      (.ok (), { s with
        pkt, streams := s.streams.receive id (streamBitFin type) sd,
        reads := s.reads ++ [{ fin := streamBitFin type, id, sd }] }) := by
  have hparser := quicFrameStreamParser_of_receivable hread h
  have hzoom : Prog.zoom (fun s : FrameRecv => (s.pkt, s.streams))
      (fun p s => { s with pkt := p.1, streams := p.2 }) (quicFrameStreamParser type true) s =
      (.ok (), { s with pkt, streams := s.streams.receive id (streamBitFin type) sd }) := by
    rw [Prog.zoom_apply, hparser]
  rw [recvStreamFrame, Prog.get_bind, Prog.bind_of_ok hzoom, Prog.modify_apply,
    FrameRecv.record, hread]

/-- The largest number of an ACK frame is remembered without touching packet and streams. -/
theorem largestAcked_cases (s : FrameRecv) (largest : ℕ) (pkt : RPacket) :
    ∃ t : FrameRecv, (if quicGe largest s.largestAcked then
        { { s with pkt } with largestAcked := largest } else { s with pkt }) = { t with pkt } ∧
      t.reads = s.reads ∧ t.streams = s.streams := by
  by_cases h : quicGe largest s.largestAcked
  · exact ⟨{ s with largestAcked := largest }, if_pos h, rfl, rfl⟩
  · exact ⟨s, if_neg h, rfl, rfl⟩

/-- `smallest_acked` of an ACK frame. -/
def AckPiece.smallest (p : AckPiece) : ℕ := (((p.largest : ℤ) - p.first) % 2 ^ 64).toNat

/-- The four numbers of an ACK frame with one range are read, and its range is checked. -/
theorem quicFrameAckParser_append (s : FrameRecv) (past : List UInt8) {p : AckPiece}
    (hvalid : p.Valid) (hrest : (p.body ++ rest).length < 2 ^ 31) :
    ∃ t : FrameRecv, t.pkt.rest = rest ∧ t.reads = s.reads ∧ t.streams = s.streams ∧
      quicFrameAckParser { s with pkt := ⟨past, p.body ++ rest⟩ } = (do
        Prog.ensure .ret p.Accepted
        let start ← qBufAckSentPkt p.smallest p.largest false
        quicFrameAckRanges p.smallest start 0 : Prog Fail FrameRecv Unit) t := by
  have hbody : p.body ++ rest = varLengthBytes p.largest ++ (varLengthBytes p.delay ++
      (varLengthBytes 0 ++ (varLengthBytes p.first ++ rest))) := by
    simp [AckPiece.body]
  rw [hbody] at hrest ⊢
  simp only [List.length_append] at hrest
  obtain ⟨t, ht, hreads, hstreams⟩ := largestAcked_cases s p.largest
    ⟨past ++ varLengthBytes p.largest,
      varLengthBytes p.delay ++ (varLengthBytes 0 ++ (varLengthBytes p.first ++ rest))⟩
  have hzero : 0 < 2 ^ 62 := by decide
  refine ⟨{ t with pkt := ⟨past ++ varLengthBytes p.largest ++ varLengthBytes p.delay ++
    varLengthBytes 0 ++ varLengthBytes p.first, rest⟩ }, rfl, hreads, hstreams, ?_⟩
  rw [quicFrameAckParser, Prog.bind_of_ok (recvVar_append s _ hvalid.1
    (by simp only [List.length_append]; omega)), Prog.modify_bind, ht,
    Prog.bind_of_ok (recvVar_append t _ hvalid.2.1 (by simp only [List.length_append]; omega)),
    Prog.bind_of_ok (recvVar_append t _ hzero (by simp only [List.length_append]; omega)),
    Prog.bind_of_ok (recvVar_append t _ hvalid.2.2 (by simp only [List.length_append]; omega))]
  rfl

/-- An ACK frame with an accepted range is read. -/
theorem quicFrameAckParser_of_accepted (s : FrameRecv) (past : List UInt8) {p : AckPiece}
    (hvalid : p.Valid) (hrest : (p.body ++ rest).length < 2 ^ 31) (haccepted : p.Accepted) :
    ∃ t, quicFrameAckParser { s with pkt := ⟨past, p.body ++ rest⟩ } = (.ok (), t) ∧
      t.pkt.rest = rest ∧ t.reads = s.reads ∧ s.streams.Keeps t.streams := by
  obtain ⟨t, hpkt, hreads, hstreams, hparser⟩ := quicFrameAckParser_append s past hvalid hrest
  have hkeeps := QuicStreams.keeps_ackLoop (q := t.streams) p.smallest p.largest t.sentQueue.reverse
  rw [hparser, Prog.ensure_of_pos haccepted, Prog.pure_bind,
    Prog.bind_of_ok (qBufAckSentPkt_false _ _ t)]
  refine ⟨_, rfl, hpkt, hreads, ?_⟩
  rw [← hstreams]
  exact hkeeps

/-- The frames of a packet can be parsed: their numbers are in range, their streams can
receive and their acknowledgements are accepted. -/
def Parsable (q : QuicStreams) (ps : List Piece) : Prop := ∀ p ∈ ps, p.Valid ∧ p.Accepted q

/-- What can be parsed can still be parsed when the streams are kept. -/
theorem Parsable.keeps {q t : QuicStreams} {ps : List Piece} (h : Parsable q ps)
    (hkeeps : q.Keeps t) : Parsable t ps := fun p hp => by
  obtain ⟨hvalid, haccepted⟩ := h p hp
  refine ⟨hvalid, ?_⟩
  cases p with
  | ack p => exact haccepted
  | stream p => exact hkeeps.receivable haccepted

/-- A round of the loop that reads a STREAM frame. -/
theorem quicFrameLoop_stream (other : ℕ → Option (Prog Fail FrameRecv Unit))
    (cryptoFound : Prog Fail FrameRecv Unit) {p : StreamPiece} (fuel : ℕ) (flags : FrameFlags)
    {sd : QuicStreamData} {pkt : RPacket}
    (hrest : s.pkt.rest = varLengthBytes p.type ++ (p.body ++ rest))
    (hlen : (varLengthBytes p.type ++ (p.body ++ rest)).length < 2 ^ 31)
    (hread : readStreamFrame p.type ⟨s.pkt.past ++ varLengthBytes p.type, p.body ++ rest⟩ =
      (.ok (p.id, sd), pkt)) (h : s.streams.Receivable p.id) :
    quicFrameLoop (frameRecvHandlers other cryptoFound) (fuel + 1) flags s =
      quicFrameLoop (frameRecvHandlers other cryptoFound) fuel (flags.add p.type)
        { s with
          pkt, streams := s.streams.receive p.id p.fin sd,
          reads := s.reads ++ [{ fin := p.fin, id := p.id, sd }] } := by
  obtain ⟨hlow, hhigh⟩ := p.type_bounds
  have hmax : p.type < quicFrameTypeMax := hhigh.trans (by decide)
  have hpadding : p.type ≠ quicFrameTypePadding :=
    Nat.ne_of_gt ((by decide : quicFrameTypePadding < 8).trans_le hlow)
  have hparser : (frameRecvHandlers other cryptoFound).parser p.type =
      some (recvStreamFrame p.type) := if_pos p.isStreamType_type
  rw [quicFrameLoop_type _ hrest hlen hmax hpadding hparser, ← p.streamBitFin_type]
  exact Prog.bind_of_ok (recvStreamFrame_of_receivable hread h)

/-- STREAM frames are not CRYPTO frames. -/
theorem add_type_cryptoFound (flags : FrameFlags) (p : StreamPiece) :
    (flags.add p.type).cryptoFound = flags.cryptoFound := by
  have htype : decide (p.type = quicFrameTypeCrypto) = false := decide_eq_false
    (Nat.ne_of_gt ((by decide : quicFrameTypeCrypto < 8).trans_le p.type_bounds.1))
  rw [FrameFlags.add, htype, Bool.or_false]

/-- The loop reads the frames of a packet one after the other. -/
theorem quicFrameLoop_pieces (other : ℕ → Option (Prog Fail FrameRecv Unit))
    (cryptoFound : Prog Fail FrameRecv Unit) {ps : List Piece} {fuel : ℕ} (flags : FrameFlags)
    (hfuel : ps.length < fuel) (hps : Parsable s.streams ps)
    (hrest : s.pkt.rest = ps.flatMap Piece.bytes) (hlen : s.pkt.rest.length < 2 ^ 31) :
    ∃ t flags', quicFrameLoop (frameRecvHandlers other cryptoFound) fuel flags s =
        (.ok flags', t) ∧ flags'.cryptoFound = flags.cryptoFound ∧
      t.reads = s.reads ++ readPieces ps ∧ s.streams.Keeps t.streams := by
  induction ps generalizing s fuel flags with
  | nil =>
    cases fuel with
    | zero => cases hfuel
    | succ fuel =>
      exact ⟨s, flags, quicFrameLoop_nil _ hrest, rfl, by simp [readPieces], .refl _⟩
  | cons p ps ih =>
    cases fuel with
    | zero => cases hfuel
    | succ fuel =>
      have hp := hps p List.mem_cons_self
      have htail : Parsable s.streams ps := fun p hp => hps p (List.mem_cons_of_mem _ hp)
      rw [List.length_cons] at hfuel
      rw [hrest] at hlen
      cases p with
      | ack p =>
        have hbytes : (Piece.ack p :: ps).flatMap Piece.bytes =
            varLengthBytes quicFrameTypeAck ++ (p.body ++ ps.flatMap Piece.bytes) := by
          simp [Piece.bytes, AckPiece.bytes]
        rw [hbytes] at hrest hlen
        have hbody : (p.body ++ ps.flatMap Piece.bytes).length < 2 ^ 31 := by
          rw [List.length_append] at hlen
          omega
        obtain ⟨t, hparser, hpkt, hreads, hkeeps⟩ := quicFrameAckParser_of_accepted s
          (s.pkt.past ++ varLengthBytes quicFrameTypeAck) hp.1 hbody hp.2
        have hlen' : t.pkt.rest.length < 2 ^ 31 := by
          rw [List.length_append] at hbody
          rw [hpkt]
          omega
        obtain ⟨u, flags', hloop, hcrypto, hreads', hkeeps'⟩ := ih (flags.add quicFrameTypeAck)
          (show ps.length < fuel by omega) (htail.keeps hkeeps) hpkt hlen'
        refine ⟨u, flags', ?_, hcrypto.trans (Bool.or_false _), ?_, hkeeps.trans hkeeps'⟩
        · rw [quicFrameLoop_type _ hrest hlen (by decide) (by decide) rfl]
          exact (Prog.bind_of_ok hparser).trans hloop
        · rw [hreads', hreads, readPieces]
      | stream p =>
        have hbytes : (Piece.stream p :: ps).flatMap Piece.bytes =
            varLengthBytes p.type ++ (p.body ++ ps.flatMap Piece.bytes) := by
          simp [Piece.bytes, StreamPiece.bytes]
        rw [hbytes] at hrest hlen
        have hbody : (p.body ++ ps.flatMap Piece.bytes).length < 2 ^ 31 := by
          rw [List.length_append] at hlen
          omega
        cases hhas : p.hasLen with
        | true =>
          obtain ⟨past, hread⟩ := readStreamFrame_len
            (s.pkt.past ++ varLengthBytes p.type) hp.1 hhas hbody
          have hlen' : (ps.flatMap Piece.bytes).length < 2 ^ 31 := by
            rw [List.length_append] at hbody
            omega
          have hkeeps : s.streams.Keeps (s.streams.receive p.id p.fin ⟨p.offset, p.data⟩) :=
            QuicStreams.keeps_receive _ _
          obtain ⟨u, flags', hloop, hcrypto, hreads, hkeeps'⟩ := ih
            (s := { s with
              pkt := ⟨past, ps.flatMap Piece.bytes⟩,
              streams := s.streams.receive p.id p.fin ⟨p.offset, p.data⟩,
              reads := s.reads ++ [{ fin := p.fin, id := p.id, sd := ⟨p.offset, p.data⟩ }] })
            (flags.add p.type) (show ps.length < fuel by omega) (htail.keeps hkeeps) rfl hlen'
          refine ⟨u, flags', ?_, hcrypto.trans (add_type_cryptoFound flags p), ?_,
            hkeeps.trans hkeeps'⟩
          · rw [quicFrameLoop_stream other cryptoFound _ _ hrest hlen hread hp.2, hloop]
          · rw [hreads, readPieces, if_pos hhas]
            simp [StreamPiece.read]
        | false =>
          obtain ⟨past, hread⟩ := readStreamFrame_rest
            (s.pkt.past ++ varLengthBytes p.type) hp.1 hhas hbody
          obtain ⟨fuel, rfl⟩ := Nat.exists_eq_succ_of_ne_zero (show fuel ≠ 0 by omega)
          have hloop := quicFrameLoop_stream other cryptoFound (fuel + 1) flags hrest hlen
            hread hp.2
          refine ⟨_, _, hloop.trans (quicFrameLoop_nil _ rfl),
            add_type_cryptoFound flags p, ?_, QuicStreams.keeps_receive _ _⟩
          rw [readPieces, if_neg (by simp [hhas])]
          rfl

/-- Every frame has a byte. -/
theorem length_le_flatMap_bytes (ps : List Piece) : ps.length ≤
    (ps.flatMap Piece.bytes).length := by
  induction ps with
  | nil => exact Nat.zero_le _
  | cons p ps ih =>
    have hbyte : 1 ≤ p.bytes.length := by
      cases p <;> simp [Piece.bytes, AckPiece.bytes, StreamPiece.bytes, varLengthBytes]
    rw [List.flatMap_cons, List.length_append, List.length_cons]
    omega

/-- A packet of frames that can be parsed is read. -/
theorem recvPayload_pieces (other : ℕ → Option (Prog Fail FrameRecv Unit))
    (cryptoFound : Prog Fail FrameRecv Unit) {ps : List Piece} (hps : Parsable s.streams ps)
    (hlen : (ps.flatMap Piece.bytes).length < 2 ^ 31) :
    ∃ t, recvPayload (frameRecvHandlers other cryptoFound) (ps.flatMap Piece.bytes) s =
        (.ok (), t) ∧ t.reads = s.reads ++ readPieces ps ∧ s.streams.Keeps t.streams := by
  have hfuel : ps.length < (ps.flatMap Piece.bytes).length + 1 :=
    Nat.lt_succ_of_le (length_le_flatMap_bytes ps)
  obtain ⟨t, flags, hloop, hcrypto, hreads, hkeeps⟩ := quicFrameLoop_pieces other cryptoFound
    (s := { s with pkt := rPacketBufInit (ps.flatMap Piece.bytes) }) ⟨false, false⟩ hfuel
      hps rfl hlen
  refine ⟨t, ?_, hreads, hkeeps⟩
  rw [recvPayload, Prog.modify_bind, quicFrameDoParser, Prog.get_bind]
  refine (Prog.bind_of_ok hloop).trans ?_
  rw [Prog.bind_of_ok (acknowledge_of_pure _ rfl flags t), continueHandshake, hcrypto]
  rfl

/-- Packets of frames that can be parsed are read one after the other. -/
theorem recvPayloads_pieces (other : ℕ → Option (Prog Fail FrameRecv Unit))
    (cryptoFound : Prog Fail FrameRecv Unit) {pss : List (List Piece)}
    (hpss : ∀ ps ∈ pss, Parsable s.streams ps ∧ (ps.flatMap Piece.bytes).length < 2 ^ 31) :
    recvPayloads (frameRecvHandlers other cryptoFound) (pss.map (·.flatMap Piece.bytes)) s =
      .ok (pss.map readPieces) := by
  induction pss generalizing s with
  | nil => rfl
  | cons ps pss ih =>
    obtain ⟨hps, hlen⟩ := hpss ps List.mem_cons_self
    obtain ⟨t, hrecv, hreads, hkeeps⟩ := recvPayload_pieces other cryptoFound
      (s := { s with reads := [] }) hps hlen
    have htail := ih (s := t) fun ps hps => by
      obtain ⟨hparsable, hlen⟩ := hpss ps (List.mem_cons_of_mem _ hps)
      exact ⟨hparsable.keeps hkeeps, hlen⟩
    rw [List.map_cons, recvPayloads, hrecv]
    dsimp only
    rw [htail, hreads]
    rfl

end Receive

end Tbquic
