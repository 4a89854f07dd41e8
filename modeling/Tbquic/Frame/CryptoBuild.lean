import Mathlib.Data.List.Forall2
import Tbquic.Frame.Crypto
import Tbquic.Frame.Queue

/-!
# Building CRYPTO frames

`QuicCryptoFrameBuild` splits the bytes that the handshake wrote over as many buffers as they
need. Reading the payloads of these buffers in any order gives the bytes back.
-/

namespace Tbquic

/-- `QUIC_FRAME_CRYPTO_HEADER_MAX_LEN`. -/
def quicFrameCryptoHeaderMaxLen : ℕ := 12

/-- The part of a connection that sends the messages of the handshake. -/
structure CryptoConn where
  /-- The buffer of the handshake. -/
  buffer : QuicBuffer
  /-- `tx_queue`, the oldest buffer first. -/
  txQueue : List QBuff
  /-- The size of a datagram. -/
  mss : ℕ
  /-- The length of the destination connection id. -/
  dcidLen : ℕ
  /-- The length of the source connection id. -/
  scidLen : ℕ
  /-- The length of the token. -/
  tokenLen : ℕ
  /-- The length of a packet number field, minus one. -/
  pktNumLen : ℕ
  /-- The algorithm of the packet protection of each packet type. -/
  alg : ℕ → ℕ
  /-- `QUIC_CTRL_SET_MSS` refuses larger datagrams. -/
  mss_le : mss ≤ quicDatagramSizeMax
  /-- The length is sent in one byte. -/
  dcidLen_le : dcidLen ≤ 255
  /-- The length is sent in one byte. -/
  scidLen_le : scidLen ≤ 255
  /-- A token arrives in a datagram. -/
  tokenLen_le : tokenLen ≤ quicDatagramSizeMax
  /-- The field has two bits. -/
  pktNumLen_le : pktNumLen ≤ 3

/-- The result of `QuicVariableLengthEncode`, with `-1` for an error. -/
def quicVariableLengthEncodeRet (length : ℕ) : ℤ :=
  match quicVariableLengthEncode 8 length with
  | .ok v => v.length
  | .error _ => -1

/-- `QuicLPacketGetHeaderLen`. -/
def quicLPacketGetHeaderLen (c : CryptoConn) (pktType : ℕ) : ℤ :=
  let hlen : ℤ := 1 + 4 + (1 + c.dcidLen) + (1 + c.scidLen)
  if pktType = quicPktTypeInitial then hlen + quicVariableLengthEncodeRet c.tokenLen + c.tokenLen
  else hlen

/-- `QuicLPacketGetTotalLen`, in `size_t`. -/
def quicLPacketGetTotalLen (c : CryptoConn) (pktType dataLen : ℕ) : Except Fail ℕ := do
  let cipherLen ← quicCipherLenGet (c.alg pktType) dataLen
  let len : ℕ := cipherLen + (c.pktNumLen + 1)
  .ok ((quicLPacketGetHeaderLen c pktType + len + quicVariableLengthEncodeRet len) % 2 ^ 64).toNat

/-- `QBufPktComputeTotalLenByType`. The packet types without a method have no function to
call. -/
def qBufPktComputeTotalLenByType (c : CryptoConn) (pktType dataLen : ℕ) : Except Fail ℕ :=
  if quicPktTypeMax ≤ pktType then .ok 0
  else if pktType = quicPktTypeInitial ∨ pktType = quicPktTypeHandshake then
    quicLPacketGetTotalLen c pktType dataLen
  else if pktType = quicPktType1Rtt then
    quicSPacketLen c.dcidLen c.pktNumLen (c.alg pktType) dataLen
  else .error .ub

/-- `QuicFrameGetBuffLen`. -/
def quicFrameGetBuffLenByType (c : CryptoConn) (pktType : ℕ) : Except Fail ℕ := do
  let total ← qBufPktComputeTotalLenByType c pktType c.mss
  quicFrameBuffLen c.mss total

/-- `QuicFrameCryptoBuild`. -/
def quicFrameCryptoBuild (offset : ℕ) (data : List UInt8) : Prog Fail WPacket ℕ := do
  quicVariableLengthWrite quicFrameTypeCrypto
  quicVariableLengthWrite offset
  quicWPacketSubMemcpyVar data

/-- One round of the loop of `QuicFrameCryptoSplit`. The result is the offset of the next one. -/
def quicFrameCryptoRound (pktType bufLen : ℕ) (data : List UInt8) (offset : ℕ) :
    Prog Fail QBuffFill ℕ := do
  quicBuffQueueAndNext pktType bufLen quicFrameCryptoHeaderMaxLen
  let n ← QBuffFill.onPkt (quicFrameCryptoBuild offset (data.drop offset))
  Prog.ensure .ret (0 < toInt n)
  pure (offset + (toInt n).toNat)

/-- The loop of `QuicFrameCryptoSplit`. -/
def quicFrameCryptoSplit (pktType bufLen : ℕ) (data : List UInt8) :
    ℕ → ℕ → Prog Fail QBuffFill Unit
  | 0, _ => Prog.fail .fuel
  | fuel + 1, offset =>
    if quicLt offset data.length then do
      let offset ← quicFrameCryptoRound pktType bufLen data offset
      quicFrameCryptoSplit pktType bufLen data fuel offset
    else pure ()

/-- `QuicCryptoFrameBuild` behind the choice of the length of the buffers. -/
def quicCryptoFrames (pktType bufLen fuel : ℕ) (data : List UInt8) : Prog Fail QBuffFill Unit := do
  quicFrameCryptoSplit pktType bufLen data fuel 0
  quicFrameFlush

/-- The queue of the connection and a new buffer. -/
def quicCryptoFill (pktType bufLen : ℕ) (c : CryptoConn) : QBuffFill where
  txQueue := c.txQueue
  pkt := wPacketStaticBufInit bufLen
  qb := qBuffNew pktType bufLen

/-- `QuicCryptoFrameBuild`. It sends the bytes at the start of the memory. The first `QBuffNew`
refuses a packet type that it does not know. The fuel bounds the rounds of the loop. -/
def quicCryptoFrameBuild (pktType fuel : ℕ) : Prog Fail CryptoConn Unit := do
  let c ← Prog.get
  let bufLen ← Prog.ofExcept (quicFrameGetBuffLenByType c pktType)
  Prog.ensure .ret (¬ quicGe pktType quicPktTypeMax)
  Prog.ensure .ub (c.buffer.dataLen ≤ c.buffer.length)
  Prog.zoom (quicCryptoFill pktType bufLen) (fun s c => { c with txQueue := s.txQueue })
    (quicCryptoFrames pktType bufLen fuel (c.buffer.mem.take c.buffer.dataLen))

/-- The number of bytes of an encoding, or an error. -/
theorem quicVariableLengthEncodeRet_bounds (length : ℕ) :
    -1 ≤ quicVariableLengthEncodeRet length ∧ quicVariableLengthEncodeRet length ≤ 8 := by
  unfold quicVariableLengthEncodeRet
  by_cases h : length < 2 ^ 62
  · have hsize := varLengthSize_bounds length
    rw [quicVariableLengthEncode_eq h]
    dsimp only
    rw [varLengthBytes_length]
    omega
  · rw [quicVariableLengthEncode_eq_error (not_lt.mp h)]
    decide

/-- A packet is not much longer than its payload. -/
theorem qBufPktComputeTotalLenByType_lt {c : CryptoConn} {pktType total : ℕ}
    (h : qBufPktComputeTotalLenByType c pktType c.mss = .ok total) : total < 2 ^ 30 := by
  have hmss := c.mss_le
  have hdcid := c.dcidLen_le
  have hscid := c.scidLen_le
  have htoken := c.tokenLen_le
  have hpkt := c.pktNumLen_le
  unfold quicDatagramSizeMax at hmss htoken
  unfold qBufPktComputeTotalLenByType at h
  split_ifs at h with hmax hlong hshort
  · cases h
    decide
  · unfold quicLPacketGetTotalLen at h
    obtain ⟨cipherLen, hcipher, h⟩ := Except.bind_eq_ok.mp h
    have hle := quicCipherLenGet_le hcipher
    have hlen := quicVariableLengthEncodeRet_bounds (cipherLen + (c.pktNumLen + 1))
    have htok := quicVariableLengthEncodeRet_bounds c.tokenLen
    rw [Except.ok.injEq] at h
    unfold quicLPacketGetHeaderLen at h
    dsimp only at h
    split_ifs at h <;> omega
  · unfold quicSPacketLen at h
    obtain ⟨cipherLen, hcipher, h⟩ := Except.bind_eq_ok.mp h
    have hle := quicCipherLenGet_le hcipher
    rw [Except.ok.injEq] at h
    omega

/-- The buffers of a packet have an ordinary size. -/
theorem quicFrameGetBuffLenByType_lt {c : CryptoConn} {pktType bufLen : ℕ}
    (h : quicFrameGetBuffLenByType c pktType = .ok bufLen) : bufLen < 2 ^ 30 := by
  obtain ⟨total, htotal, h⟩ := Except.bind_eq_ok.mp h
  exact quicFrameBuffLen_lt c.mss_le (qBufPktComputeTotalLenByType_lt htotal) h

/-- A number that has an encoding is written when it fits. -/
theorem quicVariableLengthWrite_of_fits (pkt : WPacket) (hmax : pkt.maxsize < 2 ^ 31) {n : ℕ}
    (hn : n < 2 ^ 62) (hfits : pkt.written + varLengthSize n ≤ pkt.maxsize) :
    ∃ t, quicVariableLengthWrite n pkt = (.ok (), t) ∧ pkt.Extends (varLengthBytes n) t := by
  obtain ⟨_, t, hrun, ht⟩ := (quicVariableLengthWrite_follows hmax n).exists_ok
    (if_pos ⟨hn, hfits⟩)
  exact ⟨t, hrun, ht⟩

/-- A buffer with more space than the longest header takes at least one byte of data. -/
theorem quicFrameCryptoBuild_of_space (pkt : WPacket) (offset : ℕ) (data : List UInt8)
    (hmax : pkt.maxsize < 2 ^ 30) (hoffset : offset < 2 ^ 30) (hpos : 0 < data.length)
    (hlen : data.length < 2 ^ 30)
    (hspace : quicFrameCryptoHeaderMaxLen < pkt.maxsize - pkt.written) :
    ∃ n t, quicFrameCryptoBuild offset data pkt = (.ok n, t) ∧ 0 < n ∧ n ≤ data.length ∧
      pkt.Extends (cryptoFrameBytes { offset, data := data.take n }) t := by
  unfold quicFrameCryptoHeaderMaxLen at hspace
  have hfits : pkt.written ≤ pkt.maxsize := pkt.fits
  have hsmall : ∀ k < 2 ^ 30, varLengthSize k ≤ 4 := by
    intro k hk
    unfold varLengthSize
    split_ifs <;> omega
  have htype : varLengthSize quicFrameTypeCrypto = 1 := rfl
  have hoff := hsmall offset hoffset
  have hdata := hsmall data.length hlen
  obtain ⟨t₁, hrun₁, ht₁⟩ := quicVariableLengthWrite_of_fits pkt (by omega)
    (show quicFrameTypeCrypto < 2 ^ 62 by decide) (by omega)
  have hwritten₁ := ht₁.written
  rw [varLengthBytes_length, htype] at hwritten₁
  obtain ⟨t₂, hrun₂, ht₂⟩ := quicVariableLengthWrite_of_fits t₁ (by rw [ht₁.2]; omega)
    (show offset < 2 ^ 62 by omega) (by rw [ht₁.2]; omega)
  have hwritten₂ := ht₂.written
  have hmax₂ : t₂.maxsize = pkt.maxsize := ht₂.2.trans ht₁.2
  rw [varLengthBytes_length] at hwritten₂
  obtain ⟨n, hn, hnpos⟩ : ∃ n, subMemcpyLen (t₂.maxsize - t₂.written) data.length = some n ∧
      0 < n := by
    unfold subMemcpyLen
    split_ifs with hall hnone
    · exact ⟨_, rfl, hpos⟩
    · omega
    · exact ⟨_, rfl, by omega⟩
  obtain ⟨a, t₃, hrun₃, rfl, ht₃⟩ :=
    (quicWPacketSubMemcpyVar_follows t₂ data (by omega) (by omega)).exists_ok hn
  have hle := (subMemcpyLen_bounds hn).1
  refine ⟨a, t₃, ?_, hnpos, hle, ?_⟩
  · rw [quicFrameCryptoBuild, Prog.bind_of_ok hrun₁, Prog.bind_of_ok hrun₂]
    exact hrun₃
  · have hall := (ht₁.trans ht₂).trans ht₃
    have htake : (data.take a).length = a := List.length_take_of_le hle
    unfold cryptoFrameBytes
    rw [htake]
    simpa only [List.append_assoc] using hall

/-- A buffer of the queue carries the frames, in a packet of the given type. -/
def QBuff.Carries (pktType bufLen : ℕ) (qb : QBuff) (frames : List (Segment UInt8)) : Prop :=
  qb.data = frames.flatMap cryptoFrameBytes ∧ qb.pktType = pktType ∧ qb.data.length ≤ bufLen

/-- The first `offset` bytes of a flight are in frames: `done` in the buffers queued since
`old`, and `cur` in the buffer being filled. -/
structure FlightFill (pktType bufLen : ℕ) (flight : List UInt8) (old qbs : List QBuff)
    (done : List (List (Segment UInt8))) (cur : List (Segment UInt8)) (offset : ℕ)
    (s : QBuffFill) : Prop where
  /-- The buffers queued. -/
  queue : s.txQueue = old ++ qbs
  /-- The frames of the buffers queued. -/
  carries : List.Forall₂ (QBuff.Carries pktType bufLen) qbs done
  /-- The frames of the buffer being filled. -/
  buf : s.pkt.buf = cur.flatMap cryptoFrameBytes
  /-- The writer fills the whole buffer. -/
  maxsize : s.pkt.maxsize = bufLen
  /-- The size of the buffer. -/
  buffLen : s.qb.buffLen = bufLen
  /-- The packet type of the buffer. -/
  type : s.qb.pktType = pktType
  /-- The frames leave no byte out. -/
  linked : Segment.Linked 0 (done.flatten ++ cur)
  /-- The frames have all bytes in front of the offset. -/
  total : Segment.total (done.flatten ++ cur) = offset
  /-- The frames have bytes of the flight. -/
  parts : ∀ f ∈ done.flatten ++ cur, f.data ≠ [] ∧ f.Agrees flight

namespace FlightFill

variable {pktType bufLen offset : ℕ} {flight : List UInt8} {old qbs : List QBuff}
  {done : List (List (Segment UInt8))} {cur : List (Segment UInt8)} {s : QBuffFill}

/-- The buffer being filled is queued when it has frames. -/
theorem add_queue (h : FlightFill pktType bufLen flight old qbs done cur offset s)
    (hmax : bufLen < 2 ^ 31) (hne : s.pkt.written ≠ 0) :
    ∃ qb, quicFrameAddQueue s = (.ok (), { s with txQueue := old ++ (qbs ++ [qb]) }) ∧
      List.Forall₂ (QBuff.Carries pktType bufLen) (qbs ++ [qb]) (done ++ [cur]) := by
  obtain ⟨qb, hrun, hdata, htype, _⟩ := quicFrameAddQueue_of_ne (h.maxsize.trans h.buffLen.symm)
    (h.buffLen ▸ hmax) hne
  have hcur : qb.Carries pktType bufLen cur := by
    refine ⟨hdata.trans h.buf, htype.trans h.type, ?_⟩
    rw [hdata, ← h.maxsize]
    exact s.pkt.fits
  refine ⟨qb, ?_, List.rel_append h.carries (.cons hcur .nil)⟩
  rw [hrun, h.queue, List.append_assoc]

/-- A buffer with enough space is there for the next frame. -/
theorem next (h : FlightFill pktType bufLen flight old qbs done cur offset s)
    (hmax : bufLen < 2 ^ 30) (hcap : quicFrameCryptoHeaderMaxLen < bufLen) :
    ∃ qbs' done' cur' t,
      quicBuffQueueAndNext pktType bufLen quicFrameCryptoHeaderMaxLen s = (.ok (), t) ∧
      FlightFill pktType bufLen flight old qbs' done' cur' offset t ∧
      quicFrameCryptoHeaderMaxLen < t.pkt.maxsize - t.pkt.written := by
  have hmaxsize : s.pkt.maxsize < 2 ^ 30 := h.maxsize ▸ hmax
  have hhlen : quicFrameCryptoHeaderMaxLen < 2 ^ 30 := by decide
  by_cases hspace : quicFrameCryptoHeaderMaxLen < s.pkt.maxsize - s.pkt.written
  · exact ⟨qbs, done, cur, s, quicBuffQueueAndNext_of_space hmaxsize hhlen hspace, h, hspace⟩
  · have hne : s.pkt.written ≠ 0 := by
      have := h.maxsize
      omega
    obtain ⟨qb, hrun, hcarries⟩ := h.add_queue (by omega) hne
    have hflat : (done ++ [cur]).flatten ++ [] = done.flatten ++ cur := by simp
    refine ⟨qbs ++ [qb], done ++ [cur], [],
      QBuffFill.bufferNew pktType bufLen { s with txQueue := old ++ (qbs ++ [qb]) }, ?_, ?_, ?_⟩
    · rw [quicBuffQueueAndNext_of_full hmaxsize hhlen (by omega), Prog.bind_of_ok hrun]
      rfl
    · exact { queue := rfl, carries := hcarries, buf := rfl, maxsize := rfl, buffLen := rfl,
              type := rfl, linked := hflat ▸ h.linked, total := hflat ▸ h.total,
              parts := hflat ▸ h.parts }
    · exact hcap

/-- One more frame is written. -/
theorem write (h : FlightFill pktType bufLen flight old qbs done cur offset s)
    (hmax : bufLen < 2 ^ 30) (hflight : flight.length < 2 ^ 30) (hoffset : offset < flight.length)
    (hspace : quicFrameCryptoHeaderMaxLen < s.pkt.maxsize - s.pkt.written) :
    ∃ n f t, QBuffFill.onPkt (quicFrameCryptoBuild offset (flight.drop offset)) s = (.ok n, t) ∧
      0 < n ∧ offset + n ≤ flight.length ∧
      FlightFill pktType bufLen flight old qbs done (cur ++ [f]) (offset + n) t := by
  have hdrop : (flight.drop offset).length = flight.length - offset := List.length_drop
  obtain ⟨n, pkt, hrun, hpos, hle, hextends⟩ := quicFrameCryptoBuild_of_space s.pkt offset
    (flight.drop offset) (h.maxsize ▸ hmax) (by omega) (by omega)
    (by omega) hspace
  let f : Segment UInt8 := { offset, data := (flight.drop offset).take n }
  have hlen : f.len = n := List.length_take_of_le hle
  have hassoc : done.flatten ++ (cur ++ [f]) = done.flatten ++ cur ++ [f] :=
    (List.append_assoc _ _ _).symm
  refine ⟨n, f, { s with pkt }, ?_, hpos, by omega, ?_⟩
  · rw [QBuffFill.onPkt, Prog.zoom_apply, hrun]
  · refine { queue := h.queue, carries := h.carries, buf := ?_, maxsize := ?_,
             buffLen := h.buffLen, type := h.type, linked := ?_, total := ?_, parts := ?_ }
    · rw [List.flatMap_append, List.flatMap_singleton, ← h.buf]
      exact hextends.1
    · exact hextends.2.trans h.maxsize
    · rw [hassoc]
      apply h.linked.concat
      rw [h.total, Nat.zero_add]
    · rw [hassoc, Segment.total_append, h.total, Segment.total_cons, Segment.total_nil, hlen,
        Nat.add_zero]
    · rw [hassoc]
      intro g hg
      rcases List.mem_append.mp hg with hg | hg
      · exact h.parts g hg
      · rw [List.mem_singleton.mp hg]
        constructor
        · intro hnil
          rw [Segment.len, hnil, List.length_nil] at hlen
          omega
        · exact List.take_prefix n _

/-- A round of the loop writes at least one byte. -/
theorem round (h : FlightFill pktType bufLen flight old qbs done cur offset s)
    (hmax : bufLen < 2 ^ 30) (hcap : quicFrameCryptoHeaderMaxLen < bufLen)
    (hflight : flight.length < 2 ^ 30) (hoffset : offset < flight.length) :
    ∃ qbs' done' cur' offset' t,
      quicFrameCryptoRound pktType bufLen flight offset s = (.ok offset', t) ∧
      offset < offset' ∧ offset' ≤ flight.length ∧
      FlightFill pktType bufLen flight old qbs' done' cur' offset' t := by
  obtain ⟨qbs', done', cur', t, hnext, ht, hspace⟩ := h.next hmax hcap
  obtain ⟨n, f, u, hwrite, hpos, hle, hu⟩ := ht.write hmax hflight hoffset hspace
  have hint : toInt n = n := toInt_of_bounds (by omega) (by omega)
  refine ⟨qbs', done', cur' ++ [f], offset + n, u, ?_, by omega, hle, hu⟩
  rw [quicFrameCryptoRound, Prog.bind_of_ok hnext, Prog.bind_of_ok hwrite,
    Prog.ensure_of_pos (by omega), Prog.pure_bind, hint, Int.toNat_natCast]
  rfl

/-- The loop ends with all bytes in frames. -/
theorem split (h : FlightFill pktType bufLen flight old qbs done cur offset s)
    (hmax : bufLen < 2 ^ 30) (hcap : quicFrameCryptoHeaderMaxLen < bufLen)
    (hflight : flight.length < 2 ^ 30) (hoffset : offset ≤ flight.length) :
    ∃ qbs' done' cur' t,
      (∀ fuel, flight.length - offset < fuel →
        quicFrameCryptoSplit pktType bufLen flight fuel offset s = (.ok (), t)) ∧
      FlightFill pktType bufLen flight old qbs' done' cur' flight.length t := by
  induction hleft : flight.length - offset using Nat.strong_induction_on
    generalizing qbs done cur offset s with
  | h left ih =>
    have hlt : quicLt (offset : ℤ) flight.length ↔ offset < flight.length := by
      rw [quicLt_iff] <;> omega
    by_cases hend : offset < flight.length
    · obtain ⟨qbs₁, done₁, cur₁, offset₁, s₁, hround, hmore, hle, h₁⟩ :=
        h.round hmax hcap hflight hend
      obtain ⟨qbs', done', cur', t, hrest, ht⟩ := ih _ (by omega) h₁ hle rfl
      refine ⟨qbs', done', cur', t, ?_, ht⟩
      intro fuel hfuel
      obtain ⟨fuel, rfl⟩ : ∃ k, fuel = k + 1 := ⟨fuel - 1, by omega⟩
      rw [quicFrameCryptoSplit, if_pos (hlt.mpr hend), Prog.bind_of_ok hround]
      exact hrest fuel (by omega)
    · obtain rfl : offset = flight.length := by omega
      refine ⟨qbs, done, cur, s, ?_, h⟩
      intro fuel hfuel
      obtain ⟨fuel, rfl⟩ : ∃ k, fuel = k + 1 := ⟨fuel - 1, by omega⟩
      rw [quicFrameCryptoSplit, if_neg (hlt.not.mpr hend)]
      rfl

/-- At the end the last buffer is queued. -/
theorem flush (h : FlightFill pktType bufLen flight old qbs done cur offset s)
    (hmax : bufLen < 2 ^ 31) :
    ∃ qbs' frames t, quicFrameFlush s = (.ok (), t) ∧ t.txQueue = old ++ qbs' ∧
      List.Forall₂ (QBuff.Carries pktType bufLen) qbs' frames ∧
      frames.flatten = done.flatten ++ cur := by
  rw [quicFrameFlush, Prog.get_bind]
  by_cases hne : s.pkt.written ≠ 0
  · obtain ⟨qb, hrun, hcarries⟩ := h.add_queue hmax hne
    rw [if_pos hne]
    exact ⟨qbs ++ [qb], done ++ [cur], _, hrun, rfl, hcarries, by simp⟩
  · have hcur : cur = [] := by
      have hlen := length_le_flatMap_cryptoFrameBytes cur
      rw [← h.buf] at hlen
      unfold WPacket.written at hne
      exact List.length_eq_zero_iff.mp (by omega)
    rw [if_neg hne]
    exact ⟨qbs, done, s, rfl, h.queue, h.carries, by simp [hcur]⟩

end FlightFill

/-- `QuicCryptoFrameBuild` sends every byte of a flight once. -/
theorem quicCryptoFrameBuild_spec {c : CryptoConn} {pktType bufLen : ℕ}
    (htype : pktType < quicPktTypeMax) (hmem : c.buffer.dataLen ≤ c.buffer.length)
    (hlen : c.buffer.dataLen < 2 ^ 30)
    (hbuf : quicFrameGetBuffLenByType c pktType = .ok bufLen)
    (hcap : quicFrameCryptoHeaderMaxLen < bufLen) :
    ∃ qbs frames,
      (∀ fuel, c.buffer.dataLen < fuel → quicCryptoFrameBuild pktType fuel c =
        (.ok (), { c with txQueue := c.txQueue ++ qbs })) ∧
      List.Forall₂ (QBuff.Carries pktType bufLen) qbs frames ∧
      Segment.Linked 0 frames.flatten ∧ Segment.total frames.flatten = c.buffer.dataLen ∧
      ∀ f ∈ frames.flatten, f.data ≠ [] ∧ f.Agrees (c.buffer.mem.take c.buffer.dataLen) := by
  have hmax := quicFrameGetBuffLenByType_lt hbuf
  have hflight : (c.buffer.mem.take c.buffer.dataLen).length = c.buffer.dataLen :=
    List.length_take_of_le hmem
  have hstart : FlightFill pktType bufLen (c.buffer.mem.take c.buffer.dataLen) c.txQueue [] [] [] 0
      (quicCryptoFill pktType bufLen c) :=
    { queue := by simp [quicCryptoFill], carries := .nil, buf := rfl, maxsize := rfl,
      buffLen := rfl, type := rfl, linked := trivial, total := rfl, parts := by simp }
  obtain ⟨qbs₁, done, cur, t, hsplit, ht⟩ := hstart.split hmax hcap (by omega) (Nat.zero_le _)
  obtain ⟨qbs, frames, u, hflush, hqueue, hcarries, hflat⟩ := ht.flush (by omega)
  refine ⟨qbs, frames, ?_, hcarries, hflat ▸ ht.linked, ?_, hflat ▸ ht.parts⟩
  · intro fuel hfuel
    have hrun : quicCryptoFrames pktType bufLen fuel (c.buffer.mem.take c.buffer.dataLen)
        (quicCryptoFill pktType bufLen c) = (.ok (), u) := by
      rw [quicCryptoFrames, Prog.bind_of_ok (hsplit fuel (by omega))]
      exact hflush
    have hknown : ¬ quicGe pktType quicPktTypeMax := by
      unfold quicPktTypeMax at htype ⊢
      rw [quicGe_iff (by omega) (by omega)]
      omega
    rw [quicCryptoFrameBuild, Prog.get_bind, hbuf, Prog.ofExcept_ok, Prog.pure_bind,
      Prog.ensure_of_pos hknown, Prog.pure_bind, Prog.ensure_of_pos hmem, Prog.pure_bind,
      Prog.zoom_apply, hrun]
    dsimp only
    rw [hqueue]
  · rw [hflat, ht.total, hflight]

/-- The payloads of a flight are received in any order and any number of times. -/
theorem recvCryptoPayloads_of_carries {pktType bufLen : ℕ} {flight : List UInt8}
    {qbs : List QBuff} {frames : List (List (Segment UInt8))} {b : QuicBuffer}
    (hflight : flight.length ≤ bufMemLimit) (hmax : bufLen < 2 ^ 31)
    (hcarries : List.Forall₂ (QBuff.Carries pktType bufLen) qbs frames)
    (hlinked : Segment.Linked 0 frames.flatten)
    (htotal : Segment.total frames.flatten = flight.length)
    (hparts : ∀ f ∈ frames.flatten, f.Agrees flight) (hb : b.Empty)
    (order : List (Fin qbs.length)) (horder : ∀ i, i ∈ order) :
    ∃ b', recvCryptoPayloads (order.map fun i => (qbs.get i).data) b = (.ok (), b') ∧
      b'.Received flight frames.flatten := by
  have hlength := hcarries.length_eq
  let part (i : Fin qbs.length) : List (Segment UInt8) := frames.get (i.cast hlength)
  have hpart : ∀ i, (qbs.get i).Carries pktType bufLen (part i) := fun i =>
    hcarries.get i.isLt (i.cast hlength).isLt
  have hmem : ∀ i, ∀ s ∈ part i, s ∈ frames.flatten := fun i s hs =>
    List.mem_flatten.mpr ⟨_, List.get_mem _ _, hs⟩
  have hpayloads : (order.map fun i => (qbs.get i).data) =
      (order.map part).map (·.flatMap cryptoFrameBytes) := by
    rw [List.map_map]
    apply List.map_congr_left
    intro i _
    exact (hpart i).1
  obtain ⟨b', all, hrun, hall, _, harrived⟩ := recvCryptoPayloads_received
    (hb.received flight) hflight (order.map part) (by
      intro p hp
      obtain ⟨i, _, rfl⟩ := List.mem_map.mp hp
      constructor
      · rw [← (hpart i).1]
        exact (hpart i).2.2.trans_lt hmax
      · intro s hs
        have hstop := hlinked.stop_le (hmem i s hs)
        rw [htotal, Nat.zero_add] at hstop
        exact ⟨hparts s (hmem i s hs), hstop⟩)
  refine ⟨b', hpayloads ▸ hrun, ?_⟩
  have hsub : ∀ s ∈ frames.flatten, s ∈ all := by
    intro s hs
    obtain ⟨p, hp, hs⟩ := List.mem_flatten.mp hs
    obtain ⟨j, rfl⟩ := List.get_of_mem hp
    exact harrived _ (List.mem_map.mpr ⟨j.cast hlength.symm, horder _, rfl⟩) s hs
  exact { reserved := hall.reserved, limit := hall.limit,
          holds := fun s hs => hall.holds s (hsub s hs),
          stop_le := fun s hs => hall.stop_le s (hsub s hs), dataLen_le := hall.dataLen_le }

/-- A flight of the handshake is split into frames that have every byte once and in order, and
reading the payloads in any order and any number of times into an empty buffer gives the flight
back. -/
theorem quicCryptoFrameBuild_round_trip (c : CryptoConn) (pktType bufLen : ℕ)
    (htype : pktType < quicPktTypeMax) (hpos : 1 ≤ c.buffer.dataLen)
    (hlen : c.buffer.dataLen ≤ 65535) (hmem : c.buffer.dataLen ≤ c.buffer.length)
    (hbuf : quicFrameGetBuffLenByType c pktType = .ok bufLen)
    (hcap : quicFrameCryptoHeaderMaxLen < bufLen) :
    ∃ qbs frames,
      (∀ fuel, c.buffer.dataLen < fuel → quicCryptoFrameBuild pktType fuel c =
        (.ok (), { c with txQueue := c.txQueue ++ qbs })) ∧
      qbs ≠ [] ∧ List.Forall₂ (QBuff.Carries pktType bufLen) qbs frames ∧
      Segment.Linked 0 frames.flatten ∧ Segment.total frames.flatten = c.buffer.dataLen ∧
      (∀ f ∈ frames.flatten, f.data ≠ [] ∧ f.Agrees (c.buffer.mem.take c.buffer.dataLen)) ∧
      ∀ (order : List (Fin qbs.length)) (b : QuicBuffer), (∀ i, i ∈ order) → b.Empty →
        ∃ b', recvCryptoPayloads (order.map fun i => (qbs.get i).data) b = (.ok (), b') ∧
          b'.dataLen = c.buffer.dataLen ∧
          b'.data.take c.buffer.dataLen = c.buffer.mem.take c.buffer.dataLen := by
  obtain ⟨qbs, frames, hrun, hcarries, hlinked, htotal, hparts⟩ :=
    quicCryptoFrameBuild_spec htype hmem (by omega) hbuf hcap
  have hflight : (c.buffer.mem.take c.buffer.dataLen).length = c.buffer.dataLen :=
    List.length_take_of_le hmem
  have hmax := quicFrameGetBuffLenByType_lt hbuf
  refine ⟨qbs, frames, hrun, ?_, hcarries, hlinked, htotal, hparts, ?_⟩
  · rintro rfl
    cases hcarries
    rw [List.flatten_nil, Segment.total_nil] at htotal
    omega
  · intro order b horder hb
    obtain ⟨b', hrecv, hb'⟩ := recvCryptoPayloads_of_carries (by rw [hflight, bufMemLimit]; omega)
      (by omega) hcarries hlinked (htotal.trans hflight.symm) (fun f hf => (hparts f hf).2) hb order
      horder
    obtain ⟨hend, hbytes⟩ := hb'.complete hlinked (htotal.trans hflight.symm) fun _ hs => hs
    rw [hflight] at hend hbytes
    refine ⟨b', hrecv, hend, ?_⟩
    rw [QuicBuffer.data, hb'.reserved, List.drop_zero, hbytes]

/-- A connection with a flight of four bytes and datagrams of 1200 bytes. -/
def smallFlight : CryptoConn where
  buffer := { mem := [1, 0, 0, 0], offset := 0, reserved := 0, dataLen := 4 }
  txQueue := []
  mss := 1200
  dcidLen := 8
  scidLen := 8
  tokenLen := 0
  pktNumLen := 1
  alg := fun _ => quicAlgAes128Gcm
  mss_le := by decide
  dcidLen_le := by decide
  scidLen_le := by decide
  tokenLen_le := by decide
  pktNumLen_le := by decide

/-- The connection with a flight of 400 bytes and datagrams of 200 bytes. -/
def longFlight : CryptoConn :=
  { smallFlight with
    buffer :=
      { mem := List.replicate 200 1 ++ List.replicate 200 2, offset := 0, reserved := 0,
        dataLen := 400 }
    mss := 200
    mss_le := by decide }

/-- A flight that takes three buffers arrives in an empty buffer, in whatever order they come. -/
theorem quicCryptoFrameBuild_round_trip_long :
    ∃ qbs : List QBuff, qbs.length = 3 ∧ ∀ (order : List (Fin qbs.length)) (b : QuicBuffer),
      (∀ i, i ∈ order) → b.Empty →
        ∃ b', recvCryptoPayloads (order.map fun i => (qbs.get i).data) b = (.ok (), b') ∧
          b'.dataLen = 400 ∧ b'.data.take 400 = longFlight.buffer.mem.take 400 := by
  obtain ⟨qbs, _, hrun, -, -, -, -, -, hrecv⟩ := quicCryptoFrameBuild_round_trip longFlight
    quicPktTypeHandshake 157 (by decide) (by decide) (by decide) (by decide +kernel)
    (by decide +kernel) (by decide)
  have hcount :
      (quicCryptoFrameBuild quicPktTypeHandshake 401 longFlight).2.txQueue.length = 3 := by
    decide +kernel
  rw [hrun 401 (Nat.lt_succ_self _)] at hcount
  exact ⟨qbs, hcount, hrecv⟩

end Tbquic
