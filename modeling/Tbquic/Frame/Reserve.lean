import Tbquic.Frame.CryptoBuild
import Tbquic.Frame.Draft
import Tbquic.Lib.Loop
import Tbquic.Ping

/-!
# Space for the headers of frames

A frame is put into a buffer with more space than a constant that is to cover the longest header.
The constants count four bytes for each number of a header. A number can take eight, and that of
the data is first taken for all the data that is left. So the loops that split data make progress
as long as the numbers of the header are small enough for the space.
-/

namespace Tbquic

/-- The space of a packet. -/
def WPacket.room (pkt : WPacket) : ℕ := pkt.maxsize - pkt.written

/-- A byte of some data can be written behind the length in `room` bytes. The length is that of all
the data, and `QUIC_LT` sees its last 32 bits only. -/
def DataFits (room len : ℕ) : Prop :=
  len < 2 ^ 62 ∧ varLengthSize len < room ∧
    (len + varLengthSize len ≤ room ∨ room < len % 2 ^ 32 + varLengthSize len)

instance (room len : ℕ) : Decidable (DataFits room len) :=
  inferInstanceAs (Decidable (_ ∧ _ ∧ _))

/-- A byte of some data can be written in a CRYPTO frame. -/
def CryptoFits (offset space len : ℕ) : Prop :=
  offset < 2 ^ 62 ∧ DataFits (space - (1 + varLengthSize offset)) len

instance (offset space len : ℕ) : Decidable (CryptoFits offset space len) :=
  inferInstanceAs (Decidable (_ ∧ _))

/-- A byte of some data can be written in a STREAM frame. -/
def StreamFits (id offset : ℕ) (last : Bool) (space len : ℕ) : Prop :=
  id < 2 ^ 62 ∧ offset < 2 ^ 62 ∧ streamHeaderSize id offset < space ∧
    (last = false → DataFits (space - streamHeaderSize id offset) len)

instance (id offset : ℕ) (last : Bool) (space len : ℕ) :
    Decidable (StreamFits id offset last space len) :=
  inferInstanceAs (Decidable (_ ∧ _ ∧ _ ∧ (_ → _)))

/-- The space for the next frame. -/
def nextSpace (bufLen maxHlen room : ℕ) : ℕ := if maxHlen < room then room else bufLen

/-- There is a buffer for the next frame: the one at hand has space or is not empty. -/
def HasNext (maxHlen : ℕ) (pkt : WPacket) : Prop := maxHlen < pkt.room ∨ pkt.written ≠ 0

instance (maxHlen : ℕ) (pkt : WPacket) : Decidable (HasNext maxHlen pkt) :=
  inferInstanceAs (Decidable (_ ∨ _))

/-- A loop that splits data into frames. -/
structure Splitting (σ : Type) where
  /-- The number of bytes to send. -/
  len : ℕ
  /-- The condition of the loop at a position in the data. -/
  goes : ℕ → Bool
  /-- `QuicBuffQueueAndNext` keeps the buffer. -/
  keeps : σ → Prop
  /-- Building the frame at a position. -/
  build : ℕ → Prog Fail σ ℕ
  /-- A round at a position, which returns the next position. -/
  round : ℕ → Prog Fail σ ℕ
  /-- The loop with a bound on its rounds. -/
  loop : ℕ → Prog Fail σ Unit

/-- The loop makes progress and sends everything. -/
structure Splitting.Succeeds {σ : Type} (x : Splitting σ) (s : σ) : Prop where
  /-- In a buffer that is kept a frame with at least one byte of data is built. -/
  kept (p : ℕ) (t : σ) : Prog.Arrives x.goes x.round 0 s p t → x.goes p = true → x.keeps t →
    ∃ n u, x.build p t = (.ok n, u) ∧ 0 < n
  /-- While bytes are left, the loop goes on with a round that sends some of them. -/
  progress (p : ℕ) (t : σ) : Prog.Arrives x.goes x.round 0 s p t → p < x.len →
    x.goes p = true ∧ ∃ q u, x.round p t = (.ok q, u) ∧ p < q
  /-- The loop ends without an error. -/
  whole : ∃ t, ∀ fuel, x.len < fuel → x.loop fuel s = (.ok (), t)

/-- The loop of `QuicFrameCryptoSplit`. -/
def cryptoSplitting (pktType bufLen : ℕ) (data : List UInt8) : Splitting QBuffFill where
  len := data.length
  goes p := decide (quicLt p data.length)
  keeps s := quicGt s.pkt.space quicFrameCryptoHeaderMaxLen
  build p := QBuffFill.onPkt (quicFrameCryptoBuild p (data.drop p))
  round := quicFrameCryptoRound pktType bufLen data
  loop fuel := quicFrameCryptoSplit pktType bufLen data fuel 0

section Stream

variable {Ctx : Type}

/-- The queue and the buffer being filled. -/
def FrameBuild.fill (s : FrameBuild Ctx) : QBuffFill where
  txQueue := s.quic.txQueue
  pkt := s.pkt
  qb := s.qb

/-- One round of the loop of `QuicFrameStreamWrite`. The result is the offset of the next one. -/
def quicFrameStreamRound (bufLen : ℕ) (handle : ℤ) (fin last : Bool) (data : List UInt8) (p : ℕ) :
    Prog Fail (FrameBuild Ctx) ℕ := do
  FrameBuild.onQueue (quicBuffQueueAndNext quicPktType1Rtt bufLen quicFrameStreamHeaderMaxLen)
  Prog.modify fun s => { s with qb := s.qb.setStream handle fin }
  let wlen ← quicFrameStreamBuild handle (data.drop p) fin last
  Prog.modify fun s => { s with qb.streamLen := s.qb.streamLen + wlen }
  pure (p + wlen)

/-- The loop of `QuicFrameStreamWrite`. -/
def streamSplitting (bufLen : ℕ) (handle : ℤ) (fin last : Bool) (data : List UInt8) :
    Splitting (FrameBuild Ctx) where
  len := data.length
  goes p := decide (quicLt 0 (data.drop p).length)
  keeps s := quicGt s.pkt.space quicFrameStreamHeaderMaxLen
  build p := quicFrameStreamBuild handle (data.drop p) fin last
  round := quicFrameStreamRound bufLen handle fin last data
  loop fuel := quicFrameStreamWrite bufLen handle fin last fuel data

end Stream

/-- The buffer being filled has the size of the buffers of the loop. -/
structure QBuffFill.Filling (bufLen : ℕ) (s : QBuffFill) : Prop where
  /-- The writer is over the buffer. -/
  maxsize : s.pkt.maxsize = bufLen
  /-- The size of the buffer. -/
  buffLen : s.qb.buffLen = bufLen

/-- What a round of `QuicFrameCryptoSplit` needs. -/
def CryptoReady (bufLen p left : ℕ) (s : QBuffFill) : Prop :=
  HasNext quicFrameCryptoHeaderMaxLen s.pkt ∧
    CryptoFits p (nextSpace bufLen quicFrameCryptoHeaderMaxLen s.pkt.room) left

instance (bufLen p left : ℕ) (s : QBuffFill) : Decidable (CryptoReady bufLen p left s) :=
  inferInstanceAs (Decidable (_ ∧ _))

/-- What a round of `QuicFrameStreamWrite` needs. -/
def StreamReady {Ctx : Type} (bufLen : ℕ) (handle : ℤ) (last : Bool) (left : ℕ)
    (s : FrameBuild Ctx) : Prop :=
  s.quic.streams.Sendable handle ∧ HasNext quicFrameStreamHeaderMaxLen s.pkt ∧
    StreamFits handle.toNat (s.quic.streams.sent handle.toNat) last
      (nextSpace bufLen quicFrameStreamHeaderMaxLen s.pkt.room) left

instance {Ctx : Type} (bufLen : ℕ) (handle : ℤ) (last : Bool) (left : ℕ) (s : FrameBuild Ctx) :
    Decidable (StreamReady bufLen handle last left s) :=
  inferInstanceAs (Decidable (_ ∧ _ ∧ _))

namespace WPacket.Extends

variable {pkt t : WPacket} {bytes : List UInt8}

/-- What is written takes its length from the space. -/
theorem room (h : pkt.Extends bytes t) : t.room = pkt.room - bytes.length := by
  have hwritten := h.written
  rw [WPacket.room, h.2, hwritten, WPacket.room]
  omega

/-- What is written had space. -/
theorem le_room (h : pkt.Extends bytes t) : bytes.length ≤ pkt.room := by
  have hwritten := h.written
  have hmaxsize := h.2
  have hfits : t.written ≤ t.maxsize := t.fits
  rw [WPacket.room]
  omega

end WPacket.Extends

/-- What the condition of the loops sees of a length. -/
theorem mod_of_quicLt_zero {len : ℕ} (h : quicLt 0 len) :
    0 < len % 2 ^ 32 ∧ len % 2 ^ 32 ≤ 2 ^ 31 := by
  rw [quicLt_iff_mod] at h
  omega

section Write

variable {pkt t : WPacket} {offset id n : ℕ} {data : List UInt8} {fin last : Bool}

/-- A number that was written has an encoding. -/
theorem quicVariableLengthWrite_eq_ok {u : Unit} (hmax : pkt.maxsize < 2 ^ 31)
    (h : quicVariableLengthWrite n pkt = (.ok u, t)) :
    n < 2 ^ 62 ∧ pkt.Extends (varLengthBytes n) t := by
  have hfollows := quicVariableLengthWrite_follows hmax n
  by_cases hn : n < 2 ^ 62 ∧ pkt.written + varLengthSize n ≤ pkt.maxsize
  · rw [guard, if_pos hn] at hfollows
    obtain ⟨_, _, hrun, hextends⟩ := hfollows
    rw [h] at hrun
    cases hrun
    exact ⟨hn.1, hextends⟩
  · rw [guard, if_neg hn] at hfollows
    obtain ⟨_, _, hrun⟩ := hfollows
    rw [h] at hrun
    cases hrun

/-- Data with space for a byte is clipped to the space. -/
theorem quicSubMemcpyClip_of_dataFits {room len : ℕ} (hroom : room < 2 ^ 30)
    (hgoes : quicLt 0 len) (h : DataFits room len) :
    ∃ n, quicSubMemcpyClip room len (varLengthBytes len) = .ok (n, varLengthBytes n) ∧ 0 < n ∧
      n ≤ len ∧ varLengthSize n + n ≤ room := by
  obtain ⟨hlen, hsize, hend⟩ := h
  have hmod := mod_of_quicLt_zero hgoes
  have hbounds := varLengthSize_bounds len
  rw [quicSubMemcpyClip, varLengthBytes_length]
  by_cases hall : len + varLengthSize len ≤ room
  · have hlt : ¬ quicLt (room : ℤ) ((len : ℤ) + varLengthSize len) := by
      rw [quicLt_iff] <;> omega
    exact ⟨len, if_neg hlt, by omega, le_rfl, by omega⟩
  · have hlt : quicLt (room : ℤ) ((len : ℤ) + varLengthSize len) := by
      have hless := hend.resolve_left hall
      rw [quicLt_iff_mod]
      omega
    have hle : ¬ quicLe (room : ℤ) (varLengthSize len) := by
      rw [quicLe_iff] <;> omega
    have hrest : (((room : ℤ) - varLengthSize len) % 2 ^ 64).toNat = room - varLengthSize len := by
      omega
    have hmono := varLengthSize_mono (show room - varLengthSize len ≤ len by omega)
    refine ⟨room - varLengthSize len, ?_, by omega, by omega, by omega⟩
    rw [if_pos hlt, if_neg hle, hrest]
    dsimp only
    rw [quicVariableLengthEncode_eq (show room - varLengthSize len < 2 ^ 62 by omega)]
    rfl

/-- Data with space for a byte is written. -/
theorem quicWPacketSubMemcpyVar_of_dataFits (hmax : pkt.maxsize < 2 ^ 30)
    (hgoes : quicLt 0 data.length) (h : DataFits pkt.room data.length) :
    ∃ n t, quicWPacketSubMemcpyVar data pkt = (.ok n, t) ∧ 0 < n ∧ n ≤ data.length ∧
      n < 2 ^ 30 ∧ t.maxsize = pkt.maxsize := by
  have hfits : pkt.written ≤ pkt.maxsize := pkt.fits
  have hroom : pkt.room = pkt.maxsize - pkt.written := rfl
  obtain ⟨n, hclip, hpos, hle, hsum⟩ :=
    quicSubMemcpyClip_of_dataFits (show pkt.room < 2 ^ 30 by omega) hgoes h
  obtain ⟨t, hput, ht⟩ := @quicSubMemcpyPut_of_fits pkt data n (by omega) hle (by omega)
  refine ⟨n, t, ?_, hpos, hle, by omega, ht.maxsize⟩
  rw [quicWPacketSubMemcpyVar, Prog.get_bind, quicVariableLengthEncode_eq h.1, Prog.ofExcept_ok,
    Prog.pure_bind, WPacket.space_of_room (by omega), ← hroom, hclip, Prog.ofExcept_ok,
    Prog.pure_bind]
  exact hput

/-- What was put had space. -/
theorem le_room_of_put {len : ℕ} {v : List UInt8}
    (h : quicSubMemcpyPut len v data pkt = (.ok n, t)) :
    v.length + (data.take len).length ≤ pkt.room := by
  obtain ⟨_, t₁, hstart, h⟩ := Prog.bind_eq_ok.mp h
  obtain ⟨_, t₂, hcopy, _⟩ := Prog.bind_eq_ok.mp h
  rw [wPacketStartSubBytes, Prog.modify_bind] at hstart
  obtain ⟨hbuf₁, hmax₁, _⟩ := wPacketAppend_eq_ok hstart
  obtain ⟨hbuf₂, hmax₂, _⟩ := wPacketMemcpy_eq_ok hcopy
  have hextends : pkt.Extends (List.replicate v.length 0 ++ data.take len) t₂ :=
    ⟨by rw [hbuf₂, hbuf₁, List.append_assoc], hmax₂.trans hmax₁⟩
  have hle := hextends.le_room
  rwa [List.length_append, List.length_replicate] at hle

/-- Data that was written had space for a byte. -/
theorem dataFits_of_run (hmax : pkt.maxsize < 2 ^ 30) (hgoes : quicLt 0 data.length)
    (h : quicWPacketSubMemcpyVar data pkt = (.ok n, t)) : DataFits pkt.room data.length := by
  have hmod := mod_of_quicLt_zero hgoes
  have hbounds := varLengthSize_bounds data.length
  have hroom : pkt.room < 2 ^ 30 := (Nat.sub_le _ _).trans_lt hmax
  by_cases hlen : data.length < 2 ^ 62
  · rw [quicWPacketSubMemcpyVar, Prog.get_bind, quicVariableLengthEncode_eq hlen,
      Prog.ofExcept_ok, Prog.pure_bind,
      WPacket.space_of_room (show pkt.room < 2 ^ 31 by omega)] at h
    change (Prog.ofExcept (quicSubMemcpyClip pkt.room data.length (varLengthBytes data.length))
      >>= fun clip => quicSubMemcpyPut clip.1 clip.2 data) pkt = _ at h
    rw [quicSubMemcpyClip, varLengthBytes_length] at h
    split_ifs at h with hlt hle
    · rw [Prog.ofExcept_error, Prog.fail_bind] at h
      cases h
    · rw [quicLt_iff_mod] at hlt
      rw [quicLe_iff (by omega) (by omega)] at hle
      exact ⟨hlen, by omega, .inr (by omega)⟩
    · rw [Prog.ofExcept_ok, Prog.pure_bind] at h
      have hsum := le_room_of_put h
      rw [varLengthBytes_length, List.take_length] at hsum
      exact ⟨hlen, by omega, .inl (by omega)⟩
  · rw [quicWPacketSubMemcpyVar, Prog.get_bind, quicVariableLengthEncode_eq_error (not_lt.mp hlen),
      Prog.ofExcept_error, Prog.fail_bind] at h
    cases h

/-- A CRYPTO frame with space for a byte is built. -/
theorem quicFrameCryptoBuild_of_fits (hmax : pkt.maxsize < 2 ^ 30) (hgoes : quicLt 0 data.length)
    (h : CryptoFits offset pkt.room data.length) :
    ∃ n t, quicFrameCryptoBuild offset data pkt = (.ok n, t) ∧ 0 < n ∧ n ≤ data.length ∧
      n < 2 ^ 30 ∧ t.maxsize = pkt.maxsize := by
  obtain ⟨hoffset, hdata⟩ := h
  have hspace := hdata.2.1
  have hfits : pkt.written ≤ pkt.maxsize := pkt.fits
  have hroom : pkt.room = pkt.maxsize - pkt.written := rfl
  have htype : varLengthSize quicFrameTypeCrypto = 1 := rfl
  obtain ⟨t₁, hrun₁, ht₁⟩ := quicVariableLengthWrite_of_fits pkt (by omega)
    (show quicFrameTypeCrypto < 2 ^ 62 by decide) (by omega)
  have hroom₁ := ht₁.room
  have hwritten₁ := ht₁.written
  rw [varLengthBytes_length, htype] at hroom₁ hwritten₁
  obtain ⟨t₂, hrun₂, ht₂⟩ := quicVariableLengthWrite_of_fits t₁ (by rw [ht₁.2]; omega) hoffset
    (by rw [ht₁.2]; omega)
  have hroom₂ : t₂.room = pkt.room - (1 + varLengthSize offset) := by
    rw [ht₂.room, hroom₁, varLengthBytes_length]
    omega
  have hmax₂ : t₂.maxsize = pkt.maxsize := ht₂.2.trans ht₁.2
  obtain ⟨n, t₃, hrun₃, hpos, hle, hsmall, hmax₃⟩ := quicWPacketSubMemcpyVar_of_dataFits
    (hmax₂ ▸ hmax) hgoes (hroom₂ ▸ hdata)
  refine ⟨n, t₃, ?_, hpos, hle, hsmall, hmax₃.trans hmax₂⟩
  rw [quicFrameCryptoBuild, Prog.bind_of_ok hrun₁, Prog.bind_of_ok hrun₂]
  exact hrun₃

/-- A CRYPTO frame that was built had space for a byte. -/
theorem cryptoFits_of_build (hmax : pkt.maxsize < 2 ^ 30) (hgoes : quicLt 0 data.length)
    (h : quicFrameCryptoBuild offset data pkt = (.ok n, t)) :
    CryptoFits offset pkt.room data.length := by
  have htype : varLengthSize quicFrameTypeCrypto = 1 := rfl
  obtain ⟨_, t₁, hrun₁, h⟩ := Prog.bind_eq_ok.mp h
  obtain ⟨_, t₂, hrun₂, h⟩ := Prog.bind_eq_ok.mp h
  obtain ⟨_, ht₁⟩ := quicVariableLengthWrite_eq_ok (by omega) hrun₁
  obtain ⟨hoffset, ht₂⟩ := quicVariableLengthWrite_eq_ok (by rw [ht₁.2]; omega) hrun₂
  have hdata := dataFits_of_run (by rw [ht₂.2, ht₁.2]; exact hmax) hgoes h
  rw [ht₂.room, ht₁.room, varLengthBytes_length, varLengthBytes_length, htype,
    Nat.sub_sub] at hdata
  exact ⟨hoffset, hdata⟩

end Write

section Stream

variable {Ctx : Type} {pkt t : WPacket} {offset id n : ℕ} {handle : ℤ} {data : List UInt8}
  {fin last : Bool}

/-- The type of a STREAM frame takes one byte. -/
theorem streamFrameType_lt (off len fin : Bool) : streamFrameType off len fin < 16 := by
  cases off <;> cases len <;> cases fin <;> decide

/-- The header of a STREAM frame is written when it has space. -/
theorem quicFrameStreamPut_header (hmax : pkt.maxsize < 2 ^ 30) (hid : id < 2 ^ 62)
    (hoffset : offset < 2 ^ 62) (hspace : streamHeaderSize id offset ≤ pkt.room) :
    ∃ t, quicFrameStreamPut id offset fin last data pkt = quicFrameStreamDataWrite last data t ∧
      t.maxsize = pkt.maxsize ∧ t.room = pkt.room - streamHeaderSize id offset := by
  have hfits : pkt.written ≤ pkt.maxsize := pkt.fits
  have hroom : pkt.room = pkt.maxsize - pkt.written := rfl
  have hlt := streamFrameType_lt (offset ≠ 0) (!last) fin
  have htype : varLengthSize (streamFrameType (offset ≠ 0) (!last) fin) = 1 :=
    if_pos (by omega)
  rw [streamHeaderSize] at hspace ⊢
  obtain ⟨t₁, hrun₁, ht₁⟩ := quicVariableLengthWrite_of_fits pkt (by omega)
    (show streamFrameType (offset ≠ 0) (!last) fin < 2 ^ 62 by omega) (by omega)
  have hroom₁ := ht₁.room
  have hwritten₁ := ht₁.written
  rw [varLengthBytes_length, htype] at hroom₁ hwritten₁
  obtain ⟨t₂, hrun₂, ht₂⟩ := quicVariableLengthWrite_of_fits t₁ (by rw [ht₁.2]; omega) hid
    (by rw [ht₁.2]; omega)
  have hroom₂ := ht₂.room
  have hwritten₂ := ht₂.written
  have hmax₂ : t₂.maxsize = pkt.maxsize := ht₂.2.trans ht₁.2
  rw [varLengthBytes_length] at hroom₂ hwritten₂
  by_cases hzero : offset = 0
  · refine ⟨t₂, ?_, hmax₂, ?_⟩
    · rw [quicFrameStreamPut, Prog.bind_of_ok hrun₁, Prog.bind_of_ok hrun₂,
        quicFrameStreamOffsetWrite, if_neg (not_not.mpr hzero), Prog.pure_bind]
    · rw [if_neg (not_not.mpr hzero)]
      omega
  · rw [if_pos hzero] at hspace ⊢
    obtain ⟨t₃, hrun₃, ht₃⟩ := quicVariableLengthWrite_of_fits t₂ (by omega) hoffset (by omega)
    refine ⟨t₃, ?_, ht₃.2.trans hmax₂, ?_⟩
    · rw [quicFrameStreamPut, Prog.bind_of_ok hrun₁, Prog.bind_of_ok hrun₂,
        quicFrameStreamOffsetWrite, if_pos hzero, Prog.bind_of_ok hrun₃]
    · rw [ht₃.room, varLengthBytes_length]
      omega

/-- The header of a STREAM frame that was written had space. -/
theorem header_of_quicFrameStreamPut (hmax : pkt.maxsize < 2 ^ 30)
    (h : quicFrameStreamPut id offset fin last data pkt = (.ok n, t)) :
    id < 2 ^ 62 ∧ offset < 2 ^ 62 ∧ streamHeaderSize id offset ≤ pkt.room := by
  have hlt := streamFrameType_lt (offset ≠ 0) (!last) fin
  have htype : varLengthSize (streamFrameType (offset ≠ 0) (!last) fin) = 1 :=
    if_pos (by omega)
  obtain ⟨_, t₁, hrun₁, h⟩ := Prog.bind_eq_ok.mp h
  obtain ⟨_, t₂, hrun₂, h⟩ := Prog.bind_eq_ok.mp h
  obtain ⟨_, t₃, hrun₃, _⟩ := Prog.bind_eq_ok.mp h
  obtain ⟨_, ht₁⟩ := quicVariableLengthWrite_eq_ok (by omega) hrun₁
  obtain ⟨hid, ht₂⟩ := quicVariableLengthWrite_eq_ok (by rw [ht₁.2]; omega) hrun₂
  have hroom₁ := ht₁.room
  have hroom₂ := ht₂.room
  have hle₁ := ht₁.le_room
  have hle₂ := ht₂.le_room
  rw [varLengthBytes_length] at hroom₁ hroom₂ hle₁ hle₂
  refine ⟨hid, ?_⟩
  rw [streamHeaderSize]
  split_ifs with hzero
  · rw [quicFrameStreamOffsetWrite, if_pos hzero] at hrun₃
    obtain ⟨hoffset, ht₃⟩ := quicVariableLengthWrite_eq_ok (by rw [ht₂.2, ht₁.2]; omega) hrun₃
    have hle₃ := ht₃.le_room
    rw [varLengthBytes_length] at hle₃
    exact ⟨hoffset, by omega⟩
  · exact ⟨by omega, by omega⟩

/-- A frame without a length takes what fits. -/
theorem quicFrameStreamRest_eq (hmax : pkt.maxsize < 2 ^ 30) (hgoes : quicLt 0 data.length) :
    ∃ t, quicFrameStreamRest data pkt = (.ok (min pkt.room (data.length % 2 ^ 32)), t) ∧
      t.maxsize = pkt.maxsize := by
  have hmod := mod_of_quicLt_zero hgoes
  have hfits : pkt.written ≤ pkt.maxsize := pkt.fits
  have hroom : pkt.room = pkt.maxsize - pkt.written := rfl
  have hspace : (pkt.space % 2 ^ 64).toNat = pkt.room := by
    rw [WPacket.space_of_room (by omega), ← hroom]
    omega
  have hlen : toInt (quicMin pkt.room data.length) = (min pkt.room (data.length % 2 ^ 32) : ℕ) := by
    unfold quicMin toInt
    simp only [quicGt_iff_mod]
    split_ifs <;> omega
  have htake : (data.take (min pkt.room (data.length % 2 ^ 32))).length =
      min pkt.room (data.length % 2 ^ 32) :=
    List.length_take_of_le ((min_le_right _ _).trans (Nat.mod_le _ _))
  have hcast : (((min pkt.room (data.length % 2 ^ 32) : ℕ) : ℤ) % 2 ^ 64).toNat =
      min pkt.room (data.length % 2 ^ 32) := by
    omega
  obtain ⟨t, hcopy, ht⟩ := @wPacketMemcpy_of_room pkt
    (data.take (min pkt.room (data.length % 2 ^ 32))) (by omega) (by omega)
  refine ⟨t, ?_, ht.maxsize⟩
  rw [quicFrameStreamRest, Prog.get_bind, hspace, hlen, hcast,
    Prog.ensure_of_pos ((min_le_right _ _).trans (Nat.mod_le _ _)), Prog.pure_bind,
    Prog.bind_of_ok hcopy, Prog.ensure_of_pos (Int.natCast_nonneg _), Prog.pure_bind]
  rfl

/-- A STREAM frame with space for a byte is written. -/
theorem quicFrameStreamPut_of_fits (hmax : pkt.maxsize < 2 ^ 30) (hgoes : quicLt 0 data.length)
    (h : StreamFits id offset last pkt.room data.length) :
    ∃ n t, quicFrameStreamPut id offset fin last data pkt = (.ok n, t) ∧ 0 < n ∧
      n ≤ data.length ∧ t.maxsize = pkt.maxsize := by
  obtain ⟨hid, hoffset, hspace, hdata⟩ := h
  obtain ⟨t, hrun, hmaxsize, hroom⟩ :=
    @quicFrameStreamPut_header pkt offset id data fin last hmax hid hoffset hspace.le
  rw [hrun, ← hmaxsize]
  cases last with
  | true =>
    have hmod := mod_of_quicLt_zero hgoes
    obtain ⟨u, hrest, hu⟩ := quicFrameStreamRest_eq (hmaxsize ▸ hmax) hgoes
    rw [quicFrameStreamDataWrite, if_pos rfl, hrest]
    refine ⟨_, u, rfl, ?_, (min_le_right _ _).trans (Nat.mod_le _ _), hu⟩
    exact lt_min (by omega) hmod.1
  | false =>
    obtain ⟨n, u, hcopy, hpos, hle, _, hu⟩ :=
      quicWPacketSubMemcpyVar_of_dataFits (hmaxsize ▸ hmax) hgoes (hroom ▸ hdata rfl)
    exact ⟨n, u, hcopy, hpos, hle, hu⟩

/-- A STREAM frame with a byte that was written had space for it. -/
theorem streamFits_of_put (hmax : pkt.maxsize < 2 ^ 30) (hgoes : quicLt 0 data.length)
    (hpos : 0 < n) (h : quicFrameStreamPut id offset fin last data pkt = (.ok n, t)) :
    StreamFits id offset last pkt.room data.length := by
  obtain ⟨hid, hoffset, hspace⟩ := header_of_quicFrameStreamPut hmax h
  obtain ⟨u, hrun, hmaxsize, hroom⟩ :=
    @quicFrameStreamPut_header pkt offset id data fin last hmax hid hoffset hspace
  rw [hrun] at h
  cases last with
  | true =>
    obtain ⟨_, hrest, _⟩ := quicFrameStreamRest_eq (hmaxsize ▸ hmax) hgoes
    rw [quicFrameStreamDataWrite, if_pos rfl, hrest] at h
    have hn : min u.room (data.length % 2 ^ 32) = n := Except.ok.inj (congrArg Prod.fst h)
    have hleft : 0 < u.room := (hn ▸ hpos).trans_le (min_le_left _ _)
    exact ⟨hid, hoffset, by omega, fun hlast => by cases hlast⟩
  | false =>
    have hdata := dataFits_of_run (hmaxsize ▸ hmax) hgoes h
    rw [hroom] at hdata
    have hsize := hdata.2.1
    exact ⟨hid, hoffset, by omega, fun _ => hdata⟩

end Stream

section Rounds

variable {σ : Type} {x : Splitting σ} {Inv : σ → Prop} {Ready : ℕ → σ → Prop} {s : σ}

/-- What a round needs to make progress. -/
structure Splitting.Needs (x : Splitting σ) (Inv : σ → Prop) (Ready : ℕ → σ → Prop) : Prop where
  /-- The loop goes round by round. -/
  loop_eq (fuel : ℕ) : x.loop fuel = Prog.advance .fuel x.goes x.round fuel 0
  /-- The loop stops when nothing is left. -/
  stop : x.goes x.len = false
  /-- A round that has what it needs makes progress. -/
  enough {p : ℕ} {t : σ} : Inv t → p < x.len → x.goes p = true → Ready p t →
    ∃ q u, x.round p t = (.ok q, u) ∧ p < q ∧ q ≤ x.len ∧ Inv u
  /-- A round that makes progress has what it needs. -/
  necessary {p q : ℕ} {t u : σ} : Inv t → p < x.len → x.goes p = true →
    x.round p t = (.ok q, u) → p < q → Ready p t
  /-- In a buffer that is kept a frame is built. -/
  build {p : ℕ} {t : σ} : Inv t → p < x.len → x.goes p = true → x.keeps t → Ready p t →
    ∃ n u, x.build p t = (.ok n, u) ∧ 0 < n

namespace Splitting.Needs

/-- A loop that goes on at a position has bytes left. -/
theorem lt_of_goes (hx : x.Needs Inv Ready) {p : ℕ} (hp : p ≤ x.len) (hgoes : x.goes p = true) :
    p < x.len := by
  refine lt_of_le_of_ne hp fun heq => ?_
  rw [heq, hx.stop] at hgoes
  cases hgoes

/-- While every round has what it needs, the invariant is kept. -/
theorem inv_of_arrives (hx : x.Needs Inv Ready) (hs : Inv s)
    (hready : ∀ p t, Prog.Arrives x.goes x.round 0 s p t → p < x.len → Inv t → Ready p t)
    {p : ℕ} {t : σ} (h : Prog.Arrives x.goes x.round 0 s p t) : p ≤ x.len ∧ Inv t := by
  refine @Prog.Arrives.invariant _ _ _ _ _ _ _ _ (fun p t => p ≤ x.len ∧ Inv t) h ?_
    ⟨Nat.zero_le _, hs⟩
  intro q r t u harrives ht hgoes hrun
  have hlt := hx.lt_of_goes ht.1 hgoes
  obtain ⟨q', u', hrun', _, hle, hu⟩ := hx.enough ht.2 hlt hgoes (hready q t harrives hlt ht.2)
  rw [hrun] at hrun'
  cases hrun'
  exact ⟨hle, hu⟩

/-- The loop succeeds exactly when every round has what it needs. -/
theorem succeeds_iff (hx : x.Needs Inv Ready) (hs : Inv s) :
    x.Succeeds s ↔ ∀ p t, Prog.Arrives x.goes x.round 0 s p t → p < x.len →
      x.goes p = true ∧ Ready p t := by
  constructor
  · intro h
    have hready (p : ℕ) (t : σ) (harrives : Prog.Arrives x.goes x.round 0 s p t)
        (hlt : p < x.len) (ht : Inv t) : Ready p t := by
      obtain ⟨hgoes, q, u, hrun, hless⟩ := h.progress p t harrives hlt
      exact hx.necessary ht hlt hgoes hrun hless
    intro p t harrives hlt
    have ht := (hx.inv_of_arrives hs hready harrives).2
    exact ⟨(h.progress p t harrives hlt).1, hready p t harrives hlt ht⟩
  · intro h
    have hinv {p : ℕ} {t : σ} (harrives : Prog.Arrives x.goes x.round 0 s p t) :=
      hx.inv_of_arrives hs (fun p t harrives hlt _ => (h p t harrives hlt).2) harrives
    have hround (p : ℕ) (t : σ) (harrives : Prog.Arrives x.goes x.round 0 s p t)
        (hlt : p < x.len) : x.goes p = true ∧
          ∃ q u, x.round p t = (.ok q, u) ∧ p < q ∧ q ≤ x.len := by
      obtain ⟨hgoes, hready⟩ := h p t harrives hlt
      obtain ⟨q, u, hrun, hless, hle, _⟩ := hx.enough (hinv harrives).2 hlt hgoes hready
      exact ⟨hgoes, q, u, hrun, hless, hle⟩
    refine ⟨?_, ?_, ?_⟩
    · intro p t harrives hgoes hkeeps
      obtain ⟨hle, ht⟩ := hinv harrives
      have hlt := hx.lt_of_goes hle hgoes
      exact hx.build ht hlt hgoes hkeeps (h p t harrives hlt).2
    · intro p t harrives hlt
      obtain ⟨hgoes, q, u, hrun, hless, _⟩ := hround p t harrives hlt
      exact ⟨hgoes, q, u, hrun, hless⟩
    · obtain ⟨t, _, hrun⟩ := Prog.advance_of_progress hx.stop (Nat.zero_le _) hround
      refine ⟨t, fun fuel hfuel => ?_⟩
      rw [hx.loop_eq]
      exact hrun fuel (by omega)

end Splitting.Needs

end Rounds

section Next

variable {bufLen maxHlen pktType : ℕ} {s t : QBuffFill}

/-- There is a buffer for the next frame. -/
theorem quicBuffQueueAndNext_of_hasNext (hs : s.Filling bufLen) (hmax : bufLen < 2 ^ 30)
    (hhlen : maxHlen < 2 ^ 30) (h : HasNext maxHlen s.pkt) :
    ∃ t, quicBuffQueueAndNext pktType bufLen maxHlen s = (.ok (), t) ∧ t.Filling bufLen ∧
      t.pkt.room = nextSpace bufLen maxHlen s.pkt.room := by
  have hmaxsize : s.pkt.maxsize < 2 ^ 30 := hs.maxsize ▸ hmax
  by_cases hspace : maxHlen < s.pkt.room
  · exact ⟨s, quicBuffQueueAndNext_of_space hmaxsize hhlen hspace, hs, (if_pos hspace).symm⟩
  · obtain ⟨qb, hqueue, _⟩ := quicFrameAddQueue_of_ne (hs.maxsize.trans hs.buffLen.symm)
      (hs.buffLen ▸ hmax.trans (by decide)) (h.resolve_left hspace)
    refine ⟨QBuffFill.bufferNew pktType bufLen { s with txQueue := s.txQueue ++ [qb] }, ?_,
      ⟨rfl, rfl⟩, (if_neg hspace).symm⟩
    rw [quicBuffQueueAndNext_of_full hmaxsize hhlen (not_lt.mp hspace), Prog.bind_of_ok hqueue]
    rfl

/-- A buffer that was found is there. -/
theorem hasNext_of_run (hs : s.Filling bufLen) (hmax : bufLen < 2 ^ 30) (hhlen : maxHlen < 2 ^ 30)
    {u : Unit} (h : quicBuffQueueAndNext pktType bufLen maxHlen s = (.ok u, t)) :
    HasNext maxHlen s.pkt := by
  by_cases hspace : maxHlen < s.pkt.room
  · exact .inl hspace
  · refine .inr fun hempty => ?_
    rw [quicBuffQueueAndNext_of_full (hs.maxsize ▸ hmax) hhlen (not_lt.mp hspace),
      Prog.bind_of_error (quicFrameAddQueue_of_eq hempty)] at h
    cases h

/-- A buffer that is kept has the space for the next frame. -/
theorem nextSpace_of_keeps {pkt : WPacket} (hmax : pkt.maxsize < 2 ^ 30) (hhlen : maxHlen < 2 ^ 30)
    (h : quicGt pkt.space maxHlen) : nextSpace bufLen maxHlen pkt.room = pkt.room := by
  have hroom : pkt.room < 2 ^ 30 := (Nat.sub_le _ _).trans_lt hmax
  rw [WPacket.space_of_room (show pkt.room < 2 ^ 31 by omega)] at h
  change quicGt pkt.room maxHlen at h
  rw [quicGt_iff (by omega) (by omega)] at h
  exact if_pos (by omega)

end Next

section Crypto

variable {pktType bufLen p n : ℕ} {data : List UInt8} {s t : QBuffFill}

/-- A CRYPTO frame is built in the buffer being filled. -/
theorem onPkt_quicFrameCryptoBuild (hmax : bufLen < 2 ^ 30) (hs : s.Filling bufLen)
    (hgoes : quicLt 0 data.length) (h : CryptoFits p s.pkt.room data.length) :
    ∃ n t, QBuffFill.onPkt (quicFrameCryptoBuild p data) s = (.ok n, t) ∧ 0 < n ∧
      n ≤ data.length ∧ n < 2 ^ 30 ∧ t.Filling bufLen := by
  obtain ⟨n, pkt, hrun, hpos, hle, hsmall, hmaxsize⟩ :=
    quicFrameCryptoBuild_of_fits (hs.maxsize ▸ hmax) hgoes h
  refine ⟨n, { s with pkt }, Prog.zoom_of_ok hrun, hpos, hle, hsmall, ?_⟩
  exact ⟨hmaxsize.trans hs.maxsize, hs.buffLen⟩

/-- The condition of the loop looks at the bytes that are left. -/
theorem quicLt_zero_drop (hp : p < data.length) (hgoes : quicLt p data.length) :
    quicLt 0 (data.drop p).length := by
  rw [quicLt_iff_mod] at hgoes ⊢
  rw [List.length_drop]
  omega

/-- What the rounds of `QuicFrameCryptoSplit` need. -/
theorem cryptoSplitting_needs (pktType : ℕ) (data : List UInt8) (hmax : bufLen < 2 ^ 30) :
    (cryptoSplitting pktType bufLen data).Needs (QBuffFill.Filling bufLen)
      fun p t => CryptoReady bufLen p (data.length - p) t where
  loop_eq fuel := by
    have h (fuel p : ℕ) : quicFrameCryptoSplit pktType bufLen data fuel p =
        Prog.advance .fuel (cryptoSplitting pktType bufLen data).goes
          (cryptoSplitting pktType bufLen data).round fuel p := by
      induction fuel generalizing p with
      | zero => rfl
      | succ fuel ih =>
        have hgoes : (cryptoSplitting pktType bufLen data).goes p = true ↔
            quicLt p data.length := decide_eq_true_iff
        rw [quicFrameCryptoSplit, Prog.advance]
        simp only [hgoes, ih]
        rfl
    exact h fuel 0
  stop := by
    have h : ¬ quicLt (data.length : ℤ) data.length := by
      rw [quicLt_iff] <;> omega
    exact decide_eq_false h
  enough {p t} ht hp hgoes hready := by
    have hleft := quicLt_zero_drop hp (of_decide_eq_true hgoes)
    obtain ⟨u, hnext, hu, hroom⟩ := @quicBuffQueueAndNext_of_hasNext bufLen _ pktType t ht hmax
      (by decide) hready.1
    have hfits := hready.2
    rw [← hroom, ← List.length_drop] at hfits
    obtain ⟨n, v, hbuild, hpos, hle, hsmall, hv⟩ := onPkt_quicFrameCryptoBuild hmax hu hleft hfits
    have hint : toInt n = n := toInt_of_bounds (by omega) (by omega)
    rw [List.length_drop] at hle
    refine ⟨p + n, v, ?_, by omega, ?_, hv⟩
    · change quicFrameCryptoRound pktType bufLen data p t = _
      rw [quicFrameCryptoRound, Prog.bind_of_ok hnext, Prog.bind_of_ok hbuild,
        Prog.ensure_of_pos (by omega), Prog.pure_bind, hint, Int.toNat_natCast]
      rfl
    · change p < data.length at hp
      change p + n ≤ data.length
      omega
  necessary {p q t u} ht hp hgoes hrun _ := by
    have hleft := quicLt_zero_drop hp (of_decide_eq_true hgoes)
    obtain ⟨_, v, hnext, hrun⟩ := Prog.bind_eq_ok.mp hrun
    have hhas := hasNext_of_run ht hmax (by decide) hnext
    obtain ⟨v', hnext', hv, hroom⟩ := @quicBuffQueueAndNext_of_hasNext bufLen _ pktType t ht hmax
      (by decide) hhas
    rw [hnext] at hnext'
    cases hnext'
    obtain ⟨n, w, hbuild, _⟩ := Prog.bind_eq_ok.mp hrun
    rw [QBuffFill.onPkt, Prog.zoom_apply] at hbuild
    have hput : quicFrameCryptoBuild p (data.drop p) v.pkt =
        (.ok n, (quicFrameCryptoBuild p (data.drop p) v.pkt).2) :=
      Prod.ext (Prod.mk.inj hbuild).1 rfl
    have hfits := cryptoFits_of_build (hv.maxsize ▸ hmax) hleft hput
    rw [hroom, List.length_drop] at hfits
    exact ⟨hhas, hfits⟩
  build {p t} ht hp hgoes hkeeps hready := by
    have hleft := quicLt_zero_drop hp (of_decide_eq_true hgoes)
    have hfits := hready.2
    rw [nextSpace_of_keeps (ht.maxsize ▸ hmax) (by decide) hkeeps, ← List.length_drop] at hfits
    obtain ⟨n, u, hbuild, hpos, _⟩ := onPkt_quicFrameCryptoBuild hmax ht hleft hfits
    exact ⟨n, u, hbuild, hpos⟩

end Crypto

section StreamRounds

variable {Ctx : Type} {bufLen id p n : ℕ} {handle : ℤ} {data : List UInt8} {fin last : Bool}
  {q r : QuicStreams} {s t : FrameBuild Ctx}

/-- A stream that was found is one of the connection. Its sending part is as before. -/
theorem quicStreamGetInstance_eq_ok (h : quicStreamGetInstance handle q = (.ok id, r)) :
    q.conf.inited = true ∧ q.idCheck handle = true ∧ id = handle.toNat ∧
      (r.si id).sendState = (q.si id).sendState ∧ r.sent id = q.sent id := by
  rw [quicStreamGetInstance, Prog.get_bind, Prog.ensure_bind_eq_ok] at h
  obtain ⟨hinited, h⟩ := h
  rw [Prog.ensure_bind_eq_ok] at h
  obtain ⟨hcheck, h⟩ := h
  rw [Prog.ensure_bind_eq_ok] at h
  obtain ⟨_, h⟩ := h
  refine ⟨hinited, hcheck, ?_⟩
  split at h
  · rw [Prog.modify_bind] at h
    cases h
    have hsi : ((q.openUpTo handle.toNat).si handle.toNat).sendState =
          (q.si handle.toNat).sendState ∧
        ((q.openUpTo handle.toNat).si handle.toNat).statBytes =
          (q.si handle.toNat).statBytes := by
      simp only [QuicStreams.openUpTo, QuicStreams.si]
      split
      · exact QuicStreams.recvOpen_send _
      · exact ⟨rfl, rfl⟩
    exact ⟨rfl, hsi.1, congrArg QuicDataStat.sent hsi.2⟩
  · cases h
    exact ⟨rfl, rfl, rfl⟩

/-- The offset of a frame is the number of bytes sent before. -/
theorem sent_updateSi_sendStarted (q : QuicStreams) (id : ℕ) :
    ((q.updateSi id sendStarted).si id).statBytes.sent = q.sent id := by
  rw [QuicStreams.updateSi_si, sendStarted]
  split <;> rfl

/-- The streams are changed. -/
theorem onStreams_modify_bind {α : Type} (f : QuicStreams → QuicStreams)
    (g : Unit → Prog Fail (FrameBuild Ctx) α) (s : FrameBuild Ctx) :
    (FrameBuild.onStreams (Prog.modify f) >>= g) s =
      g () { s with quic.streams := f s.quic.streams } :=
  Prog.bind_of_ok rfl

/-- `QuicFrameStreamBuild` behind the stream. -/
theorem quicFrameStreamBuild_of_found
    (hget : quicStreamGetInstance handle s.quic.streams = (.ok id, q)) :
    quicFrameStreamBuild handle data fin last s =
      (do
        Prog.ensure .ret ((q.si id).sendState = .ready ∨ (q.si id).sendState = .send)
        FrameBuild.onStreams (Prog.modify (·.updateSi id sendStarted))
        FrameBuild.onStreams (Prog.modify (·.updateSi id (sendFin fin)))
        FrameBuild.onPkt (quicFrameStreamPut id (q.sent id) fin last data) :
        Prog Fail (FrameBuild Ctx) ℕ) { s with quic.streams := q } := by
  have hfound : FrameBuild.onStreams (quicStreamGetInstance handle) s =
      (.ok id, { s with quic.streams := q }) := Prog.zoom_of_ok hget
  rw [quicFrameStreamBuild, Prog.bind_of_ok hfound, Prog.get_bind]
  by_cases hstate : (q.si id).sendState = .ready ∨ (q.si id).sendState = .send
  · rw [Prog.ensure_of_pos hstate, Prog.pure_bind, Prog.pure_bind, onStreams_modify_bind,
      onStreams_modify_bind, Prog.get_bind, sent_updateSi_sendStarted]
  · rw [Prog.ensure_of_neg hstate, Prog.fail_bind, Prog.fail_bind]

/-- A STREAM frame of a stream that can send is built when a byte of data has space. -/
theorem quicFrameStreamBuild_of_fits (hmax : s.pkt.maxsize < 2 ^ 30)
    (hgoes : quicLt 0 data.length) (hsend : s.quic.streams.Sendable handle)
    (hfits : StreamFits handle.toNat (s.quic.streams.sent handle.toNat) last s.pkt.room
      data.length) :
    ∃ n t, quicFrameStreamBuild handle data fin last s = (.ok n, t) ∧ 0 < n ∧ n ≤ data.length ∧
      t.pkt.maxsize = s.pkt.maxsize ∧ t.qb = s.qb := by
  obtain ⟨q, hget, _⟩ := QuicStreams.quicStreamGetInstance_of_sendable hsend
  obtain ⟨_, _, _, hstate, hsent⟩ := quicStreamGetInstance_eq_ok hget
  rw [← hsent] at hfits
  obtain ⟨n, pkt, hput, hpos, hle, hmaxsize⟩ :=
    @quicFrameStreamPut_of_fits _ _ _ data fin last hmax hgoes hfits
  have hcan : (q.si handle.toNat).sendState = .ready ∨ (q.si handle.toNat).sendState = .send := by
    rw [hstate]
    exact hsend.2.2
  let u : FrameBuild Ctx := { s with
    quic.streams := (q.updateSi handle.toNat sendStarted).updateSi handle.toNat (sendFin fin) }
  refine ⟨n, { u with pkt }, ?_, hpos, hle, hmaxsize, rfl⟩
  have hrun : FrameBuild.onPkt (quicFrameStreamPut handle.toNat (q.sent handle.toNat) fin last data)
      u = (.ok n, { u with pkt }) := Prog.zoom_of_ok hput
  rw [quicFrameStreamBuild_of_found hget, Prog.ensure_of_pos hcan, Prog.pure_bind,
    onStreams_modify_bind, onStreams_modify_bind]
  exact hrun

/-- A STREAM frame with a byte of data was built for a stream that can send and had space. -/
theorem fits_of_quicFrameStreamBuild (hmax : s.pkt.maxsize < 2 ^ 30)
    (hgoes : quicLt 0 data.length) (hpos : 0 < n)
    (h : quicFrameStreamBuild handle data fin last s = (.ok n, t)) :
    s.quic.streams.Sendable handle ∧
      StreamFits handle.toNat (s.quic.streams.sent handle.toNat) last s.pkt.room data.length := by
  obtain ⟨id, u, hfound, _⟩ := Prog.bind_eq_ok.mp h
  rw [FrameBuild.onStreams, Prog.zoom_apply] at hfound
  have hget : quicStreamGetInstance handle s.quic.streams =
      (.ok id, (quicStreamGetInstance handle s.quic.streams).2) :=
    Prod.ext (Prod.mk.inj hfound).1 rfl
  obtain ⟨hinited, hcheck, rfl, hstate, hsent⟩ := quicStreamGetInstance_eq_ok hget
  rw [quicFrameStreamBuild_of_found hget, Prog.ensure_bind_eq_ok] at h
  obtain ⟨hcan, h⟩ := h
  rw [hstate] at hcan
  rw [onStreams_modify_bind, onStreams_modify_bind, FrameBuild.onPkt, Prog.zoom_apply] at h
  have hput := streamFits_of_put hmax hgoes hpos (Prod.ext (Prod.mk.inj h).1 rfl)
  rw [hsent] at hput
  exact ⟨⟨hinited, hcheck, hcan⟩, hput⟩

end StreamRounds

section StreamLoop

variable {Ctx : Type} {bufLen p n : ℕ} {handle : ℤ} {data : List UInt8} {fin last : Bool}
  {s t : FrameBuild Ctx}

/-- The loop of `QuicFrameStreamWrite` goes round by round. -/
theorem quicFrameStreamWrite_eq (fuel p : ℕ) :
    quicFrameStreamWrite bufLen handle fin last fuel (data.drop p) =
      Prog.advance .fuel
        (streamSplitting bufLen handle fin last data : Splitting (FrameBuild Ctx)).goes
        (quicFrameStreamRound bufLen handle fin last data : ℕ → Prog Fail (FrameBuild Ctx) ℕ)
        fuel p := by
  induction fuel generalizing p with
  | zero => rfl
  | succ fuel ih =>
    have hgoes :
        (streamSplitting bufLen handle fin last data : Splitting (FrameBuild Ctx)).goes p = true ↔
          quicLt 0 (data.drop p).length := decide_eq_true_iff
    rw [quicFrameStreamWrite, Prog.advance]
    simp only [hgoes, ← ih, List.drop_drop]
    simp only [quicFrameStreamRound, Prog.bind_assoc, Prog.pure_bind]

/-- The buffer for the next frame of a stream. -/
def FrameBuild.next (handle : ℤ) (fin : Bool) (f : QBuffFill) (s : FrameBuild Ctx) :
    FrameBuild Ctx where
  quic := { s.quic with txQueue := f.txQueue }
  pkt := f.pkt
  qb := f.qb.setStream handle fin

/-- A round behind `QuicBuffQueueAndNext`. -/
theorem quicFrameStreamRound_of_next {f : QBuffFill}
    (h : quicBuffQueueAndNext quicPktType1Rtt bufLen quicFrameStreamHeaderMaxLen s.fill =
      (.ok (), f)) :
    quicFrameStreamRound bufLen handle fin last data p s =
      (do
        let wlen ← quicFrameStreamBuild handle (data.drop p) fin last
        Prog.modify fun s => { s with qb.streamLen := s.qb.streamLen + wlen }
        pure (p + wlen) : Prog Fail (FrameBuild Ctx) ℕ) (s.next handle fin f) := by
  have hrun : FrameBuild.onQueue
      (quicBuffQueueAndNext quicPktType1Rtt bufLen quicFrameStreamHeaderMaxLen) s =
      (.ok (), { s with quic.txQueue := f.txQueue, pkt := f.pkt, qb := f.qb }) :=
    Prog.zoom_of_ok h
  rw [quicFrameStreamRound, Prog.bind_of_ok hrun, Prog.modify_bind]
  rfl

/-- What the rounds of `QuicFrameStreamWrite` need. -/
theorem streamSplitting_needs (handle : ℤ) (fin last : Bool) (data : List UInt8)
    (hmax : bufLen < 2 ^ 30) :
    (streamSplitting bufLen handle fin last data).Needs
      (fun s : FrameBuild Ctx => s.fill.Filling bufLen)
      fun p t => StreamReady bufLen handle last (data.length - p) t where
  loop_eq fuel := quicFrameStreamWrite_eq fuel 0
  stop := by
    have h : ¬ quicLt (0 : ℤ) (data.drop data.length).length := by
      rw [List.length_drop, Nat.sub_self]
      decide
    exact decide_eq_false h
  enough {p t} ht hp hgoes hready := by
    have hleft : quicLt 0 (data.drop p).length := of_decide_eq_true hgoes
    obtain ⟨hsend, hhas, hfits⟩ := hready
    obtain ⟨f, hnext, hf, hroom⟩ := @quicBuffQueueAndNext_of_hasNext bufLen _ quicPktType1Rtt
      t.fill ht hmax (by decide) hhas
    have hspace : nextSpace bufLen quicFrameStreamHeaderMaxLen t.pkt.room =
        (t.next handle fin f).pkt.room := hroom.symm
    rw [hspace, ← List.length_drop] at hfits
    obtain ⟨n, u, hbuild, hpos, hle, hmaxsize, hqb⟩ := @quicFrameStreamBuild_of_fits Ctx handle
      (data.drop p) fin last (t.next handle fin f) (hf.maxsize.trans_lt hmax) hleft hsend hfits
    rw [List.length_drop] at hle
    refine ⟨p + n, { u with qb.streamLen := u.qb.streamLen + n }, ?_, by omega, ?_, ?_⟩
    · change quicFrameStreamRound bufLen handle fin last data p t = _
      rw [quicFrameStreamRound_of_next hnext, Prog.bind_of_ok hbuild, Prog.modify_bind]
      rfl
    · change p < data.length at hp
      change p + n ≤ data.length
      omega
    · exact ⟨hmaxsize.trans hf.maxsize, (congrArg QBuff.buffLen hqb).trans hf.buffLen⟩
  necessary {p q t u} ht hp hgoes hrun hless := by
    have hleft : quicLt 0 (data.drop p).length := of_decide_eq_true hgoes
    change quicFrameStreamRound bufLen handle fin last data p t = _ at hrun
    obtain ⟨_, v, hqueue, _⟩ := Prog.bind_eq_ok.mp hrun
    rw [FrameBuild.onQueue, Prog.zoom_apply] at hqueue
    have hnext : quicBuffQueueAndNext quicPktType1Rtt bufLen quicFrameStreamHeaderMaxLen t.fill =
        (.ok (), (quicBuffQueueAndNext quicPktType1Rtt bufLen quicFrameStreamHeaderMaxLen
          t.fill).2) := Prod.ext (Prod.mk.inj hqueue).1 rfl
    have hhas := hasNext_of_run ht hmax (by decide) hnext
    obtain ⟨f, hnext, hf, hroom⟩ := @quicBuffQueueAndNext_of_hasNext bufLen _ quicPktType1Rtt
      t.fill ht hmax (by decide) hhas
    rw [quicFrameStreamRound_of_next hnext] at hrun
    obtain ⟨n, w, hbuild, hrest⟩ := Prog.bind_eq_ok.mp hrun
    rw [Prog.modify_bind] at hrest
    cases hrest
    obtain ⟨hsend, hfits⟩ := fits_of_quicFrameStreamBuild (hf.maxsize.trans_lt hmax) hleft
      (by omega) hbuild
    have hspace : (t.next handle fin f).pkt.room =
        nextSpace bufLen quicFrameStreamHeaderMaxLen t.pkt.room := hroom
    rw [hspace, List.length_drop] at hfits
    exact ⟨hsend, hhas, hfits⟩
  build {p t} ht hp hgoes hkeeps hready := by
    have hleft : quicLt 0 (data.drop p).length := of_decide_eq_true hgoes
    have hmaxsize : t.pkt.maxsize < 2 ^ 30 := ht.maxsize.trans_lt hmax
    obtain ⟨hsend, _, hfits⟩ := hready
    rw [nextSpace_of_keeps hmaxsize (by decide) hkeeps, ← List.length_drop] at hfits
    obtain ⟨n, u, hbuild, hpos, _⟩ := @quicFrameStreamBuild_of_fits Ctx handle (data.drop p) fin
      last t hmaxsize hleft hsend hfits
    exact ⟨n, u, hbuild, hpos⟩

end StreamLoop

/-- The loops that split data make progress and send everything exactly when, in every round, the
number of bytes that are left does not fool the condition of the loop and the header leaves space
for a byte of data. -/
theorem splitting_succeeds_iff {Ctx : Type} (handle : ℤ) (fin last : Bool) (data : List UInt8)
    (s : FrameBuild Ctx) (pktType : ℕ) (flight : List UInt8) (f : QBuffFill) {bufLen : ℕ}
    (hmax : bufLen < 2 ^ 30) (hs : s.fill.Filling bufLen) (hf : f.Filling bufLen) :
    ((streamSplitting bufLen handle fin last data).Succeeds s ↔
      ∀ p t, Prog.Arrives
          (streamSplitting bufLen handle fin last data : Splitting (FrameBuild Ctx)).goes
          (quicFrameStreamRound bufLen handle fin last data) 0 s p t → p < data.length →
        quicLt 0 (data.drop p).length ∧
          StreamReady bufLen handle last (data.length - p) t) ∧
    ((cryptoSplitting pktType bufLen flight).Succeeds f ↔
      ∀ p t, Prog.Arrives (cryptoSplitting pktType bufLen flight).goes
          (quicFrameCryptoRound pktType bufLen flight) 0 f p t → p < flight.length →
        quicLt p flight.length ∧ CryptoReady bufLen p (flight.length - p) t) := by
  constructor
  · have hiff := (@streamSplitting_needs Ctx _ handle fin last data hmax).succeeds_iff hs
    simpa only [streamSplitting, decide_eq_true_eq] using hiff
  · have hiff := (cryptoSplitting_needs pktType flight hmax).succeeds_iff hf
    simpa only [cryptoSplitting, decide_eq_true_eq] using hiff

/-- A connection that sends on a stream from an offset, behind other frames in the buffer. -/
def sendFrom (sent used : ℕ) (hused : used ≤ 1157) : FrameBuild Unit where
  quic :=
    { streams :=
        { server := false
          conf :=
            { statAll := { sent, recvd := 0 }
              maxIdOpened := 20000
              maxIdValue := 20000
              inited := true
              stream := fun _ =>
                { openedStream with sendState := .send, statBytes := { sent, recvd := 0 } }
              msgQueue := [] }
          transParam := ⟨4096, 4096, 4096, 10000, 8⟩
          peerParam := ⟨4096, 4096, 4096, 10000, 8⟩ }
      application := plainCrypto 0 0
      txQueue := []
      mss := 1200
      dcidLen := 8
      pktNumLen := 1
      mss_le := smallFlight.mss_le
      dcidLen_le := smallFlight.dcidLen_le
      pktNumLen_le := smallFlight.pktNumLen_le }
  pkt :=
    { buf := List.replicate used 0, maxsize := 1157, subs := []
      fits := (List.length_replicate).trans_le hused }
  qb := qBuffNew quicPktType1Rtt 1157

/-- The space behind the other frames. -/
theorem sendFrom_room {sent used : ℕ} (hused : used ≤ 1157) :
    (sendFrom sent used hused).pkt.room = 1157 - used :=
  congrArg (1157 - ·) List.length_replicate

/-- A few bytes are sent. -/
theorem splitting_succeeds_small :
    (streamSplitting 1157 0 false false [1, 2, 3]).Succeeds (sendFrom 0 0 (by decide)) ∧
      (cryptoSplitting quicPktTypeHandshake 1157 [1, 0, 0, 0]).Succeeds
        (quicCryptoFill quicPktTypeHandshake 1157 smallFlight) := by
  obtain ⟨hstream, hcrypto⟩ := @splitting_succeeds_iff Unit 0 false false [1, 2, 3]
    (sendFrom 0 0 (by decide)) quicPktTypeHandshake [1, 0, 0, 0]
    (quicCryptoFill quicPktTypeHandshake 1157 smallFlight) 1157 (by decide) ⟨rfl, rfl⟩ ⟨rfl, rfl⟩
  refine ⟨hstream.mpr ?_, hcrypto.mpr ?_⟩
  · intro p t harrives hp
    cases harrives with
    | start => exact ⟨by decide, by decide⟩
    | @round _ q _ _ t' _ _ hrun hrest =>
      have hq : (quicFrameStreamRound 1157 0 false false [1, 2, 3] 0
          (sendFrom 0 0 (by decide))).1 = .ok 3 := by decide +kernel
      rw [hrun] at hq
      cases hq
      rw [hrest.eq_of_stop rfl] at hp
      exact absurd hp (lt_irrefl _)
  · intro p t harrives hp
    cases harrives with
    | start => exact ⟨by decide, by decide⟩
    | @round _ q _ _ t' _ _ hrun hrest =>
      have hq : (quicFrameCryptoRound quicPktTypeHandshake 1157 [1, 0, 0, 0] 0
          (quicCryptoFill quicPktTypeHandshake 1157 smallFlight)).1 = .ok 4 := by decide +kernel
      rw [hrun] at hq
      cases hq
      rw [hrest.eq_of_stop rfl] at hp
      exact absurd hp (lt_irrefl _)

/-- With 17 bytes left, the frame of a great stream identifier and offset has no space for a byte
of 16384. -/
theorem not_succeeds_of_length {data : List UInt8} (hdata : data.length = 16384) :
    ¬ (streamSplitting 1157 16384 false false data).Succeeds
      (sendFrom (2 ^ 30) 1140 (by decide)) := by
  intro h
  have hleft : quicLt 0 (data.drop 0).length := by
    rw [List.drop_zero, hdata]
    decide
  have hkeeps : quicGt (sendFrom (2 ^ 30) 1140 (by decide)).pkt.space
      quicFrameStreamHeaderMaxLen := by decide +kernel
  obtain ⟨n, u, hbuild, hpos⟩ := h.kept 0 _ .start (decide_eq_true hleft) hkeeps
  have hfits := (fits_of_quicFrameStreamBuild (by decide) hleft hpos hbuild).2
  rw [List.drop_zero, hdata, sendFrom_room] at hfits
  exact absurd hfits (show ¬ StreamFits 16384 (2 ^ 30) false 17 16384 by decide)

/-- Such a send is abandoned, although the stream is open for sending. -/
theorem not_splitting_succeeds_far :
    (quicStreamGetInstance 16384 (sendFrom (2 ^ 30) 1140 (by decide)).quic.streams).1 =
        .ok 16384 ∧
      (sendFrom (2 ^ 30) 1140 (by decide)).quic.streams.Sendable 16384 ∧
      ¬ (streamSplitting 1157 16384 false false (List.replicate 16384 0)).Succeeds
        (sendFrom (2 ^ 30) 1140 (by decide)) :=
  ⟨by decide +kernel, by decide +kernel, not_succeeds_of_length List.length_replicate⟩

end Tbquic
