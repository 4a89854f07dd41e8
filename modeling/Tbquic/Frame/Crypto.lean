import Tbquic.Frame.Parser
import Tbquic.Lib.Segment
import Tbquic.Tls.Buffer

/-!
# CRYPTO frames

`QuicFrameCryptoParser` copies the data of a frame to its offset in the buffer of the
handshake. It records the largest end of a frame and not which bytes have arrived, so frames
may come in any order.
-/

namespace Tbquic

/-- Make room for a frame that ends behind the memory. The library has memory of the sizes `mem`. -/
def quicFrameCryptoGrow (mem : ℕ → Bool) (totalLen : ℕ) : Prog Fail QuicBuffer Unit := do
  let buf ← Prog.get
  if quicGt totalLen buf.length then do
    let buf ← Prog.ofOption .ret (buf.memGrow (mem totalLen) totalLen)
    Prog.modify fun _ => buf
  else pure ()

/-- Copy the data of a frame. A copy of nothing does not access the memory. -/
def quicFrameCryptoCopy (offset : ℕ) (bytes : List UInt8) : Prog Fail QuicBuffer Unit := do
  let buf ← Prog.get
  Prog.ensure .ub (bytes.length = 0 ∨ buf.reserved + offset + bytes.length ≤ buf.length)
  Prog.modify (·.store offset bytes)

/-- Record the end of a frame. -/
def quicFrameCryptoEnd (totalLen : ℕ) (buf : QuicBuffer) : QuicBuffer :=
  if quicGt totalLen buf.dataLen then buf.setDataLength totalLen else buf

/-- `QuicFrameCryptoParser`, on the packet and the buffer, where memory does not run out. -/
def quicFrameCryptoParser : Prog Fail (RPacket × QuicBuffer) Unit := do
  let offset ← Prog.onFst quicVariableLengthDecode
  let length ← Prog.onFst quicVariableLengthDecode
  let totalLen : ℕ := (offset + length) % 2 ^ 64
  Prog.onSnd (quicFrameCryptoGrow (fun _ => true) totalLen)
  let bytes ← Prog.onFst (rPacketGetBytes length)
  Prog.onSnd (quicFrameCryptoCopy offset bytes)
  Prog.onSnd (Prog.modify (quicFrameCryptoEnd totalLen))

/-- The frames of a packet of the handshake, as the table of `QuicFrameDoParser` reads them when
only CRYPTO frames are there. -/
def cryptoHandlers : FrameHandlers (RPacket × QuicBuffer) where
  pkt := Prod.fst
  setPkt := fun pkt s => (pkt, s.2)
  setPkt_pkt := fun _ => rfl
  parser := fun type =>
    if type = quicFrameTypeCrypto then some quicFrameCryptoParser else none
  ackFrameBuild := pure ()
  cryptoFound := pure ()

/-- The frames of one payload are read into the buffer. -/
def recvCryptoPayload (payload : List UInt8) : Prog Fail QuicBuffer Unit := fun buf =>
  let r := quicFrameLoop cryptoHandlers (payload.length + 1) ⟨false, false⟩
    (rPacketBufInit payload, buf)
  (r.1.map fun _ => (), r.2.2)

/-- The frames of several payloads are read into the buffer, one payload after the other. -/
def recvCryptoPayloads : List (List UInt8) → Prog Fail QuicBuffer Unit
  | [] => pure ()
  | payload :: payloads => do
    recvCryptoPayload payload
    recvCryptoPayloads payloads

/-- The memory of a buffer grows to hold a frame, takes over its data and records its end. -/
def QuicBuffer.receive (b : QuicBuffer) (s : Segment UInt8) : QuicBuffer :=
  { b with
    mem := Bytes.overwrite (b.mem ++ List.replicate (s.stop - b.length) 0)
      (b.reserved + s.offset) s.data
    dataLen := max b.dataLen s.stop }

/-- The bytes of a CRYPTO frame. -/
def cryptoFrameBytes (s : Segment UInt8) : List UInt8 :=
  varLengthBytes quicFrameTypeCrypto ++
    (varLengthBytes s.offset ++ (varLengthBytes s.data.length ++ s.data))

section Receive

variable {b : QuicBuffer} {s : Segment UInt8}

/-- The memory holds the end of the frames received. -/
theorem QuicBuffer.receive_length : (b.receive s).length = max b.length s.stop := by
  unfold QuicBuffer.length QuicBuffer.receive QuicBuffer.length
  simp only [Bytes.overwrite_length, List.length_append, List.length_replicate]
  omega

/-- The memory grows to the end of a frame. -/
theorem quicFrameCryptoGrow_eq {mem : ℕ → Bool} {totalLen : ℕ} (hmem : mem totalLen = true)
    (hlen : b.length ≤ bufMemLimit) (htotal : totalLen ≤ bufMemLimit) :
    quicFrameCryptoGrow mem totalLen b =
      (.ok (), { b with mem := b.mem ++ List.replicate (totalLen - b.length) 0 }) := by
  unfold bufMemLimit at hlen htotal
  have hgt : quicGt (totalLen : ℤ) b.length ↔ b.length < totalLen := by
    rw [quicGt_iff] <;> omega
  rw [quicFrameCryptoGrow, Prog.get_bind]
  by_cases h : b.length < totalLen
  · have hgrown : ¬ (mem totalLen = false ∨ bufMemLimit < totalLen) := by
      rw [hmem, bufMemLimit]
      rintro (hfalse | hlimit)
      · cases hfalse
      · omega
    rw [if_pos (hgt.mpr h), QuicBuffer.memGrow, if_neg (by omega), if_neg hgrown,
      Prog.ofOption_some, Prog.pure_bind]
    rfl
  · rw [if_neg (hgt.not.mpr h), Nat.sub_eq_zero_of_le (by omega)]
    simp only [List.replicate_zero, List.append_nil]
    rfl

/-- The largest end is recorded. -/
theorem quicFrameCryptoEnd_eq (b : QuicBuffer) (totalLen : ℕ) (hdata : b.dataLen < 2 ^ 31)
    (htotal : totalLen < 2 ^ 31) :
    quicFrameCryptoEnd totalLen b = { b with dataLen := max b.dataLen totalLen } := by
  have hgt : quicGt (totalLen : ℤ) b.dataLen ↔ b.dataLen < totalLen := by
    rw [quicGt_iff] <;> omega
  rw [quicFrameCryptoEnd]
  by_cases h : b.dataLen < totalLen
  · rw [if_pos (hgt.mpr h), QuicBuffer.setDataLength, max_eq_right (by omega)]
  · rw [if_neg (hgt.not.mpr h), max_eq_left (by omega)]

/-- Bytes with a place in the memory are copied there. -/
theorem quicFrameCryptoCopy_of_fits {offset : ℕ} {bytes : List UInt8}
    (h : bytes.length = 0 ∨ b.reserved + offset + bytes.length ≤ b.length) :
    quicFrameCryptoCopy offset bytes b = (.ok (), b.store offset bytes) := by
  rw [quicFrameCryptoCopy, Prog.get_bind, Prog.ensure_of_pos h, Prog.pure_bind]
  rfl

/-- The place of a frame is in the memory when it has grown, or the frame has no bytes. -/
def QuicBuffer.HasPlace (b : QuicBuffer) (s : Segment UInt8) : Prop :=
  s.data = [] ∨ b.reserved + s.stop ≤ max b.length s.stop

/-- Each of the frames has a place when it arrives. -/
def QuicBuffer.HasPlaces : QuicBuffer → List (Segment UInt8) → Prop
  | _, [] => True
  | b, s :: segments => b.HasPlace s ∧ (b.receive s).HasPlaces segments

/-- The memory grows to hold a frame. -/
def QuicBuffer.grown (b : QuicBuffer) (s : Segment UInt8) : QuicBuffer :=
  { b with mem := b.mem ++ List.replicate (s.stop - b.length) 0 }

theorem QuicBuffer.grown_length : (b.grown s).length = max b.length s.stop := by
  unfold QuicBuffer.length QuicBuffer.grown QuicBuffer.length
  rw [List.length_append, List.length_replicate]
  omega

/-- The parser reads a frame up to the copy of its data. -/
theorem quicFrameCryptoParser_grown (past rest : List UInt8)
    (hbytes : (varLengthBytes s.offset ++
      (varLengthBytes s.data.length ++ (s.data ++ rest))).length < 2 ^ 31)
    (hstop : s.stop ≤ bufMemLimit) (hlen : b.length ≤ bufMemLimit) :
    quicFrameCryptoParser ({ past, rest := varLengthBytes s.offset ++
        (varLengthBytes s.data.length ++ (s.data ++ rest)) }, b) =
      (Prog.onSnd (quicFrameCryptoCopy s.offset s.data) >>= fun _ =>
        Prog.onSnd (Prog.modify (quicFrameCryptoEnd s.stop)))
        (⟨past ++ varLengthBytes s.offset ++ varLengthBytes s.data.length ++ s.data, rest⟩,
          b.grown s) := by
  have hlimit := hstop
  unfold bufMemLimit at hlimit
  have hsum : s.offset + s.data.length = s.stop := rfl
  have htotal : (s.offset + s.data.length) % 2 ^ 64 = s.stop := by
    rw [hsum]
    omega
  have hbody : (varLengthBytes s.data.length ++ (s.data ++ rest)).length < 2 ^ 31 := by
    rw [List.length_append] at hbytes
    omega
  have hoffset := quicVariableLengthDecode_append past (show s.offset < 2 ^ 62 by omega) hbytes
  have hlength := quicVariableLengthDecode_append (past ++ varLengthBytes s.offset)
    (show s.data.length < 2 ^ 62 by omega) hbody
  simp only [List.length_append] at hbody
  have hget := rPacketGetBytes_append
    (past ++ varLengthBytes s.offset ++ varLengthBytes s.data.length) s.data
    (show rest.length < 2 ^ 31 by omega)
  rw [quicFrameCryptoParser, Prog.onFst_bind_of_ok hoffset, Prog.onFst_bind_of_ok hlength,
    htotal, Prog.onSnd_bind_of_ok (quicFrameCryptoGrow_eq rfl hlen hstop),
    Prog.onFst_bind_of_ok hget]
  rfl

/-- The parser receives a frame whose place is in front of the limit of the memory. -/
theorem quicFrameCryptoParser_append (past rest : List UInt8)
    (hbytes : (varLengthBytes s.offset ++
      (varLengthBytes s.data.length ++ (s.data ++ rest))).length < 2 ^ 31)
    (hstop : s.stop ≤ bufMemLimit) (hlen : b.length ≤ bufMemLimit) (hdata : b.dataLen < 2 ^ 31)
    (hplace : b.HasPlace s) :
    ∃ past', quicFrameCryptoParser ({ past, rest := varLengthBytes s.offset ++
        (varLengthBytes s.data.length ++ (s.data ++ rest)) }, b) =
      (.ok (), ({ past := past', rest }, b.receive s)) := by
  have hlimit := hstop
  unfold bufMemLimit at hlimit
  have hsum : s.offset + s.data.length = s.stop := rfl
  have hcopy : quicFrameCryptoCopy s.offset s.data (b.grown s) =
      (.ok (), (b.grown s).store s.offset s.data) := by
    apply quicFrameCryptoCopy_of_fits
    rw [QuicBuffer.grown_length, Nat.add_assoc, hsum, List.length_eq_zero_iff]
    exact hplace
  have hend := quicFrameCryptoEnd_eq ((b.grown s).store s.offset s.data) s.stop hdata (by omega)
  refine ⟨past ++ varLengthBytes s.offset ++ varLengthBytes s.data.length ++ s.data, ?_⟩
  rw [quicFrameCryptoParser_grown past rest hbytes hstop hlen, Prog.onSnd_bind_of_ok hcopy,
    Prog.onSnd_apply, Prog.modify_apply, hend]
  rfl

/-- A frame without a place in the memory is written behind it. -/
theorem quicFrameCryptoParser_overflow (past rest : List UInt8)
    (hbytes : (varLengthBytes s.offset ++
      (varLengthBytes s.data.length ++ (s.data ++ rest))).length < 2 ^ 31)
    (hstop : s.stop ≤ bufMemLimit) (hlen : b.length ≤ bufMemLimit) (hplace : ¬ b.HasPlace s) :
    ∃ t, quicFrameCryptoParser ({ past, rest := varLengthBytes s.offset ++
        (varLengthBytes s.data.length ++ (s.data ++ rest)) }, b) = (.error .ub, t) := by
  have hsum : s.offset + s.data.length = s.stop := rfl
  obtain ⟨hdata, hroom⟩ := not_or.mp hplace
  have hpos := List.length_pos_iff.mpr hdata
  have hreserved : (b.grown s).reserved = b.reserved := rfl
  have hcopy : quicFrameCryptoCopy s.offset s.data (b.grown s) = (.error .ub, b.grown s) := by
    rw [quicFrameCryptoCopy, Prog.get_bind, Prog.ensure_of_neg, Prog.fail_bind]
    · rfl
    · rw [QuicBuffer.grown_length, hreserved]
      omega
  rw [quicFrameCryptoParser_grown past rest hbytes hstop hlen, Prog.onSnd_bind_of_error hcopy]
  exact ⟨_, rfl⟩

/-- The loop receives one frame after the other, up to the first one without a place. -/
theorem quicFrameLoop_crypto {segments : List (Segment UInt8)} (fuel : ℕ) (flags : FrameFlags)
    (past : List UInt8) (hfuel : segments.length < fuel)
    (hbytes : (segments.flatMap cryptoFrameBytes).length < 2 ^ 31)
    (hstop : ∀ s ∈ segments, s.stop ≤ bufMemLimit) (hlen : b.length ≤ bufMemLimit)
    (hdata : b.dataLen < 2 ^ 31) :
    (b.HasPlaces segments → ∃ flags' past', quicFrameLoop cryptoHandlers fuel flags
        ({ past, rest := segments.flatMap cryptoFrameBytes }, b) =
      (.ok flags', ({ past := past', rest := [] }, segments.foldl QuicBuffer.receive b))) ∧
    (¬ b.HasPlaces segments → ∃ t, quicFrameLoop cryptoHandlers fuel flags
        ({ past, rest := segments.flatMap cryptoFrameBytes }, b) = (.error .ub, t)) := by
  induction segments generalizing fuel flags past b with
  | nil =>
    obtain ⟨fuel, rfl⟩ : ∃ k, fuel = k + 1 := ⟨fuel - 1, by simp at hfuel; omega⟩
    refine ⟨fun _ => ⟨flags, past, quicFrameLoop_nil cryptoHandlers rfl⟩, fun h => ?_⟩
    exact absurd trivial h
  | cons s segments ih =>
    obtain ⟨fuel, rfl⟩ : ∃ k, fuel = k + 1 := ⟨fuel - 1, by simp at hfuel; omega⟩
    have hs : s.stop ≤ bufMemLimit := hstop s List.mem_cons_self
    have hlimit := hs
    unfold bufMemLimit at hlimit
    have hrest : (s :: segments).flatMap cryptoFrameBytes =
        varLengthBytes quicFrameTypeCrypto ++ (varLengthBytes s.offset ++
          (varLengthBytes s.data.length ++ (s.data ++ segments.flatMap cryptoFrameBytes))) := by
      simp only [List.flatMap_cons, cryptoFrameBytes, List.append_assoc]
    rw [hrest] at hbytes ⊢
    have hbody : (varLengthBytes s.offset ++ (varLengthBytes s.data.length ++
        (s.data ++ segments.flatMap cryptoFrameBytes))).length < 2 ^ 31 := by
      rw [List.length_append] at hbytes
      omega
    have htail : (segments.flatMap cryptoFrameBytes).length < 2 ^ 31 := by
      simp only [List.length_append] at hbody
      omega
    rw [quicFrameLoop_type cryptoHandlers rfl hbytes (by decide) (by decide) rfl]
    by_cases hplace : b.HasPlace s
    · obtain ⟨past₁, hparser⟩ := quicFrameCryptoParser_append
        (past ++ varLengthBytes quicFrameTypeCrypto) (segments.flatMap cryptoFrameBytes) hbody hs
        hlen hdata hplace
      obtain ⟨hok, herror⟩ := ih fuel (flags.add quicFrameTypeCrypto) past₁
        (b := b.receive s) (by simp at hfuel; omega) htail
        (fun t ht => hstop t (List.mem_cons_of_mem s ht))
        (by rw [QuicBuffer.receive_length]; exact max_le hlen hs)
        (max_lt hdata (by omega))
      constructor
      · rintro ⟨_, hplaces⟩
        obtain ⟨flags', past', hloop⟩ := hok hplaces
        exact ⟨flags', past', (Prog.bind_of_ok hparser).trans hloop⟩
      · intro hplaces
        obtain ⟨t, hloop⟩ := herror fun h => hplaces ⟨hplace, h⟩
        exact ⟨t, (Prog.bind_of_ok hparser).trans hloop⟩
    · obtain ⟨t, hparser⟩ := quicFrameCryptoParser_overflow
        (past ++ varLengthBytes quicFrameTypeCrypto) (segments.flatMap cryptoFrameBytes) hbody hs
        hlen hplace
      exact ⟨fun h => absurd h.1 hplace, fun _ => ⟨t, Prog.bind_of_error hparser⟩⟩

/-- Every frame has bytes. -/
theorem length_le_flatMap_cryptoFrameBytes (segments : List (Segment UInt8)) :
    segments.length ≤ (segments.flatMap cryptoFrameBytes).length := by
  induction segments with
  | nil => exact Nat.le_refl 0
  | cons s segments ih =>
    have htype := varLengthBytes_length quicFrameTypeCrypto
    have hsize := (varLengthSize_bounds quicFrameTypeCrypto).1
    rw [List.flatMap_cons, List.length_append, List.length_cons, cryptoFrameBytes,
      List.length_append]
    omega

/-- Frames with room in the memory from the start have their places. -/
theorem QuicBuffer.hasPlaces_of_room {segments : List (Segment UInt8)}
    (hroom : ∀ s ∈ segments, b.reserved + s.stop ≤ max b.length s.stop) :
    b.HasPlaces segments := by
  induction segments generalizing b with
  | nil => trivial
  | cons s segments ih =>
    refine ⟨.inr (hroom s List.mem_cons_self), ih fun t ht => ?_⟩
    have hplace := hroom t (List.mem_cons_of_mem s ht)
    rw [receive_length]
    change b.reserved + t.stop ≤ _
    omega

/-- A payload of CRYPTO frames is received frame by frame, if all of them have a place. -/
theorem recvCryptoPayload_places {segments : List (Segment UInt8)}
    (hbytes : (segments.flatMap cryptoFrameBytes).length < 2 ^ 31)
    (hstop : ∀ s ∈ segments, s.stop ≤ bufMemLimit) (hlen : b.length ≤ bufMemLimit)
    (hdata : b.dataLen < 2 ^ 31) :
    (b.HasPlaces segments → recvCryptoPayload (segments.flatMap cryptoFrameBytes) b =
      (.ok (), segments.foldl QuicBuffer.receive b)) ∧
    (¬ b.HasPlaces segments →
      (recvCryptoPayload (segments.flatMap cryptoFrameBytes) b).1 = .error .ub) := by
  have hcount := length_le_flatMap_cryptoFrameBytes segments
  obtain ⟨hok, herror⟩ := quicFrameLoop_crypto
    ((segments.flatMap cryptoFrameBytes).length + 1) ⟨false, false⟩ [] (by omega) hbytes hstop hlen
    hdata
  rw [recvCryptoPayload, rPacketBufInit]
  constructor
  · intro hplaces
    obtain ⟨flags, past, hloop⟩ := hok hplaces
    rw [hloop]
    rfl
  · intro hplaces
    obtain ⟨t, hloop⟩ := herror hplaces
    rw [hloop]
    rfl

/-- A payload of CRYPTO frames with room in the memory is received. -/
theorem recvCryptoPayload_eq {segments : List (Segment UInt8)}
    (hbytes : (segments.flatMap cryptoFrameBytes).length < 2 ^ 31)
    (hstop : ∀ s ∈ segments, s.stop ≤ bufMemLimit) (hlen : b.length ≤ bufMemLimit)
    (hdata : b.dataLen < 2 ^ 31)
    (hroom : ∀ s ∈ segments, b.reserved + s.stop ≤ max b.length s.stop) :
    recvCryptoPayload (segments.flatMap cryptoFrameBytes) b =
      (.ok (), segments.foldl QuicBuffer.receive b) :=
  (recvCryptoPayload_places hbytes hstop hlen hdata).1 (QuicBuffer.hasPlaces_of_room hroom)

end Receive

section Holds

variable {b : QuicBuffer} {s : Segment UInt8} {segments live : List (Segment UInt8)}

/-- The memory holds a frame that it received. -/
theorem QuicBuffer.receive_holds (hplace : b.HasPlace s)
    (h : Segment.Holds b.mem b.reserved live) :
    Segment.Holds (b.receive s).mem b.reserved (live ++ [s]) := by
  rintro i ⟨t, ht, hcovers⟩
  have hsum : s.offset + s.data.length = s.stop := rfl
  by_cases hs : s.Covers i
  · have hlt := hs.lt
    obtain ⟨hlow, hhigh⟩ := hs
    refine ⟨s, List.mem_append_right _ List.mem_cons_self, ⟨hlow, hhigh⟩, ?_⟩
    have hroom : b.reserved + s.stop ≤ max b.length s.stop :=
      hplace.resolve_left (List.ne_nil_of_length_pos (by omega))
    unfold receive
    rw [Bytes.getElem?_overwrite_of_mem (by omega) (by omega), Nat.add_sub_add_left]
    rw [List.length_append, List.length_replicate]
    unfold length at hroom ⊢
    omega
  · have hlive : t ∈ live := by
      rcases List.mem_append.mp ht with ht | ht
      · exact ht
      · rw [List.mem_singleton] at ht
        exact absurd (ht ▸ hcovers) hs
    obtain ⟨u, hu, hcovers, hmem⟩ := h i ⟨t, hlive, hcovers⟩
    refine ⟨u, List.mem_append_left _ hu, hcovers, ?_⟩
    have hin : b.reserved + i < b.mem.length := by
      by_contra hout
      rw [List.getElem?_eq_none (by omega), List.getElem?_eq_getElem hcovers.lt] at hmem
      cases hmem
    unfold receive
    rw [Bytes.getElem?_overwrite_of_not_mem, List.getElem?_append_left hin, hmem]
    unfold Segment.Covers at hs
    omega

/-- The memory holds all frames that it received. -/
theorem QuicBuffer.foldl_receive_holds (hplaces : b.HasPlaces segments)
    (h : Segment.Holds b.mem b.reserved live) :
    Segment.Holds (segments.foldl receive b).mem b.reserved (live ++ segments) := by
  induction segments generalizing b live with
  | nil => rwa [List.append_nil]
  | cons s segments ih =>
    have hnext := ih (b := b.receive s) hplaces.2 (receive_holds hplaces.1 h)
    rw [List.append_assoc] at hnext
    exact hnext

/-- The end of the data with the ends of frames. -/
def stopAfter (dataLen : ℕ) (segments : List (Segment UInt8)) : ℕ :=
  segments.foldl (fun n s => max n s.stop) dataLen

/-- What frames do to the positions of the buffer. -/
theorem QuicBuffer.foldl_receive (segments : List (Segment UInt8)) (b : QuicBuffer) :
    (segments.foldl receive b).offset = b.offset ∧
      (segments.foldl receive b).reserved = b.reserved ∧
      (segments.foldl receive b).dataLen = stopAfter b.dataLen segments := by
  induction segments generalizing b with
  | nil => exact ⟨rfl, rfl, rfl⟩
  | cons s segments ih => exact ih (b.receive s)

/-- The end of the data stays below a bound of the ends. -/
theorem stopAfter_lt {dataLen bound : ℕ} (hdata : dataLen < bound)
    (h : ∀ s ∈ segments, s.stop < bound) : stopAfter dataLen segments < bound := by
  induction segments generalizing dataLen with
  | nil => exact hdata
  | cons s segments ih =>
    exact ih (max_lt hdata (h s List.mem_cons_self)) fun t ht => h t (List.mem_cons_of_mem s ht)

end Holds

/-- An empty buffer of the handshake. -/
def QuicBuffer.Empty (b : QuicBuffer) : Prop :=
  b.reserved = 0 ∧ b.dataLen = 0 ∧ b.length ≤ bufMemLimit

instance (b : QuicBuffer) : Decidable b.Empty := inferInstanceAs (Decidable (_ ∧ _ ∧ _))

/-- Frames of a flight have arrived in an empty buffer: the memory holds the bytes of the flight
at their places, and none of them ends behind the recorded length. -/
structure QuicBuffer.Received (flight : List UInt8) (segments : List (Segment UInt8))
    (b : QuicBuffer) : Prop where
  /-- No bytes stand in front of the flight. -/
  reserved : b.reserved = 0
  /-- The memory has an ordinary size. -/
  limit : b.length ≤ bufMemLimit
  /-- The bytes of the frames are in the memory. -/
  holds : ∀ s ∈ segments, ∀ i, s.Covers i → b.mem[i]? = flight[i]?
  /-- The frames end in front of the recorded length. -/
  stop_le : ∀ s ∈ segments, s.stop ≤ b.dataLen
  /-- The recorded length is not that of more bytes. -/
  dataLen_le : b.dataLen ≤ flight.length

namespace QuicBuffer

variable {flight : List UInt8} {segments : List (Segment UInt8)} {s : Segment UInt8}
  {b : QuicBuffer}

/-- No frame has arrived in an empty buffer. -/
theorem Empty.received (h : b.Empty) (flight : List UInt8) : b.Received flight [] where
  reserved := h.1
  limit := h.2.2
  holds := by simp
  stop_le := by simp
  dataLen_le := by rw [h.2.1]; exact Nat.zero_le _

/-- One more frame of the flight arrives, whether or not its bytes are already there. -/
theorem Received.receive (h : b.Received flight segments) (hflight : flight.length ≤ bufMemLimit)
    (hs : s.Agrees flight) (hstop : s.stop ≤ flight.length) :
    (b.receive s).Received flight (s :: segments) where
  reserved := h.reserved
  limit := by
    rw [receive_length]
    exact max_le h.limit (hstop.trans hflight)
  stop_le := by
    intro t ht
    rcases List.mem_cons.mp ht with rfl | ht
    · exact le_max_right _ _
    · exact (h.stop_le t ht).trans (le_max_left _ _)
  dataLen_le := max_le h.dataLen_le hstop
  holds := by
    intro t ht i hi
    have hplace : b.reserved + s.offset = s.offset := by rw [h.reserved, Nat.zero_add]
    unfold QuicBuffer.receive
    simp only [hplace]
    by_cases hcovers : s.Covers i
    · have hmem : i < (b.mem ++ List.replicate (s.stop - b.length) 0).length := by
        have := hcovers.2
        rw [List.length_append, List.length_replicate, QuicBuffer.length]
        omega
      rw [Bytes.getElem?_overwrite_of_mem hcovers.1 hcovers.2 hmem]
      exact hs.getElem? hcovers
    · have hold : t ∈ segments := by
        rcases List.mem_cons.mp ht with rfl | ht
        · exact absurd hi hcovers
        · exact ht
      have hout : i < s.offset ∨ s.offset + s.data.length ≤ i := by
        unfold Segment.Covers Segment.stop Segment.len at hcovers
        omega
      have hvalue := h.holds t hold i hi
      have hlt : i < flight.length := hi.2.trans_le ((h.stop_le t hold).trans h.dataLen_le)
      have hmem : i < b.mem.length := by
        rw [List.getElem?_eq_getElem hlt] at hvalue
        exact (List.getElem?_eq_some_iff.mp hvalue).1
      rw [Bytes.getElem?_overwrite_of_not_mem hout, List.getElem?_append_left hmem, hvalue]

/-- The frames of one payload arrive. -/
theorem Received.foldl (h : b.Received flight segments) (hflight : flight.length ≤ bufMemLimit)
    {more : List (Segment UInt8)} (hmore : ∀ s ∈ more, s.Agrees flight ∧ s.stop ≤ flight.length) :
    (more.foldl QuicBuffer.receive b).Received flight (more.reverse ++ segments) := by
  induction more generalizing b segments with
  | nil => exact h
  | cons s more ih =>
    obtain ⟨hs, hstop⟩ := hmore s List.mem_cons_self
    have hnext := ih (h.receive hflight hs hstop) fun t ht => hmore t (List.mem_cons_of_mem s ht)
    rw [List.reverse_cons, List.append_assoc, List.singleton_append]
    exact hnext

/-- A flight whose frames have all arrived stands at the start of the memory. -/
theorem Received.complete (h : b.Received flight segments) {frames : List (Segment UInt8)}
    (hlinked : Segment.Linked 0 frames) (htotal : Segment.total frames = flight.length)
    (hframes : ∀ s ∈ frames, s ∈ segments) :
    b.dataLen = flight.length ∧ b.mem.take flight.length = flight := by
  have hcovered : ∀ i < flight.length, ∃ s ∈ segments, s.Covers i := by
    intro i hi
    obtain ⟨s, hs, hcovers⟩ := hlinked.exists_covers (Nat.zero_le i) (by omega)
    exact ⟨s, hframes s hs, hcovers⟩
  constructor
  · apply Nat.le_antisymm h.dataLen_le
    by_contra hlt
    obtain ⟨s, hs, hcovers⟩ := hcovered b.dataLen (by omega)
    have := h.stop_le s hs
    have := hcovers.2
    omega
  · apply List.ext_getElem?
    intro i
    rw [List.getElem?_take]
    by_cases hi : i < flight.length
    · obtain ⟨s, hs, hcovers⟩ := hcovered i hi
      rw [if_pos hi, h.holds s hs i hcovers]
    · rw [if_neg hi, List.getElem?_eq_none (Nat.not_lt.mp hi)]

end QuicBuffer

/-- Payloads of frames of a flight are received in any order and any number of times. -/
theorem recvCryptoPayloads_received {flight : List UInt8} {segments : List (Segment UInt8)}
    {b : QuicBuffer} (h : b.Received flight segments) (hflight : flight.length ≤ bufMemLimit)
    (payloads : List (List (Segment UInt8)))
    (hpayloads : ∀ p ∈ payloads, (p.flatMap cryptoFrameBytes).length < 2 ^ 31 ∧
      ∀ s ∈ p, s.Agrees flight ∧ s.stop ≤ flight.length) :
    ∃ b' all, recvCryptoPayloads (payloads.map (·.flatMap cryptoFrameBytes)) b = (.ok (), b') ∧
      b'.Received flight all ∧ (∀ s ∈ segments, s ∈ all) ∧ ∀ p ∈ payloads, ∀ s ∈ p, s ∈ all := by
  induction payloads generalizing b segments with
  | nil => exact ⟨b, segments, rfl, h, fun _ hs => hs, by simp⟩
  | cons p payloads ih =>
    obtain ⟨hbytes, hframes⟩ := hpayloads p List.mem_cons_self
    have hlimit : bufMemLimit < 2 ^ 31 := by decide
    have hdata := h.dataLen_le
    have hrun := recvCryptoPayload_eq hbytes (fun s hs => (hframes s hs).2.trans hflight) h.limit
      (by omega) (by
        intro s _
        rw [h.reserved]
        omega)
    obtain ⟨b', all, hrest, hall, hold, hnew⟩ := ih (h.foldl hflight hframes)
      fun q hq => hpayloads q (List.mem_cons_of_mem p hq)
    refine ⟨b', all, ?_, hall, ?_, ?_⟩
    · rw [List.map_cons, recvCryptoPayloads, Prog.bind_of_ok hrun]
      exact hrest
    · intro s hs
      exact hold s (List.mem_append_right _ hs)
    · intro q hq s hs
      rcases List.mem_cons.mp hq with rfl | hq
      · exact hold s (List.mem_append_left _ (List.mem_reverse.mpr hs))
      · exact hnew q hq s hs

end Tbquic
