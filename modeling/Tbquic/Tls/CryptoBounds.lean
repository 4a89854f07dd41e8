import Tbquic.Tls.Provenance

/-!
# The place of a CRYPTO frame

`QuicFrameCryptoParser` makes the buffer as long as the end of a frame and then copies the frame
behind the reserved bytes. The comparison that decides about the growth and the one that refuses a
truncated frame look at 32 bits of a difference.
-/

namespace Tbquic

/-- The part of `QuicFrameCryptoParser` in front of the copy, with the offset and the length of the
frame as result. -/
def quicFrameCryptoHead : Prog Fail (RPacket × QuicBuffer) (ℕ × ℕ) := do
  let offset ← Prog.onFst quicVariableLengthDecode
  let length ← Prog.onFst quicVariableLengthDecode
  Prog.onSnd (quicFrameCryptoGrow (fun _ => true) ((offset + length) % 2 ^ 64))
  let s ← Prog.get
  Prog.ensure .ret (¬ quicLt s.1.remaining length)
  pure (offset, length)

/-- The rest of `QuicFrameCryptoParser`. -/
def quicFrameCryptoTail (frame : ℕ × ℕ) : Prog Fail (RPacket × QuicBuffer) Unit := do
  let bytes ← Prog.onFst (rPacketGetBytes frame.2)
  Prog.onSnd (quicFrameCryptoCopy frame.1 bytes)
  Prog.onSnd (Prog.modify (quicFrameCryptoEnd ((frame.1 + frame.2) % 2 ^ 64)))

/-- What is required of the write of a frame: it stays in the memory when the parser comes to it,
and the frame is rejected otherwise. -/
structure CryptoWriteInBounds (s : RPacket × QuicBuffer) : Prop where
  /-- The copy ends inside the memory. -/
  inside : ∀ frame t, quicFrameCryptoHead s = (.ok frame, t) →
    t.2.reserved + frame.1 + frame.2 ≤ t.2.length
  /-- A frame that is not copied is rejected. -/
  rejected : ∀ e t, quicFrameCryptoHead s = (.error e, t) →
    quicFrameCryptoParser s = (.error .ret, t)

/-- The frame is refused, or it ends in the memory behind the reserved bytes. When the comparison
with the length of the memory asks for growth, the memory ends with the frame, so nothing may be
reserved. -/
def CryptoFrameFits (b : QuicBuffer) (offset length remaining : ℕ) : Prop :=
  quicLt remaining length ∨
    if quicGt ((offset + length : ℕ) : ℤ) b.length then
      b.length < offset + length ∧ bufMemLimit < offset + length ∨ b.reserved = 0
    else b.reserved + (offset + length) ≤ b.length

instance (b : QuicBuffer) (offset length remaining : ℕ) :
    Decidable (CryptoFrameFits b offset length remaining) := inferInstanceAs (Decidable (_ ∨ _))

/-- A frame whose fields can be read fits. -/
def CryptoBodyFits (s : RPacket × QuicBuffer) : Prop :=
  ∀ offset length pkt pkt', quicVariableLengthDecode s.1 = (.ok offset, pkt) →
    quicVariableLengthDecode pkt = (.ok length, pkt') →
    CryptoFrameFits s.2 offset length pkt'.remaining

/-- The parser is its two parts. -/
theorem quicFrameCryptoParser_eq :
    quicFrameCryptoParser = (quicFrameCryptoHead >>= quicFrameCryptoTail) := by
  simp only [quicFrameCryptoParser, quicFrameCryptoHead, quicFrameCryptoTail, Prog.bind_assoc,
    Prog.pure_bind]
  congr 1
  funext offset
  congr 1
  funext length
  congr 1
  funext _ s
  rw [Prog.get_bind]
  by_cases hcheck : quicLt s.1.remaining length
  · have hpeek : rPacketGetBytes length s.1 = (.error .ret, s.1) := by
      rw [rPacketGetBytes, Prog.bind_of_error]
      exact if_pos hcheck
    have hget : Prog.onFst (rPacketGetBytes length) s = (.error .ret, s) := by
      rw [Prog.onFst_apply, hpeek]
    rw [Prog.ensure_of_neg (not_not.mpr hcheck), Prog.fail_bind]
    exact Prog.bind_of_error hget
  · rw [Prog.ensure_of_pos hcheck, Prog.pure_bind]

/-- The memory grows, or the library refuses. -/
theorem quicFrameCryptoGrow_cases (b : QuicBuffer) (totalLen : ℕ) :
    quicFrameCryptoGrow (fun _ => true) totalLen b =
      if quicGt totalLen b.length then
        if b.length < totalLen ∧ bufMemLimit < totalLen then (.error .ret, b)
        else (.ok (), { b with
          mem := b.mem.take totalLen ++ List.replicate (totalLen - b.length) 0 })
      else (.ok (), b) := by
  rw [quicFrameCryptoGrow, Prog.get_bind]
  by_cases hgt : quicGt totalLen b.length
  · rw [if_pos hgt, if_pos hgt, QuicBuffer.memGrow]
    by_cases hle : totalLen ≤ b.length
    · rw [if_pos hle, if_neg (by omega), Prog.ofOption_some, Prog.pure_bind,
        Nat.sub_eq_zero_of_le hle, List.replicate_zero, List.append_nil]
      rfl
    · rw [if_neg hle]
      by_cases hlimit : bufMemLimit < totalLen
      · rw [if_pos (.inr hlimit), if_pos ⟨by omega, hlimit⟩, Prog.ofOption_none, Prog.fail_bind]
        rfl
      · have hgrown : ¬ (true = false ∨ bufMemLimit < totalLen) := fun h =>
          h.elim Bool.noConfusion hlimit
        rw [if_neg hgrown, if_neg (fun h => hlimit h.2), Prog.ofOption_some, Prog.pure_bind,
          List.take_of_length_le (show b.mem.length ≤ totalLen by
            unfold QuicBuffer.length at hle; omega)]
        rfl
  · rw [if_neg hgt, if_neg hgt]
    rfl

section Head

variable {s : RPacket × QuicBuffer} {pkt pkt' : RPacket} {offset length : ℕ}

/-- A parser that cannot read the fields of its frame does not come to its copy. -/
theorem quicFrameCryptoHead_of_truncated
    (h : ∀ offset length pkt pkt', quicVariableLengthDecode s.1 = (.ok offset, pkt) →
      quicVariableLengthDecode pkt ≠ (.ok length, pkt')) :
    ∃ t, quicFrameCryptoHead s = (.error .ret, t) := by
  have hfirst := quicVariableLengthDecode_post s.1
  rcases hoffset : quicVariableLengthDecode s.1 with ⟨r, pkt⟩
  cases r with
  | error e =>
    cases hfirst.of_error hoffset
    exact ⟨_, Prog.bind_of_error (show Prog.onFst _ s = _ from Prog.zoom_of_error hoffset)⟩
  | ok offset =>
    have hsecond := quicVariableLengthDecode_post pkt
    rcases hlength : quicVariableLengthDecode pkt with ⟨r, pkt'⟩
    cases r with
    | ok length => exact absurd hlength (h offset length pkt pkt' hoffset)
    | error e =>
      cases hsecond.of_error hlength
      obtain ⟨spkt, b⟩ := s
      rw [quicFrameCryptoHead, Prog.onFst_bind_of_ok hoffset]
      exact ⟨_, Prog.bind_of_error (show Prog.onFst _ (pkt, b) = _ from Prog.zoom_of_error hlength)⟩

/-- The parser comes to its copy when the memory has grown and the packet seems long enough. -/
theorem quicFrameCryptoHead_of_decode (hoffset : quicVariableLengthDecode s.1 = (.ok offset, pkt))
    (hlength : quicVariableLengthDecode pkt = (.ok length, pkt')) :
    quicFrameCryptoHead s =
      match quicFrameCryptoGrow (fun _ => true) (offset + length) s.2 with
      | (.error e, b) => (.error e, (pkt', b))
      | (.ok _, b) =>
        if quicLt pkt'.remaining length then (.error .ret, (pkt', b))
        else (.ok (offset, length), (pkt', b)) := by
  obtain ⟨spkt, b⟩ := s
  have hoffset_lt : offset < 2 ^ 62 := (quicVariableLengthDecode_post _).of_ok hoffset
  have hlength_lt : length < 2 ^ 62 := (quicVariableLengthDecode_post _).of_ok hlength
  rw [quicFrameCryptoHead, Prog.onFst_bind_of_ok hoffset, Prog.onFst_bind_of_ok hlength,
    Nat.mod_eq_of_lt (show offset + length < 2 ^ 64 by omega)]
  rcases hgrow : quicFrameCryptoGrow (fun _ => true) (offset + length) b with ⟨r, b'⟩
  cases r with
  | error e => exact Prog.onSnd_bind_of_error hgrow
  | ok u =>
    rw [Prog.onSnd_bind_of_ok hgrow, Prog.get_bind]
    by_cases hcheck : quicLt pkt'.remaining length
    · simp only [if_pos hcheck]
      rw [Prog.ensure_of_neg (not_not.mpr hcheck), Prog.fail_bind, Prog.fail_apply]
    · simp only [if_neg hcheck]
      rw [Prog.ensure_of_pos hcheck, Prog.pure_bind, Prog.pure_apply]

/-- A frame that the parser does not copy is rejected. -/
theorem quicFrameCryptoParser_of_head {e : Fail} {t : RPacket × QuicBuffer}
    (h : quicFrameCryptoHead s = (.error e, t)) :
    quicFrameCryptoParser s = (.error e, t) := by
  rw [quicFrameCryptoParser_eq, Prog.bind_of_error h]

/-- The memory behind the growth ends with the frame, or it has its old length. -/
theorem quicFrameCryptoGrow_post (b : QuicBuffer) (totalLen : ℕ) :
    Prog.Post (quicFrameCryptoGrow (fun _ => true) totalLen)
      (fun _ t => t.reserved = b.reserved ∧
        (quicGt totalLen b.length → t.length = totalLen ∧
          ¬ (b.length < totalLen ∧ bufMemLimit < totalLen)) ∧
        (¬ quicGt totalLen b.length → t.length = b.length))
      (fun e _ => e = .ret ∧ quicGt totalLen b.length ∧ b.length < totalLen ∧
        bufMemLimit < totalLen) b := by
  unfold Prog.Post
  rw [quicFrameCryptoGrow_cases]
  split_ifs with hgt hlimit
  · exact ⟨rfl, hgt, hlimit⟩
  · refine ⟨rfl, fun _ => ⟨?_, hlimit⟩, fun h => absurd hgt h⟩
    unfold QuicBuffer.length
    rw [List.length_append, List.length_take, List.length_replicate]
    omega
  · exact ⟨rfl, fun h => absurd h hgt, fun _ => rfl⟩

/-- The write of a frame stays in the memory exactly when the frame fits. -/
theorem cryptoWriteInBounds_iff (s : RPacket × QuicBuffer) :
    CryptoWriteInBounds s ↔ CryptoBodyFits s := by
  by_cases hdecode : ∃ offset length pkt pkt', quicVariableLengthDecode s.1 = (.ok offset, pkt) ∧
    quicVariableLengthDecode pkt = (.ok length, pkt')
  · obtain ⟨offset, length, pkt, pkt', hoffset, hlength⟩ := hdecode
    have hfits : CryptoBodyFits s ↔ CryptoFrameFits s.2 offset length pkt'.remaining := by
      constructor
      · intro h
        exact h offset length pkt pkt' hoffset hlength
      · intro h offset' length' u u' hoffset' hlength'
        rw [hoffset] at hoffset'
        cases hoffset'
        rw [hlength] at hlength'
        cases hlength'
        exact h
    have hhead := quicFrameCryptoHead_of_decode hoffset hlength
    have hpost := quicFrameCryptoGrow_post s.2 (offset + length)
    rw [hfits, CryptoFrameFits]
    rcases hgrow : quicFrameCryptoGrow (fun _ => true) (offset + length) s.2 with ⟨r, b⟩
    rw [hgrow] at hhead
    cases r with
    | error e =>
      obtain ⟨rfl, hgt, hrefused⟩ := hpost.of_error hgrow
      refine iff_of_true ⟨?_, ?_⟩ ?_
      · intro frame t hok
        rw [hhead] at hok
        cases hok
      · intro e' t herror
        rw [hhead] at herror
        cases herror
        exact quicFrameCryptoParser_of_head hhead
      · rw [if_pos hgt]
        exact Or.inr (Or.inl hrefused)
    | ok u =>
      obtain ⟨hreserved, hgrown, hkept⟩ := hpost.of_ok hgrow
      by_cases hcheck : quicLt pkt'.remaining length
      · simp only [if_pos hcheck] at hhead
        refine iff_of_true ⟨?_, ?_⟩ (Or.inl hcheck)
        · intro frame t hok
          rw [hhead] at hok
          cases hok
        · intro e' t herror
          rw [hhead] at herror
          cases herror
          exact quicFrameCryptoParser_of_head hhead
      · simp only [if_neg hcheck] at hhead
        rw [or_iff_right hcheck]
        have hinside : CryptoWriteInBounds s ↔ b.reserved + offset + length ≤ b.length := by
          constructor
          · intro h
            exact h.inside _ _ hhead
          · intro hle
            refine ⟨?_, ?_⟩
            · intro frame t hok
              rw [hhead] at hok
              cases hok
              exact hle
            · intro e' t herror
              rw [hhead] at herror
              cases herror
        rw [hinside, hreserved]
        by_cases hgt : quicGt ((offset + length : ℕ) : ℤ) s.2.length
        · obtain ⟨hlength', hrefused⟩ := hgrown hgt
          rw [if_pos hgt, hlength']
          omega
        · rw [if_neg hgt, hkept hgt]
          omega
  · have htruncated : ∀ offset length pkt pkt', quicVariableLengthDecode s.1 = (.ok offset, pkt) →
        quicVariableLengthDecode pkt ≠ (.ok length, pkt') := by
      intro offset length pkt pkt' hoffset hlength
      exact hdecode ⟨offset, length, pkt, pkt', hoffset, hlength⟩
    obtain ⟨t, hhead⟩ := quicFrameCryptoHead_of_truncated htruncated
    refine iff_of_true ⟨?_, ?_⟩ ?_
    · intro frame u hok
      rw [hhead] at hok
      cases hok
    · intro e u herror
      rw [hhead] at herror
      cases herror
      exact quicFrameCryptoParser_of_head hhead
    · intro offset length pkt pkt' hoffset hlength
      exact absurd hlength (htruncated offset length pkt pkt' hoffset)

end Head

/-- What happens to the buffer of a connection. -/
inductive CryptoEvent (τ : Type)
  /-- A CRYPTO frame arrives, and the packet is read up to its offset. -/
  | frame (pkt : RPacket)
  /-- `TlsDoHandshake` is called, also from the `pre_work` of the state machine. -/
  | handshake
  /-- `QuicBufReserve` of the client. -/
  | reserve
  /-- `QuicBufClear` of either side. -/
  | clear
  /-- Other frames or calls change the connection behind the buffer. -/
  | other (state : TlsState) (host : τ)

namespace CryptoEvent

open TlsTracked (acceptingServer freshConn freshConn_length)

variable {τ : Type}

/-- The connection after an event, unless the event accesses memory outside a buffer or aborts. -/
def step (m : TlsMethod τ) (fuel : ℕ) (c : TlsConn τ) : CryptoEvent τ → Option (TlsConn τ)
  | frame pkt =>
    match onCrypto quicFrameCryptoParser (pkt, c) with
    | (.ok _, t) | (.error .ret, t) => some t.2
    | _ => none
  | handshake =>
    match tlsHandshake m fuel c with
    | (.ok _, c) | (.error .ret, c) => some c
    | _ => none
  | reserve => some { c with buffer := c.buffer.reserve }
  | clear => some { c with buffer := c.buffer.clear }
  | other handshakeState host => some { c with handshakeState, host }

/-- A frame that arrives is written in the memory, or rejected. -/
def InBounds (c : TlsConn τ) (e : CryptoEvent τ) : Prop :=
  ∀ pkt, e = .frame pkt → CryptoWriteInBounds (pkt, c.buffer)

/-- A frame that arrives fits. -/
def Fits (c : TlsConn τ) (e : CryptoEvent τ) : Prop :=
  ∀ pkt, e = .frame pkt → CryptoBodyFits (pkt, c.buffer)

/-- In a run of any events, the frames are written in the memory exactly as long as they fit. -/
theorem inBounds_along_iff (m : TlsMethod τ) (fuel : ℕ) (c : TlsConn τ)
    (es : List (CryptoEvent τ)) :
    Trace.Along (step m fuel) InBounds c es ↔ Trace.Along (step m fuel) Fits c es := by
  apply Trace.along_congr
  intro c e
  exact forall_congr' fun pkt => imp_congr_right fun _ => cryptoWriteInBounds_iff (pkt, c.buffer)

/-- A frame whose end is more than `2 ^ 31` bytes behind the memory is written there. -/
theorem freshConn_outOfBounds :
    ¬ Trace.Along (step acceptingServer 0) InBounds freshConn
      [.frame ⟨[0x06], [0xc0, 0, 0, 0, 0x80, 0, 0x4e, 0x20, 0x01, 0x07]⟩] := by
  rintro ⟨h, _⟩
  have hbody := (cryptoWriteInBounds_iff _).mp (h _ rfl)
  have hoffset :
      quicVariableLengthDecode ⟨[0x06], [0xc0, 0, 0, 0, 0x80, 0, 0x4e, 0x20, 0x01, 0x07]⟩ =
        (.ok (2 ^ 31 + 20000), ⟨[0x06, 0xc0, 0, 0, 0, 0x80, 0, 0x4e, 0x20], [0x01, 0x07]⟩) := by
    decide +kernel
  have hfits := hbody (2 ^ 31 + 20000) 1 _
    ⟨[0x06, 0xc0, 0, 0, 0, 0x80, 0, 0x4e, 0x20, 0x01], [0x07]⟩ hoffset (by decide +kernel)
  have hlength := freshConn_length
  have hreserved : freshConn.buffer.reserved = 0 := rfl
  rw [CryptoFrameFits, hlength, hreserved] at hfits
  revert hfits
  decide

end CryptoEvent

end Tbquic
