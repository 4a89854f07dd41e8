import Tbquic.Frame.Receive

/-!
# The ranges of an acknowledgement

`QuicFrameAckParser` reads the ranges of an ACK frame from the largest number downwards. The
bounds are differences in 64 bits, and their signs are taken from 32 of them. What happens to a
range is a parameter here.
-/

namespace Tbquic

/-- The conversion of an integer to `uint64_t`. -/
def toUint64 (x : ℤ) : ℕ := (x % 2 ^ 64).toNat

/-- What `QuicFrameAckParser` calls, on a state that contains the packet. -/
structure AckHandlers (σ : Type) where
  /-- Replace the packet. -/
  setPkt : RPacket → σ → σ
  /-- `QuicVariableLengthDecode` on the packet. -/
  readVar : Prog Fail σ ℕ
  /-- Raise `largest_acked`. -/
  raise : ℕ → σ → σ
  /-- `QBufAckSentPkt`, with whether the last call returned a buffer. -/
  ackSentPkt : ℕ → ℕ → Bool → Prog Fail σ Bool
  /-- A number is read from the packet alone. -/
  readVar_setPkt (pkt : RPacket) (s : σ) : readVar (setPkt pkt s) =
    ((quicVariableLengthDecode pkt).1, setPkt (quicVariableLengthDecode pkt).2 s)
  /-- The packet plays no part in `largest_acked`. -/
  raise_setPkt (largest : ℕ) (pkt : RPacket) (s : σ) :
    raise largest (setPkt pkt s) = setPkt pkt (raise largest s)
  /-- The packet plays no part in what happens to a range. -/
  ackSentPkt_setPkt (smallest largest : ℕ) (start : Bool) (pkt : RPacket) (s : σ) :
    ackSentPkt smallest largest start (setPkt pkt s) =
      ((ackSentPkt smallest largest start s).1, setPkt pkt (ackSentPkt smallest largest start s).2)

namespace AckHandlers

variable {σ : Type} (h : AckHandlers σ)

/-- The loop of `QuicFrameAckParser` over the further ranges. -/
def ranges (smallest : ℕ) (start : Bool) : ℕ → Prog Fail σ Unit
  | 0 => pure ()
  | count + 1 => do
    let gap ← h.readVar
    let len ← h.readVar
    let largest := toUint64 ((smallest : ℤ) - gap - 2)
    let smallest := toUint64 ((largest : ℤ) - len)
    Prog.ensure .ret (¬ (quicLt largest 0 ∨ quicLt smallest 0))
    let start ← h.ackSentPkt smallest largest start
    ranges smallest start count

/-- `QuicFrameAckParser`. -/
def parser : Prog Fail σ Unit := do
  let largest ← h.readVar
  Prog.modify (h.raise largest)
  let _delay ← h.readVar
  let count ← h.readVar
  let first ← h.readVar
  let smallest := toUint64 ((largest : ℤ) - first)
  Prog.ensure .ret (¬ quicLt smallest 0)
  let start ← h.ackSentPkt smallest largest false
  h.ranges smallest start count

end AckHandlers

/-- The handlers on the part of a connection that receives ACK frames. -/
def frameRecvAck : AckHandlers FrameRecv where
  setPkt pkt s := { s with pkt }
  readVar := recvVar
  raise largest s := if quicGe largest s.largestAcked then { s with largestAcked := largest } else s
  ackSentPkt := qBufAckSentPkt
  readVar_setPkt _ _ := rfl
  raise_setPkt largest pkt s := by
    dsimp only
    split_ifs <;> rfl
  ackSentPkt_setPkt smallest largest start pkt s := by
    cases start with
    | false => rw [qBufAckSentPkt_false, qBufAckSentPkt_false]
    | true => rw [qBufAckSentPkt_true, qBufAckSentPkt_true]

/-- The further ranges of a received ACK frame are read by this loop. -/
theorem quicFrameAckRanges_eq (smallest : ℕ) (start : Bool) (count : ℕ) :
    quicFrameAckRanges smallest start count = frameRecvAck.ranges smallest start count := by
  induction count generalizing smallest start with
  | zero => rfl
  | succ count ih =>
    rw [quicFrameAckRanges, AckHandlers.ranges]
    simp only [ih]
    rfl

/-- A received ACK frame is read by this parser. -/
theorem quicFrameAckParser_eq : quicFrameAckParser = frameRecvAck.parser := by
  rw [quicFrameAckParser, AckHandlers.parser]
  simp only [quicFrameAckRanges_eq]
  rfl

/-- An ACK frame. -/
structure AckFrame where
  /-- Largest Acknowledged. -/
  largestAcked : VarLength
  /-- ACK Delay. -/
  ackDelay : VarLength
  /-- ACK Range Count. -/
  rangeCount : VarLength
  /-- First ACK Range. -/
  firstAckRange : VarLength
  /-- The Gap and the ACK Range Length of the further ranges. -/
  ranges : List (VarLength × VarLength)
  /-- The ranges are counted. -/
  rangeCount_eq : rangeCount.value = ranges.length

/-- The bytes of a further range. -/
def ackRangeBytes (r : VarLength × VarLength) : List UInt8 := r.1.bytes ++ r.2.bytes

/-- The intervals below a bound that further ranges stand for, in exact arithmetic, each with its
smallest and its largest number. -/
def ackIntervals : ℤ → List (VarLength × VarLength) → List (ℤ × ℤ)
  | _, [] => []
  | smallest, r :: ranges =>
    (smallest - r.1.value - 2 - r.2.value, smallest - r.1.value - 2) ::
      ackIntervals (smallest - r.1.value - 2 - r.2.value) ranges

namespace AckFrame

variable (f : AckFrame)

/-- The bytes of a frame behind its type. -/
def bytes : List UInt8 :=
  f.largestAcked.bytes ++ (f.ackDelay.bytes ++ (f.rangeCount.bytes ++ (f.firstAckRange.bytes ++
    f.ranges.flatMap ackRangeBytes)))

/-- The smallest number of the first interval. -/
def firstSmallest : ℤ := (f.largestAcked.value : ℤ) - f.firstAckRange.value

/-- The intervals of a frame in exact arithmetic, as RFC 9000 section 19.3.1 defines them. -/
def intervals : List (ℤ × ℤ) :=
  (f.firstSmallest, (f.largestAcked.value : ℤ)) :: ackIntervals f.firstSmallest f.ranges

/-- A bound of an interval is negative. -/
def HasNegative : Prop := ∃ p ∈ f.intervals, p.1 < 0 ∨ p.2 < 0

instance : Decidable f.HasNegative := List.decidableBEx _ f.intervals

end AckFrame

/-- The sign that the parser reads off a bound: that of its lowest 32 bits. -/
def SeemsNegative (x : ℤ) : Prop := 2 ^ 31 ≤ x % 2 ^ 32

instance (x : ℤ) : Decidable (SeemsNegative x) := inferInstanceAs (Decidable (_ ≤ _))

/-- `QUIC_LT` of a converted bound and zero reads this sign. -/
theorem quicLt_toUint64_zero (x : ℤ) : quicLt (toUint64 x) 0 ↔ SeemsNegative x := by
  rw [quicLt_iff_mod, SeemsNegative, toUint64]
  omega

/-- Differences of converted numbers are converted differences. -/
theorem toUint64_sub (x y : ℤ) : toUint64 ((toUint64 x : ℤ) - y) = toUint64 (x - y) := by
  unfold toUint64
  omega

/-- A number of 64 bits is kept. -/
theorem toUint64_eq {x : ℤ} (hlow : 0 ≤ x) (hhigh : x < 2 ^ 64) : (toUint64 x : ℤ) = x := by
  unfold toUint64
  omega

/-- The intervals of further ranges are in order, below the bound. -/
theorem ackIntervals_lt {smallest : ℤ} {ranges : List (VarLength × VarLength)} {p : ℤ × ℤ}
    (h : p ∈ ackIntervals smallest ranges) : p.1 ≤ p.2 ∧ p.2 < smallest := by
  induction ranges generalizing smallest with
  | nil => cases h
  | cons r ranges ih =>
    rw [ackIntervals, List.mem_cons] at h
    rcases h with rfl | h
    · dsimp only
      omega
    · have := ih h
      omega

namespace AckHandlers

variable {σ : Type} (h : AckHandlers σ)

/-- What the parser does with the intervals of further ranges. -/
def runRanges : List (ℤ × ℤ) → Bool → Prog Fail σ Unit
  | [], _ => pure ()
  | p :: ps, start => do
    Prog.ensure .ret (¬ (SeemsNegative p.2 ∨ SeemsNegative p.1))
    let start ← h.ackSentPkt (toUint64 p.1) (toUint64 p.2) start
    runRanges ps start

/-- What the parser does with a frame. -/
def run (f : AckFrame) : Prog Fail σ Unit := do
  Prog.modify (h.raise f.largestAcked.value)
  Prog.ensure .ret (¬ SeemsNegative f.firstSmallest)
  let start ← h.ackSentPkt (toUint64 f.firstSmallest) f.largestAcked.value false
  h.runRanges (ackIntervals f.firstSmallest f.ranges) start

variable {h}

/-- A number is read from the start of the packet. -/
theorem readVar_append (v : VarLength) (past : List UInt8) {rest : List UInt8} (s : σ)
    (hrest : (v.bytes ++ rest).length < 2 ^ 31) :
    h.readVar (h.setPkt { past, rest := v.bytes ++ rest } s) =
      (.ok v.value, h.setPkt { past := past ++ v.bytes, rest } s) := by
  rw [h.readVar_setPkt, v.decode_append past hrest]

/-- The loop over the further ranges handles their intervals. -/
theorem ranges_append (ranges : List (VarLength × VarLength)) {rest : List UInt8}
    (hrest : (ranges.flatMap ackRangeBytes ++ rest).length < 2 ^ 31) (past : List UInt8)
    (smallest : ℤ) (start : Bool) (s : σ) :
    ∃ pkt, h.ranges (toUint64 smallest) start ranges.length
        (h.setPkt { past, rest := ranges.flatMap ackRangeBytes ++ rest } s) =
      ((h.runRanges (ackIntervals smallest ranges) start s).1,
        h.setPkt pkt (h.runRanges (ackIntervals smallest ranges) start s).2) := by
  induction ranges generalizing past smallest start s with
  | nil => exact ⟨_, rfl⟩
  | cons r ranges ih =>
    have hbytes : (r :: ranges).flatMap ackRangeBytes ++ rest =
        r.1.bytes ++ (r.2.bytes ++ (ranges.flatMap ackRangeBytes ++ rest)) := by
      rw [List.flatMap_cons, ackRangeBytes, List.append_assoc, List.append_assoc]
    rw [hbytes] at hrest ⊢
    simp only [List.length_append] at hrest
    have hlargest : toUint64 ((toUint64 smallest : ℤ) - r.1.value - 2) =
        toUint64 (smallest - r.1.value - 2) := by
      rw [sub_sub, toUint64_sub, sub_sub]
    rw [List.length_cons, AckHandlers.ranges,
      Prog.bind_of_ok (readVar_append r.1 past s (by simp only [List.length_append]; omega)),
      Prog.bind_of_ok (readVar_append r.2 _ s (by simp only [List.length_append]; omega)),
      hlargest, toUint64_sub, ackIntervals, runRanges]
    have hcheck := or_congr (quicLt_toUint64_zero (smallest - r.1.value - 2))
      (quicLt_toUint64_zero (smallest - r.1.value - 2 - r.2.value))
    by_cases hsign : SeemsNegative (smallest - r.1.value - 2) ∨
        SeemsNegative (smallest - r.1.value - 2 - r.2.value)
    · rw [Prog.ensure_of_neg (not_not.mpr (hcheck.mpr hsign)),
        Prog.ensure_of_neg (not_not.mpr hsign), Prog.fail_bind, Prog.fail_bind]
      exact ⟨_, rfl⟩
    · rw [Prog.ensure_of_pos (hcheck.not.mpr hsign), Prog.ensure_of_pos hsign, Prog.pure_bind,
        Prog.pure_bind]
      have hset := h.ackSentPkt_setPkt (toUint64 (smallest - r.1.value - 2 - r.2.value))
        (toUint64 (smallest - r.1.value - 2)) start
        { past := past ++ r.1.bytes ++ r.2.bytes, rest := ranges.flatMap ackRangeBytes ++ rest } s
      rcases hcall : h.ackSentPkt (toUint64 (smallest - r.1.value - 2 - r.2.value))
        (toUint64 (smallest - r.1.value - 2)) start s with ⟨result, t⟩
      rw [hcall] at hset
      cases result with
      | error e =>
        rw [Prog.bind_of_error hset, Prog.bind_of_error hcall]
        exact ⟨_, rfl⟩
      | ok start' =>
        rw [Prog.bind_of_ok hset, Prog.bind_of_ok hcall]
        exact ih (by simp only [List.length_append]; omega) _ _ start' t

/-- The parser handles the intervals of a frame. -/
theorem parser_append (f : AckFrame) (past : List UInt8) {rest : List UInt8} (s : σ)
    (hrest : (f.bytes ++ rest).length < 2 ^ 31) :
    ∃ pkt, h.parser (h.setPkt { past, rest := f.bytes ++ rest } s) =
      ((h.run f s).1, h.setPkt pkt (h.run f s).2) := by
  have hbytes : f.bytes ++ rest = f.largestAcked.bytes ++ (f.ackDelay.bytes ++
      (f.rangeCount.bytes ++ (f.firstAckRange.bytes ++
        (f.ranges.flatMap ackRangeBytes ++ rest)))) := by
    simp only [AckFrame.bytes, List.append_assoc]
  rw [hbytes] at hrest ⊢
  simp only [List.length_append] at hrest
  rw [parser, Prog.bind_of_ok (readVar_append f.largestAcked past s
    (by simp only [List.length_append]; omega)), Prog.modify_bind, h.raise_setPkt,
    Prog.bind_of_ok (readVar_append f.ackDelay _ _ (by simp only [List.length_append]; omega)),
    Prog.bind_of_ok (readVar_append f.rangeCount _ _ (by simp only [List.length_append]; omega)),
    Prog.bind_of_ok (readVar_append f.firstAckRange _ _ (by simp only [List.length_append]; omega)),
    run, Prog.modify_bind]
  have hfirst : (f.largestAcked.value : ℤ) - f.firstAckRange.value = f.firstSmallest := rfl
  rw [hfirst]
  have hcheck := quicLt_toUint64_zero f.firstSmallest
  by_cases hsign : SeemsNegative f.firstSmallest
  · rw [Prog.ensure_of_neg (not_not.mpr (hcheck.mpr hsign)),
      Prog.ensure_of_neg (not_not.mpr hsign), Prog.fail_bind, Prog.fail_bind]
    exact ⟨_, rfl⟩
  · rw [Prog.ensure_of_pos (hcheck.not.mpr hsign), Prog.ensure_of_pos hsign, Prog.pure_bind,
      Prog.pure_bind]
    have hset := h.ackSentPkt_setPkt (toUint64 f.firstSmallest) f.largestAcked.value false
      { past := past ++ f.largestAcked.bytes ++ f.ackDelay.bytes ++ f.rangeCount.bytes ++
          f.firstAckRange.bytes, rest := f.ranges.flatMap ackRangeBytes ++ rest }
      (h.raise f.largestAcked.value s)
    rcases hcall : h.ackSentPkt (toUint64 f.firstSmallest) f.largestAcked.value false
      (h.raise f.largestAcked.value s) with ⟨result, t⟩
    rw [hcall] at hset
    cases result with
    | error e =>
      rw [Prog.bind_of_error hcall]
      exact ⟨_, Prog.bind_of_error hset⟩
    | ok start =>
      rw [Prog.bind_of_ok hcall]
      have htail : (f.ranges.flatMap ackRangeBytes ++ rest).length < 2 ^ 31 := by
        rw [List.length_append]
        omega
      obtain ⟨pkt, hloop⟩ := ranges_append (h := h) f.ranges htail _ f.firstSmallest start t
      rw [← f.rangeCount_eq] at hloop
      exact ⟨pkt, (Prog.bind_of_ok hset).trans hloop⟩

end AckHandlers

/-- An interval in 64 bits. -/
def toUint64Interval (p : ℤ × ℤ) : ℕ × ℕ := (toUint64 p.1, toUint64 p.2)

/-- The parser reads a negative sign off a bound. The largest number of the first interval is not
looked at. -/
def AckFrame.SeemsNegative (f : AckFrame) : Prop :=
  Tbquic.SeemsNegative f.firstSmallest ∨ ∃ p ∈ ackIntervals f.firstSmallest f.ranges,
    Tbquic.SeemsNegative p.2 ∨ Tbquic.SeemsNegative p.1

instance (f : AckFrame) : Decidable f.SeemsNegative := inferInstanceAs (Decidable (_ ∨ _))

/-- Intervals without negative bounds are kept in 64 bits. -/
theorem AckFrame.map_toUint64Interval {f : AckFrame} (h : ¬ f.HasNegative) :
    (f.intervals.map toUint64Interval).map (fun c => ((c.1 : ℤ), (c.2 : ℤ))) = f.intervals := by
  rw [List.map_map]
  refine (List.map_congr_left ?_).trans (List.map_id f.intervals)
  intro p hp
  have hnonneg : 0 ≤ p.1 ∧ 0 ≤ p.2 := by
    refine ⟨?_, ?_⟩
    · exact not_lt.mp fun hneg => h ⟨p, hp, .inl hneg⟩
    · exact not_lt.mp fun hneg => h ⟨p, hp, .inr hneg⟩
  have hbound : p.1 < 2 ^ 62 ∧ p.2 < 2 ^ 62 := by
    have hlargest := f.largestAcked.value_lt
    have hfirst : f.firstSmallest ≤ f.largestAcked.value := by
      rw [AckFrame.firstSmallest]
      omega
    rw [AckFrame.intervals, List.mem_cons] at hp
    rcases hp with rfl | hp
    · dsimp only
      omega
    · have := ackIntervals_lt hp
      omega
  rw [Function.comp_apply, toUint64Interval, toUint64_eq hnonneg.1 (by omega),
    toUint64_eq hnonneg.2 (by omega), id]

/-- A number of one byte. -/
def VarLength.ofByte (b : UInt8) (h : b.toNat < 64) : VarLength where
  head := b
  tail := []
  tail_length := by
    rw [Nat.div_eq_of_lt h]
    rfl

/-- An ACK frame for the packets 3 to 5 and the packet 1. -/
def twoRangesAck : AckFrame where
  largestAcked := .ofByte 5 (by decide)
  ackDelay := .ofByte 0 (by decide)
  rangeCount := .ofByte 1 (by decide)
  firstAckRange := .ofByte 2 (by decide)
  ranges := [(.ofByte 0 (by decide), .ofByte 0 (by decide))]
  rangeCount_eq := rfl

/-- An ACK frame for the packet with number `2 ^ 31`. -/
def largeAck : AckFrame where
  largestAcked := ⟨0xc0, [0, 0, 0, 0x80, 0, 0, 0], rfl⟩
  ackDelay := .ofByte 0 (by decide)
  rangeCount := .ofByte 0 (by decide)
  firstAckRange := .ofByte 0 (by decide)
  ranges := []
  rangeCount_eq := rfl

/-- What the bytes of an ACK frame say: the ranges that are passed on, how the frame ends when
none of them fails, and the packet behind it. -/
structure AckReading where
  /-- The ranges, each with its smallest and its largest number. -/
  calls : List (ℕ × ℕ)
  /-- Whether the rest of the frame can be read. -/
  result : Except Fail Unit
  /-- The packet behind what is read. -/
  pkt : RPacket

/-- The reading of the Gap and the ACK Range Length of a range. -/
def readAckRange : Prog Fail RPacket (ℕ × ℕ) := do
  let gap ← quicVariableLengthDecode
  let len ← quicVariableLengthDecode
  pure (gap, len)

/-- The reading of the further ranges. -/
def readAckRanges : ℕ → ℕ → RPacket → AckReading
  | 0, _, pkt => { calls := [], result := .ok (), pkt }
  | count + 1, smallest, pkt =>
    match readAckRange pkt with
    | (.error e, pkt) => { calls := [], result := .error e, pkt }
    | (.ok r, pkt) =>
      let largest := toUint64 ((smallest : ℤ) - r.1 - 2)
      let smallest := toUint64 ((largest : ℤ) - r.2)
      if quicLt largest 0 ∨ quicLt smallest 0 then { calls := [], result := .error .ret, pkt }
      else
        let rest := readAckRanges count smallest pkt
        { rest with calls := (smallest, largest) :: rest.calls }

/-- The reading of the numbers behind Largest Acknowledged. -/
def readAckHead : Prog Fail RPacket (ℕ × ℕ) := do
  let _delay ← quicVariableLengthDecode
  let count ← quicVariableLengthDecode
  let first ← quicVariableLengthDecode
  pure (count, first)

/-- The reading of an ACK frame behind Largest Acknowledged. -/
def readAckBody (largest : ℕ) (pkt : RPacket) : AckReading :=
  match readAckHead pkt with
  | (.error e, pkt) => { calls := [], result := .error e, pkt }
  | (.ok r, pkt) =>
    let smallest := toUint64 ((largest : ℤ) - r.2)
    if quicLt smallest 0 then { calls := [], result := .error .ret, pkt }
    else
      let rest := readAckRanges r.1 smallest pkt
      { rest with calls := (smallest, largest) :: rest.calls }

namespace AckHandlers

variable {σ : Type} {h : AckHandlers σ}

/-- Pass on ranges. -/
def passRanges (h : AckHandlers σ) : List (ℕ × ℕ) → Bool → Prog Fail σ Unit
  | [], _ => pure ()
  | c :: calls, start => do
    let start ← h.ackSentPkt c.1 c.2 start
    passRanges h calls start

/-- A run passes on the ranges of a reading and ends like it, unless a range fails. -/
structure Passes (h : AckHandlers σ) (reading : AckReading) (start : Bool) (s : σ)
    (run : Except Fail Unit × σ) : Prop where
  /-- When no range fails, the run ends like the reading. -/
  of_ok (t : σ) : h.passRanges reading.calls start s = (.ok (), t) →
    run = (reading.result, h.setPkt reading.pkt t)
  /-- When a range fails, the run fails with it. -/
  of_error (e : Fail) (t : σ) : h.passRanges reading.calls start s = (.error e, t) →
    ∃ pkt, run = (.error e, h.setPkt pkt t)

/-- No range is passed on. -/
theorem Passes.nil {result : Except Fail Unit} {pkt : RPacket} {start : Bool} {s : σ} :
    h.Passes { calls := [], result, pkt } start s (result, h.setPkt pkt s) where
  of_ok t ht := by
    cases ht
    rfl
  of_error e t ht := by cases ht

/-- A range is passed on in front of others. -/
theorem Passes.cons {reading : AckReading} {smallest largest : ℕ} {start : Bool} {s : σ}
    {pkt : RPacket} {rest : Bool → Prog Fail σ Unit}
    (hrest : ∀ start' t, h.Passes reading start' t (rest start' (h.setPkt pkt t))) :
    h.Passes { reading with calls := (smallest, largest) :: reading.calls } start s
      ((h.ackSentPkt smallest largest start >>= rest) (h.setPkt pkt s)) := by
  have hset := h.ackSentPkt_setPkt smallest largest start pkt s
  rcases hcall : h.ackSentPkt smallest largest start s with ⟨r, t⟩
  rw [hcall] at hset
  cases r with
  | error e =>
    have hpass : h.passRanges ((smallest, largest) :: reading.calls) start s = (.error e, t) := by
      rw [passRanges, Prog.bind_of_error hcall]
    constructor
    · intro t' ht
      rw [hpass] at ht
      cases ht
    · intro e' t' ht
      rw [hpass] at ht
      cases ht
      exact ⟨pkt, Prog.bind_of_error hset⟩
  | ok start' =>
    have hpass : h.passRanges ((smallest, largest) :: reading.calls) start s =
        h.passRanges reading.calls start' t := by
      rw [passRanges, Prog.bind_of_ok hcall]
    rw [Prog.bind_of_ok hset]
    constructor
    · intro t' ht
      rw [hpass] at ht
      exact (hrest start' t).of_ok t' ht
    · intro e' t' ht
      rw [hpass] at ht
      exact (hrest start' t).of_error e' t' ht

/-- A check on the numbers of a range. -/
theorem Passes.ensure {p : Prop} [Decidable p] {reading : AckReading} {start : Bool} {s : σ}
    {pkt : RPacket} {rest : Unit → Prog Fail σ Unit}
    (hrest : h.Passes reading start s (rest () (h.setPkt pkt s))) :
    h.Passes (if p then { calls := [], result := .error .ret, pkt } else reading) start s
      ((Prog.ensure .ret (¬ p) >>= rest) (h.setPkt pkt s)) := by
  by_cases hp : p
  · rw [if_pos hp, Prog.ensure_of_neg (not_not.mpr hp), Prog.fail_bind]
    exact Passes.nil
  · rw [if_neg hp, Prog.ensure_of_pos hp, Prog.pure_bind]
    exact hrest

/-- The loop passes on the further ranges. -/
theorem ranges_passes (count smallest : ℕ) (pkt : RPacket) (start : Bool) (s : σ) :
    h.Passes (readAckRanges count smallest pkt) start s
      (h.ranges smallest start count (h.setPkt pkt s)) := by
  induction count generalizing smallest pkt start s with
  | zero => exact Passes.nil
  | succ count ih =>
    rw [readAckRanges, ranges]
    rcases hgap : quicVariableLengthDecode pkt with ⟨gap, pkt₁⟩
    have hgap' := h.readVar_setPkt pkt s
    rw [hgap] at hgap'
    cases gap with
    | error e =>
      rw [Prog.bind_of_error hgap', show readAckRange pkt = (.error e, pkt₁) by
        rw [readAckRange, Prog.bind_of_error hgap]]
      exact Passes.nil
    | ok gap =>
      rw [Prog.bind_of_ok hgap']
      rcases hlen : quicVariableLengthDecode pkt₁ with ⟨len, pkt₂⟩
      have hlen' := h.readVar_setPkt pkt₁ s
      rw [hlen] at hlen'
      cases len with
      | error e =>
        rw [Prog.bind_of_error hlen', show readAckRange pkt = (.error e, pkt₂) by
          rw [readAckRange, Prog.bind_of_ok hgap, Prog.bind_of_error hlen]]
        exact Passes.nil
      | ok len =>
        rw [Prog.bind_of_ok hlen', show readAckRange pkt = (.ok (gap, len), pkt₂) by
          rw [readAckRange, Prog.bind_of_ok hgap, Prog.bind_of_ok hlen]; rfl]
        dsimp only
        exact Passes.ensure (Passes.cons fun start' t => ih _ _ start' t)

/-- The parser raises `largest_acked` and passes on the ranges. -/
theorem parser_passes (pkt : RPacket) (s : σ) :
    match quicVariableLengthDecode pkt with
    | (.error e, pkt') => h.parser (h.setPkt pkt s) = (.error e, h.setPkt pkt' s)
    | (.ok largest, pkt') => h.Passes (readAckBody largest pkt') false (h.raise largest s)
        (h.parser (h.setPkt pkt s)) := by
  rcases hlargest : quicVariableLengthDecode pkt with ⟨largest, pkt₁⟩
  have hlargest' := h.readVar_setPkt pkt s
  rw [hlargest] at hlargest'
  cases largest with
  | error e =>
    dsimp only
    rw [parser, Prog.bind_of_error hlargest']
  | ok largest =>
    dsimp only
    rw [parser, Prog.bind_of_ok hlargest', Prog.modify_bind, h.raise_setPkt]
    rw [readAckBody]
    rcases hdelay : quicVariableLengthDecode pkt₁ with ⟨delay, pkt₂⟩
    have hdelay' := h.readVar_setPkt pkt₁ (h.raise largest s)
    rw [hdelay] at hdelay'
    cases delay with
    | error e =>
      rw [Prog.bind_of_error hdelay', show readAckHead pkt₁ = (.error e, pkt₂) by
        rw [readAckHead, Prog.bind_of_error hdelay]]
      exact Passes.nil
    | ok delay =>
      rw [Prog.bind_of_ok hdelay']
      rcases hcount : quicVariableLengthDecode pkt₂ with ⟨count, pkt₃⟩
      have hcount' := h.readVar_setPkt pkt₂ (h.raise largest s)
      rw [hcount] at hcount'
      cases count with
      | error e =>
        rw [Prog.bind_of_error hcount', show readAckHead pkt₁ = (.error e, pkt₃) by
          rw [readAckHead, Prog.bind_of_ok hdelay, Prog.bind_of_error hcount]]
        exact Passes.nil
      | ok count =>
        rw [Prog.bind_of_ok hcount']
        rcases hfirst : quicVariableLengthDecode pkt₃ with ⟨first, pkt₄⟩
        have hfirst' := h.readVar_setPkt pkt₃ (h.raise largest s)
        rw [hfirst] at hfirst'
        cases first with
        | error e =>
          rw [Prog.bind_of_error hfirst', show readAckHead pkt₁ = (.error e, pkt₄) by
            rw [readAckHead, Prog.bind_of_ok hdelay, Prog.bind_of_ok hcount,
              Prog.bind_of_error hfirst]]
          exact Passes.nil
        | ok first =>
          rw [Prog.bind_of_ok hfirst', show readAckHead pkt₁ = (.ok (count, first), pkt₄) by
            rw [readAckHead, Prog.bind_of_ok hdelay, Prog.bind_of_ok hcount,
              Prog.bind_of_ok hfirst]
            rfl]
          dsimp only
          exact Passes.ensure (Passes.cons fun start' t => ranges_passes count _ pkt₄ start' t)

end AckHandlers

end Tbquic
