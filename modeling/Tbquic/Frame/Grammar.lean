import Tbquic.Frame.Layout

/-!
# Well-formed payloads

A payload is well formed when it consists of complete frames. The frame loop also ends where a
type is truncated, and it compares lengths in 32 bits, so it is shown exactly when it accepts the
payloads that are well formed.
-/

namespace Tbquic

/-- A part of a frame stands at the start of some bytes, with the ACK frames in it and the bytes
behind it. -/
inductive ItemStarts : FrameItem → List UInt8 → List AckFrame → List UInt8 → Prop
  | number (v : VarLength) (rest : List UInt8) : ItemStarts .number (v.bytes ++ rest) [] rest
  | counted (len : VarLength) (data rest : List UInt8) (h : data.length = len.value) :
      ItemStarts .counted (len.bytes ++ (data ++ rest)) [] rest
  | owned (len : VarLength) (data rest : List UInt8) (h : data.length = len.value) :
      ItemStarts .owned (len.bytes ++ (data ++ rest)) [] rest
  | toEnd (data : List UInt8) : ItemStarts .toEnd data [] []
  | fixed (data rest : List UInt8) (len : ℕ) (h : data.length = len) :
      ItemStarts (.fixed len) (data ++ rest) [] rest
  | ack (f : AckFrame) (rest : List UInt8) : ItemStarts .ack (f.bytes ++ rest) [f] rest

/-- The parts of a frame stand at the start of some bytes. -/
inductive ItemsStart : List FrameItem → List UInt8 → List AckFrame → List UInt8 → Prop
  | nil (rest : List UInt8) : ItemsStart [] rest [] rest
  | cons {i : FrameItem} {items : List FrameItem} {bytes between rest : List UInt8}
      {acks acks' : List AckFrame} : ItemStarts i bytes acks between →
      ItemsStart items between acks' rest → ItemsStart (i :: items) bytes (acks ++ acks') rest

/-- Frames stand at the start of some bytes, with the ACK frames among them and the bytes behind
them. -/
inductive FramesStart : List UInt8 → List AckFrame → List UInt8 → Prop
  | nil (rest : List UInt8) : FramesStart rest [] rest
  | cons {type : VarLength} {items : List FrameItem} {body between rest : List UInt8}
      {acks acks' : List AckFrame} : frameLayout type.value = some items →
      ItemsStart items body acks between → FramesStart between acks' rest →
      FramesStart (type.bytes ++ body) (acks ++ acks') rest

/-- A payload consists of complete frames, and no bound of an ACK frame is negative. -/
def WellFormed (payload : List UInt8) : Prop :=
  ∃ acks, FramesStart payload acks [] ∧ ∀ f ∈ acks, ¬ f.HasNegative

/-- A part of a frame declares more bytes than are there, and the parser does not notice: the
difference does not look negative in 32 bits, or the parser releases memory that it does not own
before it gives up. -/
inductive ItemOverruns : FrameItem → List UInt8 → Prop
  | counted (len : VarLength) (data : List UInt8) (h : data.length < len.value)
      (hlook : ¬ quicLt data.length len.value) : ItemOverruns .counted (len.bytes ++ data)
  | owned (len : VarLength) (data : List UInt8) (h : data.length < len.value) :
      ItemOverruns .owned (len.bytes ++ data)
  | fixed (len : ℕ) (data : List UInt8) (h : data.length < len)
      (hlook : ¬ quicLt data.length len) : ItemOverruns (.fixed len) data

/-- A part of a frame overruns behind other parts. -/
inductive ItemsOverrun : List FrameItem → List UInt8 → Prop
  | head {i : FrameItem} {items : List FrameItem} {bytes : List UInt8} :
      ItemOverruns i bytes → ItemsOverrun (i :: items) bytes
  | tail {i : FrameItem} {items : List FrameItem} {bytes rest : List UInt8}
      {acks : List AckFrame} : ItemStarts i bytes acks rest → (∀ f ∈ acks, ¬ f.SeemsNegative) →
      ItemsOverrun items rest → ItemsOverrun (i :: items) bytes

/-- A frame overruns behind others. -/
def Overruns (payload : List UInt8) : Prop :=
  ∃ (acks : List AckFrame) (type : VarLength) (items : List FrameItem) (body : List UInt8),
    FramesStart payload acks (type.bytes ++ body) ∧ (∀ f ∈ acks, ¬ f.SeemsNegative) ∧
      frameLayout type.value = some items ∧ ItemsOverrun items body

/-- The remaining bytes only get shorter. -/
theorem ItemStarts.length_le {i : FrameItem} {bytes rest : List UInt8} {acks : List AckFrame}
    (h : ItemStarts i bytes acks rest) : rest.length ≤ bytes.length := by
  cases h <;> simp only [List.length_append, List.length_nil] <;> omega

/-- The remaining bytes only get shorter. -/
theorem ItemsStart.length_le {items : List FrameItem} {bytes rest : List UInt8}
    {acks : List AckFrame} (h : ItemsStart items bytes acks rest) : rest.length ≤ bytes.length := by
  induction h with
  | nil => exact le_refl _
  | cons hitem _ ih => exact ih.trans hitem.length_le

section Ack

/-- Bytes of further ranges are read while no negative sign is met. -/
theorem readAckRanges_append (ranges : List (VarLength × VarLength)) {rest : List UInt8}
    (hrest : (ranges.flatMap ackRangeBytes ++ rest).length < 2 ^ 31) (past : List UInt8)
    (smallest : ℤ) :
    (∃ past', ∃ calls, readAckRanges ranges.length (toUint64 smallest)
        { past, rest := ranges.flatMap ackRangeBytes ++ rest } =
          { calls, result := .ok (), pkt := { past := past', rest } }) ∧
        (∀ p ∈ ackIntervals smallest ranges, ¬ (SeemsNegative p.2 ∨ SeemsNegative p.1)) ∨
    (readAckRanges ranges.length (toUint64 smallest)
        { past, rest := ranges.flatMap ackRangeBytes ++ rest }).result = .error .ret ∧
      ∃ p ∈ ackIntervals smallest ranges, SeemsNegative p.2 ∨ SeemsNegative p.1 := by
  induction ranges generalizing past smallest with
  | nil =>
    refine Or.inl ⟨⟨past, [], rfl⟩, ?_⟩
    intro p hp
    cases hp
  | cons r ranges ih =>
    have hbytes : (r :: ranges).flatMap ackRangeBytes ++ rest =
        r.1.bytes ++ (r.2.bytes ++ (ranges.flatMap ackRangeBytes ++ rest)) := by
      rw [List.flatMap_cons, ackRangeBytes, List.append_assoc, List.append_assoc]
    rw [hbytes] at hrest ⊢
    simp only [List.length_append] at hrest
    have hread : readAckRange { past, rest := r.1.bytes ++ (r.2.bytes ++
        (ranges.flatMap ackRangeBytes ++ rest)) } = (.ok (r.1.value, r.2.value),
          { past := past ++ r.1.bytes ++ r.2.bytes,
            rest := ranges.flatMap ackRangeBytes ++ rest }) := by
      rw [readAckRange,
        Prog.bind_of_ok (r.1.decode_append past (by simp only [List.length_append]; omega)),
        Prog.bind_of_ok (r.2.decode_append _ (by simp only [List.length_append]; omega))]
      rfl
    have hlargest : toUint64 ((toUint64 smallest : ℤ) - r.1.value - 2) =
        toUint64 (smallest - r.1.value - 2) := by
      rw [sub_sub, toUint64_sub, sub_sub]
    have hcheck := or_congr (quicLt_toUint64_zero (smallest - r.1.value - 2))
      (quicLt_toUint64_zero (smallest - r.1.value - 2 - r.2.value))
    rw [List.length_cons, readAckRanges, hread, ackIntervals]
    dsimp only
    rw [hlargest, toUint64_sub]
    by_cases hsign : SeemsNegative (smallest - r.1.value - 2) ∨
        SeemsNegative (smallest - r.1.value - 2 - r.2.value)
    · rw [if_pos (hcheck.mpr hsign)]
      exact Or.inr ⟨rfl, _, List.mem_cons_self, hsign⟩
    · rw [if_neg (hcheck.not.mpr hsign)]
      rcases ih (by rw [List.length_append]; omega) (past ++ r.1.bytes ++ r.2.bytes)
        (smallest - r.1.value - 2 - r.2.value) with ⟨⟨past', calls, hrun⟩, hnone⟩ |
        ⟨herror, p, hp, hneg⟩
      · rw [hrun]
        exact Or.inl ⟨⟨past', _, rfl⟩, List.forall_mem_cons.mpr ⟨hsign, hnone⟩⟩
      · exact Or.inr ⟨herror, p, List.mem_cons_of_mem _ hp, hneg⟩

/-- Further ranges are there, or reading them fails. -/
theorem readAckRanges_cases (count smallest : ℕ) (past : List UInt8) {bytes : List UInt8}
    (hbytes : bytes.length < 2 ^ 31) :
    (∃ (ranges : List (VarLength × VarLength)) (rest : List UInt8), ranges.length = count ∧
        bytes = ranges.flatMap ackRangeBytes ++ rest) ∨
      (readAckRanges count smallest { past, rest := bytes }).result = .error .ret := by
  induction count generalizing smallest past bytes with
  | zero => exact Or.inl ⟨[], bytes, rfl, rfl⟩
  | succ count ih =>
    rw [readAckRanges]
    rcases quicVariableLengthDecode_cases past hbytes with
      ⟨gap, between, rfl, hgap⟩ | ⟨-, pkt, hgap⟩
    · rw [List.length_append] at hbytes
      rcases quicVariableLengthDecode_cases (past ++ gap.bytes)
        (show between.length < 2 ^ 31 by omega) with ⟨len, after, rfl, hlen⟩ | ⟨-, pkt, hlen⟩
      · rw [List.length_append] at hbytes
        have hread : readAckRange { past, rest := gap.bytes ++ (len.bytes ++ after) } =
            (.ok (gap.value, len.value),
              { past := past ++ gap.bytes ++ len.bytes, rest := after }) := by
          rw [readAckRange, Prog.bind_of_ok hgap, Prog.bind_of_ok hlen]
          rfl
        rw [hread]
        dsimp only
        split
        · exact Or.inr rfl
        · rcases ih (toUint64 ((toUint64 ((smallest : ℤ) - gap.value - 2) : ℤ) - len.value))
            (past ++ gap.bytes ++ len.bytes) (show after.length < 2 ^ 31 by omega) with
            ⟨ranges, rest, hcount, hranges⟩ | herror
          · refine Or.inl ⟨(gap, len) :: ranges, rest, by rw [List.length_cons, hcount], ?_⟩
            rw [List.flatMap_cons, ackRangeBytes, hranges, List.append_assoc, List.append_assoc]
          · exact Or.inr herror
      · have hread : readAckRange { past, rest := gap.bytes ++ between } = (.error .ret, pkt) := by
          rw [readAckRange, Prog.bind_of_ok hgap, Prog.bind_of_error hlen]
        rw [hread]
        exact Or.inr rfl
    · have hread : readAckRange { past, rest := bytes } = (.error .ret, pkt) := by
        rw [readAckRange, Prog.bind_of_error hgap]
      rw [hread]
      exact Or.inr rfl

/-- An ACK frame is read unless a negative sign is met. -/
theorem readAck_append (f : AckFrame) (past : List UInt8) {rest : List UInt8}
    (hrest : (f.bytes ++ rest).length < 2 ^ 31) :
    (¬ f.SeemsNegative ∧
      ∃ past', readAck { past, rest := f.bytes ++ rest } = (.ok (), { past := past', rest })) ∨
    f.SeemsNegative ∧ ∃ pkt, readAck { past, rest := f.bytes ++ rest } = (.error .ret, pkt) := by
  have hbytes : f.bytes ++ rest = f.largestAcked.bytes ++ (f.ackDelay.bytes ++
      (f.rangeCount.bytes ++ (f.firstAckRange.bytes ++
        (f.ranges.flatMap ackRangeBytes ++ rest)))) := by
    simp only [AckFrame.bytes, List.append_assoc]
  rw [hbytes] at hrest ⊢
  simp only [List.length_append] at hrest
  have hhead : readAckHead { past := past ++ f.largestAcked.bytes, rest := f.ackDelay.bytes ++
      (f.rangeCount.bytes ++ (f.firstAckRange.bytes ++
        (f.ranges.flatMap ackRangeBytes ++ rest))) } =
      (.ok (f.rangeCount.value, f.firstAckRange.value), ⟨past ++ f.largestAcked.bytes ++
        f.ackDelay.bytes ++ f.rangeCount.bytes ++ f.firstAckRange.bytes,
          f.ranges.flatMap ackRangeBytes ++ rest⟩) := by
    rw [readAckHead,
      Prog.bind_of_ok (f.ackDelay.decode_append _ (by simp only [List.length_append]; omega)),
      Prog.bind_of_ok (f.rangeCount.decode_append _ (by simp only [List.length_append]; omega)),
      Prog.bind_of_ok (f.firstAckRange.decode_append _ (by simp only [List.length_append]; omega))]
    rfl
  rw [readAck, Prog.bind_of_ok (f.largestAcked.decode_append past
    (by simp only [List.length_append]; omega)), readAckRest, readAckBody, hhead]
  have hfirst : (f.largestAcked.value : ℤ) - f.firstAckRange.value = f.firstSmallest := rfl
  have hcheck := quicLt_toUint64_zero f.firstSmallest
  dsimp only
  rw [hfirst]
  by_cases hsign : SeemsNegative f.firstSmallest
  · rw [if_pos (hcheck.mpr hsign)]
    exact Or.inr ⟨Or.inl hsign, _, rfl⟩
  · rw [if_neg (hcheck.not.mpr hsign), f.rangeCount_eq]
    rcases readAckRanges_append f.ranges (show (f.ranges.flatMap ackRangeBytes ++ rest).length <
      2 ^ 31 by rw [List.length_append]; omega) _ f.firstSmallest with
      ⟨⟨past', calls, hrun⟩, hnone⟩ | ⟨herror, hneg⟩
    · rw [hrun]
      refine Or.inl ⟨?_, past', rfl⟩
      rintro (h | ⟨p, hp, h⟩)
      · exact hsign h
      · exact hnone p hp h
    · rw [herror]
      exact Or.inr ⟨Or.inr hneg, _, rfl⟩

/-- An ACK frame is there, or reading it fails. -/
theorem readAck_cases (past : List UInt8) {bytes : List UInt8} (hbytes : bytes.length < 2 ^ 31) :
    (∃ (f : AckFrame) (rest : List UInt8), bytes = f.bytes ++ rest) ∨
      ∃ pkt, readAck { past, rest := bytes } = (.error .ret, pkt) := by
  rw [readAck]
  rcases quicVariableLengthDecode_cases past hbytes with
    ⟨largest, b₁, rfl, hlargest⟩ | ⟨-, pkt, hlargest⟩
  · rw [Prog.bind_of_ok hlargest, readAckRest, readAckBody, readAckHead]
    rw [List.length_append] at hbytes
    rcases quicVariableLengthDecode_cases (past ++ largest.bytes)
      (show b₁.length < 2 ^ 31 by omega) with ⟨delay, b₂, rfl, hdelay⟩ | ⟨-, pkt, hdelay⟩
    · rw [Prog.bind_of_ok hdelay]
      rw [List.length_append] at hbytes
      rcases quicVariableLengthDecode_cases (past ++ largest.bytes ++ delay.bytes)
        (show b₂.length < 2 ^ 31 by omega) with ⟨count, b₃, rfl, hcount⟩ | ⟨-, pkt, hcount⟩
      · rw [Prog.bind_of_ok hcount]
        rw [List.length_append] at hbytes
        rcases quicVariableLengthDecode_cases (past ++ largest.bytes ++ delay.bytes ++ count.bytes)
          (show b₃.length < 2 ^ 31 by omega) with ⟨first, b₄, rfl, hfirst⟩ | ⟨-, pkt, hfirst⟩
        · rw [Prog.bind_of_ok hfirst]
          rw [List.length_append] at hbytes
          change _ ∨ ∃ pkt, ((ite _ _ _ : AckReading).result, (ite _ _ _ : AckReading).pkt) = _
          split_ifs
          · exact Or.inr ⟨_, rfl⟩
          · rcases readAckRanges_cases count.value
              (toUint64 ((largest.value : ℤ) - first.value))
              (past ++ largest.bytes ++ delay.bytes ++
                count.bytes ++ first.bytes) (show b₄.length < 2 ^ 31 by omega) with
              ⟨ranges, rest, hranges, rfl⟩ | herror
            · refine Or.inl ⟨⟨largest, delay, count, first, ranges, hranges.symm⟩, rest, ?_⟩
              simp only [AckFrame.bytes, List.append_assoc]
            · exact Or.inr ⟨_, Prod.ext herror rfl⟩
        · rw [Prog.bind_of_error hfirst]
          exact Or.inr ⟨_, rfl⟩
      · rw [Prog.bind_of_error hcount]
        exact Or.inr ⟨_, rfl⟩
    · rw [Prog.bind_of_error hdelay]
      exact Or.inr ⟨_, rfl⟩
  · exact Or.inr ⟨pkt, Prog.bind_of_error hlargest⟩

end Ack

section Items

variable {i : FrameItem} {items : List FrameItem} {bytes rest : List UInt8} {acks : List AckFrame}

/-- A part that stands at the start of the packet is read, unless a bound of an ACK frame seems
negative. -/
theorem ItemStarts.read (h : ItemStarts i bytes acks rest) (hbytes : bytes.length < 2 ^ 31)
    (past : List UInt8) :
    ((∀ f ∈ acks, ¬ f.SeemsNegative) →
      ∃ past', i.read { past, rest := bytes } = (.ok (), { past := past', rest })) ∧
    ((∃ f ∈ acks, f.SeemsNegative) → ∃ pkt, i.read { past, rest := bytes } =
      (.error .ret, pkt)) := by
  cases h with
  | number v rest =>
    refine ⟨fun _ => ⟨past ++ v.bytes, ?_⟩, fun hneg => by simp at hneg⟩
    rw [FrameItem.read, Prog.bind_of_ok (v.decode_append past hbytes)]
    rfl
  | counted len data rest hdata =>
    refine ⟨fun _ => ⟨past ++ len.bytes ++ data, ?_⟩, fun hneg => by simp at hneg⟩
    have hget := rPacketGetBytes_append (past ++ len.bytes) data
      (show rest.length < 2 ^ 31 by simp only [List.length_append] at hbytes; omega)
    rw [hdata] at hget
    rw [FrameItem.read, Prog.bind_of_ok (len.decode_append past hbytes), Prog.bind_of_ok hget]
    rfl
  | owned len data rest hdata =>
    refine ⟨fun _ => ⟨past ++ len.bytes ++ data, ?_⟩, fun hneg => by simp at hneg⟩
    have hget := rPacketGetBytes_append (past ++ len.bytes) data
      (show rest.length < 2 ^ 31 by simp only [List.length_append] at hbytes; omega)
    rw [hdata] at hget
    have hread : readOwned len.value { past := past ++ len.bytes, rest := data ++ rest } =
        (.ok data, { past := past ++ len.bytes ++ data, rest }) := by
      rw [readOwned, Prog.bind_of_ok (Prog.attempt_of_eq hget)]
      rfl
    rw [FrameItem.read, Prog.bind_of_ok (len.decode_append past hbytes), Prog.bind_of_ok hread]
    rfl
  | toEnd data =>
    refine ⟨fun _ => ⟨past ++ bytes, ?_⟩, fun hneg => by simp at hneg⟩
    have hget : rPacketGetBytes (RPacket.remaining { past, rest := bytes })
        { past, rest := bytes } = (.ok bytes, { past := past ++ bytes, rest := [] }) := by
      have h := @rPacketGetBytes_append past bytes [] (by decide)
      rwa [List.append_nil] at h
    rw [FrameItem.read, Prog.get_bind, Prog.bind_of_ok hget]
    rfl
  | fixed data rest len hdata =>
    refine ⟨fun _ => ⟨past ++ data, ?_⟩, fun hneg => by simp at hneg⟩
    have hget := rPacketGetBytes_append past data
      (show rest.length < 2 ^ 31 by simp only [List.length_append] at hbytes; omega)
    rw [hdata] at hget
    rw [FrameItem.read, Prog.bind_of_ok hget]
    rfl
  | ack f rest =>
    rw [FrameItem.read]
    rcases readAck_append f past hbytes with ⟨hnone, past', hread⟩ | ⟨hneg, pkt, hread⟩
    · refine ⟨fun _ => ⟨past', hread⟩, ?_⟩
      rintro ⟨g, hg, hseems⟩
      rw [List.mem_singleton] at hg
      exact absurd (hg ▸ hseems) hnone
    · refine ⟨fun hnone => ?_, fun _ => ⟨pkt, hread⟩⟩
      exact absurd hneg (hnone f (List.mem_singleton_self f))

/-- A part that overruns leaves the packet. -/
theorem ItemOverruns.read (h : ItemOverruns i bytes) (hbytes : bytes.length < 2 ^ 31)
    (past : List UInt8) : ∃ pkt, i.read { past, rest := bytes } = (.error .ub, pkt) := by
  cases h with
  | counted len data hdata hlook =>
    have hget := rPacketGetBytes_of_short (past ++ len.bytes) hdata
    rw [if_neg hlook] at hget
    refine ⟨{ past := past ++ len.bytes, rest := data }, ?_⟩
    rw [FrameItem.read, Prog.bind_of_ok (len.decode_append past hbytes), Prog.bind_of_error hget]
  | owned len data hdata =>
    have hread : readOwned len.value { past := past ++ len.bytes, rest := data } =
        (.error .ub, { past := past ++ len.bytes, rest := data }) := by
      rw [readOwned,
        Prog.bind_of_ok (Prog.attempt_of_eq (rPacketGetBytes_of_short (past ++ len.bytes) hdata))]
      split_ifs <;> rfl
    refine ⟨{ past := past ++ len.bytes, rest := data }, ?_⟩
    rw [FrameItem.read, Prog.bind_of_ok (len.decode_append past hbytes), Prog.bind_of_error hread]
  | fixed len data hdata hlook =>
    have hget := rPacketGetBytes_of_short past hdata
    rw [if_neg hlook] at hget
    refine ⟨{ past, rest := bytes }, ?_⟩
    rw [FrameItem.read, Prog.bind_of_error hget]

/-- A part is there when it is read, and it overruns when the packet is left. -/
theorem FrameItem.read_post (i : FrameItem) (past : List UInt8) {bytes : List UInt8}
    (hbytes : bytes.length < 2 ^ 31) :
    Prog.Post i.read
      (fun _ t => ∃ acks, ItemStarts i bytes acks t.rest ∧ ∀ f ∈ acks, ¬ f.SeemsNegative)
      (fun e _ => e = .ret ∨ e = .ub ∧ ItemOverruns i bytes) { past, rest := bytes } := by
  have hnone : ∀ f ∈ ([] : List AckFrame), ¬ f.SeemsNegative := fun f hf => by cases hf
  cases i with
  | number =>
    rw [FrameItem.read, Prog.post_bind]
    refine (@quicVariableLengthDecode_bytes ⟨past, bytes⟩ hbytes).mono ?_ ?_
    · rintro n t ⟨v, -, hrest⟩
      refine ⟨[], ?_, hnone⟩
      rw [show bytes = _ from hrest]
      exact ItemStarts.number v t.rest
    · exact fun e t he => Or.inl he
  | counted =>
    rw [FrameItem.read, Prog.post_bind]
    refine (@quicVariableLengthDecode_bytes ⟨past, bytes⟩ hbytes).mono ?_ ?_
    · rintro n t ⟨len, rfl, hrest⟩
      have hrest : bytes = len.bytes ++ t.rest := hrest
      rw [Prog.post_bind]
      refine (@rPacketGetBytes_bytes t ?_ len.value).mono ?_ ?_
      · rw [hrest, List.length_append] at hbytes
        omega
      · rintro data u ⟨hdata, hrest'⟩
        refine ⟨[], ?_, hnone⟩
        rw [hrest, hrest']
        exact ItemStarts.counted len data u.rest hdata
      · rintro e u ⟨hshort, rfl⟩
        by_cases hlook : quicLt t.rest.length len.value
        · exact Or.inl (if_pos hlook)
        · refine Or.inr ⟨if_neg hlook, ?_⟩
          rw [hrest]
          exact ItemOverruns.counted len t.rest hshort hlook
    · exact fun e t he => Or.inl he
  | owned =>
    rw [FrameItem.read, Prog.post_bind]
    refine (@quicVariableLengthDecode_bytes ⟨past, bytes⟩ hbytes).mono ?_ ?_
    · rintro n t ⟨len, rfl, hrest⟩
      have hrest : bytes = len.bytes ++ t.rest := hrest
      have ht : t.rest.length < 2 ^ 31 := by
        rw [hrest, List.length_append] at hbytes
        omega
      have hpost := @rPacketGetBytes_bytes t ht len.value
      rw [Prog.post_bind, readOwned]
      unfold Prog.Post at hpost ⊢
      rcases hget : rPacketGetBytes len.value t with ⟨r, u⟩
      rw [hget] at hpost
      rw [Prog.bind_of_ok (Prog.attempt_of_eq hget)]
      cases r with
      | ok data =>
        refine ⟨[], ?_, hnone⟩
        rw [hrest, hpost.2]
        exact ItemStarts.owned len data u.rest hpost.1
      | error e =>
        have hover : ItemOverruns .owned bytes := by
          rw [hrest]
          exact ItemOverruns.owned len t.rest hpost.1
        rw [show e = _ from hpost.2]
        split_ifs <;> exact Or.inr ⟨rfl, hover⟩
    · exact fun e t he => Or.inl he
  | toEnd =>
    have hstart : ItemStarts .toEnd bytes [] [] := ItemStarts.toEnd bytes
    obtain ⟨past', hread⟩ := (hstart.read hbytes past).1 hnone
    unfold Prog.Post
    rw [hread]
    exact ⟨[], hstart, hnone⟩
  | fixed len =>
    rw [FrameItem.read, Prog.post_bind]
    refine (@rPacketGetBytes_bytes ⟨past, bytes⟩ hbytes len).mono ?_ ?_
    · rintro data t ⟨hdata, hrest⟩
      refine ⟨[], ?_, hnone⟩
      rw [show bytes = _ from hrest]
      exact ItemStarts.fixed data t.rest len hdata
    · rintro e t ⟨hshort, rfl⟩
      by_cases hlook : quicLt bytes.length len
      · exact Or.inl (if_pos hlook)
      · exact Or.inr ⟨if_neg hlook, ItemOverruns.fixed len bytes hshort hlook⟩
  | ack =>
    rw [FrameItem.read]
    unfold Prog.Post
    rcases readAck_cases past hbytes with ⟨f, rest, rfl⟩ | ⟨pkt, hread⟩
    · rcases readAck_append f past hbytes with ⟨hseems, past', hread⟩ | ⟨hseems, pkt, hread⟩
      · rw [hread]
        refine ⟨[f], ItemStarts.ack f rest, ?_⟩
        intro g hg
        rw [List.mem_singleton] at hg
        rwa [hg]
      · rw [hread]
        exact Or.inl rfl
    · rw [hread]
      exact Or.inl rfl

/-- Parts that stand at the start of the packet are read, unless a bound of an ACK frame seems
negative. -/
theorem ItemsStart.read (h : ItemsStart items bytes acks rest) (hbytes : bytes.length < 2 ^ 31)
    (hacks : ∀ f ∈ acks, ¬ f.SeemsNegative) (past : List UInt8) :
    ∃ past', readItems items { past, rest := bytes } = (.ok (), { past := past', rest }) := by
  induction h generalizing past with
  | nil rest => exact ⟨past, rfl⟩
  | cons hitem hitems ih =>
    rw [List.forall_mem_append] at hacks
    obtain ⟨past', hread⟩ := (hitem.read hbytes past).1 hacks.1
    obtain ⟨past'', hrest⟩ := ih (hitem.length_le.trans_lt hbytes) hacks.2 past'
    exact ⟨past'', by rw [readItems, Prog.bind_of_ok hread, hrest]⟩

/-- Parts of which one overruns leave the packet. -/
theorem ItemsOverrun.read (h : ItemsOverrun items bytes) (hbytes : bytes.length < 2 ^ 31)
    (past : List UInt8) : ∃ pkt, readItems items { past, rest := bytes } = (.error .ub, pkt) := by
  induction h generalizing past with
  | head hitem =>
    obtain ⟨pkt, hread⟩ := hitem.read hbytes past
    exact ⟨pkt, by rw [readItems, Prog.bind_of_error hread]⟩
  | tail hitem hacks _ ih =>
    obtain ⟨past', hread⟩ := (hitem.read hbytes past).1 hacks
    obtain ⟨pkt, hrest⟩ := ih (hitem.length_le.trans_lt hbytes) past'
    exact ⟨pkt, by rw [readItems, Prog.bind_of_ok hread, hrest]⟩

/-- Parts are there when they are read, and one overruns when the packet is left. -/
theorem readItems_post (items : List FrameItem) (past : List UInt8) {bytes : List UInt8}
    (hbytes : bytes.length < 2 ^ 31) :
    Prog.Post (readItems items)
      (fun _ t => ∃ acks, ItemsStart items bytes acks t.rest ∧ ∀ f ∈ acks, ¬ f.SeemsNegative)
      (fun e _ => e = .ret ∨ e = .ub ∧ ItemsOverrun items bytes) { past, rest := bytes } := by
  induction items generalizing past bytes with
  | nil => exact ⟨[], ItemsStart.nil bytes, fun f hf => by cases hf⟩
  | cons i items ih =>
    rw [readItems, Prog.post_bind]
    refine (i.read_post past hbytes).mono ?_ ?_
    · rintro _ ⟨past', between⟩ ⟨acks, hitem, hacks⟩
      refine (ih past' (hitem.length_le.trans_lt hbytes)).mono ?_ ?_
      · rintro _ t ⟨acks', hitems, hacks'⟩
        exact ⟨acks ++ acks', ItemsStart.cons hitem hitems,
          List.forall_mem_append.mpr ⟨hacks, hacks'⟩⟩
      · rintro e t (he | ⟨he, hover⟩)
        · exact Or.inl he
        · exact Or.inr ⟨he, ItemsOverrun.tail hitem hacks hover⟩
    · rintro e t (he | ⟨he, hover⟩)
      · exact Or.inl he
      · exact Or.inr ⟨he, ItemsOverrun.head hover⟩

end Items

section Unique

/-- Ranges at the start of equal byte strings are equal when there are as many. -/
theorem ackRanges_append_inj {ranges ranges' : List (VarLength × VarLength)} {a b : List UInt8}
    (hlength : ranges.length = ranges'.length)
    (h : ranges.flatMap ackRangeBytes ++ a = ranges'.flatMap ackRangeBytes ++ b) :
    ranges = ranges' ∧ a = b := by
  induction ranges generalizing ranges' with
  | nil =>
    obtain rfl := List.length_eq_zero_iff.mp hlength.symm
    exact ⟨rfl, h⟩
  | cons r ranges ih =>
    obtain ⟨r', ranges', rfl⟩ := List.exists_cons_of_length_eq_add_one hlength.symm
    simp only [List.flatMap_cons, ackRangeBytes, List.append_assoc] at h
    obtain ⟨hgap, h⟩ := VarLength.append_inj h
    obtain ⟨hrange, h⟩ := VarLength.append_inj h
    obtain ⟨rfl, hrest⟩ := ih (Nat.succ.inj hlength) h
    exact ⟨by rw [Prod.ext hgap hrange], hrest⟩

/-- ACK frames at the start of equal byte strings are equal. -/
theorem AckFrame.append_inj {f g : AckFrame} {a b : List UInt8} (h : f.bytes ++ a = g.bytes ++ b) :
    f = g ∧ a = b := by
  simp only [AckFrame.bytes, List.append_assoc] at h
  obtain ⟨hlargest, h⟩ := VarLength.append_inj h
  obtain ⟨hdelay, h⟩ := VarLength.append_inj h
  obtain ⟨hcount, h⟩ := VarLength.append_inj h
  obtain ⟨hfirst, h⟩ := VarLength.append_inj h
  have hlength : f.ranges.length = g.ranges.length := by
    rw [← f.rangeCount_eq, ← g.rangeCount_eq, hcount]
  obtain ⟨hranges, hrest⟩ := ackRanges_append_inj hlength h
  refine ⟨?_, hrest⟩
  cases f
  cases g
  cases hlargest
  cases hdelay
  cases hcount
  cases hfirst
  cases hranges
  rfl

/-- A part of a frame ends in one place. -/
theorem ItemStarts.unique {i : FrameItem} {bytes bytes' rest rest' : List UInt8}
    {acks acks' : List AckFrame} (h : ItemStarts i bytes acks rest)
    (h' : ItemStarts i bytes' acks' rest') (hbytes : bytes = bytes') :
    acks = acks' ∧ rest = rest' := by
  cases h with
  | number v rest =>
    cases h' with
    | number v' rest' => exact ⟨rfl, (VarLength.append_inj hbytes).2⟩
  | counted len data rest hdata =>
    cases h' with
    | counted len' data' rest' hdata' =>
      obtain ⟨rfl, htail⟩ := VarLength.append_inj hbytes
      exact ⟨rfl, (List.append_inj htail (hdata.trans hdata'.symm)).2⟩
  | owned len data rest hdata =>
    cases h' with
    | owned len' data' rest' hdata' =>
      obtain ⟨rfl, htail⟩ := VarLength.append_inj hbytes
      exact ⟨rfl, (List.append_inj htail (hdata.trans hdata'.symm)).2⟩
  | toEnd data =>
    cases h' with
    | toEnd data' => exact ⟨rfl, rfl⟩
  | fixed data rest len hdata =>
    cases h' with
    | fixed data' rest' len' hdata' =>
      exact ⟨rfl, (List.append_inj hbytes (hdata.trans hdata'.symm)).2⟩
  | ack f rest =>
    cases h' with
    | ack f' rest' =>
      obtain ⟨rfl, hrest⟩ := AckFrame.append_inj hbytes
      exact ⟨rfl, hrest⟩

/-- The parts of a frame end in one place. -/
theorem ItemsStart.unique {items : List FrameItem} {bytes rest rest' : List UInt8}
    {acks acks' : List AckFrame} (h : ItemsStart items bytes acks rest)
    (h' : ItemsStart items bytes acks' rest') : acks = acks' ∧ rest = rest' := by
  induction h generalizing acks' rest' with
  | nil rest =>
    cases h' with
    | nil => exact ⟨rfl, rfl⟩
  | cons hitem _ ih =>
    cases h' with
    | cons hitem' hitems' =>
      obtain ⟨rfl, rfl⟩ := hitem.unique hitem' rfl
      obtain ⟨rfl, hrest⟩ := ih hitems'
      exact ⟨rfl, hrest⟩

/-- Frames are read in one way up to a place where no type can be read. -/
theorem FramesStart.unique {payload payload' rest rest' : List UInt8} {acks acks' : List AckFrame}
    (h : FramesStart payload acks rest) (h' : FramesStart payload' acks' rest')
    (hpayload : payload = payload') (hrest : rest = [] ∨ VarLength.Truncated rest)
    (hrest' : rest' = [] ∨ VarLength.Truncated rest') : acks = acks' ∧ rest = rest' := by
  have hend : ∀ (type : VarLength) (body : List UInt8),
      ¬ (type.bytes ++ body = [] ∨ VarLength.Truncated (type.bytes ++ body)) := by
    rintro type body (h | h)
    · rw [VarLength.bytes] at h
      cases h
    · exact type.not_truncated body h
  induction h generalizing payload' acks' rest' with
  | nil rest =>
    cases h' with
    | nil => exact ⟨rfl, hpayload⟩
    | cons => exact absurd (hpayload ▸ hrest) (hend _ _)
  | cons hlayout hitems _ ih =>
    cases h' with
    | nil => exact absurd (hpayload.symm ▸ hrest') (hend _ _)
    | cons hlayout' hitems' hframes' =>
      obtain ⟨rfl, rfl⟩ := VarLength.append_inj hpayload
      rw [hlayout] at hlayout'
      cases hlayout'
      obtain ⟨rfl, rfl⟩ := hitems.unique hitems'
      obtain ⟨rfl, hrest⟩ := ih hframes' rfl hrest hrest'
      exact ⟨rfl, hrest⟩

end Unique

section Frames

variable {payload rest : List UInt8} {acks : List AckFrame}

/-- Types with a layout are known. -/
theorem frameLayout_lt {type : ℕ} {items : List FrameItem} (h : frameLayout type = some items) :
    type < quicFrameTypeMax := by
  unfold quicFrameTypeMax
  by_contra hge
  unfold frameLayout at h
  split at h <;> first | omega | cases h

/-- A frame with a layout is read as one round of the loop. -/
theorem quicFrameRound_layout {type : ℕ} {items : List FrameItem}
    (h : frameLayout type = some items) (fuel : ℕ) (flags : FrameFlags) :
    ∃ flags', quicFrameRound layoutHandlers fuel flags type =
      (readItems items >>= fun _ => quicFrameLoop layoutHandlers fuel flags') := by
  rw [quicFrameRound, Prog.ensure_of_pos (frameLayout_lt h), Prog.pure_bind]
  by_cases hpadding : type = quicFrameTypePadding
  · have hnil : items = [] := by
      rw [hpadding] at h
      exact (Option.some.inj h).symm
    rw [if_pos hpadding, hnil, readItems]
    refine ⟨flags, ?_⟩
    exact (Prog.pure_bind () fun _ => quicFrameLoop layoutHandlers fuel flags).symm
  · rw [if_neg hpadding, show layoutHandlers.parser type = some (readItems items) by
      change (frameLayout type).map readItems = _
      rw [h, Option.map_some], Prog.ofOption_some, Prog.pure_bind]
    exact ⟨flags.add type, rfl⟩

/-- A type without a layout ends the loop with an error. -/
theorem quicFrameRound_unknown {type : ℕ} {fuel : ℕ} {flags : FrameFlags}
    (h : frameLayout type = none) (pkt : RPacket) :
    quicFrameRound layoutHandlers fuel flags type pkt = (.error .ret, pkt) := by
  have hpadding : type ≠ quicFrameTypePadding := by
    rintro rfl
    cases h
  rw [quicFrameRound]
  by_cases hmax : type < quicFrameTypeMax
  · rw [Prog.ensure_of_pos hmax, Prog.pure_bind, if_neg hpadding,
      show layoutHandlers.parser type = none by
        change (frameLayout type).map readItems = _
        rw [h, Option.map_none], Prog.ofOption_none, Prog.fail_bind]
    rfl
  · rw [Prog.ensure_of_neg hmax, Prog.fail_bind]
    rfl

/-- Frames that stand at the start of the packet are read one after the other. -/
theorem FramesStart.loop (h : FramesStart payload acks rest)
    (hacks : ∀ f ∈ acks, ¬ f.SeemsNegative) (hpayload : payload.length < 2 ^ 31) {fuel : ℕ}
    (hfuel : payload.length < fuel) (past : List UInt8) (flags : FrameFlags) :
    ∃ past' flags' fuel', rest.length < fuel' ∧ rest.length < 2 ^ 31 ∧
      quicFrameLoop layoutHandlers fuel flags { past, rest := payload } =
        quicFrameLoop layoutHandlers fuel' flags' { past := past', rest } := by
  induction h generalizing fuel past flags with
  | nil rest => exact ⟨past, flags, fuel, hfuel, hpayload, rfl⟩
  | @cons type items body between rest acks acks' hlayout hitems _ ih =>
    rw [List.forall_mem_append] at hacks
    obtain ⟨fuel, rfl⟩ := Nat.exists_eq_succ_of_ne_zero (Nat.ne_zero_of_lt hfuel)
    have hdecode := type.decode_append past hpayload
    have hpositive : 1 ≤ type.bytes.length := by
      rw [VarLength.bytes, List.length_cons]
      omega
    have hbetween := hitems.length_le
    rw [List.length_append] at hfuel hpayload
    obtain ⟨flags', hround⟩ := quicFrameRound_layout hlayout fuel flags
    obtain ⟨past', hread⟩ := hitems.read (show body.length < 2 ^ 31 by omega) hacks.1
      (past ++ type.bytes)
    obtain ⟨past'', flags'', fuel'', hfuel'', hrest, hloop⟩ := ih hacks.2 (by omega)
      (show between.length < fuel by omega) past' flags'
    refine ⟨past'', flags'', fuel'', hfuel'', hrest, ?_⟩
    rw [quicFrameLoop_of_type layoutHandlers hdecode, hround]
    exact (Prog.bind_of_ok hread).trans hloop

/-- The loop ends where no type can be read. -/
theorem quicFrameLoop_of_truncated (h : rest = [] ∨ VarLength.Truncated rest)
    (hrest : rest.length < 2 ^ 31) {fuel : ℕ} (hfuel : rest.length < fuel) (past : List UInt8)
    (flags : FrameFlags) : ∃ pkt, quicFrameLoop layoutHandlers fuel flags { past, rest } =
      (.ok flags, pkt) := by
  obtain ⟨fuel, rfl⟩ := Nat.exists_eq_succ_of_ne_zero (Nat.ne_zero_of_lt hfuel)
  rcases quicVariableLengthDecode_cases past hrest with ⟨v, after, rfl, -⟩ | ⟨-, pkt, hdecode⟩
  · rcases h with h | h
    · cases h
    · exact absurd h (v.not_truncated after)
  · exact ⟨pkt, quicFrameLoop_of_no_type layoutHandlers hdecode⟩

/-- A payload of which a frame overruns leaves the packet. -/
theorem Overruns.loop (h : Overruns payload) (hpayload : payload.length < 2 ^ 31) {fuel : ℕ}
    (hfuel : payload.length < fuel) (past : List UInt8) (flags : FrameFlags) :
    (quicFrameLoop layoutHandlers fuel flags { past, rest := payload }).1 = .error .ub := by
  obtain ⟨acks, type, items, body, hframes, hacks, hlayout, hover⟩ := h
  obtain ⟨past', flags', fuel', hfuel', hrest, hloop⟩ := hframes.loop
    hacks hpayload hfuel past flags
  obtain ⟨fuel', rfl⟩ := Nat.exists_eq_succ_of_ne_zero (Nat.ne_zero_of_lt hfuel')
  have hdecode := type.decode_append past' hrest
  rw [List.length_append] at hrest
  obtain ⟨flags'', hround⟩ := quicFrameRound_layout hlayout fuel' flags'
  obtain ⟨pkt, hread⟩ := hover.read (by omega) (past' ++ type.bytes)
  have hrun : (readItems items >>= fun _ => quicFrameLoop layoutHandlers fuel' flags'')
      { past := past' ++ type.bytes, rest := body } = (.error .ub, pkt) := Prog.bind_of_error hread
  rw [hloop, quicFrameLoop_of_type layoutHandlers hdecode, hround]
  exact congrArg Prod.fst hrun

/-- A payload that is accepted consists of frames up to a type that cannot be read, and one that
makes the parser leave the packet overruns. -/
theorem quicFrameLoop_post {fuel : ℕ} (hpayload : payload.length < 2 ^ 31)
    (hfuel : payload.length < fuel) (past : List UInt8) (flags : FrameFlags) :
    Prog.Post (quicFrameLoop layoutHandlers fuel flags)
      (fun _ _ => ∃ acks tail, FramesStart payload acks tail ∧ (∀ f ∈ acks, ¬ f.SeemsNegative) ∧
        (tail = [] ∨ VarLength.Truncated tail))
      (fun e _ => e = .ret ∨ e = .ub ∧ Overruns payload) { past, rest := payload } := by
  induction fuel generalizing payload past flags with
  | zero => exact absurd hfuel (Nat.not_lt_zero _)
  | succ fuel ih =>
    have hnone : ∀ f ∈ ([] : List AckFrame), ¬ f.SeemsNegative := fun f hf => by cases hf
    unfold Prog.Post
    rcases quicVariableLengthDecode_cases past hpayload with
      ⟨type, body, rfl, hdecode⟩ | ⟨hend, pkt, hdecode⟩
    · rw [quicFrameLoop_of_type layoutHandlers hdecode]
      change Prog.Post (quicFrameRound layoutHandlers fuel flags type.value) _ _
        { past := past ++ type.bytes, rest := body }
      have hpositive : 1 ≤ type.bytes.length := by
        rw [VarLength.bytes, List.length_cons]
        omega
      rw [List.length_append] at hpayload hfuel
      cases hlayout : frameLayout type.value with
      | none =>
        unfold Prog.Post
        rw [quicFrameRound_unknown hlayout]
        exact Or.inl rfl
      | some items =>
        obtain ⟨flags', hround⟩ := quicFrameRound_layout hlayout fuel flags
        rw [hround, Prog.post_bind]
        refine (readItems_post items (past ++ type.bytes) (show body.length < 2 ^ 31 by omega)).mono
          ?_ ?_
        · rintro _ ⟨past', between⟩ ⟨acks, hitems, hacks⟩
          have hbetween := hitems.length_le
          dsimp only at hbetween
          refine (ih (by omega) (by omega) past' flags').mono ?_ ?_
          · rintro _ _ ⟨acks', tail, hframes, hacks', hend⟩
            exact ⟨acks ++ acks', tail, FramesStart.cons hlayout hitems hframes,
              List.forall_mem_append.mpr ⟨hacks, hacks'⟩, hend⟩
          · rintro e _ (he | ⟨he, acks', type', items', body', hframes, hacks', hlayout', hover⟩)
            · exact Or.inl he
            · exact Or.inr ⟨he, acks ++ acks', type', items', body',
                FramesStart.cons hlayout hitems hframes,
                List.forall_mem_append.mpr ⟨hacks, hacks'⟩, hlayout', hover⟩
        · rintro e t (he | ⟨he, hover⟩)
          · exact Or.inl he
          · exact Or.inr ⟨he, [], type, items, body, FramesStart.nil _, hnone, hlayout, hover⟩
    · rw [quicFrameLoop_of_no_type layoutHandlers hdecode]
      exact ⟨[], payload, FramesStart.nil payload, hnone, hend⟩

/-- A payload is accepted when frames stand in it up to a place where no type can be read, and the
parser reads no negative sign off their bounds. -/
theorem quicFrameLoop_ok_iff (hpayload : payload.length < 2 ^ 31) :
    (∃ flags, (quicFrameLoop layoutHandlers (payload.length + 1) ⟨false, false⟩
        (rPacketBufInit payload)).1 = .ok flags) ↔
      ∃ acks tail, FramesStart payload acks tail ∧ (∀ f ∈ acks, ¬ f.SeemsNegative) ∧
        (tail = [] ∨ VarLength.Truncated tail) := by
  have hpost := quicFrameLoop_post hpayload (Nat.lt_succ_self _) [] ⟨false, false⟩
  constructor
  · rintro ⟨flags, hflags⟩
    exact hpost.of_ok (Prod.ext hflags rfl)
  · rintro ⟨acks, tail, hframes, hacks, hend⟩
    obtain ⟨past', flags', fuel', hfuel', htail, hloop⟩ :=
      hframes.loop hacks hpayload (Nat.lt_succ_self _) [] ⟨false, false⟩
    obtain ⟨pkt, hrun⟩ := quicFrameLoop_of_truncated hend htail hfuel' past' flags'
    refine ⟨flags', ?_⟩
    rw [rPacketBufInit, hloop, hrun]

/-- The parser leaves a payload when a frame overruns, and at no other time. -/
theorem quicFrameLoop_ub_iff (hpayload : payload.length < 2 ^ 31) :
    (quicFrameLoop layoutHandlers (payload.length + 1) ⟨false, false⟩
      (rPacketBufInit payload)).1 = .error .ub ↔ Overruns payload := by
  have hpost := quicFrameLoop_post hpayload (Nat.lt_succ_self _) [] ⟨false, false⟩
  constructor
  · intro hrun
    rcases hpost.of_error (Prod.ext hrun rfl) with h | ⟨-, hover⟩
    · cases h
    · exact hover
  · intro hover
    exact hover.loop hpayload (Nat.lt_succ_self _) [] ⟨false, false⟩

/-- The loop reads a byte in every round, so it ends. -/
theorem quicFrameLoop_ne_fuel (hpayload : payload.length < 2 ^ 31) :
    (quicFrameLoop layoutHandlers (payload.length + 1) ⟨false, false⟩
      (rPacketBufInit payload)).1 ≠ .error .fuel := by
  have hpost := quicFrameLoop_post hpayload (Nat.lt_succ_self _) [] ⟨false, false⟩
  intro hrun
  rcases hpost.of_error (Prod.ext hrun rfl) with h | ⟨h, -⟩ <;> cases h

end Frames

/-- How a run of the frame loop should read a payload. Errors of the connection are left aside. -/
structure PayloadRead (payload : List UInt8) (run : Except Fail FrameFlags × FrameState) :
    Prop where
  /-- The loop ends. -/
  terminates : run.1 ≠ .error .fuel
  /-- No parser leaves the payload. -/
  inside : run.1 = .error .ub → run.2.refused = true
  /-- Payloads of complete frames are accepted and no others. -/
  accepted : run.2.refused = false → ((∃ flags, run.1 = .ok flags) ↔ WellFormed payload)

/-- The payloads about which the parsers and the grammar agree. -/
structure ReadsExactly (payload : List UInt8) : Prop where
  /-- No type is truncated behind frames that are read. -/
  whole : ∀ acks tail, FramesStart payload acks tail → (∀ f ∈ acks, ¬ f.SeemsNegative) →
    ¬ VarLength.Truncated tail
  /-- No frame overruns. -/
  bounded : ¬ Overruns payload
  /-- The bounds of ACK frames seem negative when some are. -/
  signs : ∀ acks, FramesStart payload acks [] →
    ((∃ f ∈ acks, f.SeemsNegative) ↔ ∃ f ∈ acks, f.HasNegative)

/-- When it is not negative signs and truncated types that make the difference, the payloads that
the parser accepts are the well-formed ones. -/
theorem wellFormed_iff_of_ends {payload : List UInt8} :
    ((∃ acks tail, FramesStart payload acks tail ∧ (∀ f ∈ acks, ¬ f.SeemsNegative) ∧
        (tail = [] ∨ VarLength.Truncated tail)) ↔ WellFormed payload) ↔
      (∀ acks tail, FramesStart payload acks tail → (∀ f ∈ acks, ¬ f.SeemsNegative) →
        ¬ VarLength.Truncated tail) ∧
      ∀ acks, FramesStart payload acks [] →
        ((∃ f ∈ acks, f.SeemsNegative) ↔ ∃ f ∈ acks, f.HasNegative) := by
  constructor
  · intro haccepted
    constructor
    · intro acks tail hframes hacks htail
      obtain ⟨acks', hframes', -⟩ := haccepted.mp ⟨acks, tail, hframes, hacks, Or.inr htail⟩
      obtain ⟨-, rfl⟩ := hframes.unique hframes' rfl (Or.inr htail) (Or.inl rfl)
      obtain ⟨head, tail, h, -⟩ := htail
      cases h
    · intro acks hframes
      constructor
      · rintro ⟨f, hf, hseems⟩
        by_contra hnone
        push Not at hnone
        obtain ⟨acks', tail', hframes', hacks', hend⟩ := haccepted.mpr ⟨acks, hframes, hnone⟩
        obtain ⟨rfl, -⟩ := hframes.unique hframes' rfl (Or.inl rfl) hend
        exact hacks' f hf hseems
      · rintro ⟨f, hf, hnegative⟩
        by_contra hnone
        push Not at hnone
        obtain ⟨acks', hframes', hacks'⟩ := haccepted.mp ⟨acks, [], hframes, hnone, Or.inl rfl⟩
        obtain ⟨rfl, -⟩ := hframes.unique hframes' rfl (Or.inl rfl) (Or.inl rfl)
        exact hacks' f hf hnegative
  · rintro ⟨hwhole, hsigns⟩
    constructor
    · rintro ⟨acks, tail, hframes, hacks, rfl | htail⟩
      · refine ⟨acks, hframes, fun f hf hnegative => ?_⟩
        obtain ⟨g, hg, hseems⟩ := (hsigns acks hframes).mpr ⟨f, hf, hnegative⟩
        exact hacks g hg hseems
      · exact absurd htail (hwhole acks tail hframes hacks)
    · rintro ⟨acks, hframes, hacks⟩
      refine ⟨acks, [], hframes, fun f hf hseems => ?_, Or.inl rfl⟩
      obtain ⟨g, hg, hnegative⟩ := (hsigns acks hframes).mp ⟨f, hf, hseems⟩
      exact hacks g hg hnegative

/-- The loop of `QuicFrameDoParser` reads a payload as it should exactly when no type is truncated,
no frame overruns, and the signs of ACK frames are what they seem, or the connection stops it. -/
theorem payloadRead_iff (mem : ℕ → Bool) (conn : FrameConn) {payload : List UInt8}
    (hpayload : payload.length < 2 ^ 31) :
    PayloadRead payload (FrameState.recvPayload mem conn payload) ↔
      ((FrameState.recvPayload mem conn payload).2.refused = false → ReadsExactly payload) := by
  have hreads := FrameState.reads_loop mem (payload.length + 1) ⟨false, false⟩
    ⟨rPacketBufInit payload, conn, false, false⟩
  generalize hrun : FrameState.recvPayload mem conn payload = run
  rw [show quicFrameLoop _ _ _ _ = run from hrun] at hreads
  cases hrefused : run.2.refused with
  | true =>
    refine iff_of_true ?_ fun h => by cases h
    obtain ⟨e, he, hne⟩ := hreads.halts rfl hrefused
    refine ⟨?_, fun _ => hrefused, fun h => ?_⟩
    · rw [he]
      exact fun h => hne (Except.error.inj h)
    · rw [hrefused] at h
      cases h
  | false =>
    obtain ⟨hresult, -⟩ := hreads.reads hrefused
    have herror (e : Fail) : run.1 = .error e ↔
        (quicFrameLoop layoutHandlers (payload.length + 1) ⟨false, false⟩
          (rPacketBufInit payload)).1 = .error e := by
      constructor <;> intro h <;> rw [h] at hresult
      · exact Except.map_eq_error hresult.symm
      · exact Except.map_eq_error hresult
    have hok : (∃ flags, run.1 = .ok flags) ↔
        ∃ flags, (quicFrameLoop layoutHandlers (payload.length + 1) ⟨false, false⟩
          (rPacketBufInit payload)).1 = .ok flags := by
      constructor <;> rintro ⟨flags, h⟩ <;> rw [h] at hresult
      · exact Except.map_eq_ok hresult.symm
      · exact Except.map_eq_ok hresult
    have hub := (herror .ub).trans (quicFrameLoop_ub_iff hpayload)
    have haccepted := hok.trans (quicFrameLoop_ok_iff hpayload)
    constructor
    · intro h _
      have hends := wellFormed_iff_of_ends.mp (haccepted.symm.trans (h.accepted hrefused))
      refine ⟨hends.1, fun hover => ?_, hends.2⟩
      have := h.inside (hub.mpr hover)
      rw [hrefused] at this
      cases this
    · intro h
      have h := h rfl
      refine ⟨?_, ?_, ?_⟩
      · exact (herror .fuel).not.mpr (quicFrameLoop_ne_fuel hpayload)
      · exact fun hrun => absurd (hub.mp hrun) h.bounded
      · exact fun _ => haccepted.trans (wellFormed_iff_of_ends.mpr ⟨h.whole, h.signs⟩)

/-- Behind some of the frames of a payload stand the others. -/
theorem FramesStart.suffix {payload tail : List UInt8} {acks acks' : List AckFrame}
    (h : FramesStart payload acks tail) (h' : FramesStart payload acks' []) :
    ∃ acks'', FramesStart tail acks'' [] := by
  induction h generalizing acks' with
  | nil rest => exact ⟨acks', h'⟩
  | @cons type items body between rest acks acks'' hlayout hitems _ ih =>
    generalize hbytes : type.bytes ++ body = payload at h'
    cases h' with
    | nil =>
      rw [VarLength.bytes] at hbytes
      cases hbytes
    | cons hlayout' hitems' hframes' =>
      obtain ⟨rfl, rfl⟩ := VarLength.append_inj hbytes
      rw [hlayout] at hlayout'
      cases hlayout'
      obtain ⟨-, rfl⟩ := hitems.unique hitems'
      exact ih hframes'

/-- Complete frames are read exactly when no bound of an ACK frame is negative or seems so. -/
theorem ReadsExactly.of_frames {payload : List UInt8} {acks : List AckFrame}
    (hpayload : payload.length < 2 ^ 31) (h : FramesStart payload acks [])
    (hsigns : ∀ f ∈ acks, ¬ f.SeemsNegative ∧ ¬ f.HasNegative) : ReadsExactly payload := by
  refine ⟨fun acks' tail hframes _ htail => ?_, fun hover => ?_, fun acks' hframes => ?_⟩
  · obtain ⟨acks'', hrest⟩ := hframes.suffix h
    obtain ⟨-, rfl⟩ := (FramesStart.nil tail).unique hrest rfl (.inr htail) (.inl rfl)
    obtain ⟨b, bytes, hbytes, -⟩ := htail
    cases hbytes
  · obtain ⟨flags, hok⟩ := (quicFrameLoop_ok_iff hpayload).mpr
      ⟨acks, [], h, fun f hf => (hsigns f hf).1, .inl rfl⟩
    rw [(quicFrameLoop_ub_iff hpayload).mpr hover] at hok
    cases hok
  · obtain ⟨rfl, -⟩ := h.unique hframes rfl (.inl rfl) (.inl rfl)
    constructor <;> rintro ⟨f, hf, hneg⟩
    · exact absurd hneg (hsigns f hf).1
    · exact absurd hneg (hsigns f hf).2

/-- A PING frame, a MAX_DATA frame, an ACK frame of two ranges and a PADDING frame. -/
def mixedPayload : List UInt8 := [0x01, 0x10, 0x44, 0x00, 0x02] ++ (twoRangesAck.bytes ++ [0x00])

theorem mixedPayload_frames : FramesStart mixedPayload [twoRangesAck] [] := by
  have hpadding : FramesStart [0x00] [] [] :=
    @FramesStart.cons ⟨0x00, [], rfl⟩ [] [] [] [] [] [] rfl (.nil []) (.nil [])
  have hack : FramesStart (0x02 :: (twoRangesAck.bytes ++ [0x00])) [twoRangesAck] [] :=
    @FramesStart.cons ⟨0x02, [], rfl⟩ [.ack] _ [0x00] [] [twoRangesAck] [] rfl
      (.cons (.ack twoRangesAck [0x00]) (.nil [0x00])) hpadding
  have hmaxData : FramesStart ([0x10, 0x44, 0x00, 0x02] ++ (twoRangesAck.bytes ++ [0x00]))
      [twoRangesAck] [] :=
    @FramesStart.cons ⟨0x10, [], rfl⟩ [.number] _ _ [] [] [twoRangesAck] rfl
      (.cons (.number ⟨0x44, [0x00], rfl⟩ _) (.nil _)) hack
  exact @FramesStart.cons ⟨0x01, [], rfl⟩ [] _ _ [] [] [twoRangesAck] rfl (.nil _) hmaxData

/-- The payload is read as it should be. -/
theorem mixedPayload_read :
    PayloadRead mixedPayload (FrameState.recvPayload (fun _ => true) openedConn mixedPayload) := by
  refine (payloadRead_iff (fun _ => true) openedConn (by decide)).mpr fun _ => ?_
  refine ReadsExactly.of_frames (by decide) mixedPayload_frames fun f hf => ?_
  rw [List.mem_singleton.mp hf]
  decide

/-- A payload that ends in the middle of a type is accepted. -/
theorem truncatedType_not_read : ¬ PayloadRead [0x40]
    (FrameState.recvPayload (fun _ => true) openedConn [0x40]) := by
  intro h
  have haccepted := h.accepted (by decide +kernel)
  obtain ⟨acks, hframes, -⟩ := haccepted.mp ⟨⟨false, false⟩, by decide +kernel⟩
  have htruncated : VarLength.Truncated [0x40] := ⟨0x40, [], rfl, by decide⟩
  obtain ⟨-, hrest⟩ := (FramesStart.nil [0x40]).unique hframes rfl (Or.inr htruncated) (Or.inl rfl)
  cases hrest

end Tbquic
