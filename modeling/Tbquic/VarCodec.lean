import Tbquic.VarInt

/-!
# The codec of variable-length integers

`QuicVariableLengthEncode` writes the smallest encoding of a number into every buffer that holds it,
and `QuicVariableLengthDecode` reads every encoding, as far as the check of each single byte sees
that the byte is there.
-/

namespace Tbquic

namespace VarLength

/-- No encoding of a number is smaller than the one that is written. -/
theorem size_le (v : VarLength) : varLengthSize v.value ≤ v.bytes.length := by
  have htail := Bytes.toNat_lt v.tail
  have hhead : v.head.toNat % 64 < 64 := Nat.mod_lt _ (by decide)
  have hbyte := v.head.toNat_lt
  have hfield : v.head.toNat / 64 = 0 ∨ v.head.toNat / 64 = 1 ∨ v.head.toNat / 64 = 2 ∨
      v.head.toNat / 64 = 3 := by omega
  have hlength : v.tail.length = 0 ∨ v.tail.length = 1 ∨ v.tail.length = 3 ∨
      v.tail.length = 7 := by
    rw [v.tail_length]
    rcases hfield with h | h | h | h <;> rw [h] <;> decide
  rw [value, bytes, List.length_cons, varLengthSize]
  rcases hlength with h | h | h | h <;> rw [h] at htail ⊢ <;> split_ifs <;> omega

/-- An encoding of a number is the smallest one. -/
structure IsMinimal (e : VarLength) (v : ℕ) : Prop where
  /-- It is an encoding of the number. -/
  value_eq : e.value = v
  /-- No other one is smaller. -/
  le : ∀ w : VarLength, w.value = v → e.bytes.length ≤ w.bytes.length

/-- The encoding that is written is the smallest one. -/
theorem ofNat_isMinimal {v : ℕ} (h : v < 2 ^ 62) : (ofNat v h).IsMinimal v := by
  refine ⟨ofNat_value h, fun w hw => ?_⟩
  rw [ofNat_bytes, varLengthBytes_length, ← hw]
  exact w.size_le

/-- Some bytes are read as they should be: an encoding at their start is read whole and nothing
behind it, and without one the reading fails. -/
structure DecodesRight (past rest : List UInt8) : Prop where
  /-- The number is read, and the cursor stands behind its bytes. -/
  whole : ∀ (e : VarLength) (more : List UInt8), rest = e.bytes ++ more →
    quicVariableLengthDecode { past, rest } =
      (.ok e.value, { past := past ++ e.bytes, rest := more })
  /-- The bytes end before the number does. -/
  short : (∀ (e : VarLength) (more : List UInt8), rest ≠ e.bytes ++ more) →
    ∃ t, quicVariableLengthDecode { past, rest } = (.error .ret, t)

/-- Every byte of the number at the start is seen by the check. -/
def Seen : List UInt8 → Prop
  | [] => True
  | head :: tail => SeesBytes (1 <<< (head.toNat / 64)) (head :: tail)

/-- Without a whole number at the start there are fewer bytes than the first one counts. -/
theorem lt_of_forall_ne {head : UInt8} {tail : List UInt8}
    (h : ∀ (e : VarLength) (more : List UInt8), head :: tail ≠ e.bytes ++ more) :
    (head :: tail).length < 1 <<< (head.toNat / 64) := by
  by_contra hle
  rw [List.length_cons] at hle
  have htake : (tail.take (1 <<< (head.toNat / 64) - 1)).length = 1 <<< (head.toNat / 64) - 1 :=
    List.length_take_of_le (by omega)
  refine h ⟨head, tail.take (1 <<< (head.toNat / 64) - 1), htake⟩
    (tail.drop (1 <<< (head.toNat / 64) - 1)) ?_
  rw [bytes, List.cons_append, List.take_append_drop]

/-- Some bytes are read as they should be if and only if the check sees those of the number. -/
theorem decodesRight_iff (past rest : List UInt8) : DecodesRight past rest ↔ Seen rest := by
  cases rest with
  | nil =>
    refine iff_of_true ⟨fun e more h => ?_, fun _ => ⟨{ past, rest := [] }, ?_⟩⟩ trivial
    · cases h
    · exact Prog.bind_of_error rPacketGet1_nil
  | cons head tail =>
    constructor
    · intro h
      by_contra hseen
      obtain ⟨t, hfails⟩ := @decode_of_not_sees past head tail (.inr hseen)
      have hwhole : ¬ (head :: tail).length < 1 <<< (head.toNat / 64) := by
        intro hshort
        refine hseen (SeesBytes.of_length ?_)
        have hbyte := head.toNat_lt
        have hfield : head.toNat / 64 ≤ 3 := by omega
        have hle : 1 <<< (head.toNat / 64) ≤ 1 <<< 3 := by
          rw [Nat.shiftLeft_eq, Nat.shiftLeft_eq]
          exact Nat.mul_le_mul_left 1 (Nat.pow_le_pow_right (by decide) hfield)
        omega
      by_cases hsplit : ∃ (e : VarLength) (more : List UInt8), head :: tail = e.bytes ++ more
      · obtain ⟨e, more, hbytes⟩ := hsplit
        rw [h.whole e more hbytes] at hfails
        cases hfails
      · push Not at hsplit
        exact hwhole (lt_of_forall_ne hsplit)
    · intro hseen
      refine ⟨fun e more hbytes => ?_, fun hshort =>
        decode_of_not_sees (.inl (lt_of_forall_ne hshort))⟩
      rw [hbytes]
      refine e.decode_of_sees past more ?_
      have hhead : head = e.head := by
        rw [bytes, List.cons_append, List.cons.injEq] at hbytes
        exact hbytes.1
      rw [e.bytes_length, ← hbytes, ← hhead]
      exact hseen

/-- A string of at most `2 ^ 31` bytes is read as it should be. -/
theorem decodesRight_of_length {past rest : List UInt8} (h : rest.length ≤ 2 ^ 31) :
    DecodesRight past rest := by
  rw [decodesRight_iff]
  cases rest with
  | nil => trivial
  | cons head tail => exact SeesBytes.of_length h

end VarLength

/-- The encoder writes the smallest encoding of every number below `2 ^ 62` into every buffer that
holds it and fails otherwise, no number that was read needs more bytes than it had, and a string of
at most `2 ^ 31` bytes is read as it should be. -/
theorem varLength_codec (v : UInt64) (blen : ℕ) (e : VarLength) (past rest : List UInt8)
    (hrest : rest.length ≤ 2 ^ 31) :
    ((v.toNat < 2 ^ 62 → ∃ e : VarLength, e.IsMinimal v.toNat ∧
        quicVariableLengthEncode blen v.toNat =
          if e.bytes.length ≤ blen then .ok e.bytes else .error .ret) ∧
      (2 ^ 62 ≤ v.toNat → quicVariableLengthEncode blen v.toNat = .error .ret)) ∧
    (∃ bytes, quicVariableLengthEncode e.bytes.length e.value = .ok bytes ∧
      bytes.length ≤ e.bytes.length) ∧
    VarLength.DecodesRight past rest := by
  refine ⟨⟨fun h => ⟨.ofNat v.toNat h, VarLength.ofNat_isMinimal h, ?_⟩, fun h =>
    quicVariableLengthEncode_of_le h blen⟩, ⟨varLengthBytes e.value, ?_, ?_⟩,
    VarLength.decodesRight_of_length hrest⟩
  · rw [quicVariableLengthEncode_of_lt h, VarLength.ofNat_bytes, varLengthBytes_length]
  · rw [quicVariableLengthEncode_of_lt e.value_lt, if_pos e.size_le]
  · rw [varLengthBytes_length]
    exact e.size_le

/-- A number of four bytes is read, and the byte behind it is left. -/
theorem varLength_codec_four :
    quicVariableLengthDecode { past := [], rest := [0x9d, 0x7f, 0x3e, 0x7d, 0xff] } =
      (.ok 494878333, { past := [0x9d, 0x7f, 0x3e, 0x7d], rest := [0xff] }) :=
  (varLength_codec 494878333 8 ⟨0x9d, [0x7f, 0x3e, 0x7d], rfl⟩ []
    [0x9d, 0x7f, 0x3e, 0x7d, 0xff] (by decide)).2.2.whole ⟨0x9d, [0x7f, 0x3e, 0x7d], rfl⟩ [0xff] rfl

end Tbquic
