import Mathlib.Data.Nat.Log
import Tbquic.Common
import Tbquic.Lib.Window

/-!
# Packet numbers

A packet carries the low bits of its packet number. This file models
`QuicPktNumberEncode` and `QuicPktNumberDecode`, states the decoder of RFC 9000 A.3 that
they are meant to follow, and says exactly when the two decoders agree.
-/

namespace Tbquic

/-- The three values computed by `QuicPktNumberGetParam`. -/
structure PktNumParam where
  /-- `*win`. -/
  win : ℕ
  /-- `*half_win`. -/
  halfWin : ℕ
  /-- `*mask`. -/
  mask : ℕ

/-- `QuicPktNumberGetParam`. -/
def quicPktNumberGetParam (pnNbits : ℕ) : Except Fail PktNumParam :=
  if pnNbits ≤ 32 then
    .ok { win := 2 ^ pnNbits, halfWin := 2 ^ pnNbits >>> 1, mask := 2 ^ pnNbits - 1 }
  else .error .assert

/-- The loop of `QuicPktNumberEncode` that looks for the top bit, entered with the loop
variable one below the argument. -/
def topBit (numUnacked : ℕ) : ℕ → ℤ
  | 0 => -1
  | i + 1 => if numUnacked >>> i ≠ 0 then i else topBit numUnacked i

/-- The value `-1` that `QuicPktNumberEncode` returns as a `uint32_t`. -/
def pktNumberError : ℕ := 2 ^ 32 - 1

/-- The number of packets that `QuicPktNumberEncode` counts as unacknowledged. -/
def numUnacked (fullPn largestAcked : ℕ) : ℕ :=
  if largestAcked = 0 then (fullPn + 1) % 2 ^ 64 else (fullPn + 2 ^ 64 - largestAcked) % 2 ^ 64

/-- The number of bytes that `QuicPktNumberEncode` finds necessary. -/
def minBytes (fullPn largestAcked : ℕ) : ℕ :=
  let minBits := (topBit (numUnacked fullPn largestAcked) 64 + 2).toNat
  minBits >>> 3 + (if minBits &&& 0x7 = 0 then 0 else 1)

/-- `QuicPktNumberEncode`. The number of bytes is compared with the number of bits, as in
the source. -/
def quicPktNumberEncode (fullPn largestAcked pnNbits : ℕ) : Except Fail ℕ := do
  let param ← quicPktNumberGetParam pnNbits
  if largestAcked ≠ 0 ∧ ¬ quicGe fullPn largestAcked then .error .assert
  else if pnNbits < minBytes fullPn largestAcked then .ok pktNumberError
  else .ok (fullPn &&& param.mask)

/-- The end of `QuicPktNumberDecode`, which moves the candidate into the window. -/
def quicPktNumberAdjust (expectedPn pnWin pnHwin candidatePn : ℕ) : ℕ :=
  if quicLe candidatePn ((expectedPn : ℤ) - pnHwin) ∧
      quicLt candidatePn ((2 : ℤ) ^ 62 - pnWin) then
    (candidatePn + pnWin) % 2 ^ 64
  else if quicGt candidatePn ((expectedPn : ℤ) + pnHwin) ∧ quicGe candidatePn pnWin then
    (candidatePn + 2 ^ 64 - pnWin) % 2 ^ 64
  else candidatePn

/-- `QuicPktNumberDecode`. -/
def quicPktNumberDecode (largestPn truncatedPn pnNbits : ℕ) : Except Fail ℕ := do
  let expectedPn := (largestPn + 1) % 2 ^ 64
  let param ← quicPktNumberGetParam pnNbits
  let candidatePn := (expectedPn &&& (2 ^ 64 - 1 - param.mask)) ||| truncatedPn
  .ok (quicPktNumberAdjust expectedPn param.win param.halfWin candidatePn)

example : quicPktNumberEncode 0xa82f9b32 0xa82f30ea 16 = .ok 0x9b32 := by decide

example : quicPktNumberDecode 0xa82f30ea 0x9b32 16 = .ok 0xa82f9b32 := by decide

/-- The widths of the packet number field. -/
def pktNumberWidths : List ℕ := [8, 16, 24, 32]

/-- A width of the field lies between one byte and four. -/
theorem pktNumberWidths_bounds {pnNbits : ℕ} (hbits : pnNbits ∈ pktNumberWidths) :
    8 ≤ pnNbits ∧ pnNbits ≤ 32 := by
  simp only [pktNumberWidths, List.mem_cons, List.not_mem_nil, or_false] at hbits
  omega

/-- The window of a field is twice its half window, which fits in 31 bits. -/
theorem two_pow_width {pnNbits : ℕ} (hbits : pnNbits ∈ pktNumberWidths) :
    2 ^ pnNbits = 2 * 2 ^ (pnNbits - 1) ∧
      (pnNbits ≠ 32 ∧ 2 ^ (pnNbits - 1) ≤ 2 ^ 23 ∨ pnNbits = 32) := by
  simp only [pktNumberWidths, List.mem_cons, List.not_mem_nil, or_false] at hbits
  rcases hbits with rfl | rfl | rfl | rfl <;> decide

/-- Without truncation the decoder of RFC 9000 A.3 is the standard window decoder. -/
def rfcPktNumberDecode (largestPn truncatedPn pnNbits : ℕ) : ℕ :=
  Window.decode (2 ^ 62) (2 ^ pnNbits) (largestPn + 1) truncatedPn

section Adjust

variable {expectedPn fullPn base half low : ℕ}

/-- The upper bound of the first move is checked on the sign of the number reached. -/
theorem quicLt_limit_iff (hfull : fullPn = base + low + 2 * half) :
    quicLt ((base + low : ℕ) : ℤ) (2 ^ 62 - ((2 * half : ℕ) : ℤ)) ↔ 2 ^ 31 ≤ fullPn % 2 ^ 32 := by
  have hdiff : ((base + low : ℕ) : ℤ) - (2 ^ 62 - ((2 * half : ℕ) : ℤ)) = fullPn - 2 ^ 62 := by
    omega
  rw [quicLt_iff_mod, hdiff]
  omega

/-- The lower bound of the second move is checked on the sign of the number reached. -/
theorem quicGe_window_iff (hfull : fullPn + 2 * half = base + low) :
    quicGe ((base + low : ℕ) : ℤ) ((2 * half : ℕ) : ℤ) ↔ fullPn % 2 ^ 32 < 2 ^ 31 := by
  have hdiff : ((base + low : ℕ) : ℤ) - ((2 * half : ℕ) : ℤ) = fullPn := by omega
  rw [quicGe_iff_mod, hdiff]
  omega

/-- A number one window above the block of the expected number is reached exactly when its
low half is negative as an `int`. -/
theorem quicPktNumberAdjust_above (hhalf : half ≤ 2 ^ 23 ∨ half = 2 ^ 31) (hpos : 0 < half)
    (hfull : fullPn = base + low + 2 * half) (hnext : expectedPn < base + 2 * half)
    (hhigh : fullPn ≤ expectedPn + half) (hlimit : fullPn < 2 ^ 62) :
    quicPktNumberAdjust expectedPn (2 * half) half (base + low) = fullPn ↔
      2 ^ 31 ≤ fullPn % 2 ^ 32 := by
  have hmove : quicLe ((base + low : ℕ) : ℤ) ((expectedPn : ℤ) - half) := by
    rw [quicLe_iff] <;> omega
  have hstay : ¬ quicGt ((base + low : ℕ) : ℤ) ((expectedPn : ℤ) + half) := by
    rcases hhalf with hhalf | rfl
    · rw [quicGt_iff] <;> omega
    · rw [quicGt_iff_mod]
      omega
  simp only [quicPktNumberAdjust, hmove, quicLt_limit_iff hfull, hstay, true_and, false_and,
    if_false]
  split_ifs <;> omega

/-- A number one window below the block of the expected number is reached exactly when its
low half is not negative as an `int`. -/
theorem quicPktNumberAdjust_below (hhalf : half ≤ 2 ^ 23 ∨ half = 2 ^ 31)
    (hbase : base ≤ expectedPn) (hfull : fullPn + 2 * half = base + low) (hlow : low < 2 * half)
    (hnear : expectedPn < fullPn + half) (hlimit : fullPn < 2 ^ 62) :
    quicPktNumberAdjust expectedPn (2 * half) half (base + low) = fullPn ↔
      fullPn % 2 ^ 32 < 2 ^ 31 := by
  have hmove : quicGt ((base + low : ℕ) : ℤ) ((expectedPn : ℤ) + half) := by
    rw [quicGt_iff] <;> omega
  have hstay : ¬ quicLe ((base + low : ℕ) : ℤ) ((expectedPn : ℤ) - half) := by
    rcases hhalf with hhalf | rfl
    · rw [quicLe_iff] <;> omega
    · rw [quicLe_iff_mod]
      omega
  simp only [quicPktNumberAdjust, hmove, quicGe_window_iff hfull, hstay, true_and, false_and,
    if_false]
  split_ifs <;> omega

/-- A number in the block of the expected number is kept by a narrow field. -/
theorem quicPktNumberAdjust_narrow (hhalf : half ≤ 2 ^ 23) (hfull : fullPn = base + low)
    (hnear : expectedPn < fullPn + half) (hhigh : fullPn ≤ expectedPn + half) :
    quicPktNumberAdjust expectedPn (2 * half) half (base + low) = fullPn := by
  have hle : ¬ quicLe ((base + low : ℕ) : ℤ) ((expectedPn : ℤ) - half) := by
    rw [quicLe_iff] <;> omega
  have hgt : ¬ quicGt ((base + low : ℕ) : ℤ) ((expectedPn : ℤ) + half) := by
    rw [quicGt_iff] <;> omega
  simp only [quicPktNumberAdjust, hle, hgt, false_and, if_false, hfull]

/-- A number in the block of the expected number is kept by a 32 bit field exactly when its
low half has the sign of its position in the window. -/
theorem quicPktNumberAdjust_wide (hfull : fullPn = base + low)
    (hnear : expectedPn < fullPn + 2 ^ 31) (hhigh : fullPn ≤ expectedPn + 2 ^ 31)
    (hlimit : fullPn < 2 ^ 62) :
    quicPktNumberAdjust expectedPn (2 * 2 ^ 31) (2 ^ 31) (base + low) = fullPn ↔
      (expectedPn ≤ fullPn ↔ fullPn % 2 ^ 32 < 2 ^ 31) := by
  have hle : quicLe ((base + low : ℕ) : ℤ) ((expectedPn : ℤ) - (2 ^ 31 : ℕ)) ↔
      expectedPn ≤ fullPn := by
    rw [quicLe_iff_mod]
    omega
  have hgt : quicGt ((base + low : ℕ) : ℤ) ((expectedPn : ℤ) + (2 ^ 31 : ℕ)) ↔
      fullPn < expectedPn := by
    rw [quicGt_iff_mod]
    omega
  have hlt : quicLt ((base + low : ℕ) : ℤ) (2 ^ 62 - ((2 * 2 ^ 31 : ℕ) : ℤ)) ↔
      2 ^ 31 ≤ fullPn % 2 ^ 32 := by
    rw [quicLt_iff_mod]
    omega
  have hge : quicGe ((base + low : ℕ) : ℤ) ((2 * 2 ^ 31 : ℕ) : ℤ) ↔
      fullPn % 2 ^ 32 < 2 ^ 31 := by
    rw [quicGe_iff_mod]
    omega
  simp only [quicPktNumberAdjust, hle, hgt, hlt, hge]
  split_ifs <;> omega

end Adjust

/-- The numbers of the window that the truncating comparisons of `QuicPktNumberDecode` let
it recover. Moving up by one window succeeds when the low half of the number, read as an
`int`, is negative, and moving down when it is not. A 32 bit field has a window as wide as
an `int`, and then staying in the block of the expected number has such a condition too. -/
def DecodeRecovers (expectedPn fullPn pnNbits : ℕ) : Prop :=
  (expectedPn / 2 ^ pnNbits < fullPn / 2 ^ pnNbits → 2 ^ 31 ≤ fullPn % 2 ^ 32) ∧
  (fullPn / 2 ^ pnNbits < expectedPn / 2 ^ pnNbits → fullPn % 2 ^ 32 < 2 ^ 31) ∧
  (fullPn / 2 ^ pnNbits = expectedPn / 2 ^ pnNbits → pnNbits = 32 →
    (expectedPn ≤ fullPn ↔ fullPn % 2 ^ 32 < 2 ^ 31))

/-- The decoder adjusts the expected number with its low bits replaced. -/
theorem quicPktNumberDecode_eq_adjust {largestPn truncatedPn pnNbits : ℕ}
    (hlargest : largestPn ≤ 2 ^ 62 - 2) (hbits : pnNbits ∈ pktNumberWidths)
    (htruncated : truncatedPn < 2 ^ pnNbits) :
    quicPktNumberDecode largestPn truncatedPn pnNbits =
      .ok (quicPktNumberAdjust (largestPn + 1) (2 * 2 ^ (pnNbits - 1)) (2 ^ (pnNbits - 1))
        ((largestPn + 1) / 2 ^ pnNbits * 2 ^ pnNbits + truncatedPn)) := by
  obtain ⟨hwidth, -⟩ := two_pow_width hbits
  have hle := (pktNumberWidths_bounds hbits).2
  have hexpected : (largestPn + 1) % 2 ^ 64 = largestPn + 1 := Nat.mod_eq_of_lt (by omega)
  have hcandidate := Window.and_highMask_or (by omega : pnNbits ≤ 64)
    (by omega : largestPn + 1 < 2 ^ 64) htruncated
  have hhalf : 2 ^ pnNbits >>> 1 = 2 ^ (pnNbits - 1) := by
    rw [hwidth]
    omega
  rw [Window.highMask] at hcandidate
  simp only [quicPktNumberDecode, quicPktNumberGetParam, if_pos hle, hexpected, bind,
    Except.bind, hcandidate, hhalf, ← hwidth]

/-- Inside the window of RFC 9000 A.3 the decoder returns the full packet number exactly
for the numbers that its comparisons recover. -/
theorem quicPktNumberDecode_eq_iff {largestPn fullPn pnNbits : ℕ}
    (hlargest : largestPn ≤ 2 ^ 62 - 2) (hbits : pnNbits ∈ pktNumberWidths)
    (hfull : fullPn < 2 ^ 62) (hlow : largestPn + 1 < fullPn + 2 ^ (pnNbits - 1))
    (hhigh : fullPn ≤ largestPn + 1 + 2 ^ (pnNbits - 1)) :
    quicPktNumberDecode largestPn (fullPn % 2 ^ pnNbits) pnNbits = .ok fullPn ↔
      DecodeRecovers (largestPn + 1) fullPn pnNbits := by
  rw [quicPktNumberDecode_eq_adjust hlargest hbits (Nat.mod_lt _ (Nat.two_pow_pos _)),
    Except.ok.injEq, DecodeRecovers]
  obtain ⟨hwidth, hhalf⟩ := two_pow_width hbits
  have hpos : 0 < 2 ^ (pnNbits - 1) := Nat.two_pow_pos _
  have hwide : 2 ^ (pnNbits - 1) ≤ 2 ^ 23 ∨ 2 ^ (pnNbits - 1) = 2 ^ 31 := by
    rcases hhalf with ⟨_, h⟩ | h
    · exact .inl h
    · exact .inr (by rw [h])
  have hblock := Window.block_cases hpos hlow hhigh
  have hfullsplit := Nat.div_add_mod' fullPn (2 ^ pnNbits)
  have hsplit := Nat.div_add_mod' (largestPn + 1) (2 ^ pnNbits)
  have hmod := Nat.mod_lt fullPn (Nat.two_pow_pos pnNbits)
  have hmod' := Nat.mod_lt (largestPn + 1) (Nat.two_pow_pos pnNbits)
  rw [← hwidth] at hblock
  rcases hblock with h | h | h
  · rw [h] at hfullsplit
    simp only [h, lt_irrefl, false_imp_iff, true_and, true_imp_iff]
    rcases hhalf with ⟨hne, hhalf⟩ | rfl
    · simp only [hne, false_imp_iff, iff_true]
      exact quicPktNumberAdjust_narrow hhalf hfullsplit.symm hlow hhigh
    · simpa only [true_imp_iff] using
        quicPktNumberAdjust_wide hfullsplit.symm hlow hhigh hfull
  · rw [h, Nat.add_mul, Nat.one_mul] at hfullsplit
    rw [quicPktNumberAdjust_above hwide hpos (by omega) (by omega) hhigh hfull]
    simp [h]
  · rw [← h, Nat.add_mul, Nat.one_mul] at hsplit ⊢
    rw [quicPktNumberAdjust_below hwide (by omega) (by omega) (by omega) hlow hfull]
    simp

/-- A packet number inside the window that the decoder recovers. -/
theorem quicPktNumberDecode_eq_iff_inside :
    quicPktNumberDecode 0xa82f30ea (0xa82f9b32 % 2 ^ 16) 16 = .ok 0xa82f9b32 ↔
      DecodeRecovers (0xa82f30ea + 1) 0xa82f9b32 16 :=
  quicPktNumberDecode_eq_iff (by decide) (by decide) (by decide) (by decide) (by decide)

/-- One byte does not recover packet 513 after packet 495: the comparison with `2 ^ 62`
truncates to a positive number and the candidate 257 is kept. -/
theorem quicPktNumberDecode_ne_full :
    495 ≤ 2 ^ 62 - 2 ∧ 8 ∈ pktNumberWidths ∧ 513 < 2 ^ 62 ∧ 495 + 1 < 513 + 2 ^ (8 - 1) ∧
      513 ≤ 495 + 1 + 2 ^ (8 - 1) ∧ quicPktNumberDecode 495 (513 % 2 ^ 8) 8 ≠ .ok 513 := by
  decide

/-- The top bit lies below every power of two above the number. -/
theorem topBit_lt {n j : ℕ} (h : n < 2 ^ j) (k : ℕ) : topBit n k < j := by
  induction k with
  | zero => simp [topBit]; omega
  | succ k ih =>
    rw [topBit]
    split
    · rename_i hbit
      rw [Nat.shiftRight_eq_div_pow] at hbit
      have hle : 2 ^ k ≤ n := by
        by_contra hlt
        exact hbit (Nat.div_eq_of_lt (by omega))
      exact_mod_cast (Nat.pow_lt_pow_iff_right (by decide)).mp (hle.trans_lt h)
    · exact ih

/-- Below `2 ^ 62` the subtraction of the encoder does not wrap. -/
theorem numUnacked_eq {fullPn largestAcked : ℕ} (hfull : fullPn < 2 ^ 62)
    (hacked : largestAcked ≤ fullPn) :
    numUnacked fullPn largestAcked =
      if largestAcked = 0 then fullPn + 1 else fullPn - largestAcked := by
  unfold numUnacked
  split <;> omega

/-- The number of bytes of a count with a known bound. -/
theorem minBytes_le_of_lt {fullPn largestAcked j : ℕ}
    (h : numUnacked fullPn largestAcked < 2 ^ j) : minBytes fullPn largestAcked ≤ (j + 8) / 8 := by
  have htop := topBit_lt h 64
  have hmask : ∀ n : ℕ, n &&& 7 = n % 8 := fun n => Nat.and_two_pow_sub_one_eq_mod n 3
  simp only [minBytes, Nat.shiftRight_eq_div_pow, hmask]
  split <;> omega

/-- No packet number needs more than nine bytes. -/
theorem minBytes_le (fullPn largestAcked : ℕ) : minBytes fullPn largestAcked ≤ 9 := by
  apply minBytes_le_of_lt (j := 64)
  unfold numUnacked
  split <;> exact Nat.mod_lt _ (by decide)

/-- A code that fits in its field is the low part of the packet number. The error value of
the encoder does not fit. -/
theorem quicPktNumberEncode_low {fullPn largestAcked len code : ℕ} (hlen : 1 ≤ len ∧ len ≤ 4)
    (h : quicPktNumberEncode fullPn largestAcked (len * 8) = .ok code)
    (hfits : code / 256 ^ len = 0) : code = fullPn % 2 ^ (8 * len) := by
  have hmin := minBytes_le fullPn largestAcked
  simp only [quicPktNumberEncode, quicPktNumberGetParam, if_pos (by omega : len * 8 ≤ 32), bind,
    Except.bind] at h
  split at h
  · simp at h
  · split at h
    · have hone : len = 1 := by omega
      subst hone
      simp only [pktNumberError, Except.ok.injEq] at h
      omega
    · rw [Nat.and_two_pow_sub_one_eq_mod, Except.ok.injEq, Nat.mul_comm] at h
      exact h.symm

/-- On every packet number below `2 ^ 62` the encoder returns the low part, whatever the
width: comparing bytes with bits, it never finds the field too small. -/
theorem quicPktNumberEncode_eq {fullPn largestAcked pnNbits : ℕ} (hfull : fullPn < 2 ^ 62)
    (hbits : pnNbits ∈ pktNumberWidths) (hle : largestAcked ≤ fullPn)
    (hacked : largestAcked = 0 ∨ quicGe fullPn largestAcked) :
    quicPktNumberEncode fullPn largestAcked pnNbits = .ok (fullPn % 2 ^ pnNbits) := by
  obtain ⟨hlow, hhigh⟩ := pktNumberWidths_bounds hbits
  have hmin : minBytes fullPn largestAcked ≤ (63 + 8) / 8 := by
    apply minBytes_le_of_lt
    rw [numUnacked_eq hfull hle]
    split <;> omega
  have hassert : ¬ (largestAcked ≠ 0 ∧ ¬ quicGe fullPn largestAcked) := by tauto
  simp only [quicPktNumberEncode, quicPktNumberGetParam, if_pos hhigh, bind, Except.bind,
    if_neg hassert, if_neg (by omega : ¬ pnNbits < minBytes fullPn largestAcked),
    Nat.and_two_pow_sub_one_eq_mod]

end Tbquic
