import Mathlib.Data.Nat.Bitwise
import Mathlib.Tactic.Ring

/-!
# Recovering a number from its low bits

A number can be sent by its low bits when the receiver knows a window of one full
period around an expected value. The receiver replaces the low bits of the expected
value and moves by one period where the result leaves the window.
-/

namespace Window

/-- The complement of a mask of `bits` low bits within a word. -/
def highMask (width bits : ℕ) : ℕ := 2 ^ width - 1 - (2 ^ bits - 1)

/-- The complement of a mask is a shifted mask. -/
theorem highMask_eq {width bits : ℕ} (hbits : bits ≤ width) :
    highMask width bits = 2 ^ bits * (2 ^ (width - bits) - 1) := by
  have hsplit : 2 ^ bits * 2 ^ (width - bits) = 2 ^ width := by
    rw [← Nat.pow_add, Nat.add_sub_cancel' hbits]
  have hpos := Nat.two_pow_pos bits
  rw [highMask, Nat.mul_sub, hsplit]
  omega

/-- Clearing the low bits of a number leaves its multiple of the period. -/
theorem and_highMask {width bits e : ℕ} (hbits : bits ≤ width) (he : e < 2 ^ width) :
    e &&& highMask width bits = e / 2 ^ bits * 2 ^ bits := by
  apply Nat.eq_of_testBit_eq
  intro i
  rw [highMask_eq hbits, Nat.testBit_and, Nat.testBit_two_pow_mul, Nat.testBit_two_pow_sub_one,
    mul_comm, Nat.testBit_two_pow_mul]
  by_cases h : i < bits
  · simp [Nat.not_le.mpr h]
  · have hle : bits ≤ i := by omega
    rw [Nat.testBit_div_two_pow, Nat.sub_add_cancel hle]
    by_cases hi : i < width
    · simp [hle, show i - bits < width - bits by omega]
    · have hbit : e.testBit i = false :=
        Nat.testBit_lt_two_pow (he.trans_le (Nat.pow_le_pow_right (by decide) (by omega)))
      simp [hbit]

/-- Filling the cleared bits adds them. -/
theorem and_highMask_or {width bits e low : ℕ} (hbits : bits ≤ width) (he : e < 2 ^ width)
    (hlow : low < 2 ^ bits) :
    (e &&& highMask width bits) ||| low = e / 2 ^ bits * 2 ^ bits + low := by
  rw [and_highMask hbits he, mul_comm, Nat.two_pow_add_eq_or_of_lt hlow]

/-- The standard decoder: replace the low bits of the expected number, then move by one
period where the candidate lies outside the half open window around it. Numbers of the
space are below `limit`. -/
def decode (limit period expected low : ℕ) : ℕ :=
  let candidate := expected / period * period + low
  if candidate + period / 2 ≤ expected ∧ candidate + period < limit then candidate + period
  else if expected + period / 2 < candidate ∧ period ≤ candidate then candidate - period
  else candidate

/-- The block of a number inside the window is that of the expected number or one of its
two neighbours. -/
theorem block_cases {half expected full : ℕ} (hhalf : 0 < half)
    (hlow : expected < full + half) (hhigh : full ≤ expected + half) :
    full / (2 * half) = expected / (2 * half) ∨
      full / (2 * half) = expected / (2 * half) + 1 ∨
      full / (2 * half) + 1 = expected / (2 * half) := by
  have hpos : 0 < 2 * half := by omega
  have he := Nat.div_add_mod expected (2 * half)
  have hf := Nat.div_add_mod full (2 * half)
  have he' := Nat.mod_lt expected hpos
  have hf' := Nat.mod_lt full hpos
  rcases Nat.lt_trichotomy (full / (2 * half)) (expected / (2 * half)) with h | h | h
  · right; right
    by_contra hne
    have : 2 * half * (full / (2 * half) + 2) ≤ 2 * half * (expected / (2 * half)) :=
      Nat.mul_le_mul_left _ (by omega)
    rw [Nat.mul_add] at this
    omega
  · exact .inl h
  · right; left
    by_contra hne
    have : 2 * half * (expected / (2 * half) + 2) ≤ 2 * half * (full / (2 * half)) :=
      Nat.mul_le_mul_left _ (by omega)
    rw [Nat.mul_add] at this
    omega

/-- The decoder recovers every number of the window from its low bits. -/
theorem decode_mod {limit half expected full : ℕ} (hhalf : 0 < half)
    (hlow : expected < full + half) (hhigh : full ≤ expected + half) (hlimit : full < limit) :
    decode limit (2 * half) expected (full % (2 * half)) = full := by
  have hperiod : 2 * half / 2 = half := by omega
  have he := Nat.div_add_mod' expected (2 * half)
  have hf := Nat.div_add_mod' full (2 * half)
  have he' := Nat.mod_lt expected (by omega : 0 < 2 * half)
  unfold decode
  rw [hperiod]
  rcases block_cases hhalf hlow hhigh with h | h | h
  · rw [← h, hf]
    simp only
    rw [if_neg (by omega), if_neg (by omega)]
  · rw [h, Nat.add_mul, Nat.one_mul] at hf
    simp only
    rw [if_pos (by omega)]
    omega
  · rw [← h, Nat.add_mul, Nat.one_mul] at he ⊢
    simp only
    rw [if_neg (by omega), if_pos (by omega)]
    omega

end Window
