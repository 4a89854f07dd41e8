import Mathlib.Algebra.Group.Int.Defs
import Mathlib.Algebra.Group.Nat.Defs
import Mathlib.Data.Int.Order.Basic
import Tbquic.Lib.Fallible

/-!
# Common definitions

The comparison macros of `common.h` subtract their arguments and truncate the
difference to `int`. They agree with the usual order only while the difference fits
in 31 bits, so the model keeps the truncation.
-/

namespace Tbquic

/-- How a routine of the library can end other than with its result. -/
inductive Fail
  /-- The routine returns its error code `-1` (or `NULL`). -/
  | ret
  /-- An `assert` fails and the process aborts. -/
  | assert
  /-- The behaviour is undefined: the routine reads or writes outside a buffer, follows a null
  pointer or overflows an `int`. -/
  | ub
  /-- A loop of the model runs out of its fuel. -/
  | fuel
  deriving DecidableEq, Repr

/-- The conversion of an integer to `int`. -/
def toInt (x : ℤ) : ℤ := if x % 2 ^ 32 < 2 ^ 31 then x % 2 ^ 32 else x % 2 ^ 32 - 2 ^ 32

/-- `QUIC_LT`. -/
def quicLt (a b : ℤ) : Prop := toInt (a - b) < 0

/-- `QUIC_GT`. -/
def quicGt (a b : ℤ) : Prop := 0 < toInt (a - b)

/-- `QUIC_LE`. -/
def quicLe (a b : ℤ) : Prop := toInt (a - b) ≤ 0

/-- `QUIC_GE`. -/
def quicGe (a b : ℤ) : Prop := 0 ≤ toInt (a - b)

instance (a b : ℤ) : Decidable (quicLt a b) := inferInstanceAs (Decidable (_ < _))

instance (a b : ℤ) : Decidable (quicGt a b) := inferInstanceAs (Decidable (_ < _))

instance (a b : ℤ) : Decidable (quicLe a b) := inferInstanceAs (Decidable (_ ≤ _))

instance (a b : ℤ) : Decidable (quicGe a b) := inferInstanceAs (Decidable (_ ≤ _))

/-- `QUIC_MIN`. -/
def quicMin (a b : ℕ) : ℕ := if quicGt a b then b else a

/-- `QUIC_MAX`. -/
def quicMax (a b : ℕ) : ℕ := if quicGt a b then a else b

/-- The conversion to `int` keeps the values that fit. -/
theorem toInt_of_bounds {x : ℤ} (hlow : -2 ^ 31 ≤ x) (hhigh : x < 2 ^ 31) : toInt x = x := by
  unfold toInt
  split <;> omega

/-- `QUIC_LT` reads the sign bit of the 32 bit difference. -/
theorem quicLt_iff_mod {a b : ℤ} : quicLt a b ↔ 2 ^ 31 ≤ (a - b) % 2 ^ 32 := by
  unfold quicLt toInt
  split <;> omega

/-- `QUIC_GE` reads the sign bit of the 32 bit difference. -/
theorem quicGe_iff_mod {a b : ℤ} : quicGe a b ↔ (a - b) % 2 ^ 32 < 2 ^ 31 := by
  unfold quicGe toInt
  split <;> omega

/-- `QUIC_GT` also excludes differences that vanish modulo `2 ^ 32`. -/
theorem quicGt_iff_mod {a b : ℤ} :
    quicGt a b ↔ (a - b) % 2 ^ 32 < 2 ^ 31 ∧ (a - b) % 2 ^ 32 ≠ 0 := by
  unfold quicGt toInt
  split <;> omega

/-- `QUIC_GT` does not see where a sum of 64 bits overflows. -/
theorem quicGt_mod {a m : ℕ} : quicGt ((a % 2 ^ 64 : ℕ) : ℤ) m ↔ quicGt a m := by
  rw [quicGt_iff_mod, quicGt_iff_mod]
  omega

/-- `QUIC_LE` also accepts differences that vanish modulo `2 ^ 32`. -/
theorem quicLe_iff_mod {a b : ℤ} :
    quicLe a b ↔ 2 ^ 31 ≤ (a - b) % 2 ^ 32 ∨ (a - b) % 2 ^ 32 = 0 := by
  unfold quicLe toInt
  split <;> omega

/-- On close arguments `QUIC_LT` is the order. -/
theorem quicLt_iff {a b : ℤ} (hlow : -2 ^ 31 ≤ a - b) (hhigh : a - b < 2 ^ 31) :
    quicLt a b ↔ a < b := by
  rw [quicLt, toInt_of_bounds hlow hhigh]
  omega

/-- On close arguments `QUIC_GT` is the order. -/
theorem quicGt_iff {a b : ℤ} (hlow : -2 ^ 31 ≤ a - b) (hhigh : a - b < 2 ^ 31) :
    quicGt a b ↔ b < a := by
  rw [quicGt, toInt_of_bounds hlow hhigh]
  omega

/-- On close arguments `QUIC_LE` is the order. -/
theorem quicLe_iff {a b : ℤ} (hlow : -2 ^ 31 ≤ a - b) (hhigh : a - b < 2 ^ 31) :
    quicLe a b ↔ a ≤ b := by
  rw [quicLe, toInt_of_bounds hlow hhigh]
  omega

/-- On close arguments `QUIC_GE` is the order. -/
theorem quicGe_iff {a b : ℤ} (hlow : -2 ^ 31 ≤ a - b) (hhigh : a - b < 2 ^ 31) :
    quicGe a b ↔ b ≤ a := by
  rw [quicGe, toInt_of_bounds hlow hhigh]
  omega

/-- The difference of two numbers does not fool `QUIC_GT`. -/
def GtAgrees (a b : ℕ) : Prop :=
  if b < a then 0 < (a - b) % 2 ^ 32 ∧ (a - b) % 2 ^ 32 < 2 ^ 31 else (b - a) % 2 ^ 32 ≤ 2 ^ 31

instance (a b : ℕ) : Decidable (GtAgrees a b) :=
  inferInstanceAs (Decidable (if b < a then 0 < (a - b) % 2 ^ 32 ∧ (a - b) % 2 ^ 32 < 2 ^ 31
    else (b - a) % 2 ^ 32 ≤ 2 ^ 31))

/-- On such numbers, and on no others, `QUIC_GT` is the order. -/
theorem gtAgrees_iff {a b : ℕ} : GtAgrees a b ↔ (quicGt a b ↔ b < a) := by
  rw [GtAgrees, quicGt_iff_mod]
  split_ifs with h
  · rw [iff_true_right h]
    omega
  · rw [iff_false_right h]
    omega

end Tbquic
