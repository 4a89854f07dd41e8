import Mathlib.Data.List.Induction
import Mathlib.Data.Nat.ModEq
import Mathlib.Tactic.Ring

/-!
# Big-endian byte strings

Numbers as byte strings with the most significant byte first, and the replacement of a
stretch of a byte string.
-/

namespace Bytes

/-- The lowest `size` bytes of a number, the most significant first. -/
def ofNat : ℕ → ℕ → List UInt8
  | 0, _ => []
  | size + 1, n => ofNat size (n / 256) ++ [UInt8.ofNat n]

/-- The number that a byte string denotes. -/
def toNat (bytes : List UInt8) : ℕ := bytes.foldl (fun acc b => acc * 256 + b.toNat) 0

@[simp] theorem ofNat_length (size n : ℕ) : (ofNat size n).length = size := by
  induction size generalizing n with
  | zero => rfl
  | succ size ih => simp [ofNat, ih]

@[simp] theorem toNat_nil : toNat [] = 0 := rfl

/-- The last byte is the least significant. -/
theorem toNat_concat (bytes : List UInt8) (b : UInt8) :
    toNat (bytes ++ [b]) = toNat bytes * 256 + b.toNat := by
  simp [toNat]

/-- Reading from an accumulator puts it before the string. -/
theorem foldl_eq (bytes : List UInt8) (acc : ℕ) :
    bytes.foldl (fun acc b => acc * 256 + b.toNat) acc =
      acc * 256 ^ bytes.length + toNat bytes := by
  induction bytes using List.reverseRecOn with
  | nil => simp
  | append_singleton bytes b ih =>
    rw [List.foldl_append, ih, toNat_concat, List.length_append, List.length_singleton,
      Nat.pow_succ]
    simp only [List.foldl_cons, List.foldl_nil]
    ring

/-- The first byte is the most significant. -/
theorem toNat_cons (b : UInt8) (bytes : List UInt8) :
    toNat (b :: bytes) = b.toNat * 256 ^ bytes.length + toNat bytes := by
  rw [toNat, List.foldl_cons, foldl_eq]
  simp

/-- Writing and reading a number keeps its low bytes. -/
theorem toNat_ofNat (size n : ℕ) : toNat (ofNat size n) = n % 256 ^ size := by
  induction size generalizing n with
  | zero => simp [ofNat, Nat.mod_one]
  | succ size ih =>
    have hbyte : (UInt8.ofNat n).toNat = n % 256 := rfl
    rw [ofNat, toNat_concat, ih, hbyte, Nat.pow_succ', Nat.mod_mul]
    ring

/-- A number that fits survives writing and reading. -/
theorem toNat_ofNat_of_lt {size n : ℕ} (h : n < 256 ^ size) : toNat (ofNat size n) = n := by
  rw [toNat_ofNat, Nat.mod_eq_of_lt h]

/-- A byte string survives reading and writing. -/
theorem ofNat_toNat (bytes : List UInt8) : ofNat bytes.length (toNat bytes) = bytes := by
  induction bytes using List.reverseRecOn with
  | nil => rfl
  | append_singleton bytes b ih =>
    have hlt : b.toNat < 256 := b.toNat_lt
    have hdiv : (toNat bytes * 256 + b.toNat) / 256 = toNat bytes := by omega
    have hbyte : UInt8.ofNat (toNat bytes * 256 + b.toNat) = b := by
      apply UInt8.toNat_inj.mp
      rw [UInt8.toNat_ofNat']
      omega
    rw [List.length_append, List.length_singleton, ofNat, toNat_concat, hdiv, ih, hbyte]

/-- A byte string denotes a number below the power of its length. -/
theorem toNat_lt (bytes : List UInt8) : toNat bytes < 256 ^ bytes.length := by
  induction bytes using List.reverseRecOn with
  | nil => simp
  | append_singleton bytes b ih =>
    have hb := b.toNat_lt
    rw [toNat_concat, List.length_append, List.length_singleton, Nat.pow_succ]
    omega

/-- Numbers with equal low bytes are equal modulo the power of their number. -/
theorem mod_eq_of_bytes_eq {size a b : ℕ}
    (h : ∀ i < size, a / 256 ^ i % 256 = b / 256 ^ i % 256) : a % 256 ^ size = b % 256 ^ size := by
  induction size with
  | zero => simp [Nat.mod_one]
  | succ size ih =>
    rw [Nat.mod_pow_succ, Nat.mod_pow_succ, ih fun i hi => h i (by omega), h size (by omega)]

/-- Replace the bytes of a string from an offset on, keeping its length. -/
def overwrite (buf : List UInt8) (offset : ℕ) (bytes : List UInt8) : List UInt8 :=
  buf.mapIdx fun i b => if offset ≤ i then (bytes[i - offset]?).getD b else b

@[simp] theorem overwrite_length (buf bytes : List UInt8) (offset : ℕ) :
    (overwrite buf offset bytes).length = buf.length := by
  simp [overwrite]

/-- Nothing is replaced by an empty stretch. -/
@[simp] theorem overwrite_nil (buf : List UInt8) (offset : ℕ) : overwrite buf offset [] = buf := by
  apply List.ext_getElem?
  intro i
  simp [overwrite]

/-- The bytes of a stretch are those that replace it. -/
theorem getElem?_overwrite_of_mem {buf bytes : List UInt8} {offset i : ℕ} (hlow : offset ≤ i)
    (hhigh : i < offset + bytes.length) (hbuf : i < buf.length) :
    (overwrite buf offset bytes)[i]? = bytes[i - offset]? := by
  have hi : i - offset < bytes.length := by omega
  rw [overwrite, List.getElem?_mapIdx, List.getElem?_eq_getElem hbuf,
    List.getElem?_eq_getElem hi, Option.map_some, if_pos hlow, Option.getD_some]

/-- The bytes outside a stretch stay. -/
theorem getElem?_overwrite_of_not_mem {buf bytes : List UInt8} {offset i : ℕ}
    (h : i < offset ∨ offset + bytes.length ≤ i) :
    (overwrite buf offset bytes)[i]? = buf[i]? := by
  rw [overwrite, List.getElem?_mapIdx]
  cases buf[i]? with
  | none => rfl
  | some b =>
    rw [Option.map_some]
    rcases h with hlow | hhigh
    · rw [if_neg (Nat.not_le.mpr hlow)]
    · rw [List.getElem?_eq_none (by omega), Option.getD_none, ite_self]

/-- Bytes behind a stretch that is overwritten stay. -/
theorem drop_overwrite {buf bytes : List UInt8} {offset n : ℕ} (h : offset + bytes.length ≤ n) :
    (overwrite buf offset bytes).drop n = buf.drop n := by
  apply List.ext_getElem?
  intro i
  rw [List.getElem?_drop, List.getElem?_drop]
  apply getElem?_overwrite_of_not_mem
  omega

/-- Replacing a stretch of a string by one of the same length. -/
theorem overwrite_append {before stretch bytes : List UInt8} (rest : List UInt8)
    (h : bytes.length = stretch.length) :
    overwrite (before ++ stretch ++ rest) before.length bytes = before ++ bytes ++ rest := by
  apply List.ext_getElem?
  intro i
  simp only [overwrite, List.getElem?_mapIdx, List.append_assoc]
  rcases Nat.lt_or_ge i before.length with hi | hi
  · rw [List.getElem?_append_left hi, List.getElem?_append_left hi]
    simp [List.getElem?_eq_getElem hi, Nat.not_le.mpr hi]
  · rw [List.getElem?_append_right hi, List.getElem?_append_right hi]
    rcases Nat.lt_or_ge (i - before.length) bytes.length with hj | hj
    · rw [List.getElem?_append_left hj, List.getElem?_append_left (h ▸ hj)]
      simp [List.getElem?_eq_getElem hj, List.getElem?_eq_getElem (h ▸ hj : _ < stretch.length), hi]
    · rw [List.getElem?_append_right hj, List.getElem?_append_right (h ▸ hj), h]
      cases rest[i - before.length - stretch.length]? <;>
        simp [List.getElem?_eq_none hj]

/-- Bytes behind a stretch do not take part in its replacement. -/
theorem overwrite_append_right {buf bytes : List UInt8} {offset : ℕ} (more : List UInt8)
    (h : offset + bytes.length ≤ buf.length) :
    overwrite (buf ++ more) offset bytes = overwrite buf offset bytes ++ more := by
  apply List.ext_getElem?
  intro i
  by_cases hi : i < buf.length
  · rw [List.getElem?_append_left (by simpa using hi)]
    simp only [overwrite, List.getElem?_mapIdx, List.getElem?_append_left hi]
  · rw [getElem?_overwrite_of_not_mem (by omega), List.getElem?_append_right (by omega),
      List.getElem?_append_right (by simpa using hi), overwrite_length]

/-- Two stretches that follow each other are replaced at once. -/
theorem overwrite_overwrite (buf xs ys : List UInt8) (offset : ℕ) :
    overwrite (overwrite buf offset xs) (offset + xs.length) ys =
      overwrite buf offset (xs ++ ys) := by
  apply List.ext_getElem?
  intro i
  by_cases hbuf : i < buf.length
  · by_cases hys : offset + xs.length ≤ i ∧ i < offset + xs.length + ys.length
    · rw [getElem?_overwrite_of_mem hys.1 hys.2 (by simpa using hbuf),
        getElem?_overwrite_of_mem (by omega) (by rw [List.length_append]; omega) hbuf,
        List.getElem?_append_right (by omega), Nat.sub_sub]
    · rw [getElem?_overwrite_of_not_mem (by omega)]
      by_cases hxs : offset ≤ i ∧ i < offset + xs.length
      · rw [getElem?_overwrite_of_mem hxs.1 hxs.2 hbuf,
          getElem?_overwrite_of_mem hxs.1 (by rw [List.length_append]; omega) hbuf,
          List.getElem?_append_left (by omega)]
      · rw [getElem?_overwrite_of_not_mem (by omega),
          getElem?_overwrite_of_not_mem (by rw [List.length_append]; omega)]
  · rw [List.getElem?_eq_none (by simpa using hbuf), List.getElem?_eq_none (by simpa using hbuf)]

end Bytes
