import Mathlib.Tactic.Common

/-!
# HKDF-Expand

The expansion of a key into output of any length with a keyed hash of fixed size, block by block.
Every block is the hash of the block before it, the info string and a counter.
-/

/-- A keyed hash of fixed size. -/
structure KeyedHash where
  /-- The size of the output. -/
  size : ℕ
  /-- The output is not empty. -/
  size_pos : 0 < size
  /-- The hash of bytes under a key. -/
  hash : List UInt8 → List UInt8 → List UInt8
  /-- The output has its size. -/
  hash_length : ∀ key bytes, (hash key bytes).length = size

namespace Hkdf

variable (h : KeyedHash) (prk info : List UInt8)

/-- The block with a number: the block before it is empty for the first one. -/
def block : ℕ → List UInt8
  | 0 => []
  | i + 1 => h.hash prk (block i ++ info ++ [UInt8.ofNat (i + 1)])

/-- The blocks up to a number, one after another. -/
def blocks : ℕ → List UInt8
  | 0 => []
  | n + 1 => blocks n ++ block h prk info (n + 1)

/-- The number of blocks that an output needs. -/
def blockCount (len : ℕ) : ℕ := len / h.size + if len % h.size = 0 then 0 else 1

/-- The output of a length. -/
def expand (len : ℕ) : List UInt8 := (blocks h prk info (blockCount h len)).take len

@[simp] theorem block_length (i : ℕ) : (block h prk info (i + 1)).length = h.size :=
  h.hash_length _ _

@[simp] theorem blocks_length (n : ℕ) : (blocks h prk info n).length = n * h.size := by
  induction n with
  | zero => simp [blocks]
  | succ n ih => simp [blocks, ih, Nat.succ_mul]

variable {h} {len : ℕ}

/-- The blocks have room for the output. -/
theorem le_blockCount : len ≤ blockCount h len * h.size := by
  have hdiv := Nat.div_add_mod len h.size
  have hmod := Nat.mod_lt len h.size_pos
  have hcomm := Nat.mul_comm h.size (len / h.size)
  unfold blockCount
  split_ifs with hzero
  · rw [Nat.add_zero]
    omega
  · rw [Nat.succ_mul]
    omega

/-- All blocks but the last are full. -/
theorem lt_of_lt_blockCount {k : ℕ} (hk : k < blockCount h len) : k * h.size < len := by
  have hdiv := Nat.div_add_mod len h.size
  have hcomm := Nat.mul_comm h.size (len / h.size)
  have hpos := h.size_pos
  unfold blockCount at hk
  split_ifs at hk with hzero
  · have hlt : k * h.size < len / h.size * h.size := Nat.mul_lt_mul_of_pos_right hk hpos
    omega
  · have hle : k * h.size ≤ len / h.size * h.size := Nat.mul_le_mul_right _ (by omega)
    omega

/-- A number of blocks is enough exactly when they have room for the output. -/
theorem blockCount_le_iff {n : ℕ} : blockCount h len ≤ n ↔ len ≤ n * h.size := by
  constructor
  · intro hn
    exact Nat.le_trans le_blockCount (Nat.mul_le_mul_right _ hn)
  · intro hlen
    by_contra hn
    have hlt := lt_of_lt_blockCount (Nat.lt_of_not_le hn)
    omega

end Hkdf
