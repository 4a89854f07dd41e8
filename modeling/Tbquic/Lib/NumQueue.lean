import Mathlib.Logic.Relation
import Mathlib.Tactic.Common

/-!
# Queues of numbered entries

Entries get numbers that count up to a modulus and then start again. A number may be lost, an entry
goes to the end of the queue, and entries leave from anywhere. As long as fewer numbers were given
than the modulus, the queue is ordered by them.
-/

/-- A queue, with how many numbers were given and the last of them. -/
structure NumQueue (α : Type) where
  /-- How many numbers were given. -/
  count : ℕ
  /-- The last number. -/
  last : ℕ
  /-- The entries, the oldest first. -/
  entries : List α

namespace NumQueue

variable {α : Type}

/-- The queue before any number was given. -/
def empty : NumQueue α := ⟨0, 0, []⟩

section Moves

variable (num : α → ℕ) (m : ℕ)

/-- The number behind the last. -/
def next (q : NumQueue α) : ℕ := (q.last + 1) % m

/-- What happens to a queue. -/
inductive Move (q : NumQueue α) : NumQueue α → Prop
  /-- Entries leave. -/
  | drop (l : List α) (h : l.Sublist q.entries) : Move q { q with entries := l }
  /-- A number is given and lost. -/
  | lose : Move q { q with count := q.count + 1, last := q.next m }
  /-- An entry gets a number and joins the queue. -/
  | join (a : α) (h : num a = q.next m) :
    Move q { count := q.count + 1, last := q.next m, entries := q.entries ++ [a] }

/-- Some moves in a row. -/
def Moves : NumQueue α → NumQueue α → Prop := Relation.ReflTransGen (Move num m)

/-- The entries are ordered by number, and none is above the last number. -/
structure Ordered (q : NumQueue α) : Prop where
  /-- The numbers increase. -/
  sorted : q.entries.Pairwise fun a b => num a < num b
  /-- They were given. -/
  given : ∀ a ∈ q.entries, num a ≤ q.last

/-- The last number counts the numbers, and the queue is ordered before they repeat. -/
structure Counted (q : NumQueue α) : Prop where
  /-- The last number is the count, up to the modulus. -/
  last : q.last = q.count % m
  /-- The queue is ordered. -/
  ordered (h : q.count < m) : q.Ordered num

end Moves

variable {num : α → ℕ} {m : ℕ} {q r : NumQueue α}

/-- The first queue is ordered. -/
theorem counted_empty : (empty : NumQueue α).Counted num m := by
  refine ⟨(Nat.zero_mod m).symm, fun _ => ⟨List.Pairwise.nil, fun a ha => ?_⟩⟩
  cases ha

/-- What is left of an ordered queue is ordered. -/
theorem Ordered.drop {l : List α} (hq : q.Ordered num) (h : l.Sublist q.entries) :
    Ordered num { q with entries := l } :=
  ⟨hq.sorted.sublist h, fun a ha => hq.given a (h.subset ha)⟩

/-- Before the numbers repeat, the next one is above the last. -/
theorem Counted.next_eq (hq : q.Counted num m) (h : q.count + 1 < m) : q.next m = q.last + 1 := by
  have hcount : q.last = q.count := hq.last.trans (Nat.mod_eq_of_lt (Nat.lt_of_succ_lt h))
  rw [next, hcount, Nat.mod_eq_of_lt h]

/-- The next number counts one more. -/
theorem Counted.next_mod (hq : q.Counted num m) : q.next m = (q.count + 1) % m := by
  rw [next, hq.last, Nat.mod_add_mod]

/-- A move keeps the queue ordered. -/
theorem Counted.move (hq : q.Counted num m) (h : Move num m q r) : r.Counted num m := by
  cases h with
  | drop l hsub => exact ⟨hq.last, fun hlt => (hq.ordered hlt).drop hsub⟩
  | lose =>
    refine ⟨hq.next_mod, fun hlt => ?_⟩
    have hord := hq.ordered (Nat.lt_of_succ_lt hlt)
    have hnext := hq.next_eq hlt
    refine ⟨hord.sorted, fun a ha => ?_⟩
    have hle := hord.given a ha
    change num a ≤ q.next m
    omega
  | join a hnum =>
    refine ⟨hq.next_mod, fun hlt => ?_⟩
    have hord := hq.ordered (Nat.lt_of_succ_lt hlt)
    have hnext := hq.next_eq hlt
    constructor
    · refine List.pairwise_append.mpr
        ⟨hord.sorted, List.pairwise_singleton _ _, fun b hb c hc => ?_⟩
      have hle := hord.given b hb
      rw [List.mem_singleton.mp hc]
      omega
    · intro b hb
      change num b ≤ q.next m
      rcases List.mem_append.mp hb with hb | hb
      · have hle := hord.given b hb
        omega
      · rw [List.mem_singleton.mp hb]
        exact Nat.le_of_eq hnum

/-- No number is taken back. -/
theorem Moves.count_le (h : Moves num m q r) : q.count ≤ r.count := by
  induction h with
  | refl => exact Nat.le_refl _
  | tail _ hmove ih =>
    cases hmove with
    | drop => exact ih
    | lose | join => exact Nat.le_succ_of_le ih

/-- Moves keep the queue ordered. -/
theorem Counted.moves (hq : q.Counted num m) (h : Moves num m q r) : r.Counted num m := by
  induction h with
  | refl => exact hq
  | tail _ hlast ih => exact ih.move hlast

end NumQueue
