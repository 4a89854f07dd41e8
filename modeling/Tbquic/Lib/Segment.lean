import Mathlib.Algebra.GroupWithZero.Nat
import Mathlib.Data.List.Infix
import Mathlib.Order.Interval.Finset.Nat

/-!
# Segments of a string

A segment is a piece of a string with its offset. Pieces that agree with the string and
follow each other without a gap spell it out.
-/

/-- A piece of a string, with its offset. -/
structure Segment (α : Type) where
  /-- The offset of the first element. -/
  offset : ℕ
  /-- The elements. -/
  data : List α
  deriving DecidableEq, Repr

namespace Segment

variable {α : Type} {whole out : List α} {s : Segment α} {segments : List (Segment α)} {start : ℕ}

/-- The number of elements of a segment. -/
def len (s : Segment α) : ℕ := s.data.length

/-- The offset behind the last element of a segment. -/
def stop (s : Segment α) : ℕ := s.offset + s.len

/-- The elements of a segment are those of the string at its place. -/
def Agrees (whole : List α) (s : Segment α) : Prop := s.data <+: whole.drop s.offset

instance [DecidableEq α] : Decidable (s.Agrees whole) :=
  inferInstanceAs (Decidable (_ <+: _))

/-- The segment without its first elements. -/
def advance (s : Segment α) (count : ℕ) : Segment α :=
  { offset := s.offset + count, data := s.data.drop count }

/-- Advancing keeps the agreement with the string. -/
theorem Agrees.advance (h : s.Agrees whole) (count : ℕ) : (s.advance count).Agrees whole := by
  have hdrop := List.IsPrefix.drop h count
  rwa [List.drop_drop] at hdrop

/-- A string and a first part of the segment that follows it are a first part of the whole. -/
theorem Agrees.append_take (h : s.Agrees whole) (hout : out <+: whole)
    (hoffset : s.offset = out.length) (count : ℕ) : out ++ s.data.take count <+: whole := by
  obtain ⟨rest, rfl⟩ := hout
  rw [Agrees, hoffset, List.drop_left] at h
  have htake : s.data.take count <+: s.data := ⟨s.data.drop count, List.take_append_drop _ _⟩
  exact (List.prefix_append_right_inj out).mpr (htake.trans h)

/-- Segments that follow each other without a gap from an offset on. -/
def Linked : ℕ → List (Segment α) → Prop
  | _, [] => True
  | start, s :: segments => s.offset = start ∧ Linked s.stop segments

/-- The number of elements of all segments. -/
def total (segments : List (Segment α)) : ℕ := (segments.map len).sum

@[simp] theorem total_nil : total ([] : List (Segment α)) = 0 := rfl

@[simp] theorem total_cons : total (s :: segments) = s.len + total segments := by
  simp [total]

@[simp] theorem total_append {others : List (Segment α)} :
    total (segments ++ others) = total segments + total others := by
  simp [total]

/-- A segment that starts where linked segments end extends them. -/
theorem Linked.concat (h : Linked start segments) (hoffset : s.offset = start + total segments) :
    Linked start (segments ++ [s]) := by
  induction segments generalizing start with
  | nil => exact ⟨by simpa using hoffset, trivial⟩
  | cons t segments ih =>
    refine ⟨h.1, ih h.2 ?_⟩
    rw [hoffset, total_cons, stop, h.1, Nat.add_assoc]

/-- Linked segments without the first ones are linked. -/
theorem Linked.drop (h : Linked start segments) (k : ℕ) :
    Linked (start + total (segments.take k)) (segments.drop k) := by
  induction k generalizing start segments with
  | zero => simpa using h
  | succ k ih =>
    cases segments with
    | nil => trivial
    | cons t segments =>
      rw [List.take_succ_cons, List.drop_succ_cons, total_cons, ← Nat.add_assoc, ← h.1]
      exact ih h.2

/-- The segment has an element for the place. -/
def Covers (i : ℕ) (s : Segment α) : Prop := s.offset ≤ i ∧ i < s.stop

/-- The element of a place is that of the string. -/
theorem Agrees.getElem? {i : ℕ} (h : s.Agrees whole) (hi : s.Covers i) :
    s.data[i - s.offset]? = whole[i]? := by
  obtain ⟨rest, hrest⟩ := h
  obtain ⟨hlow, hhigh⟩ := hi
  have hlen : i - s.offset < s.data.length := by
    unfold stop len at hhigh
    omega
  have hplace : whole[i]? = (whole.drop s.offset)[i - s.offset]? := by
    rw [List.getElem?_drop, Nat.add_sub_cancel' hlow]
  rw [hplace, ← hrest, List.getElem?_append_left hlen]

/-- Linked segments leave no place out. -/
theorem Linked.exists_covers {i : ℕ} (h : Linked start segments) (hlow : start ≤ i)
    (hhigh : i < start + total segments) : ∃ s ∈ segments, s.Covers i := by
  induction segments generalizing start with
  | nil => exact absurd hhigh (by simpa using hlow)
  | cons t segments ih =>
    rw [total_cons] at hhigh
    by_cases hi : i < t.stop
    · exact ⟨t, List.mem_cons_self, h.1 ▸ hlow, hi⟩
    · obtain ⟨s, hs, hcovers⟩ := ih h.2 (by omega) (by unfold stop; have := h.1; omega)
      exact ⟨s, List.mem_cons_of_mem t hs, hcovers⟩

/-- Linked segments end before the last of them does. -/
theorem Linked.stop_le (h : Linked start segments) (hs : s ∈ segments) :
    s.stop ≤ start + total segments := by
  induction segments generalizing start with
  | nil => simp at hs
  | cons t segments ih =>
    rw [total_cons]
    rcases List.mem_cons.mp hs with rfl | hs
    · unfold stop
      have := h.1
      omega
    · have := ih h.2 hs
      unfold stop at this ⊢
      have := h.1
      omega

/-- The segments up to a place and those behind it hold all elements. -/
theorem total_take_add_total_drop (segments : List (Segment α)) (k : ℕ) :
    total (segments.take k) + total (segments.drop k) = total segments := by
  rw [← total_append, List.take_append_drop]

instance (i : ℕ) (s : Segment α) : Decidable (s.Covers i) :=
  inferInstanceAs (Decidable (_ ∧ _))

/-- A string has, from a position on, an element of the segments at each place they cover. -/
def Holds (string : List α) (start : ℕ) (segments : List (Segment α)) : Prop :=
  ∀ i, (∃ s ∈ segments, s.Covers i) →
    ∃ s ∈ segments, s.Covers i ∧ string[start + i]? = s.data[i - s.offset]?

/-- Every string holds no segments. -/
theorem holds_nil (string : List α) (start : ℕ) : Holds string start [] := by
  rintro i ⟨s, hs, _⟩
  cases hs

/-- The places of a segment in the string. -/
def places (s : Segment α) : Finset ℕ := Finset.Ico s.offset s.stop

@[simp] theorem mem_places {i : ℕ} : i ∈ s.places ↔ s.Covers i := Finset.mem_Ico

@[simp] theorem card_places : s.places.card = s.len := by
  rw [places, Nat.card_Ico, stop, Nat.add_sub_cancel_left]

/-- The places of segments in the string. -/
def placesOf (segments : List (Segment α)) : Finset ℕ :=
  segments.foldr (fun s places => s.places ∪ places) ∅

@[simp] theorem placesOf_nil : placesOf ([] : List (Segment α)) = ∅ := rfl

@[simp] theorem placesOf_cons : placesOf (s :: segments) = s.places ∪ placesOf segments := rfl

@[simp] theorem placesOf_append {others : List (Segment α)} :
    placesOf (segments ++ others) = placesOf segments ∪ placesOf others := by
  induction segments with
  | nil => simp
  | cons s segments ih => simp [ih]

/-- A segment has an element at the places it covers. -/
theorem Covers.lt {i : ℕ} (h : s.Covers i) : i - s.offset < s.data.length := by
  obtain ⟨hlow, hhigh⟩ := h
  unfold stop len at hhigh
  omega

end Segment
