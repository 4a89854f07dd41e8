import Mathlib.Data.List.Nodup
import Mathlib.Data.List.Perm.Subperm

/-!
# Sweeps over a list

A sweep passes over a list in order. It takes some of the elements out, leaves others, and ends
before the first element that stops it. Sweeps that follow one another all start at the front of
what is left.
-/

/-- What a sweep does with an element: it stops there, takes it, or leaves it and goes on. -/
structure Sweep (α : Type) where
  /-- The sweep ends before the element. -/
  stops : α → Bool
  /-- The sweep takes the element out. -/
  takes : α → Bool
  /-- An element that stops the sweep is not taken. -/
  takes_of_stops (a : α) : stops a = true → takes a = false

namespace Sweep

variable {α : Type}

/-- The elements before the first that stops the sweep. -/
def reached (w : Sweep α) (l : List α) : List α := l.takeWhile fun a => !w.stops a

/-- The elements that are taken. -/
def taken (w : Sweep α) (l : List α) : List α := (w.reached l).filter w.takes

/-- The elements that are left. -/
def left (w : Sweep α) (l : List α) : List α :=
  (w.reached l).filter (fun a => !w.takes a) ++ l.dropWhile fun a => !w.stops a

/-- The elements that are taken by one sweep after the other. -/
def takenBy : List (Sweep α) → List α → List α
  | [], _ => []
  | w :: ws, l => w.taken l ++ takenBy ws (w.left l)

/-- The elements that are left by one sweep after the other. -/
def leftBy : List (Sweep α) → List α → List α
  | [], l => l
  | w :: ws, l => leftBy ws (w.left l)

/-- No sweep but the last is stopped. -/
def Unstopped : List (Sweep α) → List α → Prop
  | [], _ => True
  | w :: ws, l => (ws ≠ [] → ∀ a ∈ l, w.stops a = false) ∧ Unstopped ws (w.left l)

/-- An element that a sweep leaves stops it or is passed. -/
theorem left_cons (w : Sweep α) (a : α) (l : List α) :
    w.left (a :: l) =
      if w.stops a then a :: l else if w.takes a then w.left l else a :: w.left l := by
  unfold left reached
  by_cases hstops : w.stops a = true
  · simp [hstops]
  · by_cases htakes : w.takes a = true
    · simp [hstops, htakes]
    · simp [hstops, htakes]

/-- The first element is taken when it does not stop the sweep and is one to take. -/
theorem taken_cons (w : Sweep α) (a : α) (l : List α) :
    w.taken (a :: l) =
      if w.stops a then [] else if w.takes a then a :: w.taken l else w.taken l := by
  unfold taken reached
  by_cases hstops : w.stops a = true
  · simp [hstops]
  · by_cases htakes : w.takes a = true
    · simp [hstops, htakes]
    · simp [hstops, htakes]

/-- What is left keeps its order. -/
theorem left_sublist (w : Sweep α) (l : List α) : (w.left l).Sublist l := by
  calc w.left l
    _ |>.Sublist (w.reached l ++ l.dropWhile fun a => !w.stops a) :=
        List.filter_sublist.append (List.Sublist.refl _)
    _ = l := List.takeWhile_append_dropWhile

/-- Every element is taken or left. -/
theorem taken_append_left_perm (w : Sweep α) (l : List α) : (w.taken l ++ w.left l).Perm l := by
  have hsplit := (List.filter_append_perm w.takes (w.reached l)).append_right
    (l.dropWhile fun a => !w.stops a)
  rw [List.append_assoc] at hsplit
  exact hsplit.trans (List.Perm.of_eq List.takeWhile_append_dropWhile)

/-- What sweeps leave keeps its order. -/
theorem leftBy_sublist (ws : List (Sweep α)) (l : List α) : (leftBy ws l).Sublist l := by
  induction ws generalizing l with
  | nil => exact List.Sublist.refl l
  | cons w ws ih => exact (ih (w.left l)).trans (w.left_sublist l)

/-- Every element is taken or left by sweeps. -/
theorem takenBy_append_leftBy_perm (ws : List (Sweep α)) (l : List α) :
    (takenBy ws l ++ leftBy ws l).Perm l := by
  induction ws generalizing l with
  | nil => exact List.Perm.refl l
  | cons w ws ih =>
    rw [takenBy, leftBy, List.append_assoc]
    exact ((ih (w.left l)).append_left (w.taken l)).trans (w.taken_append_left_perm l)

/-- Sweeps leave a list as it is when they take nothing. -/
theorem leftBy_eq_iff {ws : List (Sweep α)} {l : List α} :
    leftBy ws l = l ↔ takenBy ws l = [] := by
  have hlength := (takenBy_append_leftBy_perm ws l).length_eq
  rw [List.length_append] at hlength
  constructor
  · intro h
    rw [h] at hlength
    exact List.length_eq_zero_iff.mp (by omega)
  · intro h
    rw [h, List.length_nil, Nat.zero_add] at hlength
    exact (leftBy_sublist ws l).eq_of_length hlength

/-- Without repetitions, sweeps leave what they do not take. -/
theorem mem_leftBy_iff {ws : List (Sweep α)} {l : List α} (h : l.Nodup) {a : α} (ha : a ∈ l) :
    a ∈ leftBy ws l ↔ a ∉ takenBy ws l := by
  have hperm := takenBy_append_leftBy_perm ws l
  have hdisjoint := List.Nodup.disjoint (hperm.nodup_iff.mpr h)
  have hmem := List.mem_append.mp (hperm.mem_iff.mpr ha)
  constructor
  · intro hleft htaken
    exact hdisjoint htaken hleft
  · intro htaken
    exact hmem.resolve_left htaken

/-- Without repetitions, what sweeps leave are the elements that they do not take. -/
theorem leftBy_eq_filter {ws : List (Sweep α)} {l : List α} (h : l.Nodup) {test : α → Bool}
    (htest : ∀ a ∈ l, a ∈ takenBy ws l ↔ test a = false) : leftBy ws l = l.filter test := by
  refine (h.perm_iff_eq_of_sublist (leftBy_sublist ws l) List.filter_sublist).mp ?_
  refine (List.perm_ext_iff_of_nodup (h.sublist (leftBy_sublist ws l)) (h.filter test)).mpr ?_
  intro a
  rw [List.mem_filter]
  constructor
  · intro hleft
    have ha := (leftBy_sublist ws l).subset hleft
    rw [mem_leftBy_iff h ha, htest a ha, Bool.not_eq_false] at hleft
    exact ⟨ha, hleft⟩
  · rintro ⟨ha, htrue⟩
    rw [mem_leftBy_iff h ha, htest a ha, Bool.not_eq_false]
    exact htrue

/-- A sweep that is not stopped leaves what it does not take. -/
theorem left_of_unstopped {w : Sweep α} {l : List α} (h : ∀ a ∈ l, w.stops a = false) :
    w.left l = l.filter fun a => !w.takes a := by
  induction l with
  | nil => rfl
  | cons a l ih =>
    rw [List.forall_mem_cons] at h
    rw [left_cons, h.1, ih h.2]
    cases htakes : w.takes a <;> simp [htakes]

section Ordered

variable {r : α → α → Prop}

/-- In an ordered list the elements before the first that fails a test are those that pass it with
all elements before them. -/
theorem mem_takeWhile_iff (hasymm : ∀ a b, r a b → ¬ r b a) {l : List α} (hl : l.Pairwise r)
    {test : α → Bool} {a : α} :
    a ∈ l.takeWhile test ↔ a ∈ l ∧ test a = true ∧ ∀ b ∈ l, r b a → test b = true := by
  induction l with
  | nil => simp
  | cons x l ih =>
    rw [List.pairwise_cons] at hl
    by_cases hx : test x = true
    · rw [List.takeWhile_cons_of_pos hx, List.mem_cons, List.mem_cons, ih hl.2]
      constructor
      · rintro (rfl | ⟨hmem, htest, hbefore⟩)
        · refine ⟨Or.inl rfl, hx, ?_⟩
          intro b hb hba
          rcases List.mem_cons.mp hb with rfl | hb
          · exact hx
          · exact absurd hba (hasymm _ _ (hl.1 b hb))
        · refine ⟨Or.inr hmem, htest, ?_⟩
          intro b hb hba
          rcases List.mem_cons.mp hb with rfl | hb
          · exact hx
          · exact hbefore b hb hba
      · rintro ⟨rfl | hmem, htest, hbefore⟩
        · exact Or.inl rfl
        · exact Or.inr ⟨hmem, htest, fun b hb => hbefore b (List.mem_cons_of_mem x hb)⟩
    · rw [List.takeWhile_cons_of_neg hx]
      constructor
      · intro h
        cases h
      · rintro ⟨hmem, htest, hbefore⟩
        rcases List.mem_cons.mp hmem with rfl | hmem
        · exact absurd htest hx
        · exact absurd (hbefore x List.mem_cons_self (hl.1 a hmem)) hx

/-- A sweep takes the elements to take with no element before them that stops it. -/
theorem mem_taken_iff (hasymm : ∀ a b, r a b → ¬ r b a) (w : Sweep α) {l : List α}
    (hl : l.Pairwise r) {a : α} :
    a ∈ w.taken l ↔ a ∈ l ∧ w.takes a = true ∧ ∀ b ∈ l, r b a → w.stops b = false := by
  rw [taken, List.mem_filter, reached, mem_takeWhile_iff hasymm hl]
  simp only [Bool.not_eq_true']
  constructor
  · rintro ⟨⟨hmem, _, hbefore⟩, htakes⟩
    exact ⟨hmem, htakes, hbefore⟩
  · rintro ⟨hmem, htakes, hbefore⟩
    refine ⟨⟨hmem, ?_, hbefore⟩, htakes⟩
    cases hstops : w.stops a with
    | false => rfl
    | true => rw [w.takes_of_stops a hstops] at htakes; cases htakes

/-- A sweep gets to an element: the elements before it that stop the sweep are taken by earlier
ones. -/
def GetsTo (r : α → α → Prop) (l : List α) (earlier : List (Sweep α)) (w : Sweep α)
    (a : α) : Prop :=
  ∀ b ∈ l, r b a → w.stops b = true → ∃ v ∈ earlier, v.takes b = true

/-- After a sweep that is not stopped, later ones get to the same elements. -/
theorem getsTo_filter {l : List α} {earlier : List (Sweep α)} {w v : Sweep α} {a : α} :
    GetsTo r (l.filter fun b => !v.takes b) earlier w a ↔ GetsTo r l (v :: earlier) w a := by
  constructor
  · intro h b hb hba hstops
    cases htakes : v.takes b with
    | true => exact ⟨v, List.mem_cons_self, htakes⟩
    | false =>
      obtain ⟨u, hu, hub⟩ := h b (List.mem_filter.mpr ⟨hb, by rw [htakes]; rfl⟩) hba hstops
      exact ⟨u, List.mem_cons_of_mem v hu, hub⟩
  · intro h b hb hba hstops
    obtain ⟨hmem, hleft⟩ := List.mem_filter.mp hb
    rw [Bool.not_eq_true'] at hleft
    obtain ⟨u, hu, hub⟩ := h b hmem hba hstops
    rcases List.mem_cons.mp hu with rfl | hu
    · rw [hleft] at hub
      cases hub
    · exact ⟨u, hu, hub⟩

/-- Sweeps of which only the last is stopped take the elements that one of them gets to and is to
take. -/
theorem mem_takenBy_iff (hasymm : ∀ a b, r a b → ¬ r b a) {ws : List (Sweep α)} {l : List α}
    (hl : l.Pairwise r) (h : Unstopped ws l) {a : α} :
    a ∈ takenBy ws l ↔ a ∈ l ∧ ∃ earlier w later, ws = earlier ++ w :: later ∧
      w.takes a = true ∧ GetsTo r l earlier w a := by
  induction ws generalizing l with
  | nil => simp [takenBy]
  | cons w ws ih =>
    have hnext := ih (hl.sublist (w.left_sublist l)) h.2
    rw [takenBy, List.mem_append, mem_taken_iff hasymm w hl]
    constructor
    · rintro (⟨hmem, htakes, hfree⟩ | hlater)
      · refine ⟨hmem, [], w, ws, rfl, htakes, ?_⟩
        intro b hb hba hstops
        rw [hfree b hb hba] at hstops
        cases hstops
      · obtain ⟨hmem, earlier, v, later, rfl, htakes, hgets⟩ := hnext.mp hlater
        rw [left_of_unstopped (h.1 (by simp))] at hmem hgets
        exact ⟨(List.mem_filter.mp hmem).1, w :: earlier, v, later, rfl, htakes,
          getsTo_filter.mp hgets⟩
    · rintro ⟨hmem, earlier, v, later, hsplit, htakes, hgets⟩
      cases earlier with
      | nil =>
        obtain ⟨rfl, rfl⟩ := List.cons.inj hsplit
        refine Or.inl ⟨hmem, htakes, ?_⟩
        intro b hb hba
        cases hstops : w.stops b with
        | false => rfl
        | true =>
          obtain ⟨u, hu, _⟩ := hgets b hb hba hstops
          cases hu
      | cons u earlier =>
        obtain ⟨rfl, rfl⟩ := List.cons.inj hsplit
        have hfree := h.1 (by simp)
        cases hfirst : w.takes a with
        | true => exact Or.inl ⟨hmem, rfl, fun b hb _ => hfree b hb⟩
        | false =>
          refine Or.inr (hnext.mpr ?_)
          rw [left_of_unstopped hfree]
          exact ⟨List.mem_filter.mpr ⟨hmem, by rw [hfirst]; rfl⟩, earlier, v, later, rfl, htakes,
            getsTo_filter.mpr hgets⟩

end Ordered

/-- No sweep but the last is stopped when earlier sweeps take the elements that stop it. -/
theorem unstopped_iff {ws : List (Sweep α)} {l : List α} :
    Unstopped ws l ↔ ∀ earlier w next later, ws = earlier ++ w :: next :: later →
      ∀ a ∈ l, w.stops a = true → ∃ v ∈ earlier, v.takes a = true := by
  induction ws generalizing l with
  | nil => simp [Unstopped]
  | cons w ws ih =>
    rw [Unstopped, ih]
    constructor
    · rintro ⟨hfree, hrest⟩ earlier v next later hsplit a ha hstops
      cases earlier with
      | nil =>
        obtain ⟨rfl, rfl⟩ := List.cons.inj hsplit
        rw [hfree (by simp) a ha] at hstops
        cases hstops
      | cons u earlier =>
        obtain ⟨rfl, rfl⟩ := List.cons.inj hsplit
        rw [left_of_unstopped (hfree (by simp))] at hrest
        cases htakes : w.takes a with
        | true => exact ⟨w, List.mem_cons_self, htakes⟩
        | false =>
          obtain ⟨x, hx, hxa⟩ := hrest earlier v next later rfl a
            (List.mem_filter.mpr ⟨ha, by rw [htakes]; rfl⟩) hstops
          exact ⟨x, List.mem_cons_of_mem w hx, hxa⟩
    · intro h
      have hfree : ws ≠ [] → ∀ a ∈ l, w.stops a = false := by
        intro hws a ha
        obtain ⟨next, later, rfl⟩ := List.exists_cons_of_ne_nil hws
        cases hstops : w.stops a with
        | false => rfl
        | true =>
          obtain ⟨x, hx, _⟩ := h [] w next later rfl a ha hstops
          cases hx
      refine ⟨hfree, ?_⟩
      rintro earlier v next later rfl a ha hstops
      rw [left_of_unstopped (hfree (by simp)), List.mem_filter, Bool.not_eq_true'] at ha
      obtain ⟨x, hx, hxa⟩ := h (w :: earlier) v next later rfl a ha.1 hstops
      rcases List.mem_cons.mp hx with rfl | hx
      · rw [ha.2] at hxa
        cases hxa
      · exact ⟨x, hx, hxa⟩

end Sweep
