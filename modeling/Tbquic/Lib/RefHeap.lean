import Mathlib.Logic.Function.Basic
import Mathlib.Tactic.Common

/-!
# Objects with reference counts

A heap of objects, each with the number of references to it. An object is created with one
reference and destroyed with its last one. The heap fits its owners when every object counts those
that own it, and is allocated as long as there are some.
-/

/-- An object with its reference count. -/
structure Counted (α : Type) where
  /-- The object. -/
  content : α
  /-- The number of references. -/
  references : ℕ
  deriving DecidableEq, Repr

/-- The objects by their addresses. -/
structure RefHeap (α : Type) where
  /-- The object at an address, if one is allocated. -/
  obj : ℕ → Option (Counted α)
  /-- The address of the next object. -/
  next : ℕ

namespace RefHeap

variable {α : Type}

/-- A heap without objects. -/
def empty : RefHeap α := ⟨fun _ => none, 0⟩

/-- Create an object at the next address. -/
def alloc (h : RefHeap α) (x : α) : RefHeap α :=
  ⟨Function.update h.obj h.next (some ⟨x, 1⟩), h.next + 1⟩

/-- Take one more reference to an allocated object. -/
def upRef (h : RefHeap α) (a : ℕ) : Option (RefHeap α) :=
  (h.obj a).map fun o => { h with
    obj := Function.update h.obj a (some { o with references := o.references + 1 }) }

/-- Give a reference to an allocated object back. The last one destroys it. -/
def release (h : RefHeap α) (a : ℕ) : Option (RefHeap α) :=
  (h.obj a).map fun o => { h with
    obj := Function.update h.obj a
      (if 1 < o.references then some { o with references := o.references - 1 } else none) }

/-- The number of references that an address counts. -/
def references (h : RefHeap α) (a : ℕ) : ℕ := (h.obj a).elim 0 Counted.references

/-- The object at an address, without its count. -/
def content (h : RefHeap α) (a : ℕ) : Option α := (h.obj a).map Counted.content

/-- The owner of one reference, if it has one. -/
def held (p : Option ℕ) (a : ℕ) : ℕ := if p = some a then 1 else 0

/-- Every object counts its owners, and is allocated as long as there are some. -/
structure Counts (h : RefHeap α) (owners : ℕ → ℕ) : Prop where
  /-- The counts are the numbers of owners. -/
  count (a : ℕ) : h.references a = owners a
  /-- An object without owners is destroyed. -/
  alive (a : ℕ) : (h.obj a).isSome → 0 < owners a

/-- The addresses from the next one on are free. -/
def Fresh (h : RefHeap α) : Prop := ∀ a, h.next ≤ a → h.obj a = none

variable {h t : RefHeap α} {owners more : ℕ → ℕ} {a : ℕ} {x : α} {o : Counted α} {p : Option ℕ}

@[simp] theorem held_none : held none a = 0 := rfl

@[simp] theorem held_self : held (some a) a = 1 := if_pos rfl

theorem held_of_ne {b : ℕ} (hne : a ≠ b) : held (some b) a = 0 :=
  if_neg fun heq => hne (Option.some.inj heq).symm

theorem references_of_some (ho : h.obj a = some o) : h.references a = o.references := by
  rw [references, ho]
  rfl

theorem references_of_none (ho : h.obj a = none) : h.references a = 0 := by
  rw [references, ho]
  rfl

/-- A heap without objects fits when nothing is owned. -/
theorem counts_empty : (empty : RefHeap α).Counts fun _ => 0 :=
  ⟨fun _ => rfl, fun _ h => absurd h Bool.false_ne_true⟩

theorem fresh_empty : (empty : RefHeap α).Fresh := fun _ _ => rfl

namespace Counts

/-- What has an owner is allocated. -/
theorem exists_obj (hc : h.Counts owners) (ha : 0 < owners a) : ∃ o, h.obj a = some o := by
  cases ho : h.obj a with
  | some o => exact ⟨o, rfl⟩
  | none =>
    have hcount := hc.count a
    rw [references_of_none ho] at hcount
    omega

/-- A heap fits one number of owners. -/
theorem unique (hc : h.Counts owners) (hm : h.Counts more) : owners = more :=
  funext fun a => (hc.count a).symm.trans (hm.count a)

/-- An object is allocated exactly as long as it has owners. -/
theorem isSome_iff (hc : h.Counts owners) : (h.obj a).isSome ↔ 0 < owners a := by
  refine ⟨hc.alive a, fun ha => ?_⟩
  obtain ⟨o, ho⟩ := hc.exists_obj ha
  rw [ho]
  rfl

/-- The counts of one object change. -/
theorem update {o' : Option (Counted α)} {next : ℕ} (hc : h.Counts owners)
    (hother : ∀ b, b ≠ a → more b = owners b) (hcount : o'.elim 0 Counted.references = more a)
    (halive : o'.isSome → 0 < more a) :
    (⟨Function.update h.obj a o', next⟩ : RefHeap α).Counts more := by
  have hobj (b : ℕ) : (⟨Function.update h.obj a o', next⟩ : RefHeap α).obj b =
      if b = a then o' else h.obj b := Function.update_apply _ _ _ _
  constructor
  · intro b
    rw [references, hobj]
    by_cases hb : b = a
    · subst hb
      rw [if_pos rfl]
      exact hcount
    · rw [if_neg hb, hother b hb]
      exact hc.count b
  · intro b hb
    rw [hobj] at hb
    by_cases heq : b = a
    · subst heq
      rw [if_pos rfl] at hb
      exact halive hb
    · rw [if_neg heq] at hb
      rw [hother b heq]
      exact hc.alive b hb

/-- A new object has the owner that creates it. -/
theorem alloc (hc : h.Counts owners) (hf : h.Fresh) (x : α) :
    (h.alloc x).Counts fun b => owners b + held (some h.next) b := by
  have hnone : owners h.next = 0 := by
    rw [← hc.count, references_of_none (hf _ (Nat.le_refl _))]
  refine hc.update (fun b hb => ?_) ?_ fun _ => ?_
  · rw [held_of_ne hb]
    rfl
  · rw [hnone, held_self]
    rfl
  · rw [held_self]
    exact Nat.succ_pos _

/-- An owner may pass on another reference. -/
theorem upRef (hc : h.Counts owners) (ha : 0 < owners a) :
    ∃ t, h.upRef a = some t ∧ t.Counts fun b => owners b + held (some a) b := by
  obtain ⟨o, ho⟩ := hc.exists_obj ha
  have hcount := hc.count a
  rw [references_of_some ho] at hcount
  refine ⟨_, by rw [RefHeap.upRef, ho, Option.map_some], ?_⟩
  refine hc.update (fun b hb => ?_) ?_ fun _ => ?_
  · rw [held_of_ne hb]
    rfl
  · rw [held_self, ← hcount]
    rfl
  · rw [held_self]
    exact Nat.succ_pos _

/-- An owner may give its reference back. -/
theorem release (hc : h.Counts fun b => owners b + held (some a) b) :
    ∃ t, h.release a = some t ∧ t.Counts owners := by
  have hpos : 0 < owners a + held (some a) a := by
    rw [held_self]
    exact Nat.succ_pos _
  obtain ⟨o, ho⟩ := hc.exists_obj hpos
  have hcount := hc.count a
  rw [references_of_some ho, held_self] at hcount
  refine ⟨_, by rw [RefHeap.release, ho, Option.map_some], ?_⟩
  refine hc.update (fun b hb => ?_) ?_ fun hsome => ?_
  · rw [held_of_ne hb]
    rfl
  · split_ifs with hmany
    · change o.references - 1 = owners a
      omega
    · change 0 = owners a
      omega
  · split_ifs at hsome with hmany
    · omega
    · cases hsome

end Counts

/-- The next address is free behind a creation. -/
theorem Fresh.alloc (hf : h.Fresh) : (h.alloc x).Fresh := by
  intro b hb
  have hlt : h.next < b := hb
  have hother : (h.alloc x).obj b = h.obj b := Function.update_of_ne (Nat.ne_of_gt hlt) _ _
  rw [hother]
  exact hf b (Nat.le_of_lt hlt)

/-- Only an allocated object changes. -/
theorem Fresh.update {o' : Option (Counted α)} (hf : h.Fresh) (ho : h.obj a = some o) :
    ({ h with obj := Function.update h.obj a o' } : RefHeap α).Fresh := by
  intro b hb
  have hne : b ≠ a := by
    rintro rfl
    rw [hf b hb] at ho
    cases ho
  exact (Function.update_of_ne hne _ _).trans (hf b hb)

theorem Fresh.upRef (hf : h.Fresh) (ht : h.upRef a = some t) : t.Fresh := by
  obtain ⟨o, ho, rfl⟩ := Option.map_eq_some_iff.mp ht
  exact hf.update ho

theorem Fresh.release (hf : h.Fresh) (ht : h.release a = some t) : t.Fresh := by
  obtain ⟨o, ho, rfl⟩ := Option.map_eq_some_iff.mp ht
  exact hf.update ho

/-- The new object is at the next address. -/
theorem alloc_obj_next : (h.alloc x).obj h.next = some ⟨x, 1⟩ := Function.update_self _ _ _

/-- The other objects stay behind a creation. -/
theorem alloc_obj_of_ne {b : ℕ} (hne : b ≠ h.next) : (h.alloc x).obj b = h.obj b :=
  Function.update_of_ne hne _ _

/-- What the second heap holds, the first one holds as well. -/
def Shrinks (h t : RefHeap α) : Prop := ∀ a x, t.content a = some x → h.content a = some x

theorem Shrinks.refl (h : RefHeap α) : h.Shrinks h := fun _ _ hx => hx

theorem Shrinks.trans {u : RefHeap α} (ht : h.Shrinks t) (hu : t.Shrinks u) : h.Shrinks u :=
  fun a x hx => ht a x (hu a x hx)

/-- A change of the count leaves the object, and a change of one object leaves the others. -/
theorem Shrinks.update {o' : Option (Counted α)} (ho : h.obj a = some o)
    (hcontent : ∀ p, o' = some p → p.content = o.content) :
    h.Shrinks { h with obj := Function.update h.obj a o' } := by
  intro b x hx
  have hobj : ({ h with obj := Function.update h.obj a o' } : RefHeap α).obj b =
      if b = a then o' else h.obj b := Function.update_apply _ _ _ _
  rw [content, hobj] at hx
  by_cases hb : b = a
  · subst hb
    rw [if_pos rfl] at hx
    obtain ⟨p, hp, rfl⟩ := Option.map_eq_some_iff.mp hx
    rw [content, ho, hcontent p hp]
    rfl
  · rwa [if_neg hb] at hx

/-- One more reference destroys no object. -/
theorem upRef_spec (ht : h.upRef a = some t) :
    t.next = h.next ∧ h.Shrinks t ∧ ∀ b, t.obj b = none ↔ h.obj b = none := by
  obtain ⟨o, ho, rfl⟩ := Option.map_eq_some_iff.mp ht
  refine ⟨rfl, Shrinks.update ho fun p hp => by cases hp; rfl, fun b => ?_⟩
  by_cases hb : b = a
  · subst hb
    have hobj := Function.update_self b (some { o with references := o.references + 1 }) h.obj
    refine iff_of_false (fun heq => ?_) fun heq => ?_
    · cases hobj.symm.trans heq
    · cases ho.symm.trans heq
  · have hobj := Function.update_of_ne hb (some { o with references := o.references + 1 }) h.obj
    rw [← hobj]

/-- Giving a reference back destroys no other object. -/
theorem release_spec (ht : h.release a = some t) :
    t.next = h.next ∧ h.Shrinks t ∧ (h.obj a).isSome ∧ ∀ b, b ≠ a → t.obj b = h.obj b := by
  obtain ⟨o, ho, rfl⟩ := Option.map_eq_some_iff.mp ht
  refine ⟨rfl, Shrinks.update ho fun p hp => ?_, by rw [ho]; rfl, fun b hb => ?_⟩
  · split_ifs at hp
    cases hp
    rfl
  · exact Function.update_of_ne hb _ _

end RefHeap
