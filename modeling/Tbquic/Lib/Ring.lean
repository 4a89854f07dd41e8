import Mathlib.Data.List.Nodup
import Mathlib.Logic.Function.Basic

/-!
# Rings of nodes

A doubly linked list that is closed through its head. Two nodes are linked when each stores the
address of the other, and a ring is a chain of links from the head through its entries back to it.
Several rings share one memory.
-/

/-- The pointers of all nodes. Nothing stands for a null pointer. -/
structure Links (A : Type) where
  /-- The next node. -/
  next : A → Option A
  /-- The node before. -/
  prev : A → Option A

namespace Links

variable {A : Type}

/-- A chain of links from one node through others to a last one. -/
def Path (m : Links A) : A → List A → A → Prop
  | a, [], b => m.next a = some b ∧ m.prev b = some a
  | a, x :: l, b => (m.next a = some x ∧ m.prev x = some a) ∧ Path m x l b

/-- A head with its entries. -/
structure Ring (m : Links A) (h : A) (l : List A) : Prop where
  /-- The chain leads back to the head. -/
  path : m.Path h l h
  /-- No node occurs twice. -/
  nodup : (h :: l).Nodup

section Path

variable {m m' : Links A} {a b x y : A} {l k : List A}

/-- A chain consists of two at each of its nodes. -/
theorem path_append : m.Path a (l ++ x :: k) b ↔ m.Path a l x ∧ m.Path x k b := by
  induction l generalizing a with
  | nil => exact Iff.rfl
  | cons y l ih =>
    rw [List.cons_append, Path, Path, ih]
    exact and_assoc.symm

/-- The first node of a chain stores the one behind it. -/
theorem Path.next_eq (h : m.Path a l b) : m.next a = (l ++ [b]).head? := by
  cases l with
  | nil => exact h.1
  | cons x l => exact h.1.1

/-- The node behind the first of a chain. -/
theorem Path.next_mem (h : m.Path a l b) (hx : m.next a = some x) : x ∈ l ++ [b] := by
  cases l with
  | nil => exact List.mem_singleton.mpr (Option.some.inj (hx.symm.trans h.1))
  | cons y l => exact List.mem_cons.mpr (.inl (Option.some.inj (hx.symm.trans h.1.1)))

/-- The node behind the first of a longer chain is not the last. -/
theorem Path.next_ne (h : m.Path a l b) (hx : m.next a = some x) (hl : l ≠ []) (hb : b ∉ l) :
    x ≠ b := by
  cases l with
  | nil => exact absurd rfl hl
  | cons y l =>
    rw [Option.some.inj (hx.symm.trans h.1.1)]
    exact fun heq => hb (heq ▸ List.mem_cons_self)

/-- The node before the last of a chain. -/
theorem Path.prev_mem (h : m.Path a l b) (hx : m.prev b = some x) : x ∈ a :: l := by
  rcases List.eq_nil_or_concat l with rfl | ⟨k, y, rfl⟩
  · exact List.mem_singleton.mpr (Option.some.inj (hx.symm.trans h.2))
  · rw [List.concat_eq_append] at h ⊢
    have hy : x = y := Option.some.inj (hx.symm.trans (path_append.mp h).2.2)
    rw [hy]
    simp

/-- The pointers of the ends of a chain are set. -/
theorem Path.exists_ends (h : m.Path a l b) :
    ∃ x y, m.next a = some x ∧ m.prev b = some y := by
  have hprev : ∃ y, m.prev b = some y := by
    rcases List.eq_nil_or_concat l with rfl | ⟨k, y, rfl⟩
    · exact ⟨a, h.2⟩
    · rw [List.concat_eq_append] at h
      exact ⟨y, (path_append.mp h).2.2⟩
  obtain ⟨y, hy⟩ := hprev
  cases l with
  | nil => exact ⟨b, y, h.1, hy⟩
  | cons x l => exact ⟨x, y, h.1.1, hy⟩

/-- A chain lies in the nodes that it uses. -/
theorem Path.congr (h : m.Path a l b) (hnext : ∀ x ∈ a :: l, m'.next x = m.next x)
    (hprev : ∀ x ∈ l ++ [b], m'.prev x = m.prev x) : m'.Path a l b := by
  induction l generalizing a with
  | nil =>
    rw [Path, hnext a List.mem_cons_self, hprev b (by simp)]
    exact h
  | cons x l ih =>
    rw [Path, hnext a List.mem_cons_self, hprev x (by simp)]
    refine ⟨h.1, ih h.2 (fun y hy => hnext y (List.mem_cons_of_mem _ hy)) fun y hy => ?_⟩
    exact hprev y (List.mem_cons_of_mem _ hy)

/-- A ring lies in its nodes. -/
theorem Ring.congr (h : m.Ring a l) (hsame : ∀ x ∈ a :: l,
    m'.next x = m.next x ∧ m'.prev x = m.prev x) : m'.Ring a l := by
  refine ⟨h.path.congr (fun x hx => (hsame x hx).1) fun x hx => (hsame x ?_).2, h.nodup⟩
  simpa [or_comm] using hx

/-- The two neighbours of a head are one node when there is at most one entry. -/
theorem Ring.next_eq_prev_iff (hr : m.Ring a l) : m.next a = m.prev a ↔ l.length ≤ 1 := by
  have hnodup := hr.nodup
  rcases l with _ | ⟨x, l⟩
  · exact iff_of_true (hr.path.1.trans hr.path.2.symm) (Nat.zero_le 1)
  · rw [hr.path.1.1]
    rcases List.eq_nil_or_concat l with rfl | ⟨k, y, rfl⟩
    · exact iff_of_true hr.path.2.2.symm (Nat.le_refl 1)
    · have hpath := hr.path.2
      rw [List.concat_eq_append] at hpath hnodup
      rw [(path_append.mp hpath).2.2]
      refine iff_of_false (fun heq => ?_) (by simp)
      have hxy : x = y := Option.some.inj heq
      grind

end Path

section Flip

variable {m : Links A} {a b : A} {l : List A}

/-- The memory with the two directions exchanged. -/
def flip (m : Links A) : Links A := ⟨m.prev, m.next⟩

/-- A chain is walked in the other direction. -/
theorem Path.flip (h : m.Path a l b) : m.flip.Path b l.reverse a := by
  induction l generalizing a with
  | nil => exact ⟨h.2, h.1⟩
  | cons x l ih =>
    rw [List.reverse_cons]
    exact path_append.mpr ⟨ih h.2, h.1.2, h.1.1⟩

/-- A ring is walked in the other direction. -/
theorem Ring.flip (h : m.Ring a l) : m.flip.Ring a l.reverse := by
  refine ⟨h.path.flip, ?_⟩
  have hnodup := h.nodup
  rw [List.nodup_cons] at hnodup ⊢
  rwa [List.mem_reverse, List.nodup_reverse]

end Flip

section Link

variable [DecidableEq A] {m : Links A} {a b x y : A} {l : List A} {p : Option A}

/-- Store the next node. -/
def setNext (m : Links A) (a : A) (p : Option A) : Links A :=
  { m with next := Function.update m.next a p }

/-- Store the node before. -/
def setPrev (m : Links A) (a : A) (p : Option A) : Links A :=
  { m with prev := Function.update m.prev a p }

/-- Link two nodes. -/
def link (m : Links A) (a b : A) : Links A := (m.setPrev b (some a)).setNext a (some b)

@[simp] theorem setNext_next (m : Links A) (a : A) (p : Option A) :
    (m.setNext a p).next = Function.update m.next a p := rfl

@[simp] theorem setNext_prev (m : Links A) (a : A) (p : Option A) :
    (m.setNext a p).prev = m.prev := rfl

@[simp] theorem setPrev_next (m : Links A) (a : A) (p : Option A) :
    (m.setPrev a p).next = m.next := rfl

@[simp] theorem setPrev_prev (m : Links A) (a : A) (p : Option A) :
    (m.setPrev a p).prev = Function.update m.prev a p := rfl

@[simp] theorem link_next (m : Links A) (a b : A) :
    (m.link a b).next = Function.update m.next a (some b) := rfl

@[simp] theorem link_prev (m : Links A) (a b : A) :
    (m.link a b).prev = Function.update m.prev b (some a) := rfl

/-- Linked nodes are a chain. -/
theorem path_link (m : Links A) (a b : A) : (m.link a b).Path a [] b :=
  ⟨Function.update_self .., Function.update_self ..⟩

/-- A chain that does not use the pointer to the next node stays when it is written. -/
theorem Path.setNext (h : m.Path a l b) (hx : x ∉ a :: l) : (m.setNext x p).Path a l b :=
  h.congr (fun _ hy => Function.update_of_ne (ne_of_mem_of_not_mem hy hx) _ _) fun _ _ => rfl

/-- A chain that does not use the pointer to the node before stays when it is written. -/
theorem Path.setPrev (h : m.Path a l b) (hx : x ∉ l ++ [b]) : (m.setPrev x p).Path a l b :=
  h.congr (fun _ _ => rfl) fun _ hy => Function.update_of_ne (ne_of_mem_of_not_mem hy hx) _ _

/-- A chain stays when two nodes are linked that it does not link to others. -/
theorem Path.link (h : m.Path a l b) (hx : x ∉ a :: l) (hy : y ∉ l ++ [b]) :
    (m.link x y).Path a l b :=
  (h.setPrev hy).setNext hx

/-- A chain gets another first node. -/
theorem Path.start (h : m.Path a l b) (hn : m.next a = some x) (hl : (l ++ [b]).Nodup)
    (hy : y ∉ l) : (m.link y x).Path y l b := by
  cases l with
  | nil =>
    cases Option.some.inj (hn.symm.trans h.1)
    exact m.path_link y b
  | cons z l =>
    cases Option.some.inj (hn.symm.trans h.1.1)
    rw [List.cons_append, List.nodup_cons] at hl
    exact ⟨m.path_link y x, h.2.link hy hl.1⟩

/-- A chain gets another last node. -/
theorem Path.finish (h : m.Path a l b) (hp : m.prev b = some x) (hl : (a :: l).Nodup)
    (hy : y ∉ l) : (m.link x y).Path a l y := by
  rcases List.eq_nil_or_concat l with rfl | ⟨k, z, rfl⟩
  · cases Option.some.inj (hp.symm.trans h.2)
    exact m.path_link a y
  · rw [List.concat_eq_append] at h hl hy ⊢
    obtain ⟨hfirst, hlast⟩ := path_append.mp h
    cases Option.some.inj (hp.symm.trans hlast.2)
    refine path_append.mpr ⟨hfirst.link ?_ hy, m.path_link x y⟩
    rw [← List.cons_append, List.nodup_append] at hl
    exact fun hmem => hl.2.2 x hmem x (List.mem_singleton_self x) rfl

/-- Links between different nodes can be made in any order. -/
theorem link_comm {c d : A} (hne : a ≠ c) (hne' : b ≠ d) :
    (m.link a b).link c d = (m.link c d).link a b := by
  unfold link setNext setPrev
  congr 1
  · exact (Function.update_comm hne.symm _ _ _).symm
  · exact (Function.update_comm hne'.symm _ _ _).symm

/-- Two chains are joined by a link from the last node of one to the first node of the other. -/
theorem Path.join {c d : A} {k : List A} (h : m.Path a l c) (h' : m.Path d k b)
    (hp : m.prev c = some x) (hn : m.next d = some y) (hl : (a :: l).Nodup)
    (hk : (k ++ [b]).Nodup) (hdisjoint : ∀ z ∈ k, z ∉ a :: l) (hb : b ∉ l) :
    (m.link x y).Path a (l ++ k) b := by
  cases k with
  | nil =>
    cases Option.some.inj (hn.symm.trans h'.1)
    rw [List.append_nil]
    exact h.finish hp hl hb
  | cons z k =>
    cases Option.some.inj (hn.symm.trans h'.1.1)
    rw [List.cons_append, List.nodup_cons] at hk
    have hy := hdisjoint y List.mem_cons_self
    have hx : x ∉ y :: k := fun hmem => hdisjoint x hmem (h.prev_mem hp)
    exact path_append.mpr ⟨h.finish hp hl fun hmem => hy (List.mem_cons_of_mem _ hmem),
      h'.2.link hx hk.1⟩

end Link

section Ring

variable [DecidableEq A] {m : Links A} {h x y e p n : A} {l k r : List A}

/-- A head that is linked to itself has no entries. -/
theorem ring_link (m : Links A) (h : A) : (m.link h h).Ring h [] :=
  ⟨m.path_link h h, List.nodup_singleton h⟩

/-- A node is linked in behind the head. -/
theorem Ring.insertFront (hr : m.Ring h l) (hn : m.next h = some n) (hx : x ∉ h :: l) :
    ((m.link x n).link h x).Ring h (x :: l) := by
  have hnodup := hr.nodup
  refine ⟨⟨path_link _ h x, (hr.path.start hn ?_ ?_).link ?_ ?_⟩, ?_⟩ <;> grind

/-- A node is linked in before the head. -/
theorem Ring.insertBack (hr : m.Ring h l) (hp : m.prev h = some p) (hx : x ∉ h :: l) :
    ((m.link x h).link p x).Ring h (l ++ [x]) := by
  have hnodup := hr.nodup
  have hmem := hr.path.prev_mem hp
  rw [link_comm (by grind) (by grind)]
  refine ⟨path_append.mpr ⟨(hr.path.finish hp hnodup ?_).link ?_ ?_, path_link _ x h⟩, ?_⟩ <;> grind

/-- An entry is taken out. -/
theorem Ring.unlink (hr : m.Ring h (l ++ e :: r)) (hp : m.prev e = some p)
    (hn : m.next e = some n) : (m.link p n).Ring h (l ++ r) := by
  have hnodup := hr.nodup
  obtain ⟨hleft, hright⟩ := path_append.mp hr.path
  refine ⟨hleft.join hright hp hn ?_ ?_ ?_ ?_, ?_⟩ <;> grind

/-- An entry is replaced. -/
theorem Ring.replace (hr : m.Ring h (l ++ e :: r)) (hp : m.prev e = some p)
    (hn : m.next e = some n) (hx : x ∉ h :: (l ++ e :: r)) :
    ((m.link x n).link p x).Ring h (l ++ x :: r) := by
  have hnodup := hr.nodup
  obtain ⟨hleft, hright⟩ := path_append.mp hr.path
  have hpmem := hleft.prev_mem hp
  have hnmem := hright.next_mem hn
  have hp' : (m.link x n).prev e = some p := by
    rw [link_prev, Function.update_of_ne (by grind), hp]
  refine ⟨path_append.mpr ⟨(hleft.link ?_ ?_).finish hp' ?_ ?_,
    (hright.start hn ?_ ?_).link ?_ ?_⟩, ?_⟩ <;> grind

/-- The head of a ring with entries is replaced. -/
theorem Ring.replaceHead (hr : m.Ring h l) (hl : l ≠ []) (hp : m.prev h = some p)
    (hn : m.next h = some n) (hx : x ∉ h :: l) : ((m.link x n).link p x).Ring x l := by
  have hnodup := hr.nodup
  have hnmem : n ∈ l := by
    cases l with
    | nil => exact absurd rfl hl
    | cons y l =>
      rw [Option.some.inj (hn.symm.trans hr.path.1.1)]
      exact List.mem_cons_self
  have hp' : (m.link x n).prev h = some p := by
    rw [link_prev, Function.update_of_ne (by grind), hp]
  refine ⟨(hr.path.start hn ?_ ?_).finish hp' ?_ ?_, ?_⟩ <;> grind

/-- Two rings become one behind the head. -/
theorem Ring.spliceFront (hr : m.Ring h l) (hk : m.Ring x k) (hne : k ≠ [])
    (hn : m.next h = some n) (hfirst : m.next x = some y) (hlast : m.prev x = some p)
    (hdisjoint : ∀ z ∈ x :: k, z ∉ h :: l) :
    ((m.link h y).link p n).Ring h (k ++ l) := by
  have hnodup := hr.nodup
  have hnodup' := hk.nodup
  have hnmem := hr.path.next_mem hn
  obtain ⟨z, k, rfl⟩ := List.exists_cons_of_ne_nil hne
  have hyz : y = z := Option.some.inj (hfirst.symm.trans hk.path.1.1)
  have hpmem := hk.path.2.prev_mem hlast
  rw [link_comm (by grind) (by grind)]
  have hjoin : (m.link p n).Path x (z :: k ++ l) h := by
    refine hk.path.join hr.path hlast hn ?_ ?_ ?_ ?_ <;> grind
  have hfirst' : (m.link p n).next x = some y := by
    rw [link_next, Function.update_of_ne (by grind), hfirst]
  refine ⟨hjoin.start hfirst' ?_ ?_, ?_⟩ <;> grind

/-- Two rings become one before the head. -/
theorem Ring.spliceBack (hr : m.Ring h l) (hk : m.Ring x k) (hne : k ≠ [])
    (hp : m.prev h = some p) (hfirst : m.next x = some y) (hlast : m.prev x = some e)
    (hdisjoint : ∀ z ∈ x :: k, z ∉ h :: l) :
    ((m.link p y).link e h).Ring h (l ++ k) := by
  have hnodup := hr.nodup
  have hnodup' := hk.nodup
  obtain ⟨z, k, rfl⟩ := List.exists_cons_of_ne_nil hne
  have hyz : y = z := Option.some.inj (hfirst.symm.trans hk.path.1.1)
  have hjoin : (m.link p y).Path h (l ++ z :: k) x := by
    refine hr.path.join hk.path hp hfirst ?_ ?_ ?_ ?_ <;> grind
  have hlast' : (m.link p y).prev x = some e := by
    rw [link_prev, Function.update_of_ne (by grind), hlast]
  refine ⟨hjoin.finish hlast' ?_ ?_, ?_⟩ <;> grind

/-- A ring is cut behind an entry. -/
theorem Ring.cutBehind (hr : m.Ring h (l ++ e :: r)) (hfirst : m.next h = some y)
    (hn : m.next e = some n) (hx : x ∉ h :: (l ++ e :: r)) :
    (((m.link x y).link e x).link h n).Ring x (l ++ [e]) ∧
      (((m.link x y).link e x).link h n).Ring h r := by
  have hnodup := hr.nodup
  obtain ⟨hleft, hright⟩ := path_append.mp hr.path
  have hymem := hleft.next_mem hfirst
  have hnmem := hright.next_mem hn
  constructor
  · refine ⟨(path_append.mpr ⟨(hleft.start hfirst ?_ ?_).link ?_ ?_,
      path_link _ e x⟩).link ?_ ?_, ?_⟩ <;> grind
  · have hright' : (m.link x y).Path e r h := by
      refine hright.link ?_ ?_ <;> grind
    have hn' : (m.link x y).next e = some n := by
      rw [link_next, Function.update_of_ne (by grind), hn]
    rw [link_comm (by grind) (by grind)]
    refine ⟨(hright'.start hn' ?_ ?_).link ?_ ?_, ?_⟩ <;> grind

/-- A ring is cut before an entry that is not the first one. -/
theorem Ring.cutBefore (hr : m.Ring h (l ++ e :: r)) (hl : l ≠ []) (hfirst : m.next h = some y)
    (hp : m.prev e = some p) (hx : x ∉ h :: (l ++ e :: r)) :
    (((m.link x y).link p x).link h e).Ring x l ∧
      (((m.link x y).link p x).link h e).Ring h (e :: r) := by
  have hnodup := hr.nodup
  obtain ⟨hleft, hright⟩ := path_append.mp hr.path
  have hpmem := hleft.prev_mem hp
  obtain ⟨z, l, rfl⟩ := List.exists_cons_of_ne_nil hl
  have hyz : y = z := Option.some.inj (hfirst.symm.trans hleft.1.1)
  have hp' : (m.link x y).prev e = some p := by
    rw [link_prev, Function.update_of_ne (by grind), hp]
  constructor
  · refine ⟨((hleft.start hfirst ?_ ?_).finish hp' ?_ ?_).link ?_ ?_, ?_⟩ <;> grind
  · have hright' : ((m.link x y).link p x).Path e r h := by
      refine (hright.link ?_ ?_).link ?_ ?_ <;> grind
    refine ⟨⟨path_link _ h e, hright'.link ?_ ?_⟩, ?_⟩ <;> grind

/-- A ring is cut before its head. -/
theorem Ring.cutAll (hr : m.Ring h l) (hl : l ≠ []) (hfirst : m.next h = some y)
    (hp : m.prev h = some p) (hx : x ∉ h :: l) :
    (((m.link x y).link p x).link h h).Ring x l ∧
      (((m.link x y).link p x).link h h).Ring h [] := by
  have hnodup := hr.nodup
  have hpmem := hr.path.prev_mem hp
  obtain ⟨z, l, rfl⟩ := List.exists_cons_of_ne_nil hl
  have hyz : y = z := Option.some.inj (hfirst.symm.trans hr.path.1.1)
  have hp' : (m.link x y).prev h = some p := by
    rw [link_prev, Function.update_of_ne (by grind), hp]
  refine ⟨⟨((hr.path.start hfirst ?_ ?_).finish hp' ?_ ?_).link ?_ ?_, ?_⟩, ring_link _ h⟩ <;> grind

end Ring

/-- A memory holds lists: every head has its ring, and no two rings share a node. -/
structure Holds (m : Links A) (s : A → Option (List A)) : Prop where
  /-- The rings. -/
  ring (h : A) (l : List A) : s h = some l → m.Ring h l
  /-- Rings that share a node have the same head. -/
  apart (h h' x : A) (l l' : List A) : s h = some l → s h' = some l' → x ∈ h :: l →
    x ∈ h' :: l' → h = h'

/-- A node that is in no ring. -/
def Free (s : A → Option (List A)) (x : A) : Prop := ∀ h l, s h = some l → x ∉ h :: l

/-- A node that is no entry of a ring. -/
def NotEntry (s : A → Option (List A)) (x : A) : Prop := ∀ h l, s h = some l → x ∉ l

section Holds

variable {m m' : Links A} {s : A → Option (List A)} {h h' x y : A} {l k : List A}

/-- A free node is no entry. -/
theorem Free.notEntry (hx : Free s x) : NotEntry s x :=
  fun h l hl hmem => hx h l hl (List.mem_cons_of_mem h hmem)

/-- The lists are held in the other order when the directions are exchanged. -/
theorem Holds.flip (hs : m.Holds s) : m.flip.Holds fun h => (s h).map List.reverse := by
  have hmem {h x : A} {l : List A} (hx : x ∈ h :: l.reverse) : x ∈ h :: l := by
    simpa using hx
  refine ⟨fun h l hl => ?_, fun h h' x l l' hl hl' hx hx' => ?_⟩
  · obtain ⟨k, hk, rfl⟩ := Option.map_eq_some_iff.mp hl
    exact (hs.ring h k hk).flip
  · obtain ⟨k, hk, rfl⟩ := Option.map_eq_some_iff.mp hl
    obtain ⟨k', hk', rfl⟩ := Option.map_eq_some_iff.mp hl'
    exact hs.apart h h' x k k' hk hk' (hmem hx) (hmem hx')

/-- The rings stay when only free nodes are written. -/
theorem Holds.frame (hs : m.Holds s) (hfree : ∀ x, ¬ Free s x →
    m'.next x = m.next x ∧ m'.prev x = m.prev x) : m'.Holds s :=
  ⟨fun h l hl => (hs.ring h l hl).congr fun x hx => hfree x fun hx' => hx' h l hl hx, hs.apart⟩

variable [DecidableEq A]

/-- A head with entries that are given up. -/
theorem Holds.forget (hs : m.Holds s) (h : A) : m.Holds (Function.update s h none) := by
  have hkeep {a : A} {l : List A} (ha : Function.update s h none a = some l) : s a = some l := by
    by_cases heq : a = h
    · rw [heq, Function.update_self] at ha
      cases ha
    · rwa [Function.update_of_ne heq] at ha
  exact ⟨fun a l ha => hs.ring a l (hkeep ha),
    fun a b x l k ha hb => hs.apart a b x l k (hkeep ha) (hkeep hb)⟩

/-- A free node stays free when a head is given up. -/
theorem Free.forget (hx : Free s x) (h : A) : Free (Function.update s h none) x := by
  intro a l ha
  by_cases heq : a = h
  · rw [heq, Function.update_self] at ha
    cases ha
  · rw [Function.update_of_ne heq] at ha
    exact hx a l ha

/-- The nodes of a head that is given up are free. -/
theorem Holds.free_of_forget (hs : m.Holds s) (hl : s h = some l) (hx : x ∈ h :: l) :
    Free (Function.update s h none) x := by
  intro a k ha hmem
  by_cases heq : a = h
  · rw [heq, Function.update_self] at ha
    cases ha
  · rw [Function.update_of_ne heq] at ha
    exact heq (hs.apart a h x k l ha hl hmem hx)

/-- A ring of free nodes joins the others. -/
theorem Holds.insert (hs : m.Holds s) (hring : m.Ring h l) (hfree : ∀ x ∈ h :: l, Free s x) :
    m.Holds (Function.update s h (some l)) := by
  have hcases {a : A} {k : List A} (ha : Function.update s h (some l) a = some k) :
      a = h ∧ k = l ∨ s a = some k := by
    by_cases heq : a = h
    · rw [heq, Function.update_self] at ha
      exact .inl ⟨heq, (Option.some.inj ha).symm⟩
    · rw [Function.update_of_ne heq] at ha
      exact .inr ha
  refine ⟨fun a k ha => ?_, fun a b x k k' ha hb hx hx' => ?_⟩
  · rcases hcases ha with ⟨rfl, rfl⟩ | ha
    · exact hring
    · exact hs.ring a k ha
  · rcases hcases ha with ⟨rfl, rfl⟩ | hold <;> rcases hcases hb with ⟨rfl, rfl⟩ | hold'
    · rfl
    · exact absurd hx' (hfree x hx b k' hold')
    · exact absurd hx (hfree x hx' a k hold)
    · exact hs.apart a b x k k' hold hold' hx hx'

/-- A free node stays free when a ring without it joins. -/
theorem Free.insert (hx : Free s x) (hmem : x ∉ h :: l) :
    Free (Function.update s h (some l)) x := by
  intro a k ha
  by_cases heq : a = h
  · rw [heq, Function.update_self] at ha
    cases ha
    rwa [heq]
  · rw [Function.update_of_ne heq] at ha
    exact hx a k ha

/-- A free node is written. -/
theorem Holds.setNext (hs : m.Holds s) (hx : Free s x) (p : Option A) : (m.setNext x p).Holds s :=
  hs.frame fun y hy => ⟨Function.update_of_ne (fun heq : y = x => hy (heq ▸ hx)) _ _, rfl⟩

/-- A free node is written. -/
theorem Holds.setPrev (hs : m.Holds s) (hx : Free s x) (p : Option A) : (m.setPrev x p).Holds s :=
  hs.frame fun y hy => ⟨rfl, Function.update_of_ne (fun heq : y = x => hy (heq ▸ hx)) _ _⟩

/-- Free nodes are linked. -/
theorem Holds.link (hs : m.Holds s) (hx : Free s x) (hy : Free s y) : (m.link x y).Holds s :=
  (hs.setPrev hy _).setNext hx _

/-- A node that is no entry is free when the list that it heads is given up. -/
theorem NotEntry.free (hx : NotEntry s x) : Free (Function.update s x none) x := by
  intro h l hl hmem
  by_cases heq : h = x
  · rw [heq, Function.update_self] at hl
    cases hl
  · rw [Function.update_of_ne heq] at hl
    exact (List.mem_cons.mp hmem).elim (fun hx' => heq hx'.symm) (hx h l hl)

end Holds

end Links
