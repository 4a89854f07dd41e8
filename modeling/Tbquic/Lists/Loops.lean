import Tbquic.Lists.Refine

/-!
# Loops over lists

The loops of `list.h` that may take out and free the entry at hand. The next entry is read before
the body runs, and the one behind it afterwards. An entry that was freed is not looked at again,
and the loop does to the list what its body does to one entry after the other.
-/

namespace Tbquic

open Links

/-- The node behind an entry has a next one, whether the entry was kept or not. -/
theorem exists_next {A : Type} {m : Links A} {s : A → Option (List A)} {head n : A}
    {done todo : List A} (hs : m.Holds s) (hl : s head = some (done ++ todo))
    (hn : (todo ++ [head]).head? = some n) : ∃ next, m.next n = some next := by
  have hpath := (hs.ring head _ hl).path
  cases todo with
  | nil =>
    cases Option.some.inj hn
    obtain ⟨next, _, hnext, _⟩ := hpath.exists_ends
    exact ⟨next, hnext⟩
  | cons x todo =>
    cases Option.some.inj hn
    obtain ⟨next, _, hnext, _⟩ := (path_append.mp hpath).2.exists_ends
    exact ⟨next, hnext⟩

/-- Objects with a `list_head` in memory, together with the heads of their lists. -/
structure Objects (A P : Type) where
  /-- The links. -/
  links : Links A
  /-- What the allocated objects hold. -/
  data : A → Option P

/-- What the body of a loop makes of an object: what it holds afterwards, unless it is taken out and
freed, whether the loop ends there, and what the body returns. -/
structure LoopBody (σ P : Type) where
  /-- What the object holds afterwards. -/
  left : σ → P → Option P
  /-- Whether the loop ends. -/
  stops : σ → P → Bool
  /-- The other state. -/
  next : σ → P → σ

namespace LoopBody

variable {σ P : Type}

/-- What a loop leaves of a list. -/
def sweep (body : LoopBody σ P) : List P → σ → List P
  | [], _ => []
  | p :: ps, st =>
    (body.left st p).toList ++ if body.stops st p then ps else body.sweep ps (body.next st p)

/-- Whether a loop ends at an entry. -/
def stopped (body : LoopBody σ P) : List P → σ → Bool
  | [], _ => false
  | p :: ps, st => body.stops st p || body.stopped ps (body.next st p)

/-- What a loop makes of the other state. -/
def final (body : LoopBody σ P) : List P → σ → σ
  | [], st => st
  | p :: ps, st =>
    if body.stops st p then body.next st p else body.final ps (body.next st p)

end LoopBody

namespace Objects

variable {A P σ : Type} [DecidableEq A]

/-- Store what an object holds afterwards, or take it out of its list and free it. -/
def leave (pos : A) (left : Option P) (o : Objects A P) : Option (Objects A P) :=
  match left with
  | some p => some { o with data := Function.update o.data pos (some p) }
  | none => do
    let links ← listDel pos o.links
    pure { links, data := Function.update o.data pos none }

/-- The loop of `list_for_each_entry_safe_from` and of its counterpart in the other direction, at an
entry and the one behind it. It returns the entry at which it ends early. -/
def forEachSafeFrom (follow : Links A → A → Option A) (head : A) (body : LoopBody σ P) :
    ℕ → A → A → σ → Objects A P → Option (Option A × σ × Objects A P)
  | 0, _, _, _, _ => none
  | fuel + 1, pos, n, st, o =>
    if pos = head then some (none, st, o)
    else do
      let p ← o.data pos
      let t ← o.leave pos (body.left st p)
      if body.stops st p then pure (some pos, body.next st p, t)
      else do
        let next ← follow t.links n
        forEachSafeFrom follow head body fuel n next (body.next st p) t

/-- `list_for_each_entry_safe`. -/
def forEachSafe (fuel : ℕ) (head : A) (body : LoopBody σ P) (st : σ) (o : Objects A P) :
    Option (Option A × σ × Objects A P) := do
  let pos ← o.links.next head
  let n ← o.links.next pos
  forEachSafeFrom Links.next head body fuel pos n st o

/-- `list_for_each_entry_safe_reverse`. -/
def forEachSafeReverse (fuel : ℕ) (head : A) (body : LoopBody σ P) (st : σ) (o : Objects A P) :
    Option (Option A × σ × Objects A P) := do
  let pos ← o.links.prev head
  let n ← o.links.prev pos
  forEachSafeFrom Links.prev head body fuel pos n st o

/-- The objects in a list hold what they should. -/
def Contents (o : Objects A P) (l : List A) (ps : List P) : Prop := l.map o.data = ps.map some

/-- What a loop makes of a list whose first entries it has passed. -/
structure Swept (o t : Objects A P) (s : A → Option (List A)) (head : A) (done todo keep : List A)
    (ps : List P) : Prop where
  /-- The list is held. -/
  holds : t.links.Holds (Function.update s head (some (done ++ keep)))
  /-- What is kept holds what the body left. -/
  contents : t.Contents keep ps
  /-- What is kept keeps its order. -/
  sublist : keep.Sublist todo
  /-- All else is freed. -/
  freed (x : A) : x ∈ todo → x ∉ keep → t.data x = none
  /-- Other objects are left alone. -/
  others (x : A) : x ∉ todo → t.data x = o.data x

section Loop

variable {o : Objects A P} {s : A → Option (List A)} {head pos n : A} {done todo : List A}
  {ps : List P} {body : LoopBody σ P} {st : σ} {fuel : ℕ}

/-- The entry that stands for an object that is kept. -/
def kept (pos : A) (left : Option P) : List A := (left.map fun _ => pos).toList

/-- An object is kept where it is, or it leaves its list. -/
theorem leave_holds (hs : o.links.Holds s) (hl : s head = some (done ++ pos :: todo))
    (left : Option P) : ∃ t, o.leave pos left = some t ∧
      t.links.Holds (Function.update s head (some (done ++ kept pos left ++ todo))) ∧
      t.data = Function.update o.data pos left := by
  cases left with
  | some p =>
    refine ⟨_, rfl, ?_, rfl⟩
    have hsame : done ++ kept pos (some p) ++ todo = done ++ pos :: todo := by
      rw [List.append_assoc]
      rfl
    rw [hsame, show Function.update s head (some (done ++ pos :: todo)) = s from
      Function.update_eq_self_iff.mpr hl.symm]
    exact hs
  | none =>
    obtain ⟨links, hrun, hs'⟩ := holds_del hs hl
    refine ⟨_, by rw [leave, hrun]; rfl, ?_, rfl⟩
    rwa [show done ++ kept pos (none : Option P) = done from List.append_nil done]

/-- A loop that ends leaves the rest of the list. -/
theorem Swept.refl (hs : o.links.Holds s) (hl : s head = some (done ++ todo))
    (hps : o.Contents todo ps) : Swept o o s head done todo todo ps where
  holds := by rwa [show Function.update s head (some (done ++ todo)) = s from
    Function.update_eq_self_iff.mpr hl.symm]
  contents := hps
  sublist := List.Sublist.refl todo
  freed _ hx hx' := absurd hx hx'
  others _ _ := rfl

/-- A loop that goes on behind an entry. -/
theorem Swept.cons {t u : Objects A P} {keep : List A} {left : Option P}
    (h : Swept t u (Function.update s head (some (done ++ kept pos left ++ todo))) head
      (done ++ kept pos left) todo keep ps) (hpos : pos ∉ todo)
    (ht : t.data = Function.update o.data pos left) :
    Swept o u s head done (pos :: todo) (kept pos left ++ keep) (left.toList ++ ps) where
  holds := by
    have hholds := h.holds
    rwa [Function.update_idem, List.append_assoc] at hholds
  contents := by
    have hself : u.data pos = left := by
      rw [h.others pos hpos, ht, Function.update_self]
    have hcontents := h.contents
    unfold Contents at hcontents ⊢
    rw [List.map_append, List.map_append, hcontents]
    congr 1
    cases left with
    | none => rfl
    | some p => exact congrArg (fun q => [q]) hself
  sublist := by
    cases left with
    | none => exact h.sublist.cons pos
    | some p => exact h.sublist.cons_cons pos
  freed x hx hx' := by
    rcases List.mem_cons.mp hx with rfl | hx
    · rw [h.others x hpos, ht, Function.update_self]
      cases left with
      | none => rfl
      | some p => exact absurd List.mem_cons_self hx'
    · exact h.freed x hx fun hmem => hx' (List.mem_append_right _ hmem)
  others x hx := by
    rw [List.mem_cons, not_or] at hx
    rw [h.others x hx.2, ht, Function.update_of_ne hx.1]

/-- The loop does to a list what its body does to one entry after the other. -/
theorem forEachSafeFrom_swept (hs : o.links.Holds s) (hl : s head = some (done ++ todo))
    (hps : o.Contents todo ps) (hpos : (todo ++ [head]).head? = some pos)
    (hn : o.links.next pos = some n) (hfuel : todo.length < fuel) :
    ∃ ret t keep, forEachSafeFrom Links.next head body fuel pos n st o =
        some (ret, body.final ps st, t) ∧ ret.isSome = body.stopped ps st ∧
      Swept o t s head done todo keep (body.sweep ps st) := by
  induction todo generalizing o s done ps pos n st fuel with
  | nil =>
    obtain ⟨fuel, rfl⟩ := Nat.exists_eq_succ_of_ne_zero (Nat.ne_zero_of_lt hfuel)
    cases List.map_eq_nil_iff.mp (show ps.map some = [] from hps.symm)
    exact ⟨none, o, [], if_pos (Option.some.inj hpos).symm, rfl, Swept.refl hs hl hps⟩
  | cons x todo ih =>
    obtain ⟨fuel, rfl⟩ := Nat.exists_eq_succ_of_ne_zero (Nat.ne_zero_of_lt hfuel)
    cases Option.some.inj hpos
    cases ps with
    | nil => cases (show x :: todo = [] from List.map_eq_nil_iff.mp hps)
    | cons p ps =>
      obtain ⟨hdata, hrest⟩ := List.cons.inj (show o.data x :: todo.map o.data = _ from hps)
      have hring := hs.ring head _ hl
      have hnodup := hring.nodup
      have hx : x ∉ todo := by grind
      obtain ⟨t, ht, hs', hdata'⟩ := leave_holds hs hl (body.left st p)
      have hrest' : t.Contents todo ps := by
        unfold Contents
        rw [hdata', ← hrest]
        exact List.map_congr_left fun y hy =>
          Function.update_of_ne (ne_of_mem_of_not_mem hy hx) _ _
      rw [forEachSafeFrom, if_neg (by grind), hdata, Option.bind_eq_bind, Option.bind_some, ht,
        Option.bind_eq_bind, Option.bind_some, LoopBody.sweep, LoopBody.final, LoopBody.stopped]
      cases hstops : body.stops st p with
      | true =>
        refine ⟨some x, t, kept x (body.left st p) ++ todo, rfl, rfl, Swept.cons ?_ hx hdata'⟩
        exact Swept.refl hs' (Function.update_self ..) hrest'
      | false =>
        have hnext := (path_append.mp hring.path).2.next_eq
        rw [hn] at hnext
        obtain ⟨next, hnext'⟩ := exists_next hs' (Function.update_self ..) hnext.symm
        obtain ⟨ret, u, keep, hrun, hret, hswept⟩ := @ih t _ n next _ ps (body.next st p) fuel hs'
          (Function.update_self ..) hrest' hnext.symm hnext' (Nat.lt_of_succ_lt_succ hfuel)
        refine ⟨ret, u, _, ?_, hret, hswept.cons hx hdata'⟩
        rw [if_neg Bool.false_ne_true, hnext']
        exact hrun

variable (body st) in
/-- `list_for_each_entry_safe` does to a list what its body does to one entry after the other. -/
theorem forEachSafe_swept (hs : o.links.Holds s) (hl : s head = some todo)
    (hps : o.Contents todo ps) (hfuel : todo.length < fuel) :
    ∃ ret t keep, forEachSafe fuel head body st o = some (ret, body.final ps st, t) ∧
      ret.isSome = body.stopped ps st ∧
      Swept o t s head [] todo keep (body.sweep ps st) := by
  obtain ⟨pos, _, hpos, _⟩ := (hs.ring head _ hl).path.exists_ends
  have hfirst := (hs.ring head _ hl).path.next_eq
  rw [hpos] at hfirst
  obtain ⟨n, hn⟩ := @exists_next A o.links s head pos [] todo hs hl hfirst.symm
  obtain ⟨ret, t, keep, hrun, hret, hswept⟩ := @forEachSafeFrom_swept A P σ _ o s head pos n [] todo
    ps body st fuel hs hl hps hfirst.symm hn hfuel
  refine ⟨ret, t, keep, ?_, hret, hswept⟩
  rw [forEachSafe, hpos, Option.bind_eq_bind, Option.bind_some, hn]
  exact hrun

end Loop

section Reverse

variable {o : Objects A P} {s : A → Option (List A)} {head pos : A} {body : LoopBody σ P} {st : σ}
  {fuel : ℕ}

/-- The memory with the two directions exchanged. -/
def flip (o : Objects A P) : Objects A P := { o with links := o.links.flip }

/-- An entry is taken out in either direction. -/
theorem listDel_flip (m : Links A) : listDel pos m.flip = (listDel pos m).map Links.flip := by
  rw [listDel, listDel, listDelEntry, listDelEntry]
  change ((m.next pos).bind fun prev => (m.prev pos).bind fun next => _).bind _ = _
  cases hnext : m.next pos with
  | none => cases hprev : m.prev pos <;> rfl
  | some next => cases hprev : m.prev pos <;> rfl

/-- What becomes of an entry does not depend on the direction. -/
theorem leave_flip (left : Option P) : o.flip.leave pos left = (o.leave pos left).map flip := by
  cases left with
  | some p => rfl
  | none =>
    change (listDel pos o.links.flip).bind _ = _
    rw [listDel_flip]
    cases h : listDel pos o.links <;> simp [leave, h, flip]

/-- A loop back through a list is one through the list in the other direction. -/
theorem forEachSafeFrom_flip {n : A} :
    forEachSafeFrom Links.next head body fuel pos n st o.flip =
      (forEachSafeFrom Links.prev head body fuel pos n st o).map
        fun r => (r.1, r.2.1, r.2.2.flip) := by
  induction fuel generalizing pos n st o with
  | zero => rfl
  | succ fuel ih =>
    rw [forEachSafeFrom, forEachSafeFrom]
    split
    · rfl
    change (o.data pos).bind _ = ((o.data pos).bind _).map _
    cases hdata : o.data pos with
    | none => rfl
    | some p =>
      rw [Option.bind_some, Option.bind_some, leave_flip]
      cases hleave : o.leave pos (body.left st p) with
      | none => rfl
      | some t =>
        change (if body.stops st p then _ else (t.links.prev n).bind _) =
          (if body.stops st p then _ else (t.links.prev n).bind _ : Option _).map _
        split
        · rfl
        cases hprev : t.links.prev n with
        | none => rfl
        | some next => exact ih

variable (body st) in
/-- `list_for_each_entry_safe_reverse` does to a list what its body does to one entry before the
other. -/
theorem forEachSafeReverse_swept {todo : List A} {ps : List P} (hs : o.links.Holds s)
    (hl : s head = some todo) (hps : o.Contents todo ps) (hfuel : todo.length < fuel) :
    ∃ ret t keep, forEachSafeReverse fuel head body st o =
        some (ret, body.final ps.reverse st, t) ∧ ret.isSome = body.stopped ps.reverse st ∧
      t.links.Holds (Function.update s head (some keep)) ∧
      t.Contents keep (body.sweep ps.reverse st).reverse ∧ keep.Sublist todo ∧
      (∀ x ∈ todo, x ∉ keep → t.data x = none) ∧ ∀ x, x ∉ todo → t.data x = o.data x := by
  have hps' : o.flip.Contents todo.reverse ps.reverse := by
    unfold Contents at hps ⊢
    rw [List.map_reverse, List.map_reverse]
    exact congrArg List.reverse hps
  obtain ⟨ret, t, keep, hrun, hret, hswept⟩ := @forEachSafe_swept A P σ _ o.flip _ head
    todo.reverse ps.reverse body st fuel hs.flip (by rw [hl]; rfl) hps'
    (by rwa [List.length_reverse])
  have hrun' : forEachSafe fuel head body st o.flip =
      (forEachSafeReverse fuel head body st o).map fun r => (r.1, r.2.1, r.2.2.flip) := by
    change ((o.links.prev head).bind fun pos => (o.links.prev pos).bind _) =
      ((o.links.prev head).bind fun pos => (o.links.prev pos).bind _).map _
    cases hpos : o.links.prev head with
    | none => rfl
    | some pos =>
      rw [Option.bind_some, Option.bind_some]
      cases hn : o.links.prev pos with
      | none => rfl
      | some n => exact forEachSafeFrom_flip
  rw [hrun'] at hrun
  obtain ⟨r, hr, heq⟩ := Option.map_eq_some_iff.mp hrun
  obtain ⟨ret', st', u⟩ := r
  obtain ⟨rfl, rfl, rfl⟩ : ret' = ret ∧ st' = _ ∧ u.flip = t := by
    simpa only [Prod.mk.injEq] using heq
  refine ⟨ret', u, keep.reverse, hr, hret, ?_, ?_, ?_, ?_, ?_⟩
  · have hholds := hswept.holds.flip
    rw [List.nil_append] at hholds
    change u.links.Holds _ at hholds
    convert hholds using 1
    funext h
    by_cases heq' : h = head
    · rw [heq', Function.update_self, Function.update_self]
      rfl
    · rw [Function.update_of_ne heq', Function.update_of_ne heq', Option.map_map,
        List.reverse_involutive.comp_self, Option.map_id]
      rfl
  · have hcontents := hswept.contents
    unfold Contents at hcontents ⊢
    rw [List.map_reverse, List.map_reverse]
    exact congrArg List.reverse hcontents
  · rw [← List.reverse_sublist, List.reverse_reverse]
    exact hswept.sublist
  · intro x hx hx'
    exact hswept.freed x (List.mem_reverse.mpr hx) fun h => hx' (List.mem_reverse.mpr h)
  · exact fun x hx => hswept.others x fun h => hx (List.mem_reverse.mp h)

end Reverse

end Objects

end Tbquic
