import Mathlib.Data.List.Induction
import Tbquic.Lists.Head

/-!
# What the operations on lists mean

Every head has a list of entries, and no node is in two lists. The operations of `list.h` on such a
memory do what they say about the lists, whatever lists there are and in whatever order the
operations are called.
-/

namespace Tbquic

open Links

variable {A : Type} [DecidableEq A]

/-- What a call does to the lists. Only calls are listed that `list.h` allows: a node that is added
is in no list, a node that is removed is in one, and a list that is cut off loses what it had. -/
inductive ListEffect : (A → Option (List A)) → ListCall A → (A → Option (List A)) → Prop
  | init {s list} : NotEntry s list → ListEffect s (.init list) (Function.update s list (some []))
  | add {s new head l} : s head = some l → Free s new →
      ListEffect s (.add new head) (Function.update s head (some (new :: l)))
  | addTail {s new head l} : s head = some l → Free s new →
      ListEffect s (.addTail new head) (Function.update s head (some (l ++ [new])))
  | del {s head l entry r} : s head = some (l ++ entry :: r) →
      ListEffect s (.del entry) (Function.update s head (some (l ++ r)))
  | delInit {s head l entry r} : s head = some (l ++ entry :: r) →
      ListEffect s (.delInit entry)
        (Function.update (Function.update s head (some (l ++ r))) entry (some []))
  | replace {s head l old r new} : s head = some (l ++ old :: r) → Free s new →
      ListEffect s (.replace old new) (Function.update s head (some (l ++ new :: r)))
  | replaceHead {s old l new} : s old = some l → Free s new →
      ListEffect s (.replace old new) (Function.update (Function.update s old none) new (some l))
  | replaceInit {s head l old r new} : s head = some (l ++ old :: r) → Free s new →
      ListEffect s (.replaceInit old new)
        (Function.update (Function.update s head (some (l ++ new :: r))) old (some []))
  | replaceInitHead {s old l new} : s old = some l → Free s new →
      ListEffect s (.replaceInit old new)
        (Function.update (Function.update (Function.update s old none) new (some l)) old (some []))
  | move {s source l entry r head k} : s source = some (l ++ entry :: r) →
      Function.update s source (some (l ++ r)) head = some k →
      ListEffect s (.move entry head)
        (Function.update (Function.update s source (some (l ++ r))) head (some (entry :: k)))
  | moveTail {s source l entry r head k} : s source = some (l ++ entry :: r) →
      Function.update s source (some (l ++ r)) head = some k →
      ListEffect s (.moveTail entry head)
        (Function.update (Function.update s source (some (l ++ r))) head (some (k ++ [entry])))
  | rotateEmpty {s head} : s head = some [] → ListEffect s (.rotateLeft head) s
  | rotateLeft {s head first l} : s head = some (first :: l) →
      ListEffect s (.rotateLeft head) (Function.update s head (some (l ++ [first])))
  | cutEmpty {s list head entry} : s head = some [] → ListEffect s (.cutPosition list head entry) s
  | cutNothing {s list head l} : s head = some l → l ≠ [] → list ≠ head → NotEntry s list →
      ListEffect s (.cutPosition list head head) (Function.update s list (some []))
  | cutPosition {s list head l entry r} : s head = some (l ++ entry :: r) → list ≠ head →
      NotEntry s list → ListEffect s (.cutPosition list head entry)
        (Function.update (Function.update s list (some (l ++ [entry]))) head (some r))
  | cutBefore {s list head l entry r} : s head = some (l ++ entry :: r) → list ≠ head →
      NotEntry s list → ListEffect s (.cutBefore list head entry)
        (Function.update (Function.update s list (some l)) head (some (entry :: r)))
  | cutAll {s list head l} : s head = some l → list ≠ head → NotEntry s list →
      ListEffect s (.cutBefore list head head)
        (Function.update (Function.update s list (some l)) head (some []))
  | spliceEmpty {s list head} : s list = some [] → ListEffect s (.splice list head) s
  | splice {s list k head l} : s list = some k → k ≠ [] → s head = some l → list ≠ head →
      ListEffect s (.splice list head)
        (Function.update (Function.update s list none) head (some (k ++ l)))
  | spliceTailEmpty {s list head} : s list = some [] → ListEffect s (.spliceTail list head) s
  | spliceTail {s list k head l} : s list = some k → k ≠ [] → s head = some l → list ≠ head →
      ListEffect s (.spliceTail list head)
        (Function.update (Function.update s list none) head (some (l ++ k)))
  | spliceInit {s list k head l} : s list = some k → s head = some l → list ≠ head →
      ListEffect s (.spliceInit list head)
        (Function.update (Function.update s list (some [])) head (some (k ++ l)))
  | spliceTailInit {s list k head l} : s list = some k → s head = some l → list ≠ head →
      ListEffect s (.spliceTailInit list head)
        (Function.update (Function.update s list (some [])) head (some (l ++ k)))

section Memory

variable {m : Links A} {s : A → Option (List A)} {head list entry new old p n x y : A}
  {l k r : List A}

/-- A list is empty when its head has no entries. -/
theorem listEmpty_iff (h : m.Ring head l) : listEmpty head m = true ↔ l = [] := by
  unfold listEmpty
  rw [decide_eq_true_iff]
  cases l with
  | nil => exact iff_of_true h.path.1 rfl
  | cons x l =>
    refine iff_of_false (fun hnext => ?_) (List.cons_ne_nil x l)
    have hx : x = head := Option.some.inj (h.path.1.1.symm.trans hnext)
    exact (List.nodup_cons.mp h.nodup).1 (hx ▸ List.mem_cons_self)

/-- A list is no list with one entry that is not the one asked for. -/
theorem not_isSingular (h : m.Ring head (l ++ entry :: r)) :
    ¬ (listIsSingular head m = true ∧ m.next head ≠ some entry ∧ head ≠ entry) := by
  rintro ⟨hsingular, hnext, -⟩
  rw [listIsSingular, Bool.and_eq_true, decide_eq_true_iff, h.next_eq_prev_iff,
    List.length_append, List.length_cons] at hsingular
  have hl : l = [] := List.length_eq_zero_iff.mp (by omega)
  subst hl
  exact hnext h.path.1.1

/-- Heads that were given up first have the same lists in the end. -/
theorem update_forget {a b : Option (List A)} (hne : x ≠ y) :
    Function.update (Function.update (Function.update (Function.update s x none) y none) x a) y b =
      Function.update (Function.update s x a) y b := by
  rw [Function.update_comm hne.symm none a (Function.update s x none), Function.update_idem,
    Function.update_idem]

/-- A head that was given up and is initialized has an empty list. -/
theorem update_reinit {a : Option (List A)} (hne : list ≠ head) :
    Function.update (Function.update (Function.update s list none) head a) list (some []) =
      Function.update (Function.update s list (some [])) head a := by
  rw [Function.update_comm hne.symm a (some []) (Function.update s list none),
    Function.update_idem]

/-- An empty list adds nothing. -/
theorem update_splice (hk : s list = some []) (hl : s head = some l) :
    Function.update (Function.update s list (some [])) head (some ([] ++ l)) = s := by
  have hlist : Function.update s list (some []) = s := Function.update_eq_self_iff.mpr hk.symm
  rw [hlist, List.nil_append, Function.update_eq_self_iff.mpr hl.symm]

/-- Initializing a head gives up what it had. -/
theorem holds_init (hs : m.Holds s) (hlist : NotEntry s list) :
    (initListHead list m).Holds (Function.update s list (some [])) := by
  have hinsert := ((hs.forget list).link hlist.free hlist.free).insert (ring_link m list)
    fun x hx => by rw [List.mem_singleton.mp hx]; exact hlist.free
  rwa [Function.update_idem] at hinsert

/-- A node is added behind the head. -/
theorem holds_add (hs : m.Holds s) (hl : s head = some l) (hnew : Free s new) :
    ∃ m', listAdd new head m = some m' ∧
      m'.Holds (Function.update s head (some (new :: l))) := by
  have hring := hs.ring head l hl
  obtain ⟨n, p, hn, hp⟩ := hring.path.exists_ends
  have hmem := hring.path.next_mem hn
  have hfree {x : A} (hx : x ∈ head :: l) := hs.free_of_forget hl hx
  have hnew' := hnew.forget head
  have hinsert := (((hs.forget head).link hnew' (hfree (x := n) (by grind))).link
    (hfree (x := head) (by grind)) hnew').insert (hring.insertFront hn (hnew head l hl)) (by grind)
  rw [Function.update_idem] at hinsert
  exact ⟨_, by rw [listAdd, hn]; rfl, hinsert⟩

/-- A node is added before the head. -/
theorem holds_addTail (hs : m.Holds s) (hl : s head = some l) (hnew : Free s new) :
    ∃ m', listAddTail new head m = some m' ∧
      m'.Holds (Function.update s head (some (l ++ [new]))) := by
  have hring := hs.ring head l hl
  obtain ⟨n, p, hn, hp⟩ := hring.path.exists_ends
  have hmem := hring.path.prev_mem hp
  have hfree {x : A} (hx : x ∈ head :: l) := hs.free_of_forget hl hx
  have hnew' := hnew.forget head
  have hinsert := (((hs.forget head).link hnew' (hfree (x := head) (by grind))).link
    (hfree (x := p) hmem) hnew').insert (hring.insertBack hp (hnew head l hl)) (by grind)
  rw [Function.update_idem] at hinsert
  exact ⟨_, by rw [listAddTail, hp]; rfl, hinsert⟩

/-- An entry is taken out of its list and is free then. -/
theorem holds_delEntry (hs : m.Holds s) (hl : s head = some (l ++ entry :: r)) :
    ∃ m', listDelEntry entry m = some m' ∧
      m'.Holds (Function.update s head (some (l ++ r))) ∧
      Free (Function.update s head (some (l ++ r))) entry := by
  have hring := hs.ring head _ hl
  have hnodup := hring.nodup
  obtain ⟨hleft, hright⟩ := path_append.mp hring.path
  obtain ⟨_, p, _, hp⟩ := hleft.exists_ends
  obtain ⟨n, _, hn, _⟩ := hright.exists_ends
  have hpmem := hleft.prev_mem hp
  have hnmem := hright.next_mem hn
  have hfree {x : A} (hx : x ∈ head :: (l ++ entry :: r)) := hs.free_of_forget hl hx
  have hinsert := ((hs.forget head).link (hfree (x := p) (by grind))
    (hfree (x := n) (by grind))).insert (hring.unlink hp hn) (by grind)
  have hentry := (hfree (x := entry) (by grind)).insert (h := head) (l := l ++ r) (by grind)
  rw [Function.update_idem] at hinsert hentry
  exact ⟨_, by rw [listDelEntry, hp, hn]; rfl, hinsert, hentry⟩

/-- An entry is taken out of its list. -/
theorem holds_del (hs : m.Holds s) (hl : s head = some (l ++ entry :: r)) :
    ∃ m', listDel entry m = some m' ∧ m'.Holds (Function.update s head (some (l ++ r))) := by
  obtain ⟨m', hrun, hs', hfree⟩ := holds_delEntry hs hl
  exact ⟨_, by rw [listDel, hrun]; rfl, (hs'.setNext hfree none).setPrev hfree none⟩

/-- An entry is replaced by a free node and is free then. -/
theorem holds_replace (hs : m.Holds s) (hl : s head = some (l ++ old :: r)) (hnew : Free s new) :
    ∃ m', listReplace old new m = some m' ∧
      m'.Holds (Function.update s head (some (l ++ new :: r))) ∧
      Free (Function.update s head (some (l ++ new :: r))) old := by
  have hring := hs.ring head _ hl
  have hnodup := hring.nodup
  have hnot := hnew head _ hl
  obtain ⟨hleft, hright⟩ := path_append.mp hring.path
  obtain ⟨_, p, _, hp⟩ := hleft.exists_ends
  obtain ⟨n, _, hn, _⟩ := hright.exists_ends
  have hpmem := hleft.prev_mem hp
  have hnmem := hright.next_mem hn
  have hfree {x : A} (hx : x ∈ head :: (l ++ old :: r)) := hs.free_of_forget hl hx
  have hnew' := hnew.forget head
  have hinsert := (((hs.forget head).link hnew' (hfree (x := n) (by grind))).link
    (hfree (x := p) (by grind)) hnew').insert (hring.replace hp hn hnot) (by grind)
  have hold := (hfree (x := old) (by grind)).insert (h := head) (l := l ++ new :: r) (by grind)
  rw [Function.update_idem] at hinsert hold
  have hp' : Function.update m.prev n (some new) old = some p := by
    rw [Function.update_of_ne (by grind), hp]
  refine ⟨_, ?_, hinsert, hold⟩
  rw [listReplace, hn, Option.bind_eq_bind, Option.bind_some]
  dsimp only [setPrev_prev, setNext_prev]
  rw [hp']
  rfl

/-- The head of a list is replaced by a free node and is free then. -/
theorem holds_replaceHead (hs : m.Holds s) (hl : s old = some l) (hnew : Free s new) :
    ∃ m', listReplace old new m = some m' ∧
      m'.Holds (Function.update (Function.update s old none) new (some l)) ∧
      Free (Function.update (Function.update s old none) new (some l)) old := by
  have hring := hs.ring old _ hl
  have hnodup := hring.nodup
  have hnot := hnew old _ hl
  obtain ⟨n, p, hn, hp⟩ := hring.path.exists_ends
  have hpmem := hring.path.prev_mem hp
  have hnmem := hring.path.next_mem hn
  have hfree {x : A} (hx : x ∈ old :: l) := hs.free_of_forget hl hx
  have hnew' := hnew.forget old
  have hold := (hfree (x := old) (by grind)).insert (h := new) (l := l) (by grind)
  by_cases hempty : l = []
  · subst hempty
    have hself : n = old := List.mem_singleton.mp hnmem
    rw [hself] at hn
    have hinsert := (((((hs.forget old).setNext hnew' (some old)).setPrev
      (hfree (x := old) List.mem_cons_self) (some new)).setPrev hnew' (some new)).setNext hnew'
      (some new)).insert (h := new) (l := [])
      ⟨⟨Function.update_self .., Function.update_self ..⟩, List.nodup_singleton new⟩ (by grind)
    refine ⟨_, ?_, hinsert, hold⟩
    rw [listReplace, hn, Option.bind_eq_bind, Option.bind_some]
    dsimp only [setPrev_prev, setNext_prev]
    rw [Function.update_self]
    rfl
  · have hinsert := (((hs.forget old).link hnew' (hfree (x := n) (by grind))).link
      (hfree (x := p) (by grind)) hnew').insert (hring.replaceHead hempty hp hn hnot) (by grind)
    have hne := hring.path.next_ne hn hempty (by grind)
    have hp' : Function.update m.prev n (some new) old = some p := by
      rw [Function.update_of_ne hne.symm, hp]
    refine ⟨_, ?_, hinsert, hold⟩
    rw [listReplace, hn, Option.bind_eq_bind, Option.bind_some]
    dsimp only [setPrev_prev, setNext_prev]
    rw [hp']
    rfl

/-- A list is cut behind an entry. -/
theorem holds_cutPosition (hs : m.Holds s) (hl : s head = some (l ++ entry :: r))
    (hne : list ≠ head) (hlist : NotEntry s list) :
    ∃ m', listCutPosition list head entry m = some m' ∧
      m'.Holds (Function.update (Function.update s list (some (l ++ [entry]))) head (some r)) := by
  have hring := hs.ring head _ hl
  have hnodup := hring.nodup
  obtain ⟨hleft, hright⟩ := path_append.mp hring.path
  obtain ⟨y, _, hy, _⟩ := hleft.exists_ends
  obtain ⟨n, _, hn, _⟩ := hright.exists_ends
  have hymem := hleft.next_mem hy
  have hnmem := hright.next_mem hn
  have hl' : Function.update s list none head = some (l ++ entry :: r) := by
    rwa [Function.update_of_ne hne.symm]
  have hs' := hs.forget list
  have hfree {x : A} (hx : x ∈ head :: (l ++ entry :: r)) := hs'.free_of_forget hl' hx
  have hlist' := hlist.free.forget head
  have hnot := hlist.free head _ hl'
  obtain ⟨hcut, hrest⟩ := hring.cutBehind hy hn hnot
  have hlinks := (((hs'.forget head).link hlist' (hfree (x := y) (by grind))).link
    (hfree (x := entry) (by grind)) hlist').link (hfree (x := head) (by grind))
    (hfree (x := n) (by grind))
  have hinsert := (hlinks.insert hcut (by grind)).insert hrest fun x hx =>
    (hfree (x := x) (by grind)).insert (by grind)
  rw [update_forget hne] at hinsert
  have hempty : ¬ listEmpty head m = true := by
    rw [listEmpty_iff hring]
    simp
  refine ⟨_, ?_, hinsert⟩
  rw [listCutPosition, if_neg hempty, if_neg (not_isSingular hring), if_neg (by grind),
    listCutBehind, hn, hy]
  rfl

/-- A list is cut before an entry. -/
theorem holds_cutBefore (hs : m.Holds s) (hl : s head = some (l ++ entry :: r))
    (hne : list ≠ head) (hlist : NotEntry s list) :
    ∃ m', listCutBefore list head entry m = some m' ∧
      m'.Holds (Function.update (Function.update s list (some l)) head (some (entry :: r))) := by
  have hring := hs.ring head _ hl
  have hnodup := hring.nodup
  obtain ⟨hleft, hright⟩ := path_append.mp hring.path
  obtain ⟨y, p, hy, hp⟩ := hleft.exists_ends
  by_cases hempty : l = []
  · subst hempty
    have hl' : Function.update s list (some []) head = some (entry :: r) := by
      rwa [Function.update_of_ne hne.symm]
    have hinit := holds_init hs hlist
    rw [Function.update_eq_self_iff.mpr hl'.symm]
    exact ⟨_, if_pos hring.path.1.1, hinit⟩
  have hymem := hleft.next_mem hy
  have hpmem := hleft.prev_mem hp
  have hl' : Function.update s list none head = some (l ++ entry :: r) := by
    rwa [Function.update_of_ne hne.symm]
  have hs' := hs.forget list
  have hfree {x : A} (hx : x ∈ head :: (l ++ entry :: r)) := hs'.free_of_forget hl' hx
  have hlist' := hlist.free.forget head
  have hnot := hlist.free head _ hl'
  obtain ⟨hcut, hrest⟩ := hring.cutBefore hempty hy hp hnot
  have hlinks := (((hs'.forget head).link hlist' (hfree (x := y) (by grind))).link
    (hfree (x := p) (by grind)) hlist').link (hfree (x := head) (by grind))
    (hfree (x := entry) (by grind))
  have hinsert := (hlinks.insert hcut (by grind)).insert hrest fun x hx =>
    (hfree (x := x) (by grind)).insert (by grind)
  rw [update_forget hne] at hinsert
  have hyentry := hleft.next_ne hy hempty (by grind)
  have hp' : Function.update m.prev y (some list) entry = some p := by
    rw [Function.update_of_ne hyentry.symm, hp]
  refine ⟨_, ?_, hinsert⟩
  rw [listCutBefore, hy, if_neg fun heq => hyentry (Option.some.inj heq), Option.bind_eq_bind,
    Option.bind_some]
  dsimp only [setPrev_prev, setNext_prev]
  rw [hp']
  rfl

/-- A list is cut before its head. -/
theorem holds_cutAll (hs : m.Holds s) (hl : s head = some l) (hne : list ≠ head)
    (hlist : NotEntry s list) :
    ∃ m', listCutBefore list head head m = some m' ∧
      m'.Holds (Function.update (Function.update s list (some l)) head (some [])) := by
  have hring := hs.ring head _ hl
  have hnodup := hring.nodup
  obtain ⟨y, p, hy, hp⟩ := hring.path.exists_ends
  by_cases hempty : l = []
  · subst hempty
    have hl' : Function.update s list (some []) head = some [] := by
      rwa [Function.update_of_ne hne.symm]
    have hinit := holds_init hs hlist
    rw [Function.update_eq_self_iff.mpr hl'.symm]
    exact ⟨_, if_pos hring.path.1, hinit⟩
  have hymem := hring.path.next_mem hy
  have hpmem := hring.path.prev_mem hp
  have hl' : Function.update s list none head = some l := by
    rwa [Function.update_of_ne hne.symm]
  have hs' := hs.forget list
  have hfree {x : A} (hx : x ∈ head :: l) := hs'.free_of_forget hl' hx
  have hlist' := hlist.free.forget head
  have hnot := hlist.free head _ hl'
  obtain ⟨hcut, hrest⟩ := hring.cutAll hempty hy hp hnot
  have hlinks := (((hs'.forget head).link hlist' (hfree (x := y) (by grind))).link
    (hfree (x := p) (by grind)) hlist').link (hfree (x := head) (by grind))
    (hfree (x := head) (by grind))
  have hinsert := (hlinks.insert hcut (by grind)).insert hrest fun x hx =>
    (hfree (x := x) (by grind)).insert (by grind)
  rw [update_forget hne] at hinsert
  have hyhead := hring.path.next_ne hy hempty (by grind)
  have hp' : Function.update m.prev y (some list) head = some p := by
    rw [Function.update_of_ne hyhead.symm, hp]
  refine ⟨_, ?_, hinsert⟩
  rw [listCutBefore, hy, if_neg fun heq => hyhead (Option.some.inj heq), Option.bind_eq_bind,
    Option.bind_some]
  dsimp only [setPrev_prev, setNext_prev]
  rw [hp']
  rfl

/-- A list with entries is put behind the head of another one, which leaves its own head free. -/
theorem holds_splice (hs : m.Holds s) (hk : s list = some k) (hempty : k ≠ [])
    (hl : s head = some l) (hne : list ≠ head) (hn : m.next head = some n) :
    ∃ m', listSpliceBetween list head n m = some m' ∧
      m'.Holds (Function.update (Function.update s list none) head (some (k ++ l))) ∧
      Free (Function.update (Function.update s list none) head (some (k ++ l))) list := by
  have hring := hs.ring head l hl
  have hlist := hs.ring list k hk
  have hnmem := hring.path.next_mem hn
  obtain ⟨y, e, hy, he⟩ := hlist.path.exists_ends
  have hymem := hlist.path.next_mem hy
  have hemem := hlist.path.prev_mem he
  have hdisjoint (z : A) (hz : z ∈ list :: k) : z ∉ head :: l :=
    fun hz' => hne (hs.apart list head z k l hk hl hz hz')
  have hl' : Function.update s list none head = some l := by
    rwa [Function.update_of_ne hne.symm]
  have hs' := hs.forget list
  have hfree {x : A} (hx : x ∈ head :: l) := hs'.free_of_forget hl' hx
  have hfree' {x : A} (hx : x ∈ list :: k) := (hs.free_of_forget hk hx).forget head
  have hinsert := (((hs'.forget head).link (hfree (x := head) List.mem_cons_self)
    (hfree' (x := y) (by grind))).link (hfree' (x := e) hemem) (hfree (x := n) (by grind))).insert
    (hring.spliceFront hlist hempty hn hy he hdisjoint) (by grind)
  have hlast := (hfree' (x := list) List.mem_cons_self).insert (h := head) (l := k ++ l) (by
    have hnodup := hlist.nodup
    have hout := hdisjoint list List.mem_cons_self
    grind)
  rw [Function.update_idem] at hinsert hlast
  exact ⟨_, by rw [listSpliceBetween, hy, he]; rfl, hinsert, hlast⟩

/-- A list with entries is put before the head of another one, which leaves its own head free. -/
theorem holds_spliceTail (hs : m.Holds s) (hk : s list = some k) (hempty : k ≠ [])
    (hl : s head = some l) (hne : list ≠ head) (hp : m.prev head = some p) :
    ∃ m', listSpliceBetween list p head m = some m' ∧
      m'.Holds (Function.update (Function.update s list none) head (some (l ++ k))) ∧
      Free (Function.update (Function.update s list none) head (some (l ++ k))) list := by
  have hring := hs.ring head l hl
  have hlist := hs.ring list k hk
  have hpmem := hring.path.prev_mem hp
  obtain ⟨y, e, hy, he⟩ := hlist.path.exists_ends
  have hymem := hlist.path.next_mem hy
  have hemem := hlist.path.prev_mem he
  have hdisjoint (z : A) (hz : z ∈ list :: k) : z ∉ head :: l :=
    fun hz' => hne (hs.apart list head z k l hk hl hz hz')
  have hl' : Function.update s list none head = some l := by
    rwa [Function.update_of_ne hne.symm]
  have hs' := hs.forget list
  have hfree {x : A} (hx : x ∈ head :: l) := hs'.free_of_forget hl' hx
  have hfree' {x : A} (hx : x ∈ list :: k) := (hs.free_of_forget hk hx).forget head
  have hinsert := (((hs'.forget head).link (hfree (x := p) hpmem)
    (hfree' (x := y) (by grind))).link (hfree' (x := e) hemem) (hfree (x := head)
    List.mem_cons_self)).insert (hring.spliceBack hlist hempty hp hy he hdisjoint) (by grind)
  have hlast := (hfree' (x := list) List.mem_cons_self).insert (h := head) (l := l ++ k) (by
    have hnodup := hlist.nodup
    have hout := hdisjoint list List.mem_cons_self
    grind)
  rw [Function.update_idem] at hinsert hlast
  exact ⟨_, by rw [listSpliceBetween, hy, he]; rfl, hinsert, hlast⟩

end Memory

/-- A call that is allowed does to the memory what it does to the lists. -/
theorem listCall_holds {m : Links A} {s s' : A → Option (List A)} {c : ListCall A}
    (hs : m.Holds s) (h : ListEffect s c s') : ∃ m', listCall m c = some m' ∧ m'.Holds s' := by
  cases h with
  | init hlist => exact ⟨_, rfl, holds_init hs hlist⟩
  | add hl hnew => exact holds_add hs hl hnew
  | addTail hl hnew => exact holds_addTail hs hl hnew
  | del hl => exact holds_del hs hl
  | delInit hl =>
    obtain ⟨m', hrun, hs', hfree⟩ := holds_delEntry hs hl
    refine ⟨_, ?_, holds_init hs' hfree.notEntry⟩
    rw [listCall, listDelInit, hrun]
    rfl
  | replace hl hnew =>
    obtain ⟨m', hrun, hs', -⟩ := holds_replace hs hl hnew
    exact ⟨m', hrun, hs'⟩
  | replaceHead hl hnew =>
    obtain ⟨m', hrun, hs', -⟩ := holds_replaceHead hs hl hnew
    exact ⟨m', hrun, hs'⟩
  | replaceInit hl hnew =>
    obtain ⟨m', hrun, hs', hfree⟩ := holds_replace hs hl hnew
    refine ⟨_, ?_, holds_init hs' hfree.notEntry⟩
    rw [listCall, listReplaceInit, hrun]
    rfl
  | replaceInitHead hl hnew =>
    obtain ⟨m', hrun, hs', hfree⟩ := holds_replaceHead hs hl hnew
    refine ⟨_, ?_, holds_init hs' hfree.notEntry⟩
    rw [listCall, listReplaceInit, hrun]
    rfl
  | move hl hk =>
    obtain ⟨m', hrun, hs', hfree⟩ := holds_delEntry hs hl
    obtain ⟨m'', hrun', hs''⟩ := holds_add hs' hk hfree
    refine ⟨m'', ?_, hs''⟩
    rw [listCall, listMove, hrun]
    exact hrun'
  | moveTail hl hk =>
    obtain ⟨m', hrun, hs', hfree⟩ := holds_delEntry hs hl
    obtain ⟨m'', hrun', hs''⟩ := holds_addTail hs' hk hfree
    refine ⟨m'', ?_, hs''⟩
    rw [listCall, listMoveTail, hrun]
    exact hrun'
  | rotateEmpty hl =>
    refine ⟨m, ?_, hs⟩
    rw [listCall, listRotateLeft, if_pos ((listEmpty_iff (hs.ring _ _ hl)).mpr rfl)]
    rfl
  | @rotateLeft head first l hl =>
    have hring := hs.ring _ _ hl
    obtain ⟨m', hrun, hs', hfree⟩ := holds_delEntry (l := []) hs hl
    obtain ⟨m'', hrun', hs''⟩ := holds_addTail hs' (Function.update_self ..) hfree
    rw [Function.update_idem, List.nil_append] at hs''
    refine ⟨m'', ?_, hs''⟩
    rw [listCall, listRotateLeft, if_neg (by rw [listEmpty_iff hring]; simp), hring.path.1.1]
    change listMoveTail first head m = _
    rw [listMoveTail, hrun]
    exact hrun'
  | cutEmpty hl =>
    refine ⟨m, ?_, hs⟩
    rw [listCall, listCutPosition, if_pos ((listEmpty_iff (hs.ring _ _ hl)).mpr rfl)]
    rfl
  | cutNothing hl hempty hne hlist =>
    refine ⟨_, ?_, holds_init hs hlist⟩
    rw [listCall, listCutPosition, if_neg (by rwa [listEmpty_iff (hs.ring _ _ hl)]),
      if_neg fun h => h.2.2 rfl, if_pos rfl]
    rfl
  | cutPosition hl hne hlist => exact holds_cutPosition hs hl hne hlist
  | cutBefore hl hne hlist => exact holds_cutBefore hs hl hne hlist
  | cutAll hl hne hlist => exact holds_cutAll hs hl hne hlist
  | spliceEmpty hl =>
    refine ⟨m, ?_, hs⟩
    rw [listCall, listSplice, if_pos ((listEmpty_iff (hs.ring _ _ hl)).mpr rfl)]
    rfl
  | @splice list k head l hk hempty hl hne =>
    obtain ⟨n, _, hn, _⟩ := (hs.ring _ _ hl).path.exists_ends
    obtain ⟨m', hrun, hs', -⟩ := holds_splice hs hk hempty hl hne hn
    refine ⟨m', ?_, hs'⟩
    rw [listCall, listSplice, if_neg (by rwa [listEmpty_iff (hs.ring _ _ hk)]), hn]
    exact hrun
  | spliceTailEmpty hl =>
    refine ⟨m, ?_, hs⟩
    rw [listCall, listSpliceTail, if_pos ((listEmpty_iff (hs.ring _ _ hl)).mpr rfl)]
    rfl
  | @spliceTail list k head l hk hempty hl hne =>
    obtain ⟨_, p, _, hp⟩ := (hs.ring _ _ hl).path.exists_ends
    obtain ⟨m', hrun, hs', -⟩ := holds_spliceTail hs hk hempty hl hne hp
    refine ⟨m', ?_, hs'⟩
    rw [listCall, listSpliceTail, if_neg (by rwa [listEmpty_iff (hs.ring _ _ hk)]), hp]
    exact hrun
  | @spliceInit list k head l hk hl hne =>
    by_cases hempty : k = []
    · subst hempty
      rw [update_splice hk hl]
      refine ⟨m, ?_, hs⟩
      rw [listCall, listSpliceInit, if_pos ((listEmpty_iff (hs.ring _ _ hk)).mpr rfl)]
      rfl
    · obtain ⟨n, _, hn, _⟩ := (hs.ring _ _ hl).path.exists_ends
      obtain ⟨m', hrun, hs', hfree⟩ := holds_splice hs hk hempty hl hne hn
      have hinit := holds_init hs' hfree.notEntry
      rw [update_reinit hne] at hinit
      refine ⟨_, ?_, hinit⟩
      rw [listCall, listSpliceInit, if_neg (by rwa [listEmpty_iff (hs.ring _ _ hk)]), hn,
        Option.bind_eq_bind, Option.bind_some, hrun]
      rfl
  | @spliceTailInit list k head l hk hl hne =>
    by_cases hempty : k = []
    · subst hempty
      rw [List.append_nil, ← List.nil_append l, update_splice hk hl]
      refine ⟨m, ?_, hs⟩
      rw [listCall, listSpliceTailInit, if_pos ((listEmpty_iff (hs.ring _ _ hk)).mpr rfl)]
      rfl
    · obtain ⟨_, p, _, hp⟩ := (hs.ring _ _ hl).path.exists_ends
      obtain ⟨m', hrun, hs', hfree⟩ := holds_spliceTail hs hk hempty hl hne hp
      have hinit := holds_init hs' hfree.notEntry
      rw [update_reinit hne] at hinit
      refine ⟨_, ?_, hinit⟩
      rw [listCall, listSpliceTailInit, if_neg (by rwa [listEmpty_iff (hs.ring _ _ hk)]), hp,
        Option.bind_eq_bind, Option.bind_some, hrun]
      rfl

/-- What calls in a row do to the lists. -/
inductive ListEffects :
    (A → Option (List A)) → List (ListCall A) → (A → Option (List A)) → Prop
  | nil {s} : ListEffects s [] s
  | cons {s t u c cs} : ListEffect s c t → ListEffects t cs u → ListEffects s (c :: cs) u

/-- Calls that are allowed do to the memory what they do to the lists. -/
theorem listCalls_holds {m : Links A} {s s' : A → Option (List A)} {cs : List (ListCall A)}
    (hs : m.Holds s) (h : ListEffects s cs s') :
    ∃ m', Trace.run listCall m cs = some m' ∧ m'.Holds s' := by
  induction h generalizing m with
  | nil => exact ⟨m, rfl, hs⟩
  | cons heffect _ ih =>
    obtain ⟨t, ht, hholds⟩ := listCall_holds hs heffect
    obtain ⟨m', hm', hs'⟩ := ih hholds
    exact ⟨m', Trace.run_cons_eq_some.mpr ⟨t, ht, hm'⟩, hs'⟩

section Walk

variable {m : Links A} {head a b : A} {l : List A}

/-- The nodes from one on, until a head is reached. -/
def walk (follow : A → Option A) (head : A) : ℕ → A → Option (List A)
  | 0, _ => none
  | fuel + 1, pos =>
    if pos = head then some []
    else do
      let next ← follow pos
      let rest ← walk follow head fuel next
      pure (pos :: rest)

/-- The nodes that `list_for_each` visits. -/
def listForEach (fuel : ℕ) (head : A) (m : Links A) : Option (List A) :=
  (m.next head).bind (walk m.next head fuel)

/-- The nodes that `list_for_each_prev` visits. -/
def listForEachPrev (fuel : ℕ) (head : A) (m : Links A) : Option (List A) :=
  (m.prev head).bind (walk m.prev head fuel)

/-- A walk along a chain visits its nodes. -/
theorem walk_next {fuel : ℕ} (h : m.Path a l head) (hhead : head ∉ l) (hfuel : l.length < fuel) :
    (m.next a).bind (walk m.next head fuel) = some l := by
  induction l generalizing a fuel with
  | nil =>
    obtain ⟨fuel, rfl⟩ := Nat.exists_eq_add_of_lt hfuel
    rw [h.1]
    exact if_pos rfl
  | cons x l ih =>
    obtain ⟨fuel, rfl⟩ := Nat.exists_eq_succ_of_ne_zero (Nat.ne_zero_of_lt hfuel)
    rw [List.mem_cons, not_or] at hhead
    have hrest := ih h.2 hhead.2 (Nat.lt_of_succ_lt_succ hfuel)
    rw [h.1.1, Option.bind_some, walk, if_neg (Ne.symm hhead.1)]
    cases hnext : m.next x with
    | none =>
      rw [hnext] at hrest
      cases hrest
    | some y =>
      rw [hnext, Option.bind_some] at hrest
      rw [Option.bind_eq_bind, Option.bind_some, hrest]
      rfl

/-- A walk back along a chain visits its nodes in the other order. -/
theorem walk_prev {fuel : ℕ} (h : m.Path head l b) (hhead : head ∉ l) (hfuel : l.length < fuel) :
    (m.prev b).bind (walk m.prev head fuel) = some l.reverse := by
  induction l using List.reverseRecOn generalizing b fuel with
  | nil =>
    obtain ⟨fuel, rfl⟩ := Nat.exists_eq_add_of_lt hfuel
    rw [h.2]
    exact if_pos rfl
  | append_singleton l x ih =>
    obtain ⟨fuel, rfl⟩ := Nat.exists_eq_succ_of_ne_zero (Nat.ne_zero_of_lt hfuel)
    rw [List.mem_append, List.mem_singleton, not_or] at hhead
    rw [List.length_append, List.length_singleton] at hfuel
    obtain ⟨hfirst, hlast⟩ := path_append.mp h
    have hrest := ih hfirst hhead.1 (Nat.lt_of_succ_lt_succ hfuel)
    rw [hlast.2, Option.bind_some, walk, if_neg (Ne.symm hhead.2), List.reverse_concat]
    cases hprev : m.prev x with
    | none =>
      rw [hprev] at hrest
      cases hrest
    | some y =>
      rw [hprev, Option.bind_some] at hrest
      rw [Option.bind_eq_bind, Option.bind_some, hrest]
      rfl

end Walk

/-- Whatever the memory holds at first and in whatever order lists are made, extended, cut and
joined: no null pointer is followed, and both directions of every list visit its entries. -/
theorem listCalls_refine (m : Links A) (cs : List (ListCall A)) (s : A → Option (List A))
    (h : ListEffects (fun _ => none) cs s) :
    ∃ m', Trace.run listCall m cs = some m' ∧ ∀ head l, s head = some l →
      (listEmpty head m' = true ↔ l = []) ∧ ∀ fuel, l.length < fuel →
        listForEach fuel head m' = some l ∧ listForEachPrev fuel head m' = some l.reverse := by
  have hnone : m.Holds fun _ => none := by
    constructor
    · intro h l hl
      cases hl
    · intro h h' x l l' hl
      cases hl
  obtain ⟨m', hrun, hs⟩ := listCalls_holds hnone h
  refine ⟨m', hrun, fun head l hl => ?_⟩
  have hring := hs.ring head l hl
  have hhead := (List.nodup_cons.mp hring.nodup).1
  exact ⟨listEmpty_iff hring, fun fuel hfuel =>
    ⟨walk_next hring.path hhead hfuel, walk_prev hring.path hhead hfuel⟩⟩

/-- Two entries are queued, and the first is moved to the end. -/
theorem listCalls_refine_moveTail : ∃ m', Trace.run listCall
      (⟨fun _ => none, fun _ => none⟩ : Links ℕ)
      [.init 0, .addTail 1 0, .addTail 2 0, .moveTail 1 0] = some m' ∧
      listForEach 3 0 m' = some [2, 1] ∧ listForEachPrev 3 0 m' = some [1, 2] := by
  have hempty : NotEntry (fun _ : ℕ => none) 0 := by
    intro h l hl
    cases hl
  have hfirst : Free (Function.update (fun _ : ℕ => none) 0 (some [])) 1 := by
    intro h l hl
    by_cases h = 0 <;> simp_all
  have hsecond : Free (Function.update (Function.update (fun _ : ℕ => none) 0 (some [])) 0
      (some [1])) 2 := by
    intro h l hl
    by_cases heq : h = 0
    · rw [heq, Function.update_self] at hl
      cases hl
      rw [heq]
      decide
    · simp_all
  obtain ⟨m', hrun, hwalk⟩ := listCalls_refine ⟨fun _ => none, fun _ => none⟩ _ _
    (.cons (.init hempty) (.cons (.addTail (Function.update_self ..) hfirst)
      (.cons (.addTail (Function.update_self ..) hsecond)
        (.cons (.moveTail (l := []) (Function.update_self ..) (Function.update_self ..)) .nil))))
  exact ⟨m', hrun, (hwalk 0 [2, 1] (Function.update_self ..)).2 3 (by decide)⟩

end Tbquic
