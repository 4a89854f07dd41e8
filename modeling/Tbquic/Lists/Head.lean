import Tbquic.Lib.Ring
import Tbquic.Lib.Trace

/-!
# Linked lists

The operations of `list.h` on the `list_head` structures in memory. The same structure is the head
of a list, an entry of one, or neither. An operation that follows a null pointer has no result.
-/

namespace Tbquic

open Links

section Operations

variable {A : Type} [DecidableEq A]

/-- `INIT_LIST_HEAD`. -/
def initListHead (list : A) (m : Links A) : Links A :=
  (m.setNext list (some list)).setPrev list (some list)

/-- `__list_add`. -/
def listAddBetween (new prev next : A) (m : Links A) : Links A :=
  (((m.setPrev next (some new)).setNext new (some next)).setPrev new (some prev)).setNext prev
    (some new)

/-- `list_add`. -/
def listAdd (new head : A) (m : Links A) : Option (Links A) := do
  let next ← m.next head
  pure (listAddBetween new head next m)

/-- `list_add_tail`. -/
def listAddTail (new head : A) (m : Links A) : Option (Links A) := do
  let prev ← m.prev head
  pure (listAddBetween new prev head m)

/-- `__list_del`. -/
def listDelBetween (prev next : A) (m : Links A) : Links A :=
  (m.setPrev next (some prev)).setNext prev (some next)

/-- `__list_del_entry`. -/
def listDelEntry (entry : A) (m : Links A) : Option (Links A) := do
  let prev ← m.prev entry
  let next ← m.next entry
  pure (listDelBetween prev next m)

/-- `list_del`. -/
def listDel (entry : A) (m : Links A) : Option (Links A) := do
  let m ← listDelEntry entry m
  pure ((m.setNext entry none).setPrev entry none)

/-- `list_replace`. -/
def listReplace (old new : A) (m : Links A) : Option (Links A) := do
  let next ← m.next old
  let m := (m.setNext new (some next)).setPrev next (some new)
  let prev ← m.prev old
  pure ((m.setPrev new (some prev)).setNext prev (some new))

/-- `list_replace_init`. -/
def listReplaceInit (old new : A) (m : Links A) : Option (Links A) := do
  let m ← listReplace old new m
  pure (initListHead old m)

/-- `list_del_init`. -/
def listDelInit (entry : A) (m : Links A) : Option (Links A) := do
  let m ← listDelEntry entry m
  pure (initListHead entry m)

/-- `list_move`. -/
def listMove (list head : A) (m : Links A) : Option (Links A) := do
  let m ← listDelEntry list m
  listAdd list head m

/-- `list_move_tail`. -/
def listMoveTail (list head : A) (m : Links A) : Option (Links A) := do
  let m ← listDelEntry list m
  listAddTail list head m

/-- `list_is_last`. -/
def listIsLast (list head : A) (m : Links A) : Bool := decide (m.next list = some head)

/-- `list_empty`. -/
def listEmpty (head : A) (m : Links A) : Bool := decide (m.next head = some head)

/-- `list_empty_careful`. -/
def listEmptyCareful (head : A) (m : Links A) : Bool :=
  decide (m.next head = some head) && decide (m.next head = m.prev head)

/-- `list_rotate_left`. -/
def listRotateLeft (head : A) (m : Links A) : Option (Links A) :=
  if listEmpty head m then pure m
  else do
    let first ← m.next head
    listMoveTail first head m

/-- `list_is_singular`. -/
def listIsSingular (head : A) (m : Links A) : Bool :=
  !listEmpty head m && decide (m.next head = m.prev head)

/-- `__list_cut_position`. -/
def listCutBehind (list head entry : A) (m : Links A) : Option (Links A) := do
  let newFirst ← m.next entry
  let first ← m.next head
  let m := (m.setNext list (some first)).setPrev first (some list)
  let m := (m.setPrev list (some entry)).setNext entry (some list)
  pure ((m.setNext head (some newFirst)).setPrev newFirst (some head))

/-- `list_cut_position`. -/
def listCutPosition (list head entry : A) (m : Links A) : Option (Links A) :=
  if listEmpty head m then pure m
  else if listIsSingular head m ∧ m.next head ≠ some entry ∧ head ≠ entry then pure m
  else if entry = head then pure (initListHead list m)
  else listCutBehind list head entry m

/-- `list_cut_before`. -/
def listCutBefore (list head entry : A) (m : Links A) : Option (Links A) :=
  if m.next head = some entry then pure (initListHead list m)
  else do
    let first ← m.next head
    let m := (m.setNext list (some first)).setPrev first (some list)
    let last ← m.prev entry
    let m := (m.setPrev list (some last)).setNext last (some list)
    pure ((m.setNext head (some entry)).setPrev entry (some head))

/-- `__list_splice`. -/
def listSpliceBetween (list prev next : A) (m : Links A) : Option (Links A) := do
  let first ← m.next list
  let last ← m.prev list
  let m := (m.setPrev first (some prev)).setNext prev (some first)
  pure ((m.setNext last (some next)).setPrev next (some last))

/-- `list_splice`. -/
def listSplice (list head : A) (m : Links A) : Option (Links A) :=
  if listEmpty list m then pure m
  else do
    let next ← m.next head
    listSpliceBetween list head next m

/-- `list_splice_tail`. -/
def listSpliceTail (list head : A) (m : Links A) : Option (Links A) :=
  if listEmpty list m then pure m
  else do
    let prev ← m.prev head
    listSpliceBetween list prev head m

/-- `list_splice_init`. -/
def listSpliceInit (list head : A) (m : Links A) : Option (Links A) :=
  if listEmpty list m then pure m
  else do
    let next ← m.next head
    let m ← listSpliceBetween list head next m
    pure (initListHead list m)

/-- `list_splice_tail_init`. -/
def listSpliceTailInit (list head : A) (m : Links A) : Option (Links A) :=
  if listEmpty list m then pure m
  else do
    let prev ← m.prev head
    let m ← listSpliceBetween list prev head m
    pure (initListHead list m)

end Operations

/-- A call of an operation of `list.h`. -/
inductive ListCall (A : Type)
  | init (list : A)
  | add (new head : A)
  | addTail (new head : A)
  | del (entry : A)
  | delInit (entry : A)
  | replace (old new : A)
  | replaceInit (old new : A)
  | move (list head : A)
  | moveTail (list head : A)
  | rotateLeft (head : A)
  | cutPosition (list head entry : A)
  | cutBefore (list head entry : A)
  | splice (list head : A)
  | spliceTail (list head : A)
  | spliceInit (list head : A)
  | spliceTailInit (list head : A)

/-- A call on the memory. -/
def listCall {A : Type} [DecidableEq A] (m : Links A) : ListCall A → Option (Links A)
  | .init list => some (initListHead list m)
  | .add new head => listAdd new head m
  | .addTail new head => listAddTail new head m
  | .del entry => listDel entry m
  | .delInit entry => listDelInit entry m
  | .replace old new => listReplace old new m
  | .replaceInit old new => listReplaceInit old new m
  | .move list head => listMove list head m
  | .moveTail list head => listMoveTail list head m
  | .rotateLeft head => listRotateLeft head m
  | .cutPosition list head entry => listCutPosition list head entry m
  | .cutBefore list head entry => listCutBefore list head entry m
  | .splice list head => listSplice list head m
  | .spliceTail list head => listSpliceTail list head m
  | .spliceInit list head => listSpliceInit list head m
  | .spliceTailInit list head => listSpliceTailInit list head m

end Tbquic
