import Mathlib.Algebra.GroupWithZero.Nat
import Tbquic.Stream.Reassembly

/-!
# The bytes that can be read

A read copies the entries that follow the current offset one after the other. How many bytes it
returns and what can be read behind it depends on the lengths of these entries alone. An entry that
is copied in part keeps its old offset, so nothing can be read behind it.
-/

namespace Tbquic

/-- The lengths of the entries that can be read one after the other. -/
def inOrder : ℕ → List QuicStreamData → List ℕ
  | _, [] => []
  | offset, sd :: queue =>
    if offset = sd.offset then sd.len :: inOrder (offset + sd.len) queue else []

/-- What can be read behind a read into `len` bytes. -/
def afterFill : ℕ → List ℕ → List ℕ
  | _, [] => []
  | len, n :: ns => if n < len then afterFill (len - n) ns else if n = len then ns else []

/-- A read into `len` bytes runs into the assertion: the bytes that it copies of the entry which
does not fit are none, or too many for a comparison. -/
def FillAborts : ℕ → List ℕ → Prop
  | _, [] => False
  | len, n :: ns => if n < len then FillAborts (len - n) ns else len < n ∧ ¬ quicGt len 0

instance decidableFillAborts : ∀ (len : ℕ) (ns : List ℕ), Decidable (FillAborts len ns)
  | _, [] => inferInstanceAs (Decidable False)
  | len, n :: ns =>
    have := decidableFillAborts (len - n) ns
    inferInstanceAs (Decidable (if n < len then _ else _))

/-- How a read leaves a queue whose entries are all in order. -/
inductive FillEnd
  /-- It is empty. -/
  | emptied
  /-- Its first entry was copied in part. -/
  | cut
  /-- Its first entry is the next in order. -/
  | next
  deriving DecidableEq

/-- How a read into `len` bytes leaves a queue, by the lengths of its entries. -/
def fillEnd : ℕ → List ℕ → FillEnd
  | _, [] => .emptied
  | len, n :: ns =>
    if n < len then fillEnd (len - n) ns
    else if n = len then (if ns = [] then .emptied else .next)
    else .cut

/-- The lengths of the entries of a stream that can be read one after the other. -/
def QuicStreamInstance.inOrder (si : QuicStreamInstance) : List ℕ :=
  Tbquic.inOrder si.offset si.queue

/-- A read of the stream returns bytes. -/
def QuicStreamInstance.Readable (si : QuicStreamInstance) : Prop :=
  ∃ len res si', quicStreamReadData si len = .ok (res, si') ∧ res.data ≠ []

section Read

variable {offset len : ℕ} {queue : List QuicStreamData} {out : List UInt8} {ns : List ℕ}
  {si si' : QuicStreamInstance} {res : ReadResult}

/-- A read that is not filled leaves nothing to read. -/
theorem afterFill_of_sum_lt (h : ns.sum < len) : afterFill len ns = [] := by
  induction ns generalizing len with
  | nil => rfl
  | cons n ns ih =>
    rw [List.sum_cons] at h
    rw [afterFill, if_pos (by omega)]
    exact ih (by omega)

/-- A byte has always room. -/
theorem not_fillAborts_one : ¬ FillAborts 1 ns := by
  induction ns with
  | nil => exact not_false
  | cons n ns ih =>
    rw [FillAborts]
    split_ifs with hn
    · rwa [Nat.lt_one_iff.mp hn]
    · exact fun h => h.2 (by decide)

/-- A read returns what can be read and fits, unless it runs into the assertion. -/
theorem readLoop_inOrder (h : out.length ≤ len) :
    (FillAborts (len - out.length) (inOrder offset queue) ∧
      readLoop len queue offset out = .error .assert) ∨
    ¬ FillAborts (len - out.length) (inOrder offset queue) ∧
      ∃ l, readLoop len queue offset out = .ok l ∧
        l.out.length = min len (out.length + (inOrder offset queue).sum) ∧
        inOrder l.offset l.queue = afterFill (len - out.length) (inOrder offset queue) := by
  induction queue generalizing offset out with
  | nil =>
    refine .inr ⟨not_false, _, rfl, ?_, rfl⟩
    rw [inOrder, List.sum_nil]
    exact (Nat.min_eq_right h).symm
  | cons sd queue ih =>
    rw [readLoop, inOrder]
    by_cases hnext : offset = sd.offset
    swap
    · rw [if_pos hnext, if_neg hnext]
      refine .inr ⟨not_false, _, rfl, (Nat.min_eq_right h).symm, ?_⟩
      rw [inOrder, if_neg hnext]
      rfl
    rw [if_neg (not_not.mpr hnext), if_pos hnext, List.sum_cons, afterFill, FillAborts]
    dsimp only
    have htake (n : ℕ) (hn : n ≤ sd.len) : (out ++ sd.data.take n).length = out.length + n := by
      rw [List.length_append, List.length_take]
      exact congrArg _ (Nat.min_eq_left hn)
    by_cases hfits : sd.len + out.length ≤ len
    · have hcopy : copyBytes len out.length sd = sd.len := if_neg (not_lt.mpr hfits)
      have hafter : afterCopy sd sd.len = [] := if_pos rfl
      have hassert : ¬ (len < sd.len + out.length ∧ ¬ quicGt sd.len 0) := fun h =>
        absurd h.1 (not_lt.mpr hfits)
      have hlength := htake sd.len (le_refl _)
      rw [hcopy, if_neg hassert, hafter]
      generalize out ++ sd.data.take sd.len = out' at *
      by_cases hfull : out'.length = len
      · have hlast : sd.len = len - out.length := by omega
        have hmore : ¬ sd.len < len - out.length := by omega
        rw [if_pos hfull, if_neg hmore, if_neg hmore, if_pos hlast]
        refine .inr ⟨fun h => absurd h.1 (by omega), _, rfl, ?_, rfl⟩
        dsimp only
        omega
      · have hmore : sd.len < len - out.length := by omega
        rw [if_neg hfull, if_pos hmore, if_pos hmore, Nat.sub_sub, ← hlength]
        have hroom : out'.length ≤ len := by omega
        rcases @ih (offset + sd.len) _ hroom with ⟨haborts, hrun⟩ | ⟨haborts, l, hrun, hout, hrest⟩
        · rw [hrun]
          exact .inl ⟨haborts, rfl⟩
        · rw [hrun]
          refine .inr ⟨haborts, _, rfl, ?_, hrest⟩
          rw [← Nat.add_assoc, ← hlength]
          exact hout
    · have hcopy : copyBytes len out.length sd = len - out.length := if_pos (by omega)
      have hlength := htake (len - out.length) (by omega)
      have hless : len - out.length < sd.len := by omega
      rw [hcopy, if_neg (not_lt.mpr hless.le), if_neg (not_lt.mpr hless.le), if_neg hless.ne']
      by_cases hgt : quicGt ↑(len - out.length) 0
      · have hafter : afterCopy sd (len - out.length) =
            [{ sd with data := sd.data.drop (len - out.length) }] := if_neg hless.ne
        have hpos : 0 < len - out.length := by
          rcases Nat.eq_zero_or_pos (len - out.length) with hzero | hpos
          · rw [hzero] at hgt
            exact absurd hgt (by decide)
          · exact hpos
        have hfull : (out ++ sd.data.take (len - out.length)).length = len := by omega
        rw [if_neg fun h => h.2 hgt, if_pos hfull, hafter]
        refine .inr ⟨fun h => h.2 hgt, _, rfl, ?_, ?_⟩
        · dsimp only
          omega
        · rw [List.singleton_append, inOrder]
          exact if_neg (by dsimp only; omega)
      · rw [if_pos ⟨by omega, hgt⟩]
        exact .inl ⟨⟨hless, hgt⟩, rfl⟩

/-- A read that is not filled empties a queue in order. -/
theorem fillEnd_of_sum_lt (h : ns.sum < len) : fillEnd len ns = .emptied := by
  induction ns generalizing len with
  | nil => rfl
  | cons n ns ih =>
    rw [List.sum_cons] at h
    rw [fillEnd, if_pos (by omega)]
    exact ih (by omega)

/-- A queue is empty behind a read that empties its entries in order, if these are all, and stays
in order unless an entry is cut. -/
theorem readLoop_ordered {l : ReadLoop} (h : out.length ≤ len)
    (hl : readLoop len queue offset out = .ok l) :
    (l.queue = [] ↔ orderedFrom offset queue = true ∧
      fillEnd (len - out.length) (inOrder offset queue) = .emptied) ∧
    (orderedFrom l.offset l.queue = true ↔ orderedFrom offset queue = true ∧
      fillEnd (len - out.length) (inOrder offset queue) ≠ .cut) := by
  induction queue generalizing offset out with
  | nil =>
    cases hl
    simp [orderedFrom, inOrder, fillEnd]
  | cons sd queue ih =>
    rw [readLoop] at hl
    by_cases hnext : offset = sd.offset
    swap
    · rw [if_pos hnext] at hl
      cases hl
      simp [orderedFrom, hnext]
    rw [if_neg (not_not.mpr hnext)] at hl
    have horder : orderedFrom offset (sd :: queue) = orderedFrom (offset + sd.len) queue := by
      rw [orderedFrom, decide_eq_true hnext, Bool.true_and, Segment.stop, hnext]
    rw [inOrder, if_pos hnext, fillEnd, horder]
    dsimp only at hl
    have htake (n : ℕ) (hn : n ≤ sd.len) : (out ++ sd.data.take n).length = out.length + n := by
      rw [List.length_append, List.length_take]
      exact congrArg _ (Nat.min_eq_left hn)
    by_cases hfits : sd.len + out.length ≤ len
    · have hcopy : copyBytes len out.length sd = sd.len := if_neg (not_lt.mpr hfits)
      have hafter : afterCopy sd sd.len = [] := if_pos rfl
      have hassert : ¬ (len < sd.len + out.length ∧ ¬ quicGt sd.len 0) := fun h =>
        absurd h.1 (not_lt.mpr hfits)
      have hlength := htake sd.len (le_refl _)
      rw [hcopy, if_neg hassert, hafter] at hl
      generalize out ++ sd.data.take sd.len = out' at *
      by_cases hfull : out'.length = len
      · have hlast : sd.len = len - out.length := by omega
        have hmore : ¬ sd.len < len - out.length := by omega
        rw [if_pos hfull] at hl
        cases hl
        rw [if_neg hmore, if_pos hlast, List.nil_append]
        cases queue with
        | nil => simp [orderedFrom, inOrder]
        | cons sd' queue =>
          by_cases hnext' : offset + sd.len = sd'.offset
          · rw [inOrder, if_pos hnext', if_neg (List.cons_ne_nil _ _)]
            simp
          · simp [orderedFrom, hnext']
      · have hmore : sd.len < len - out.length := by omega
        rw [if_neg hfull] at hl
        have hroom : out'.length ≤ len := by omega
        obtain ⟨l', hl', hl⟩ := Except.bind_eq_ok.mp hl
        cases hl
        rw [if_pos hmore, Nat.sub_sub, ← hlength]
        exact ih hroom hl'
    · have hcopy : copyBytes len out.length sd = len - out.length := if_pos (by omega)
      have hlength := htake (len - out.length) (by omega)
      have hless : len - out.length < sd.len := by omega
      rw [hcopy] at hl
      rw [if_neg (not_lt.mpr hless.le), if_neg hless.ne']
      by_cases hgt : quicGt ↑(len - out.length) 0
      · have hafter : afterCopy sd (len - out.length) =
            [{ sd with data := sd.data.drop (len - out.length) }] := if_neg hless.ne
        have hpos : 0 < len - out.length := by
          rcases Nat.eq_zero_or_pos (len - out.length) with hzero | hpos
          · rw [hzero] at hgt
            exact absurd hgt (by decide)
          · exact hpos
        have hfull : (out ++ sd.data.take (len - out.length)).length = len := by omega
        rw [if_neg fun h => h.2 hgt, if_pos hfull, hafter] at hl
        cases hl
        have hlate : ¬ offset + (len - out.length) = sd.offset := by omega
        simp [orderedFrom, hlate]
      · rw [if_pos ⟨by omega, hgt⟩] at hl
        cases hl

/-- What a read returns, and what it leaves. -/
theorem quicStreamReadData_inOrder (si : QuicStreamInstance) (len : ℕ) :
    (FillAborts len si.inOrder ∧ quicStreamReadData si len = .error .assert) ∨
    ¬ FillAborts len si.inOrder ∧ ∃ res si', quicStreamReadData si len = .ok (res, si') ∧
      res.data.length = min len si.inOrder.sum ∧ si'.inOrder = afterFill len si.inOrder ∧
      si'.notified = false := by
  rcases @readLoop_inOrder si.offset len si.queue [] (Nat.zero_le len) with
    ⟨haborts, hrun⟩ | ⟨haborts, l, hrun, hlength, hrest⟩
  · rw [quicStreamReadData, hrun]
    exact .inl ⟨haborts, rfl⟩
  · rw [quicStreamReadData, hrun]
    refine .inr ⟨haborts, _, _, rfl, ?_, hrest, rfl⟩
    rw [List.length_nil, Nat.zero_add] at hlength
    exact hlength

/-- What a read that returns leaves. -/
theorem quicStreamReadData_ok_inOrder (h : quicStreamReadData si len = .ok (res, si')) :
    ¬ FillAborts len si.inOrder ∧ res.data.length = min len si.inOrder.sum ∧
      si'.inOrder = afterFill len si.inOrder ∧ si'.notified = false := by
  rcases quicStreamReadData_inOrder si len with ⟨-, hrun⟩ | ⟨haborts, res', si'', hrun, hrest⟩
  · rw [h] at hrun
    cases hrun
  · rw [h] at hrun
    cases hrun
    exact ⟨haborts, hrest⟩

/-- Bytes can be read when the entries in order have some. -/
theorem QuicStreamInstance.readable_iff : si.Readable ↔ 0 < si.inOrder.sum := by
  constructor
  · rintro ⟨len, res, si', hread, hdata⟩
    obtain ⟨-, hlength, -⟩ := quicStreamReadData_ok_inOrder hread
    have hpos := List.length_pos_iff.mpr hdata
    omega
  · intro hpos
    rcases quicStreamReadData_inOrder si 1 with ⟨haborts, -⟩ | ⟨-, res, si', hread, hlength, -⟩
    · exact absurd haborts not_fillAborts_one
    · refine ⟨1, res, si', hread, List.length_pos_iff.mp ?_⟩
      omega

end Read

end Tbquic
