import Tbquic.Lib.Trace
import Tbquic.Packet

/-!
# The bounds of the packets that are read

`RPacket` with the pointers that it stores, over a buffer in memory. Every operation compares the
length that is requested with the remaining one by the macro, which keeps 32 bits of the difference.
-/

namespace Tbquic

/-- A buffer in memory. -/
structure RBuffer where
  /-- The address of the first byte. -/
  base : UInt64
  /-- The bytes. -/
  bytes : List UInt8
  /-- The address behind the last byte. -/
  stop_lt : base.toNat + bytes.length < 2 ^ 64

/-- Read bytes from an address on, as far as they lie in the buffer. -/
def RBuffer.read (b : RBuffer) (address : UInt64) (len : ℕ) : Option (List UInt8) :=
  if b.base.toNat ≤ address.toNat ∧ address.toNat + len ≤ b.base.toNat + b.bytes.length then
    some ((b.bytes.drop (address.toNat - b.base.toNat)).take len)
  else none

/-- The fields of `RPacket`. -/
structure RPacketFields where
  /-- `head`. -/
  head : UInt64
  /-- `curr`. -/
  curr : UInt64
  /-- `total_len`. -/
  totalLen : UInt64
  /-- `remaining`. -/
  remaining : UInt64
  deriving DecidableEq, Repr

namespace RPacketFields

/-- `RPacketBufInit`. -/
def bufInit (buf len : UInt64) : RPacketFields where
  head := buf
  curr := buf
  totalLen := len
  remaining := len

/-- `RPacketForward`. -/
def forward (pkt : RPacketFields) (len : UInt64) : RPacketFields :=
  { pkt with curr := pkt.curr + len, remaining := pkt.remaining - len }

/-- The check in front of every operation. -/
def check (len : UInt64) : Prog Fail RPacketFields Unit := do
  let pkt ← Prog.get
  Prog.ensure .ret (¬ quicLt pkt.remaining.toNat len.toNat)

variable (b : RBuffer)

/-- `RPacketPull`. -/
def pull (len : UInt64) : Prog Fail RPacketFields Unit := do
  check len
  Prog.modify (·.forward len)

/-- `RPacketPeekData`, with lengths from 1 to 4. -/
def peekData (len : UInt64) : Prog Fail RPacketFields ℕ := do
  check len
  let pkt ← Prog.get
  let bytes ← Prog.ofOption .ub (b.read pkt.curr len.toNat)
  pure (Bytes.toNat bytes)

/-- `RPacketGetData`. -/
def getData (len : UInt64) : Prog Fail RPacketFields ℕ := do
  let data ← peekData b len
  Prog.modify (·.forward len)
  pure data

/-- `RPacketPeekBytes`. -/
def peekBytes (len : UInt64) : Prog Fail RPacketFields UInt64 := do
  check len
  let pkt ← Prog.get
  pure pkt.curr

/-- `RPacketGetBytes`. -/
def getBytes (len : UInt64) : Prog Fail RPacketFields UInt64 := do
  let data ← peekBytes len
  Prog.modify (·.forward len)
  pure data

/-- `RPacketPeekCopyBytes`, with the copy as result. -/
def peekCopyBytes (len : UInt64) : Prog Fail RPacketFields (List UInt8) := do
  check len
  let pkt ← Prog.get
  Prog.ofOption .ub (b.read pkt.curr len.toNat)

/-- `RPacketCopyBytes`. -/
def copyBytes (len : UInt64) : Prog Fail RPacketFields (List UInt8) := do
  let bytes ← peekCopyBytes b len
  Prog.modify (·.forward len)
  pure bytes

/-- `RPacketTransfer`, with the child as result. -/
def transfer (len : UInt64) : Prog Fail RPacketFields RPacketFields := do
  check len
  let parent ← Prog.get
  Prog.modify (·.forward len)
  pure (bufInit parent.curr len)

/-- `RPacketGetLengthPrefixed1` and `RPacketGetLengthPrefixed2`, with the size of the length. -/
def getLengthPrefixed (size : UInt64) : Prog Fail RPacketFields RPacketFields := do
  let len ← getData b size
  let data ← getBytes (.ofNat len)
  pure (bufInit data (.ofNat len))

end RPacketFields

/-- The operations that check their length. -/
inductive RPacketOp
  /-- `RPacketGet1`. -/
  | get1
  /-- `RPacketGet2`. -/
  | get2
  /-- `RPacketGet3`. -/
  | get3
  /-- `RPacketGet4`. -/
  | get4
  /-- `RPacketPeekBytes`. -/
  | peekBytes (len : UInt64)
  /-- `RPacketGetBytes`. -/
  | getBytes (len : UInt64)
  /-- `RPacketPeekCopyBytes`. -/
  | peekCopyBytes (len : UInt64)
  /-- `RPacketCopyBytes`. -/
  | copyBytes (len : UInt64)
  /-- `RPacketPull`. -/
  | pull (len : UInt64)
  /-- `RPacketTransfer`. -/
  | transfer (len : UInt64)
  /-- `RPacketGetLengthPrefixed1`. -/
  | getLengthPrefixed1
  /-- `RPacketGetLengthPrefixed2`. -/
  | getLengthPrefixed2
  deriving DecidableEq, Repr

namespace RPacketOp

open RPacketFields

/-- The effect of an operation on its packet, and the packet inside it that it returns. -/
def run (b : RBuffer) : RPacketOp → Prog Fail RPacketFields (Option RPacketFields)
  | get1 => getData b 1 >>= fun _ => pure none
  | get2 => getData b 2 >>= fun _ => pure none
  | get3 => getData b 3 >>= fun _ => pure none
  | get4 => getData b 4 >>= fun _ => pure none
  | peekBytes len => RPacketFields.peekBytes len >>= fun _ => pure none
  | getBytes len => RPacketFields.getBytes len >>= fun _ => pure none
  | peekCopyBytes len => RPacketFields.peekCopyBytes b len >>= fun _ => pure none
  | copyBytes len => RPacketFields.copyBytes b len >>= fun _ => pure none
  | pull len => RPacketFields.pull len >>= fun _ => pure none
  | transfer len => RPacketFields.transfer len >>= fun child => pure (some child)
  | getLengthPrefixed1 => getLengthPrefixed b 1 >>= fun sub => pure (some sub)
  | getLengthPrefixed2 => getLengthPrefixed b 2 >>= fun sub => pure (some sub)

/-- The length that an operation checks first. -/
def len : RPacketOp → UInt64
  | get1 | getLengthPrefixed1 => 1
  | get2 | getLengthPrefixed2 => 2
  | get3 => 3
  | get4 => 4
  | peekBytes len | getBytes len | peekCopyBytes len | copyBytes len | pull len | transfer len =>
    len

/-- Whether an operation reads a length and then as many bytes. -/
def IsPrefixed (op : RPacketOp) : Prop := op = getLengthPrefixed1 ∨ op = getLengthPrefixed2

instance (op : RPacketOp) : Decidable op.IsPrefixed := inferInstanceAs (Decidable (_ ∨ _))

/-- The length of the body that an operation finds in front of it. -/
def bodyLen (b : RBuffer) (pkt : RPacketFields) (op : RPacketOp) : ℕ :=
  Bytes.toNat ((b.read pkt.curr op.len.toNat).getD [])

/-- The length that an operation requests. -/
def requested (b : RBuffer) (pkt : RPacketFields) (op : RPacketOp) : ℕ :=
  if op.IsPrefixed ∧ op.len.toNat ≤ pkt.remaining.toNat then op.len.toNat + op.bodyLen b pkt
  else op.len.toNat

/-- An operation does what its bounds say. -/
structure Right (b : RBuffer) (pkt : RPacketFields) (op : RPacketOp) : Prop where
  /-- It succeeds when as many bytes remain as it requests. -/
  succeeds : (∃ child, (op.run b pkt).1 = .ok child) ↔ op.requested b pkt ≤ pkt.remaining.toNat
  /-- The end of the packet stays. -/
  total : (op.run b pkt).2.curr.toNat + (op.run b pkt).2.remaining.toNat =
    pkt.curr.toNat + pkt.remaining.toNat
  /-- Otherwise it returns its error, reads nothing outside and leaves the packet. -/
  refused : (∀ child, (op.run b pkt).1 ≠ .ok child) → op.run b pkt = (.error .ret, pkt)

/-- The macro sees the lengths as they are, and the body behind a length is there. -/
def Seen (b : RBuffer) (pkt : RPacketFields) (op : RPacketOp) : Prop :=
  (quicLt pkt.remaining.toNat op.len.toNat ↔ pkt.remaining.toNat < op.len.toNat) ∧
    (op.IsPrefixed → op.len.toNat ≤ pkt.remaining.toNat →
      op.len.toNat + op.bodyLen b pkt ≤ pkt.remaining.toNat ∧
        ¬ quicLt ((pkt.remaining.toNat : ℤ) - op.len.toNat) (op.bodyLen b pkt))

end RPacketOp

namespace RPacketFields

variable {b : RBuffer} {pkt : RPacketFields} {len : UInt64}

/-- A packet lies in the buffer. -/
def Inside (b : RBuffer) (pkt : RPacketFields) : Prop :=
  b.base.toNat ≤ pkt.curr.toNat ∧
    pkt.curr.toNat + pkt.remaining.toNat ≤ b.base.toNat + b.bytes.length

theorem check_of_quicLt (h : quicLt pkt.remaining.toNat len.toNat) :
    check len pkt = (.error .ret, pkt) := by
  rw [check, Prog.get_bind, Prog.ensure_of_neg (not_not.mpr h)]
  rfl

theorem check_of_not_quicLt (h : ¬ quicLt pkt.remaining.toNat len.toNat) :
    check len pkt = (.ok (), pkt) := by
  rw [check, Prog.get_bind, Prog.ensure_of_pos h]
  rfl

/-- Bytes of the packet can be read. -/
theorem Inside.read (h : pkt.Inside b) {n : ℕ} (hn : n ≤ pkt.remaining.toNat) :
    ∃ bytes, b.read pkt.curr n = some bytes ∧ bytes.length = n := by
  obtain ⟨hlow, hhigh⟩ := h
  refine ⟨_, if_pos ⟨hlow, by omega⟩, ?_⟩
  rw [List.length_take, List.length_drop]
  omega

/-- The fields behind bytes that are there. -/
theorem forward_toNat (h : pkt.Inside b) (hlen : len.toNat ≤ pkt.remaining.toNat) :
    (pkt.forward len).curr.toNat = pkt.curr.toNat + len.toNat ∧
      (pkt.forward len).remaining.toNat = pkt.remaining.toNat - len.toNat := by
  have hstop := b.stop_lt
  obtain ⟨hlow, hhigh⟩ := h
  have hsub : len ≤ pkt.remaining := UInt64.le_iff_toNat_le.mpr hlen
  refine ⟨?_, UInt64.toNat_sub_of_le _ _ hsub⟩
  rw [forward, UInt64.toNat_add, Nat.mod_eq_of_lt (by omega)]

/-- Behind bytes that are there the packet lies in the buffer. -/
theorem Inside.forward (h : pkt.Inside b) (hlen : len.toNat ≤ pkt.remaining.toNat) :
    (pkt.forward len).Inside b := by
  obtain ⟨hcurr, hremaining⟩ := forward_toNat h hlen
  obtain ⟨hlow, hhigh⟩ := h
  refine ⟨?_, ?_⟩
  · rw [hcurr]
    omega
  · rw [hcurr, hremaining]
    omega

/-- A packet of bytes that are there lies in the buffer. -/
theorem Inside.bufInit (h : pkt.Inside b) (hlen : len.toNat ≤ pkt.remaining.toNat) :
    (bufInit pkt.curr len).Inside b := by
  obtain ⟨hlow, hhigh⟩ := h
  exact ⟨hlow, by change pkt.curr.toNat + len.toNat ≤ _; omega⟩

/-- `RPacketGetData` behind its check. -/
theorem getData_of_not_quicLt (h : ¬ quicLt pkt.remaining.toNat len.toNat) :
    getData b len pkt = match b.read pkt.curr len.toNat with
      | none => (.error .ub, pkt)
      | some bytes => (.ok (Bytes.toNat bytes), pkt.forward len) := by
  rw [getData, peekData, Prog.bind_assoc, Prog.bind_of_ok (check_of_not_quicLt h), Prog.bind_assoc,
    Prog.get_bind]
  cases b.read pkt.curr len.toNat with
  | none =>
    rw [Prog.ofOption_none, Prog.fail_bind, Prog.fail_bind]
    rfl
  | some bytes =>
    rw [Prog.ofOption_some, Prog.pure_bind, Prog.pure_bind, Prog.modify_bind]
    rfl

/-- `RPacketPeekBytes` behind its check. -/
theorem peekBytes_of_not_quicLt (h : ¬ quicLt pkt.remaining.toNat len.toNat) :
    peekBytes len pkt = (.ok pkt.curr, pkt) := by
  rw [peekBytes, Prog.bind_of_ok (check_of_not_quicLt h), Prog.get_bind]
  rfl

/-- `RPacketPeekCopyBytes` behind its check. -/
theorem peekCopyBytes_of_not_quicLt (h : ¬ quicLt pkt.remaining.toNat len.toNat) :
    peekCopyBytes b len pkt = match b.read pkt.curr len.toNat with
      | none => (.error .ub, pkt)
      | some bytes => (.ok bytes, pkt) := by
  rw [peekCopyBytes, Prog.bind_of_ok (check_of_not_quicLt h), Prog.get_bind]
  cases b.read pkt.curr len.toNat <;> rfl

/-- `RPacketCopyBytes` behind its check. -/
theorem copyBytes_of_not_quicLt (h : ¬ quicLt pkt.remaining.toNat len.toNat) :
    copyBytes b len pkt = match b.read pkt.curr len.toNat with
      | none => (.error .ub, pkt)
      | some bytes => (.ok bytes, pkt.forward len) := by
  have hcopy := peekCopyBytes_of_not_quicLt (b := b) h
  cases hread : b.read pkt.curr len.toNat with
  | none =>
    rw [hread] at hcopy
    exact Prog.bind_of_error hcopy
  | some bytes =>
    rw [hread] at hcopy
    rw [copyBytes, Prog.bind_of_ok hcopy, Prog.modify_bind]
    rfl

/-- `RPacketPull` behind its check. -/
theorem pull_of_not_quicLt (h : ¬ quicLt pkt.remaining.toNat len.toNat) :
    pull len pkt = (.ok (), pkt.forward len) := by
  rw [pull, Prog.bind_of_ok (check_of_not_quicLt h)]
  rfl

/-- `RPacketTransfer` behind its check. -/
theorem transfer_of_not_quicLt (h : ¬ quicLt pkt.remaining.toNat len.toNat) :
    transfer len pkt = (.ok (bufInit pkt.curr len), pkt.forward len) := by
  rw [transfer, Prog.bind_of_ok (check_of_not_quicLt h), Prog.get_bind, Prog.modify_bind]
  rfl

/-- `RPacketGetBytes` behind its check. -/
theorem getBytes_of_not_quicLt (h : ¬ quicLt pkt.remaining.toNat len.toNat) :
    getBytes len pkt = (.ok pkt.curr, pkt.forward len) := by
  rw [getBytes, Prog.bind_of_ok (peekBytes_of_not_quicLt h), Prog.modify_bind]
  rfl

end RPacketFields

namespace RPacketOp

open RPacketFields

variable {b : RBuffer} {pkt : RPacketFields} {op : RPacketOp}

/-- An operation whose check fails leaves the packet. -/
theorem run_of_quicLt (h : quicLt pkt.remaining.toNat op.len.toNat) :
    op.run b pkt = (.error .ret, pkt) := by
  have hcheck := check_of_quicLt h
  cases op with
  | get1 | get2 | get3 | get4 =>
    exact Prog.bind_of_error (Prog.bind_of_error (Prog.bind_of_error hcheck))
  | peekBytes len | peekCopyBytes len | pull len | transfer len =>
    exact Prog.bind_of_error (Prog.bind_of_error hcheck)
  | getBytes len | copyBytes len =>
    exact Prog.bind_of_error (Prog.bind_of_error (Prog.bind_of_error hcheck))
  | getLengthPrefixed1 | getLengthPrefixed2 =>
    exact Prog.bind_of_error (Prog.bind_of_error (Prog.bind_of_error (Prog.bind_of_error hcheck)))

/-- What an operation does behind its check, if it reads no length. -/
theorem run_of_not_quicLt (hop : ¬ op.IsPrefixed)
    (h : ¬ quicLt pkt.remaining.toNat op.len.toNat) :
    (b.read pkt.curr op.len.toNat = none ∧ op.run b pkt = (.error .ub, pkt)) ∨
      ∃ child t, op.run b pkt = (.ok child, t) ∧ (t = pkt ∨ t = pkt.forward op.len) ∧
        (child = none ∨ child = some (bufInit pkt.curr op.len)) := by
  cases op with
  | get1 | get2 | get3 | get4 =>
    have hget := getData_of_not_quicLt (b := b) h
    cases hread : b.read pkt.curr _ with
    | none =>
      rw [hread] at hget
      exact .inl ⟨rfl, Prog.bind_of_error hget⟩
    | some bytes =>
      rw [hread] at hget
      exact .inr ⟨none, _, Prog.bind_of_ok hget, .inr rfl, .inl rfl⟩
  | peekBytes len =>
    exact .inr ⟨none, pkt, Prog.bind_of_ok (peekBytes_of_not_quicLt h), .inl rfl, .inl rfl⟩
  | getBytes len =>
    exact .inr ⟨none, _, Prog.bind_of_ok (getBytes_of_not_quicLt h), .inr rfl, .inl rfl⟩
  | peekCopyBytes len =>
    have hcopy := peekCopyBytes_of_not_quicLt (b := b) h
    cases hread : b.read pkt.curr _ with
    | none =>
      rw [hread] at hcopy
      exact .inl ⟨rfl, Prog.bind_of_error hcopy⟩
    | some bytes =>
      rw [hread] at hcopy
      exact .inr ⟨none, pkt, Prog.bind_of_ok hcopy, .inl rfl, .inl rfl⟩
  | copyBytes len =>
    have hcopy := copyBytes_of_not_quicLt (b := b) h
    cases hread : b.read pkt.curr _ with
    | none =>
      rw [hread] at hcopy
      exact .inl ⟨rfl, Prog.bind_of_error hcopy⟩
    | some bytes =>
      rw [hread] at hcopy
      exact .inr ⟨none, _, Prog.bind_of_ok hcopy, .inr rfl, .inl rfl⟩
  | pull len =>
    exact .inr ⟨none, _, Prog.bind_of_ok (pull_of_not_quicLt h), .inr rfl, .inl rfl⟩
  | transfer len =>
    exact .inr ⟨_, _, Prog.bind_of_ok (transfer_of_not_quicLt h), .inr rfl, .inr rfl⟩
  | getLengthPrefixed1 => exact absurd (.inl rfl) hop
  | getLengthPrefixed2 => exact absurd (.inr rfl) hop

/-- What an operation does that reads a length. -/
theorem run_of_isPrefixed (hop : op.IsPrefixed)
    (h : ¬ quicLt pkt.remaining.toNat op.len.toNat) {bytes : List UInt8}
    (hread : b.read pkt.curr op.len.toNat = some bytes) :
    op.run b pkt =
      let body := UInt64.ofNat (op.bodyLen b pkt)
      let t := pkt.forward op.len
      if quicLt t.remaining.toNat body.toNat then (.error .ret, t)
      else (.ok (some (bufInit t.curr body)), t.forward body) := by
  have hget := getData_of_not_quicLt (b := b) h
  rw [hread] at hget
  have hrun : op.run b pkt = (getLengthPrefixed b op.len >>= fun sub => pure (some sub)) pkt := by
    rcases hop with rfl | rfl <;> rfl
  have hbody : op.bodyLen b pkt = Bytes.toNat bytes := by
    rw [bodyLen, hread, Option.getD_some]
  rw [hrun, getLengthPrefixed, Prog.bind_assoc, Prog.bind_of_ok hget, hbody]
  dsimp only
  by_cases hlt : quicLt (pkt.forward op.len).remaining.toNat
      (UInt64.ofNat (Bytes.toNat bytes)).toNat
  · rw [if_pos hlt]
    exact Prog.bind_of_error (Prog.bind_of_error (Prog.bind_of_error (Prog.bind_of_error
      (check_of_quicLt hlt))))
  · rw [if_neg hlt, Prog.bind_assoc, Prog.bind_of_ok (getBytes_of_not_quicLt hlt),
      Prog.pure_bind]
    rfl

/-- A length in front of a body has one byte or two. -/
theorem IsPrefixed.len_bounds (hop : op.IsPrefixed) :
    1 ≤ op.len.toNat ∧ op.len.toNat ≤ 2 := by
  rcases hop with rfl | rfl <;> decide

/-- A body is shorter than `2 ^ 16` bytes. -/
theorem IsPrefixed.bodyLen_lt (hop : op.IsPrefixed) (b : RBuffer) (pkt : RPacketFields) :
    op.bodyLen b pkt < 2 ^ 16 := by
  have hlen := hop.len_bounds
  have hread : ((b.read pkt.curr op.len.toNat).getD []).length ≤ 2 := by
    unfold RBuffer.read
    split_ifs
    · exact (List.length_take_le _ _).trans hlen.2
    · exact Nat.zero_le _
  exact (Bytes.toNat_lt _).trans_le (Nat.pow_le_pow_right (by decide) hread)

/-- A short length is seen as too long when it is. -/
theorem quicLt_of_short {n m : ℕ} (hlt : n < m) (hm : m ≤ 2 ^ 31) : quicLt n m := by
  rw [quicLt_iff_mod]
  omega

/-- What an operation does when the macro sees the lengths as they are. -/
theorem run_of_seen (hpkt : pkt.Inside b) (h : op.Seen b pkt) :
    (op.requested b pkt ≤ pkt.remaining.toNat ∧ ∃ child t, op.run b pkt = (.ok child, t) ∧
        t.Inside b ∧ t.curr.toNat + t.remaining.toNat = pkt.curr.toNat + pkt.remaining.toNat ∧
        ∀ sub, child = some sub → sub.Inside b) ∨
      (pkt.remaining.toNat < op.requested b pkt ∧ op.run b pkt = (.error .ret, pkt)) := by
  obtain ⟨hseen, hbody⟩ := h
  by_cases hshort : pkt.remaining.toNat < op.len.toNat
  · have hrequested : op.requested b pkt = op.len.toNat := if_neg fun h => absurd h.2 (by omega)
    rw [hrequested]
    exact .inr ⟨hshort, run_of_quicLt (hseen.mpr hshort)⟩
  · have hlen : op.len.toNat ≤ pkt.remaining.toNat := Nat.le_of_not_lt hshort
    have hcheck : ¬ quicLt pkt.remaining.toNat op.len.toNat := fun h => hshort (hseen.mp h)
    obtain ⟨bytes, hread, -⟩ := hpkt.read hlen
    obtain ⟨hcurr, hremaining⟩ := forward_toNat hpkt hlen
    by_cases hop : op.IsPrefixed
    · obtain ⟨hfits, hcheck'⟩ := hbody hop hlen
      have hlt := hop.bodyLen_lt b pkt
      have hnat : (UInt64.ofNat (op.bodyLen b pkt)).toNat = op.bodyLen b pkt :=
        UInt64.toNat_ofNat_of_lt (hlt.trans (by decide))
      have hrequested : op.requested b pkt = op.len.toNat + op.bodyLen b pkt := if_pos ⟨hop, hlen⟩
      have hle : (UInt64.ofNat (op.bodyLen b pkt)).toNat ≤
        (pkt.forward op.len).remaining.toNat := by
        rw [hnat, hremaining]
        omega
      have hrun := run_of_isPrefixed hop hcheck hread
      dsimp only at hrun
      rw [hnat, hremaining, if_neg (by rwa [Nat.cast_sub hlen])] at hrun
      obtain ⟨hcurr', hremaining'⟩ := forward_toNat (hpkt.forward hlen) hle
      refine .inl ⟨hrequested.trans_le hfits, _, _, hrun, (hpkt.forward hlen).forward hle, ?_, ?_⟩
      · rw [hcurr', hremaining', hcurr, hremaining, hnat]
        omega
      · rintro sub ⟨⟩
        exact (hpkt.forward hlen).bufInit hle
    · have hrequested : op.requested b pkt = op.len.toNat := if_neg fun h => hop h.1
      rw [hrequested]
      refine .inl ⟨hlen, ?_⟩
      rcases run_of_not_quicLt (b := b) hop hcheck with ⟨hnone, -⟩ | ⟨child, t, hrun, ht, hchild⟩
      · rw [hread] at hnone
        cases hnone
      · refine ⟨child, t, hrun, ?_, ?_, ?_⟩
        · rcases ht with rfl | rfl
          · exact hpkt
          · exact hpkt.forward hlen
        · rcases ht with rfl | rfl
          · rfl
          · rw [hcurr, hremaining]
            omega
        · rintro sub rfl
          rcases hchild with hchild | hchild
          · cases hchild
          · cases hchild
            exact hpkt.bufInit hlen

/-- An operation that does what its bounds say sees the lengths as they are. -/
theorem Right.seen (hpkt : pkt.Inside b) (h : op.Right b pkt) : op.Seen b pkt := by
  by_cases hcheck : quicLt pkt.remaining.toNat op.len.toNat
  · have hrun := run_of_quicLt (b := b) hcheck
    have hmore : pkt.remaining.toNat < op.requested b pkt := by
      by_contra hle
      obtain ⟨child, hok⟩ := h.succeeds.mpr (Nat.le_of_not_lt hle)
      rw [hrun] at hok
      cases hok
    have hshort : pkt.remaining.toNat < op.len.toNat := by
      by_contra hlen
      unfold requested at hmore
      split_ifs at hmore with hop
      · have hlt := hop.1.bodyLen_lt b pkt
        have hbounds := hop.1.len_bounds
        rw [quicLt_iff_mod] at hcheck
        omega
      · exact hlen hmore
    exact ⟨iff_of_true hcheck hshort, fun _ hle => absurd hle (by omega)⟩
  · have hread {e : Fail} (hrun : op.run b pkt = (.error e, pkt)) : e = .ret := by
      have hrefused := h.refused fun child hok => by
        rw [hrun] at hok
        cases hok
      rw [hrun] at hrefused
      cases hrefused
      rfl
    by_cases hop : op.IsPrefixed
    · have hbounds := hop.len_bounds
      have hlt := hop.bodyLen_lt b pkt
      have hlen : op.len.toNat ≤ pkt.remaining.toNat := by
        by_contra hshort
        exact hcheck (quicLt_of_short (Nat.lt_of_not_le hshort) (by omega))
      obtain ⟨bytes, hbytes, -⟩ := hpkt.read hlen
      obtain ⟨hcurr, hremaining⟩ := forward_toNat hpkt hlen
      have hnat : (UInt64.ofNat (op.bodyLen b pkt)).toNat = op.bodyLen b pkt :=
        UInt64.toNat_ofNat_of_lt (hlt.trans (by decide))
      have hrun := run_of_isPrefixed hop hcheck hbytes
      dsimp only at hrun
      rw [hnat, hremaining] at hrun
      by_cases hcheck' : quicLt ((pkt.remaining.toNat - op.len.toNat : ℕ) : ℤ) (op.bodyLen b pkt)
      · rw [if_pos hcheck'] at hrun
        have hrefused := h.refused fun child hok => by
          rw [hrun] at hok
          cases hok
        rw [hrun] at hrefused
        have hsame := congrArg (fun p : RPacketFields => p.curr.toNat) (Prod.mk.inj hrefused).2
        omega
      · have hfits : op.bodyLen b pkt ≤ pkt.remaining.toNat - op.len.toNat := by
          by_contra hshort
          exact hcheck' (quicLt_of_short (Nat.lt_of_not_le hshort) (by omega))
        rw [Nat.cast_sub hlen] at hcheck'
        exact ⟨iff_of_false hcheck (by omega), fun _ _ => ⟨by omega, hcheck'⟩⟩
    · have hrequested : op.requested b pkt = op.len.toNat := if_neg fun h => hop h.1
      rcases run_of_not_quicLt (b := b) hop hcheck with ⟨-, hrun⟩ | ⟨child, t, hrun, -⟩
      · cases hread hrun
      · have hle := h.succeeds.mp ⟨child, by rw [hrun]⟩
        rw [hrequested] at hle
        exact ⟨iff_of_false hcheck (by omega), fun hp => absurd hp hop⟩

/-- An operation on a packet in the buffer does what its bounds say when the macro sees the lengths
as they are and a body is there behind its length. -/
theorem right_iff_seen (hpkt : pkt.Inside b) : op.Right b pkt ↔ op.Seen b pkt := by
  refine ⟨fun h => h.seen hpkt, fun h => ?_⟩
  rcases run_of_seen hpkt h with ⟨hle, child, t, hrun, -, htotal, -⟩ | ⟨hlt, hrun⟩
  · refine ⟨iff_of_true ⟨child, by rw [hrun]⟩ hle, by rwa [hrun], fun hnot => ?_⟩
    exact absurd (by rw [hrun]) (hnot child)
  · refine ⟨iff_of_false ?_ (by omega), by rw [hrun], fun _ => hrun⟩
    rintro ⟨child, hok⟩
    rw [hrun] at hok
    cases hok

end RPacketOp

/-- A step of the packets that read from a buffer: an operation on one of them. The packet that it
returns joins them. A process that reads outside the buffer ends. -/
def RPacketOp.step (b : RBuffer) (pkts : List RPacketFields) (e : ℕ × RPacketOp) :
    Option (List RPacketFields) :=
  match pkts[e.1]? with
  | none => some pkts
  | some pkt =>
    match e.2.run b pkt with
    | (.ok child, t) => some (pkts.set e.1 t ++ child.toList)
    | (.error .ret, t) => some (pkts.set e.1 t)
    | (.error _, _) => none

namespace RBuffer

variable (b : RBuffer)

/-- `RPacketBufInit` on the buffer. -/
def packets : List RPacketFields := [.bufInit b.base (.ofNat b.bytes.length)]

/-- The operations of a run do what their bounds say, and every packet stays in the buffer. -/
structure KeepsBounds (es : List (ℕ × RPacketOp)) : Prop where
  /-- Every operation. -/
  right : Trace.Along (RPacketOp.step b)
    (fun pkts e => ∀ pkt, pkts[e.1]? = some pkt → e.2.Right b pkt) b.packets es
  /-- Every packet that is reached. -/
  inside (n : ℕ) (pkts : List RPacketFields) :
    Trace.run (RPacketOp.step b) b.packets (es.take n) = some pkts → ∀ pkt ∈ pkts, pkt.Inside b

variable {b}

/-- The packets stay in the buffer when the macro sees the lengths as they are. -/
theorem inside_step {pkts next : List RPacketFields} {e : ℕ × RPacketOp}
    (hpkts : ∀ pkt ∈ pkts, pkt.Inside b) (hseen : ∀ pkt, pkts[e.1]? = some pkt → e.2.Seen b pkt)
    (hnext : RPacketOp.step b pkts e = some next) : ∀ pkt ∈ next, pkt.Inside b := by
  unfold RPacketOp.step at hnext
  cases hget : pkts[e.1]? with
  | none =>
    rw [hget] at hnext
    cases hnext
    exact hpkts
  | some pkt =>
    rw [hget] at hnext
    dsimp only at hnext
    have hpkt := hpkts pkt (List.mem_of_getElem? hget)
    have hset {t : RPacketFields} (ht : t.Inside b) : ∀ u ∈ pkts.set e.1 t, u.Inside b := by
      intro u hu
      rcases List.mem_or_eq_of_mem_set hu with hu | rfl
      · exact hpkts u hu
      · exact ht
    rcases RPacketOp.run_of_seen hpkt (hseen pkt hget) with
      ⟨-, child, t, hrun, ht, -, hchild⟩ | ⟨-, hrun⟩
    · rw [hrun] at hnext
      cases hnext
      intro u hu
      rcases List.mem_append.mp hu with hu | hu
      · exact hset ht u hu
      · exact hchild u (Option.mem_toList.mp hu)
    · rw [hrun] at hnext
      cases hnext
      exact hset hpkt

/-- The packet of the whole buffer. -/
theorem inside_packets : ∀ pkt ∈ b.packets, pkt.Inside b := by
  intro pkt hpkt
  obtain rfl := List.mem_singleton.mp hpkt
  have hstop := b.stop_lt
  refine ⟨le_rfl, ?_⟩
  change b.base.toNat + (UInt64.ofNat b.bytes.length).toNat ≤ _
  rw [UInt64.toNat_ofNat_of_lt' (lt_of_le_of_lt (Nat.le_add_left _ _) hstop)]

/-- The operations of a run keep to their bounds exactly when the macro sees every length as it is
and every body is there behind its length. -/
theorem keepsBounds_iff (b : RBuffer) (es : List (ℕ × RPacketOp)) :
    b.KeepsBounds es ↔ Trace.Along (RPacketOp.step b)
      (fun pkts e => ∀ pkt, pkts[e.1]? = some pkt → e.2.Seen b pkt) b.packets es := by
  let Inv (pkts : List RPacketFields) : Prop := ∀ pkt ∈ pkts, pkt.Inside b
  have hsame (pkts : List RPacketFields) (e : ℕ × RPacketOp) (hpkts : Inv pkts) :
      (∀ pkt, pkts[e.1]? = some pkt → e.2.Seen b pkt) ↔
        ∀ pkt, pkts[e.1]? = some pkt → e.2.Right b pkt :=
    forall_congr' fun pkt => imp_congr_right fun hget =>
      (RPacketOp.right_iff_seen (hpkts pkt (List.mem_of_getElem? hget))).symm
  have hcongr := @Trace.along_congr_of_invariant _ _ (RPacketOp.step b) _ b.packets es _ Inv hsame
    (fun _ _ _ hpkts hseen hnext => inside_step hpkts hseen hnext) inside_packets
  refine ⟨fun h => hcongr.mpr h.right, fun h => ⟨hcongr.mp h, fun n pkts hrun => ?_⟩⟩
  rw [← List.take_append_drop n es] at h
  exact Trace.run_invariant_along Inv (fun _ _ _ hpkts hseen hnext => inside_step hpkts hseen hnext)
    inside_packets h.append_left hrun

/-- A buffer of ten bytes. -/
def tenBytes : RBuffer where
  base := 4096
  bytes := List.replicate 10 0
  stop_lt := by decide

/-- A request for more than `2 ^ 31` bytes beyond those that remain passes the check. -/
theorem not_keepsBounds_pull : ¬ tenBytes.KeepsBounds [(0, .pull 2147483659)] := by
  intro h
  have hpull := (h.right.1 _ rfl).succeeds
  have hrun := @RPacketFields.pull_of_not_quicLt (.bufInit tenBytes.base (.ofNat 10)) 2147483659
    (by decide)
  exact absurd (hpull.mp ⟨none, congrArg Prod.fst (Prog.bind_of_ok hrun)⟩) (by decide)

end RBuffer

namespace RPacketFields

variable {b : RBuffer} {pkt : RPacketFields} {len : UInt64}

/-- The bytes of a packet, with those that were read before. -/
def view (b : RBuffer) (past : List UInt8) (pkt : RPacketFields) : RPacket where
  past := past
  rest := (b.read pkt.curr pkt.remaining.toNat).getD []

end RPacketFields

end Tbquic
