import Tbquic.Common
import Tbquic.Lib.Bytes
import Tbquic.Lib.Simulation

/-!
# Reading and writing packets

`RPacket` is a cursor over received bytes and `WPacket` a writer into a buffer of fixed
size. Both check their bounds with the truncating macros, so a request that is more than
`2 ^ 31` bytes too large passes the check; the model then reports the access outside the
buffer.
-/

namespace Tbquic

/-- `RPacket`: the bytes between `head` and `curr`, and those still to be read. -/
structure RPacket where
  /-- The bytes already read. -/
  past : List UInt8
  /-- The remaining bytes. -/
  rest : List UInt8
  deriving DecidableEq, Repr

/-- `RPacketBufInit`. -/
def rPacketBufInit (buf : List UInt8) : RPacket := { past := [], rest := buf }

namespace RPacket

/-- `RPacketRemaining`. -/
def remaining (pkt : RPacket) : ℕ := pkt.rest.length

/-- `RPacketForward`. -/
def forward (pkt : RPacket) (len : ℕ) : RPacket :=
  { past := pkt.past ++ pkt.rest.take len, rest := pkt.rest.drop len }

end RPacket

/-- `RPacketPeekBytes`, with the bytes in place of a pointer to them. -/
def rPacketPeekBytes (len : ℕ) : Prog Fail RPacket (List UInt8) := fun pkt =>
  if quicLt pkt.remaining len then (.error .ret, pkt)
  else if pkt.remaining < len then (.error .ub, pkt)
  else (.ok (pkt.rest.take len), pkt)

/-- `RPacketGetBytes`, and `RPacketCopyBytes` with the destination as result. -/
def rPacketGetBytes (len : ℕ) : Prog Fail RPacket (List UInt8) := do
  let bytes ← rPacketPeekBytes len
  Prog.modify (·.forward len)
  pure bytes

/-- `RPacketGetData`, behind `RPacketGet1` to `RPacketGet4`. -/
def rPacketGetData (len : ℕ) : Prog Fail RPacket ℕ := do
  let bytes ← rPacketGetBytes len
  pure (Bytes.toNat bytes)

/-- `RPacketGet1`. -/
def rPacketGet1 : Prog Fail RPacket ℕ := rPacketGetData 1

/-- `RPacketGet2`. -/
def rPacketGet2 : Prog Fail RPacket ℕ := rPacketGetData 2

/-- `RPacketGet4`. -/
def rPacketGet4 : Prog Fail RPacket ℕ := rPacketGetData 4

/-- `RPacketGetLengthPrefixed1` and `RPacketGetLengthPrefixed2`, with the size of the length
field. -/
def rPacketGetLengthPrefixed (size : ℕ) : Prog Fail RPacket RPacket := do
  let len ← rPacketGetData size
  let bytes ← rPacketGetBytes len
  pure (rPacketBufInit bytes)

/-- `RPacketPull`. -/
def rPacketPull (len : ℕ) : Prog Fail RPacket Unit := do
  let _ ← rPacketPeekBytes len
  Prog.modify (·.forward len)

/-- A request for bytes that are there succeeds. -/
theorem rPacketGetBytes_append (past bytes : List UInt8) {rest : List UInt8}
    (hrest : rest.length < 2 ^ 31) :
    rPacketGetBytes bytes.length { past, rest := bytes ++ rest } =
      (.ok bytes, { past := past ++ bytes, rest }) := by
  have hcheck : ¬ quicLt (((bytes ++ rest).length : ℕ) : ℤ) bytes.length := by
    rw [List.length_append, quicLt_iff] <;> omega
  have hbound : ¬ (bytes ++ rest).length < bytes.length := by simp
  have hpeek : rPacketPeekBytes bytes.length { past, rest := bytes ++ rest } =
      (.ok bytes, { past, rest := bytes ++ rest }) := by
    simp only [rPacketPeekBytes, RPacket.remaining, if_neg hcheck, if_neg hbound,
      List.take_left]
  rw [rPacketGetBytes, Prog.bind_of_ok hpeek]
  simp [RPacket.forward]

/-- Bytes that were read stood at the front. -/
theorem rPacketGetBytes_eq_ok {pkt t : RPacket} {len : ℕ} {bytes : List UInt8}
    (h : rPacketGetBytes len pkt = (.ok bytes, t)) :
    bytes.length = len ∧ pkt.rest = bytes ++ t.rest ∧ t.past = pkt.past ++ bytes := by
  obtain ⟨read, u, hpeek, hforward⟩ := Prog.bind_eq_ok.mp h
  unfold rPacketPeekBytes at hpeek
  split_ifs at hpeek with hcheck hshort
  · cases hpeek
  · cases hpeek
  · cases hpeek
    rw [Prog.modify_bind] at hforward
    cases hforward
    refine ⟨?_, (List.take_append_drop len pkt.rest).symm, rfl⟩
    rw [List.length_take]
    exact min_eq_left (not_lt.mp hshort)

/-- A number that was read stood at the front. -/
theorem rPacketGetData_eq_ok {pkt t : RPacket} {len n : ℕ}
    (h : rPacketGetData len pkt = (.ok n, t)) :
    n < 256 ^ len ∧ pkt.rest = Bytes.ofNat len n ++ t.rest ∧
      t.past = pkt.past ++ Bytes.ofNat len n := by
  obtain ⟨bytes, u, hget, hpure⟩ := Prog.bind_eq_ok.mp h
  cases hpure
  obtain ⟨rfl, hrest, hpast⟩ := rPacketGetBytes_eq_ok hget
  rw [Bytes.ofNat_toNat]
  exact ⟨Bytes.toNat_lt bytes, hrest, hpast⟩

/-- Bytes that are there are skipped. -/
theorem rPacketPull_append (past bytes : List UInt8) {rest : List UInt8}
    (hrest : rest.length < 2 ^ 31) :
    rPacketPull bytes.length { past, rest := bytes ++ rest } =
      (.ok (), { past := past ++ bytes, rest }) := by
  have hget := rPacketGetBytes_append past bytes hrest
  obtain ⟨b, pkt, hpeek, hforward⟩ := Prog.bind_eq_ok.mp hget
  rw [Prog.modify_bind] at hforward
  rw [rPacketPull, Prog.bind_of_ok hpeek]
  exact Prod.ext rfl (Prod.mk.inj hforward).2

/-- A request for bytes that are not there fails, or reads past the end when the difference of the
lengths looks like one that is not negative. -/
theorem rPacketGetBytes_of_short (past : List UInt8) {rest : List UInt8} {len : ℕ}
    (hlen : rest.length < len) :
    rPacketGetBytes len { past, rest } =
      (.error (if quicLt rest.length len then .ret else .ub), { past, rest }) := by
  by_cases hcheck : quicLt rest.length len
  · have hpeek : rPacketPeekBytes len { past, rest } = (.error .ret, { past, rest }) :=
      if_pos hcheck
    rw [rPacketGetBytes, Prog.bind_of_error hpeek, if_pos hcheck]
  · have hpeek : rPacketPeekBytes len { past, rest } = (.error .ub, { past, rest }) :=
      (if_neg hcheck).trans (if_pos hlen)
    rw [rPacketGetBytes, Prog.bind_of_error hpeek, if_neg hcheck]

/-- Bytes that are read stood at the start of the packet. -/
theorem rPacketGetBytes_bytes {pkt : RPacket} (hpkt : pkt.rest.length < 2 ^ 31) (len : ℕ) :
    Prog.Post (rPacketGetBytes len)
      (fun bytes t => bytes.length = len ∧ pkt.rest = bytes ++ t.rest)
      (fun e _ => pkt.rest.length < len ∧ e = if quicLt pkt.rest.length len then .ret else .ub)
      pkt := by
  rcases Nat.lt_or_ge pkt.rest.length len with hshort | hlong
  · rw [Prog.post_of_error (rPacketGetBytes_of_short pkt.past hshort)]
    exact ⟨hshort, rfl⟩
  · have htake : (pkt.rest.take len).length = len := List.length_take_of_le hlong
    have hdrop : (pkt.rest.drop len).length < 2 ^ 31 := by
      rw [List.length_drop]
      omega
    have hget := rPacketGetBytes_append pkt.past (pkt.rest.take len) hdrop
    rw [List.take_append_drop, htake] at hget
    rw [Prog.post_of_eq hget]
    exact ⟨htake, (List.take_append_drop len pkt.rest).symm⟩

/-- A number that is there is read. -/
theorem rPacketGetData_append (past : List UInt8) {rest : List UInt8} {size n : ℕ}
    (hn : n < 256 ^ size) (hrest : rest.length < 2 ^ 31) :
    rPacketGetData size { past, rest := Bytes.ofNat size n ++ rest } =
      (.ok n, { past := past ++ Bytes.ofNat size n, rest }) := by
  have h := rPacketGetBytes_append past (Bytes.ofNat size n) hrest
  rw [Bytes.ofNat_length] at h
  rw [rPacketGetData, Prog.bind_of_ok h, Bytes.toNat_ofNat_of_lt hn]
  rfl

/-- A body behind its length is read. -/
theorem rPacketGetLengthPrefixed_append (past : List UInt8) {body rest : List UInt8} {size : ℕ}
    (hbody : body.length < 256 ^ size) (hlen : (body ++ rest).length < 2 ^ 31) :
    rPacketGetLengthPrefixed size
        { past, rest := Bytes.ofNat size body.length ++ (body ++ rest) } =
      (.ok (rPacketBufInit body),
        { past := past ++ (Bytes.ofNat size body.length ++ body), rest }) := by
  have hrest : rest.length < 2 ^ 31 := by
    rw [List.length_append] at hlen
    omega
  rw [rPacketGetLengthPrefixed, Prog.bind_of_ok (rPacketGetData_append past hbody hlen),
    Prog.bind_of_ok (rPacketGetBytes_append _ body hrest), List.append_assoc]
  rfl

/-- A byte is read when the check sees it. -/
theorem rPacketGet1_cons_eq {past rest : List UInt8} {b : UInt8} :
    rPacketGet1 { past, rest := b :: rest } =
      if quicLt ((b :: rest).length : ℕ) 1 then (.error .ret, { past, rest := b :: rest })
      else (.ok b.toNat, { past := past ++ [b], rest }) := by
  by_cases hcheck : quicLt ((b :: rest).length : ℕ) 1
  · have hpeek : rPacketPeekBytes 1 { past, rest := b :: rest } =
        (.error .ret, { past, rest := b :: rest }) := if_pos hcheck
    rw [if_pos hcheck, rPacketGet1, rPacketGetData, Prog.bind_of_error]
    rw [rPacketGetBytes, Prog.bind_of_error hpeek]
  · have hlength : ¬ (b :: rest).length < 1 := by simp
    have hpeek : rPacketPeekBytes 1 { past, rest := b :: rest } =
        (.ok [b], { past, rest := b :: rest }) :=
      (if_neg hcheck).trans (if_neg hlength)
    have hget : rPacketGetBytes 1 { past, rest := b :: rest } =
        (.ok [b], { past := past ++ [b], rest }) := by
      rw [rPacketGetBytes, Prog.bind_of_ok hpeek, Prog.modify_bind]
      rfl
    rw [if_neg hcheck, rPacketGet1, rPacketGetData, Prog.bind_of_ok hget]
    simp [Bytes.toNat]

/-- A request for one byte that is there succeeds. -/
theorem rPacketGet1_cons {past rest : List UInt8} {b : UInt8} (hrest : rest.length < 2 ^ 31) :
    rPacketGet1 { past, rest := b :: rest } =
      (.ok b.toNat, { past := past ++ [b], rest }) := by
  have hcheck : ¬ quicLt ((b :: rest).length : ℕ) 1 := by
    rw [List.length_cons, quicLt_iff] <;> omega
  rw [rPacketGet1_cons_eq, if_neg hcheck]

/-- A request for one byte of nothing fails. -/
theorem rPacketGet1_nil {past : List UInt8} :
    rPacketGet1 { past, rest := [] } = (.error .ret, { past, rest := [] }) := by
  have hpeek : rPacketPeekBytes 1 { past, rest := [] } = (.error .ret, { past, rest := [] }) := rfl
  rw [rPacketGet1, rPacketGetData, Prog.bind_of_error]
  rw [rPacketGetBytes, Prog.bind_of_error hpeek]

/-- `WPACKET_SUB`: a length field that is filled when its body is complete. -/
structure WPacketSub where
  /-- The offset of the field in the buffer. -/
  value : ℕ
  /-- The size of the field. -/
  valLen : ℕ
  deriving DecidableEq, Repr

/-- `WPacket` over a static buffer, or over a `BUF_MEM` that has room for the whole message. The
bytes written never exceed the buffer. `Writer` models how a `BUF_MEM` grows and moves. -/
structure WPacket where
  /-- The bytes written so far. -/
  buf : List UInt8
  /-- The size of the buffer. -/
  maxsize : ℕ
  /-- The open length fields, the innermost first. -/
  subs : List WPacketSub
  /-- `WPACKET_FLAGS_CLOSED`: all length fields were closed early. -/
  closed : Bool := false
  /-- The bytes written fit in the buffer. -/
  fits : buf.length ≤ maxsize

/-- `WPACKET_BUF_MAX_LEN`. -/
def wPacketBufMaxLen : ℕ := 65535

/-- `WPacketStaticBufInit`. -/
def wPacketStaticBufInit (len : ℕ) : WPacket :=
  { buf := [], maxsize := len, subs := [], fits := Nat.zero_le _ }

namespace WPacket

/-- `WPacket_get_written`. -/
def written (pkt : WPacket) : ℕ := pkt.buf.length

/-- `WPacket_get_space`. -/
def space (pkt : WPacket) : ℤ := toInt ((pkt.maxsize : ℤ) - pkt.written)

/-- Replace bytes that were written before. -/
def overwrite (pkt : WPacket) (offset : ℕ) (bytes : List UInt8) : WPacket :=
  { pkt with
    buf := Bytes.overwrite pkt.buf offset bytes
    fits := by rw [Bytes.overwrite_length]; exact pkt.fits }

/-- Append bytes for which there is room. -/
def append (pkt : WPacket) (bytes : List UInt8) (h : pkt.written + bytes.length ≤ pkt.maxsize) :
    WPacket :=
  { pkt with
    buf := pkt.buf ++ bytes
    fits := by rw [List.length_append]; exact h }

/-- The bytes are written behind those of the packet. -/
def Extends (pkt : WPacket) (bytes : List UInt8) (t : WPacket) : Prop :=
  t.buf = pkt.buf ++ bytes ∧ t.maxsize = pkt.maxsize

/-- The bytes of two writes stand one after the other. -/
theorem Extends.trans {pkt t u : WPacket} {bytes more : List UInt8} (h : pkt.Extends bytes t)
    (h' : t.Extends more u) : pkt.Extends (bytes ++ more) u :=
  ⟨by rw [h'.1, h.1, List.append_assoc], h'.2.trans h.2⟩

/-- The bytes written are counted. -/
theorem Extends.written {pkt t : WPacket} {bytes : List UInt8} (h : pkt.Extends bytes t) :
    t.written = pkt.written + bytes.length := by
  rw [WPacket.written, h.1, List.length_append, WPacket.written]

/-- Bytes are written and nothing else changes. -/
structure Appends (pkt : WPacket) (bytes : List UInt8) (t : WPacket) : Prop where
  /-- The bytes stand behind those of before. -/
  buf : t.buf = pkt.buf ++ bytes
  /-- The size of the buffer. -/
  maxsize : t.maxsize = pkt.maxsize
  /-- The open length fields. -/
  subs : t.subs = pkt.subs
  /-- The flag. -/
  closed : t.closed = pkt.closed

/-- The bytes are written behind those of the packet. -/
theorem Appends.extends {pkt t : WPacket} {bytes : List UInt8} (h : pkt.Appends bytes t) :
    pkt.Extends bytes t := ⟨h.buf, h.maxsize⟩

/-- The bytes of two writes stand one after the other. -/
theorem Appends.trans {pkt t u : WPacket} {bytes more : List UInt8} (h : pkt.Appends bytes t)
    (h' : t.Appends more u) : pkt.Appends (bytes ++ more) u :=
  ⟨by rw [h'.buf, h.buf, List.append_assoc], h'.maxsize.trans h.maxsize, h'.subs.trans h.subs,
    h'.closed.trans h.closed⟩

/-- The space is that of the buffer when it is below `2 ^ 31`. -/
theorem space_of_room {pkt : WPacket} (hroom : pkt.maxsize - pkt.written < 2 ^ 31) :
    pkt.space = ((pkt.maxsize - pkt.written : ℕ) : ℤ) := by
  have hfits : pkt.written ≤ pkt.maxsize := pkt.fits
  rw [space, toInt_of_bounds (by omega) (by omega), Int.ofNat_sub hfits]

/-- The space of a buffer of ordinary size. -/
theorem space_eq {pkt : WPacket} (hmax : pkt.maxsize < 2 ^ 31) :
    pkt.space = ((pkt.maxsize - pkt.written : ℕ) : ℤ) :=
  space_of_room ((Nat.sub_le _ _).trans_lt hmax)

end WPacket

/-- The space check of `WPacketReserveBytes` and the advance of `WPacketAllocateBytes`, with
the bytes that the caller stores in the allocated stretch. -/
def wPacketAppend (bytes : List UInt8) : Prog Fail WPacket Unit := fun pkt =>
  if quicLt ((pkt.maxsize : ℤ) - pkt.written) bytes.length then (.error .ret, pkt)
  else if h : pkt.written + bytes.length ≤ pkt.maxsize then (.ok (), pkt.append bytes h)
  else (.error .ub, pkt)

/-- `WPacketAllocateBytes`: the result is the offset of the stretch, which holds zeros. -/
def wPacketAllocateBytes (len : ℕ) : Prog Fail WPacket ℕ := do
  let pkt ← Prog.get
  wPacketAppend (List.replicate len 0)
  pure pkt.written

/-- `WPacketMemcpy` from a source that is not `NULL`. -/
def wPacketMemcpy (src : List UInt8) : Prog Fail WPacket Unit :=
  if src.length = 0 then pure () else wPacketAppend src

/-- `WPacketPutBytes`: the value is stored before its size is checked. -/
def wPacketPutBytes (val size : ℕ) : Prog Fail WPacket Unit := do
  wPacketAppend (Bytes.ofNat size val)
  Prog.ensure .ret (val / 256 ^ size = 0)

/-- `WPacketStartSubBytes`. -/
def wPacketStartSubBytes (len : ℕ) : Prog Fail WPacket Unit := do
  Prog.modify fun pkt => { pkt with subs := { value := pkt.written, valLen := len } :: pkt.subs }
  wPacketAppend (List.replicate len 0)

/-- `WPacketClose`: the innermost length field gets the number of bytes behind it. -/
def wPacketClose : Prog Fail WPacket Unit := do
  let pkt ← Prog.get
  match pkt.subs with
  | [] => Prog.ensure .ret (pkt.closed = true)
  | sub :: parent => do
    let dataLen : ℕ := (((pkt.written : ℤ) - (sub.value + sub.valLen)) % 2 ^ 64).toNat
    Prog.ensure .assert (quicGe dataLen 0)
    Prog.modify (·.overwrite sub.value (Bytes.ofNat sub.valLen dataLen))
    Prog.ensure .ret (dataLen / 256 ^ sub.valLen = 0)
    Prog.modify fun pkt => { pkt with subs := parent }

/-- `WPacketSubMemcpyBytes`: bytes behind their number. -/
def wPacketSubMemcpy (src : List UInt8) (lenbytes : ℕ) : Prog Fail WPacket Unit := do
  wPacketStartSubBytes lenbytes
  wPacketMemcpy src
  wPacketClose

/-- Bytes that fit in a buffer of ordinary size are appended. -/
theorem wPacketAppend_of_fits {pkt : WPacket} {bytes : List UInt8}
    (h : pkt.written + bytes.length ≤ pkt.maxsize) (hmax : pkt.maxsize < 2 ^ 31) :
    wPacketAppend bytes pkt = (.ok (), pkt.append bytes h) := by
  have hcheck : ¬ quicLt ((pkt.maxsize : ℤ) - pkt.written) bytes.length := by
    rw [quicLt_iff] <;> omega
  simp only [wPacketAppend, if_neg hcheck, dif_pos h]

/-- Bytes for which there is room are appended. -/
theorem wPacketAppend_of_room {pkt : WPacket} {bytes : List UInt8}
    (hroom : pkt.maxsize - pkt.written < 2 ^ 31)
    (h : pkt.written + bytes.length ≤ pkt.maxsize) :
    ∃ t, wPacketAppend bytes pkt = (.ok (), t) ∧ pkt.Appends bytes t := by
  have hcheck : ¬ quicLt ((pkt.maxsize : ℤ) - pkt.written) bytes.length := by
    rw [quicLt_iff] <;> omega
  refine ⟨pkt.append bytes h, ?_, rfl, rfl, rfl, rfl⟩
  simp only [wPacketAppend, if_neg hcheck, dif_pos h]

/-- A value that fits in its field and in the buffer is stored. -/
theorem wPacketPutBytes_of_fits (pkt : WPacket) (val size : ℕ)
    (h : pkt.written + (Bytes.ofNat size val).length ≤ pkt.maxsize) (hmax : pkt.maxsize < 2 ^ 31)
    (hval : val / 256 ^ size = 0) :
    wPacketPutBytes val size pkt = (.ok (), pkt.append (Bytes.ofNat size val) h) := by
  rw [wPacketPutBytes, Prog.bind_of_ok (wPacketAppend_of_fits h hmax), Prog.ensure_of_pos hval]
  rfl

/-- A stretch that fits in the buffer is allocated at its end. -/
theorem wPacketAllocateBytes_of_fits (pkt : WPacket) (len : ℕ)
    (h : pkt.written + (List.replicate len (0 : UInt8)).length ≤ pkt.maxsize)
    (hmax : pkt.maxsize < 2 ^ 31) :
    wPacketAllocateBytes len pkt =
      (.ok pkt.written, pkt.append (List.replicate len 0) h) := by
  rw [wPacketAllocateBytes, Prog.get_bind, Prog.bind_of_ok (wPacketAppend_of_fits h hmax)]
  rfl

/-- Bytes are appended to a buffer of ordinary size when they fit, and refused otherwise. -/
theorem wPacketAppend_follows {pkt : WPacket} (bytes : List UInt8) (hmax : pkt.maxsize < 2 ^ 31)
    (hlen : bytes.length < 2 ^ 31) :
    Prog.Follows (wPacketAppend bytes) (guard (pkt.written + bytes.length ≤ pkt.maxsize))
      (fun _ _ t => pkt.Extends bytes t) pkt := by
  have hfits : pkt.written ≤ pkt.maxsize := pkt.fits
  by_cases h : pkt.written + bytes.length ≤ pkt.maxsize
  · rw [guard, if_pos h]
    exact .of_ok (wPacketAppend_of_fits h hmax) ⟨rfl, rfl⟩
  · have hcheck : quicLt ((pkt.maxsize : ℤ) - pkt.written) bytes.length := by
      rw [quicLt_iff] <;> omega
    rw [guard, if_neg h]
    exact .of_error (if_pos hcheck)

/-- Bytes are appended whole or not at all. -/
theorem wPacketAppend_eq_ok {pkt pkt' : WPacket} {bytes : List UInt8} {u : Unit}
    (h : wPacketAppend bytes pkt = (.ok u, pkt')) :
    pkt'.buf = pkt.buf ++ bytes ∧ pkt'.maxsize = pkt.maxsize ∧ pkt'.subs = pkt.subs := by
  unfold wPacketAppend at h
  split at h
  · simp at h
  · split at h
    · simp only [Prod.mk.injEq, true_and] at h
      subst h
      exact ⟨rfl, rfl, rfl⟩
    · simp at h

/-- A length field for which there is room is opened at the end of the bytes. -/
theorem wPacketStartSubBytes_of_room {pkt : WPacket} {len : ℕ}
    (hroom : pkt.maxsize - pkt.written < 2 ^ 31) (h : pkt.written + len ≤ pkt.maxsize) :
    ∃ t, wPacketStartSubBytes len pkt = (.ok (), t) ∧
      WPacket.Appends { pkt with subs := { value := pkt.written, valLen := len } :: pkt.subs }
        (List.replicate len 0) t := by
  rw [wPacketStartSubBytes, Prog.modify_bind]
  refine wPacketAppend_of_room hroom ?_
  rw [List.length_replicate]
  exact h

/-- A length field is opened at the end of the bytes. -/
theorem wPacketStartSubBytes_of_fits {pkt : WPacket} {len : ℕ} (hmax : pkt.maxsize < 2 ^ 31)
    (h : pkt.written + len ≤ pkt.maxsize) :
    ∃ t, wPacketStartSubBytes len pkt = (.ok (), t) ∧ pkt.Extends (List.replicate len 0) t ∧
      t.subs = { value := pkt.written, valLen := len } :: pkt.subs := by
  obtain ⟨t, hrun, ht⟩ := wPacketStartSubBytes_of_room ((Nat.sub_le _ _).trans_lt hmax) h
  exact ⟨t, hrun, ⟨ht.buf, ht.maxsize⟩, ht.subs⟩

/-- Bytes for which there is room are copied. -/
theorem wPacketMemcpy_of_room {pkt : WPacket} {bytes : List UInt8}
    (hroom : pkt.maxsize - pkt.written < 2 ^ 31)
    (h : pkt.written + bytes.length ≤ pkt.maxsize) :
    ∃ t, wPacketMemcpy bytes pkt = (.ok (), t) ∧ pkt.Appends bytes t := by
  rw [wPacketMemcpy]
  by_cases hempty : bytes.length = 0
  · rw [if_pos hempty, List.length_eq_zero_iff.mp hempty]
    exact ⟨pkt, rfl, (List.append_nil _).symm, rfl, rfl, rfl⟩
  · rw [if_neg hempty]
    exact wPacketAppend_of_room hroom h

/-- Bytes that fit are copied. -/
theorem wPacketMemcpy_of_fits (pkt : WPacket) (bytes : List UInt8) (hmax : pkt.maxsize < 2 ^ 31)
    (h : pkt.written + bytes.length ≤ pkt.maxsize) :
    ∃ t, wPacketMemcpy bytes pkt = (.ok (), t) ∧ pkt.Extends bytes t ∧ t.subs = pkt.subs := by
  obtain ⟨t, hrun, ht⟩ := wPacketMemcpy_of_room ((Nat.sub_le _ _).trans_lt hmax) h
  exact ⟨t, hrun, ht.extends, ht.subs⟩

/-- A number that was put has the size of its field. -/
theorem wPacketPutBytes_eq_ok {pkt t : WPacket} {val size : ℕ} {u : Unit}
    (h : wPacketPutBytes val size pkt = (.ok u, t)) :
    t.buf = pkt.buf ++ Bytes.ofNat size val ∧ t.maxsize = pkt.maxsize ∧ t.subs = pkt.subs ∧
      val < 256 ^ size := by
  obtain ⟨_, t', happend, hensure⟩ := Prog.bind_eq_ok.mp h
  obtain ⟨hbuf, hmax, hsubs⟩ := wPacketAppend_eq_ok happend
  unfold Prog.ensure at hensure
  split at hensure
  · cases hensure
    exact ⟨hbuf, hmax, hsubs, Nat.lt_of_div_eq_zero (Nat.pow_pos (by decide)) ‹_›⟩
  · cases hensure

/-- Bytes are copied whole or not at all. -/
theorem wPacketMemcpy_eq_ok {pkt t : WPacket} {bytes : List UInt8} {u : Unit}
    (h : wPacketMemcpy bytes pkt = (.ok u, t)) :
    t.buf = pkt.buf ++ bytes ∧ t.maxsize = pkt.maxsize ∧ t.subs = pkt.subs := by
  unfold wPacketMemcpy at h
  split at h
  · rename_i hempty
    cases h
    rw [List.length_eq_zero_iff.mp hempty, List.append_nil]
    exact ⟨rfl, rfl, rfl⟩
  · exact wPacketAppend_eq_ok h

/-- The innermost length field is filled with the number of bytes behind it. -/
theorem wPacketClose_of_subs {pkt : WPacket} {start body : List UInt8} {valLen : ℕ}
    {parent : List WPacketSub} (hbuf : pkt.buf = start ++ List.replicate valLen 0 ++ body)
    (hsubs : pkt.subs = { value := start.length, valLen } :: parent) (hbody : body.length < 2 ^ 31)
    (hsize : body.length < 256 ^ valLen) :
    ∃ t, wPacketClose pkt = (.ok (), t) ∧
      t.buf = start ++ Bytes.ofNat valLen body.length ++ body ∧ t.maxsize = pkt.maxsize ∧
      t.subs = parent := by
  have hwritten : pkt.written = start.length + valLen + body.length := by
    rw [WPacket.written, hbuf, List.length_append, List.length_append, List.length_replicate]
  have hlen : (((pkt.written : ℤ) - (start.length + valLen)) % 2 ^ 64).toNat = body.length := by
    rw [hwritten]
    omega
  have hge : quicGe ((body.length : ℕ) : ℤ) 0 := by
    rw [quicGe_iff] <;> omega
  have hfits : body.length / 256 ^ valLen = 0 := Nat.div_eq_of_lt hsize
  refine ⟨{ pkt.overwrite start.length (Bytes.ofNat valLen body.length) with subs := parent }, ?_,
    ?_, rfl, rfl⟩
  · rw [wPacketClose, Prog.get_bind, hsubs]
    dsimp only
    rw [hlen, Prog.ensure_of_pos hge, Prog.pure_bind, Prog.modify_bind, Prog.ensure_of_pos hfits,
      Prog.pure_bind]
    rfl
  · have hover := @Bytes.overwrite_append start (List.replicate valLen 0)
      (Bytes.ofNat valLen body.length) body (by simp)
    rw [← hbuf] at hover
    exact hover

/-- Bytes that fit are written behind their number. -/
theorem wPacketSubMemcpy_of_fits {pkt : WPacket} {src : List UInt8} {lenbytes : ℕ}
    (hmax : pkt.maxsize < 2 ^ 31) (hsize : src.length < 256 ^ lenbytes)
    (h : pkt.written + lenbytes + src.length ≤ pkt.maxsize) :
    ∃ t, wPacketSubMemcpy src lenbytes pkt = (.ok (), t) ∧
      pkt.Extends (Bytes.ofNat lenbytes src.length ++ src) t ∧ t.subs = pkt.subs := by
  obtain ⟨t, hstart, ht, hsubs⟩ := @wPacketStartSubBytes_of_fits pkt lenbytes hmax (by omega)
  have hroom : t.written + src.length ≤ t.maxsize := by
    rw [ht.written, List.length_replicate, ht.2]
    exact h
  obtain ⟨u, hcopy, hu, hsubs'⟩ := wPacketMemcpy_of_fits t src (ht.2 ▸ hmax) hroom
  have hbuf : u.buf = pkt.buf ++ List.replicate lenbytes 0 ++ src := by
    rw [hu.1, ht.1]
  obtain ⟨r, hclose, hr, hrmax, hrsubs⟩ := wPacketClose_of_subs hbuf (hsubs'.trans hsubs)
    (by omega) hsize
  refine ⟨r, ?_, ⟨?_, hrmax.trans (hu.2.trans ht.2)⟩, hrsubs⟩
  · rw [wPacketSubMemcpy, Prog.bind_of_ok hstart, Prog.bind_of_ok hcopy, hclose]
  · rw [hr, List.append_assoc]

/-- A length field that was closed is large enough. -/
theorem wPacketClose_eq_ok {pkt t : WPacket} {start body : List UInt8} {valLen : ℕ}
    {parent : List WPacketSub} {u : Unit}
    (hbuf : pkt.buf = start ++ List.replicate valLen 0 ++ body)
    (hsubs : pkt.subs = { value := start.length, valLen } :: parent)
    (h : wPacketClose pkt = (.ok u, t)) (hbody : body.length < 2 ^ 31) :
    body.length < 256 ^ valLen := by
  have hwritten : pkt.written = start.length + valLen + body.length := by
    rw [WPacket.written, hbuf, List.length_append, List.length_append, List.length_replicate]
  have hlen : (((pkt.written : ℤ) - (start.length + valLen)) % 2 ^ 64).toNat = body.length := by
    rw [hwritten]
    omega
  rw [wPacketClose, Prog.get_bind, hsubs] at h
  dsimp only at h
  rw [hlen, Prog.ensure_bind_eq_ok, Prog.modify_bind, Prog.ensure_bind_eq_ok] at h
  exact Nat.lt_of_div_eq_zero (Nat.pow_pos (by decide)) h.2.1

/-- Bytes behind their number that were written have a number that fits in its field. -/
theorem wPacketSubMemcpy_eq_ok {pkt t : WPacket} {src : List UInt8} {lenbytes : ℕ} {u : Unit}
    (hmax : pkt.maxsize < 2 ^ 31) (h : wPacketSubMemcpy src lenbytes pkt = (.ok u, t)) :
    pkt.Extends (Bytes.ofNat lenbytes src.length ++ src) t ∧ t.subs = pkt.subs ∧
      src.length < 256 ^ lenbytes := by
  obtain ⟨_, opened, hstart, hrest⟩ := Prog.bind_eq_ok.mp h
  obtain ⟨_, filled, hcopy, hclose⟩ := Prog.bind_eq_ok.mp hrest
  obtain ⟨hobuf, homax, hosubs⟩ : opened.buf = pkt.buf ++ List.replicate lenbytes 0 ∧
      opened.maxsize = pkt.maxsize ∧
      opened.subs = { value := pkt.buf.length, valLen := lenbytes } :: pkt.subs := by
    rw [wPacketStartSubBytes, Prog.modify_bind] at hstart
    exact wPacketAppend_eq_ok hstart
  obtain ⟨hfbuf, hfmax, hfsubs⟩ := wPacketMemcpy_eq_ok hcopy
  have hbuf : filled.buf = pkt.buf ++ List.replicate lenbytes 0 ++ src := by
    rw [hfbuf, hobuf]
  have hroom : pkt.written + lenbytes + src.length ≤ pkt.maxsize := by
    have hfits := filled.fits
    rw [hbuf, List.length_append, List.length_append, List.length_replicate, hfmax, homax] at hfits
    exact hfits
  have hsize := wPacketClose_eq_ok hbuf (hfsubs.trans hosubs) hclose (by omega)
  obtain ⟨r, hrun, hextends, hsubs⟩ := wPacketSubMemcpy_of_fits hmax hsize hroom
  rw [h] at hrun
  cases hrun
  exact ⟨hextends, hsubs, hsize⟩

end Tbquic
