import Tbquic.Packet

/-!
# Writers in memory

`WPacket` with the addresses that it stores. The buffer is static or a `BUF_MEM`, which may move
when it grows. A sub-packet keeps the address of its length field, and its nodes are shared by all
copies of a `WPacket`.
-/

namespace Tbquic

/-- `WPACKET_SUB`. -/
structure WriterSub where
  /-- `parent`. -/
  parent : Option ℕ
  /-- The address of the length field. -/
  value : ℕ
  /-- The size of the length field. -/
  valLen : ℕ
  deriving DecidableEq, Repr

/-- The fields of `WPacket` beside the pointer to its buffer. -/
structure WriterFields where
  /-- Whether the buffer is static. -/
  isStatic : Bool
  /-- `WPACKET_FLAGS_CLOSED`. -/
  closed : Bool
  /-- `curr`. -/
  curr : ℕ
  /-- `written`. -/
  written : ℕ
  /-- `maxsize`. -/
  maxsize : ℕ
  /-- `subs`: the address of a node. -/
  subs : Option ℕ
  deriving DecidableEq, Repr

/-- A `WPacket` with the memory that it refers to. -/
structure Writer where
  /-- The `WPacket`. -/
  pkt : WriterFields
  /-- The address of the buffer. -/
  data : ℕ
  /-- The bytes of the buffer. -/
  bytes : List UInt8
  /-- The nodes of sub-packets. -/
  node : ℕ → Option WriterSub
  /-- The address of the next node. -/
  next : ℕ
  /-- The copies `tmp` of the calls of `TlsConstructExtensions`, the innermost first. -/
  tmp : List WriterFields

/-- `DEFAULT_BUF_SIZE`. -/
def defaultBufSize : ℕ := 256

/-- `SIZE_MAX`. -/
def sizeMax : ℕ := 2 ^ 64 - 1

namespace Writer

/-- `WPacketStaticBufInit`, and `WPacketBufInit` on a `BUF_MEM`. -/
def init (isStatic : Bool) (data : ℕ) (bytes : List UInt8) : Writer where
  pkt :=
    { isStatic, closed := false, curr := 0, written := 0
      maxsize := if isStatic then bytes.length else wPacketBufMaxLen, subs := none }
  data := data
  bytes := bytes
  node := fun _ => none
  next := 0
  tmp := []

/-- Write bytes to an address, which has to lie in the buffer. -/
def store (address : ℕ) (src : List UInt8) : Prog Fail Writer Unit := fun w =>
  if src = [] then (.ok (), w)
  else if w.data ≤ address ∧ address + src.length ≤ w.data + w.bytes.length then
    (.ok (), { w with bytes := Bytes.overwrite w.bytes (address - w.data) src })
  else (.error .ub, w)

/-- The length that `WPacketReserveBytes` asks for. -/
def newlen (len length : ℕ) : ℕ :=
  let reflen := if length < len then len else length
  if sizeMax / 2 < reflen then sizeMax
  else if reflen * 2 < defaultBufSize then defaultBufSize
  else reflen * 2

/-- `BUF_MEM_grow` to a length: it fails, or the buffer is found at an address behind it. -/
def bufMemGrow (len : ℕ) (moved : Option ℕ) : Prog Fail Writer Unit :=
  match moved with
  | none => Prog.fail .ret
  | some data => Prog.modify fun w =>
    { w with data, bytes := w.bytes ++ List.replicate (len - w.bytes.length) 0 }

/-- The growth in `WPacketReserveBytes` of a `BUF_MEM` without room for the bytes. -/
def reserveGrow (len : ℕ) (moved : Option ℕ) : Prog Fail Writer Unit := do
  let w ← Prog.get
  if w.pkt.isStatic = false ∧ ((w.bytes.length : ℤ) - w.pkt.written) % 2 ^ 64 < len then
    bufMemGrow (newlen len w.bytes.length) moved
  else pure ()

/-- `WPacketReserveBytes`: the address of the bytes. Where the buffer grows, `moved` is the result
of `BUF_MEM_grow`. -/
def wPacketReserveBytes (len : ℕ) (moved : Option ℕ) : Prog Fail Writer ℕ := do
  let w ← Prog.get
  Prog.ensure .ret (¬ quicLt ((w.pkt.maxsize : ℤ) - w.pkt.written) len)
  reserveGrow len moved
  let w ← Prog.get
  pure (w.data + w.pkt.curr)

/-- `WPacketAllocateBytes`. -/
def wPacketAllocateBytes (len : ℕ) (moved : Option ℕ) : Prog Fail Writer ℕ := do
  let dest ← wPacketReserveBytes len moved
  Prog.modify fun w =>
    { w with pkt.written := w.pkt.written + len, pkt.curr := w.pkt.curr + len }
  pure dest

/-- `WPacketAllocateBytes`, whose caller fills the bytes. -/
def wPacketFill (content : List UInt8) (moved : Option ℕ) : Prog Fail Writer Unit := do
  let dest ← wPacketAllocateBytes content.length moved
  store dest content

/-- `WPacketMemcpy` from a source that is not `NULL`. -/
def wPacketMemcpy (src : List UInt8) (moved : Option ℕ) : Prog Fail Writer Unit :=
  if src.length = 0 then pure ()
  else wPacketFill src moved

/-- `WPacketPutValue`: the value is stored before its size is checked. -/
def wPacketPutValue (data value len : ℕ) : Prog Fail Writer Unit := do
  store data (Bytes.ofNat len value)
  Prog.ensure .ret (value / 256 ^ len = 0)

/-- `WPacketPutBytes`. -/
def wPacketPutBytes (val size : ℕ) (moved : Option ℕ) : Prog Fail Writer Unit := do
  let data ← wPacketAllocateBytes size moved
  wPacketPutValue data val size

/-- `WPacketStartSubBytes`: the node is linked before its field is allocated. -/
def wPacketStartSubBytes (len : ℕ) (moved : Option ℕ) : Prog Fail Writer Unit := do
  let w ← Prog.get
  let sub : WriterSub := { parent := w.pkt.subs, value := 0, valLen := 0 }
  Prog.modify fun w =>
    { w with node := Function.update w.node w.next sub, next := w.next + 1, pkt.subs := w.next }
  let value ← wPacketAllocateBytes len moved
  Prog.modify fun u =>
    { u with node := Function.update u.node w.next (some { sub with value, valLen := len }) }

/-- `WPacketClose`. -/
def wPacketClose : Prog Fail Writer Unit := do
  let w ← Prog.get
  match w.pkt.subs with
  | none => Prog.ensure .ret (w.pkt.closed = true)
  | some a =>
    match w.node a with
    | none => Prog.fail .ub
    | some sub => do
      let dataLen : ℕ := ((((w.data + w.pkt.curr : ℕ) : ℤ) - sub.value - sub.valLen) % 2 ^ 64).toNat
      Prog.ensure .assert (quicGe dataLen 0)
      wPacketPutValue sub.value dataLen sub.valLen
      Prog.modify fun w =>
        { w with pkt.subs := sub.parent, node := Function.update w.node a none }

/-- The loop of `WPacketForceClose`. -/
def forceCloseLoop : ℕ → Prog Fail Writer Unit
  | 0 => Prog.fail .fuel
  | fuel + 1 => do
    let w ← Prog.get
    if w.pkt.subs = none then pure ()
    else do
      wPacketClose
      forceCloseLoop fuel

/-- `WPacketForceClose`. There are no more open sub-packets than nodes. -/
def wPacketForceClose : Prog Fail Writer Unit := do
  let w ← Prog.get
  forceCloseLoop (w.next + 1)
  Prog.modify fun w => { w with pkt.closed := true }

/-- `tmp = *pkt` in `TlsConstructExtensions`. -/
def saveTmp (w : Writer) : Writer := { w with tmp := w.pkt :: w.tmp }

/-- The extension was sent: its copy is not used. -/
def dropTmp (w : Writer) : Writer := { w with tmp := w.tmp.tail }

/-- `*pkt = tmp` in `TlsConstructExtensions`. -/
def restoreTmp (w : Writer) : Writer :=
  match w.tmp with
  | [] => w
  | pkt :: tmp => { w with pkt, tmp }

/-- The buffer may have grown and moved, and nothing else. -/
structure Grown (w t : Writer) : Prop where
  /-- The `WPacket`. -/
  pkt : t.pkt = w.pkt
  /-- The nodes. -/
  node : t.node = w.node
  /-- The next node. -/
  next : t.next = w.next
  /-- The copies. -/
  tmp : t.tmp = w.tmp
  /-- The bytes of before. -/
  bytes : ∃ more, t.bytes = w.bytes ++ more

/-- The length that is asked for has room for the bytes. -/
theorem le_newlen {written len length : ℕ} (hwritten : written ≤ length)
    (hmax : written + len ≤ sizeMax) : written + len ≤ newlen len length := by
  unfold newlen
  dsimp only
  split_ifs <;> omega

variable {w t : Writer} {len : ℕ} {moved : Option ℕ}

theorem Grown.refl (w : Writer) : w.Grown w := ⟨rfl, rfl, rfl, rfl, [], (List.append_nil _).symm⟩

theorem Grown.length_le (h : w.Grown t) : w.bytes.length ≤ t.bytes.length := by
  obtain ⟨more, hmore⟩ := h.bytes
  rw [hmore, List.length_append]
  exact Nat.le_add_right _ _

theorem Grown.getElem? (h : w.Grown t) {i : ℕ} (hi : i < w.bytes.length) :
    t.bytes[i]? = w.bytes[i]? := by
  obtain ⟨more, hmore⟩ := h.bytes
  rw [hmore, List.getElem?_append_left hi]

/-- A `BUF_MEM` has room for the bytes behind its growth. -/
theorem reserveGrow_post (len : ℕ) (moved : Option ℕ) (w : Writer) :
    Prog.Post (reserveGrow len moved)
      (fun _ t => w.Grown t ∧ (w.pkt.isStatic = false → w.pkt.written ≤ w.bytes.length →
        w.pkt.written + len ≤ sizeMax → w.pkt.written + len ≤ t.bytes.length))
      (fun _ _ => True) w := by
  rw [reserveGrow, Prog.post_bind, Prog.post_get, Prog.post_ite]
  refine ⟨fun _ => ?_, fun hroom => ?_⟩
  · unfold bufMemGrow
    cases moved with
    | none => exact trivial
    | some data =>
      refine ⟨⟨rfl, rfl, rfl, rfl, _, rfl⟩, fun _ hwritten hmax => ?_⟩
      have hnew := le_newlen hwritten hmax
      change _ ≤ (w.bytes ++ List.replicate _ 0).length
      rw [List.length_append, List.length_replicate]
      omega
  · refine ⟨.refl w, fun hstatic hwritten _ => ?_⟩
    have hle : ¬ ((w.bytes.length : ℤ) - w.pkt.written) % 2 ^ 64 < len :=
      fun h => hroom ⟨hstatic, h⟩
    change w.pkt.written + len ≤ w.bytes.length
    omega

/-- Bytes are reserved in the buffer, which has room for them if the macro sees its end. -/
theorem wPacketReserveBytes_post (len : ℕ) (moved : Option ℕ) (w : Writer) :
    Prog.Post (wPacketReserveBytes len moved)
      (fun a t => w.Grown t ∧ a = t.data + w.pkt.curr ∧
        ¬ quicLt ((w.pkt.maxsize : ℤ) - w.pkt.written) len ∧
        (w.pkt.isStatic = false → w.pkt.written ≤ w.bytes.length →
          w.pkt.written + len ≤ sizeMax → w.pkt.written + len ≤ t.bytes.length))
      (fun _ _ => True) w := by
  rw [wPacketReserveBytes, Prog.post_bind, Prog.post_get, Prog.post_bind, Prog.post_ensure]
  refine ⟨fun hcheck => ?_, fun _ => trivial⟩
  rw [Prog.post_bind]
  refine (reserveGrow_post len moved w).mono (fun _ t ⟨hgrown, hroom⟩ => ?_) fun _ _ h => h
  rw [Prog.post_bind, Prog.post_get, Prog.post_pure, hgrown.pkt]
  exact ⟨hgrown, rfl, hcheck, hroom⟩

/-- Bytes were written behind those of the packet. -/
structure Wrote (w : Writer) (len : ℕ) (t : Writer) : Prop where
  /-- The `WPacket`. -/
  pkt : t.pkt = { w.pkt with written := w.pkt.written + len, curr := w.pkt.curr + len }
  /-- The nodes. -/
  node : t.node = w.node
  /-- The next node. -/
  next : t.next = w.next
  /-- The copies. -/
  tmp : t.tmp = w.tmp
  /-- The buffer does not shrink. -/
  length : w.bytes.length ≤ t.bytes.length
  /-- The bytes of the packet stay. -/
  kept : ∀ i < w.pkt.curr, i < w.bytes.length → t.bytes[i]? = w.bytes[i]?

/-- Room for bytes is allocated. -/
theorem wPacketAllocateBytes_post (len : ℕ) (moved : Option ℕ) (w : Writer) :
    Prog.Post (wPacketAllocateBytes len moved)
      (fun a t => w.Wrote len t ∧ a = t.data + w.pkt.curr ∧
        ¬ quicLt ((w.pkt.maxsize : ℤ) - w.pkt.written) len ∧
        (w.pkt.isStatic = false → w.pkt.written ≤ w.bytes.length →
          w.pkt.written + len ≤ sizeMax → w.pkt.written + len ≤ t.bytes.length))
      (fun _ _ => True) w := by
  rw [wPacketAllocateBytes, Prog.post_bind]
  refine (wPacketReserveBytes_post len moved w).mono (fun a t h => ?_) fun _ _ h => h
  obtain ⟨hgrown, ha, hcheck, hroom⟩ := h
  rw [Prog.post_bind, Prog.post_modify, Prog.post_pure]
  refine ⟨⟨?_, hgrown.node, hgrown.next, hgrown.tmp, hgrown.length_le, ?_⟩, ha, hcheck, hroom⟩
  · rw [hgrown.pkt]
  · exact fun i _ hi => hgrown.getElem? hi

/-- Bytes that are stored lie in the buffer, and the others stay. -/
theorem store_post (address : ℕ) (src : List UInt8) (w : Writer) :
    Prog.Post (store address src)
      (fun _ t => t = { w with bytes := t.bytes } ∧ t.bytes.length = w.bytes.length ∧
        (src ≠ [] → address + src.length ≤ w.data + w.bytes.length) ∧
        ∀ i, i + w.data < address → t.bytes[i]? = w.bytes[i]?)
      (fun _ _ => True) w := by
  unfold Prog.Post store
  split_ifs with hempty hin
  · exact ⟨rfl, rfl, fun h => absurd hempty h, fun _ _ => rfl⟩
  · refine ⟨rfl, Bytes.overwrite_length _ _ _, fun _ => hin.2, fun i hi => ?_⟩
    exact Bytes.getElem?_overwrite_of_not_mem (.inl (by omega))
  · trivial

/-- Allocated bytes are filled. -/
theorem wPacketFill_post (content : List UInt8) (moved : Option ℕ) (w : Writer)
    (hcurr : w.pkt.curr ≤ w.bytes.length) :
    Prog.Post (wPacketFill content moved)
      (fun _ t => w.Wrote content.length t ∧ w.pkt.curr + content.length ≤ t.bytes.length)
      (fun _ _ => True) w := by
  rw [wPacketFill, Prog.post_bind]
  refine (wPacketAllocateBytes_post _ moved w).mono (fun a u h => ?_) fun _ _ h => h
  obtain ⟨hwrote, rfl, -⟩ := h
  refine (store_post _ content u).mono (fun _ t h => ?_) fun _ _ h => h
  obtain ⟨ht, hlength, hin, hkept⟩ := h
  rw [ht]
  refine ⟨⟨hwrote.pkt, hwrote.node, hwrote.next, hwrote.tmp, ?_, fun i hi hlt => ?_⟩, ?_⟩
  · exact hwrote.length.trans hlength.ge
  · exact (hkept i (by omega)).trans (hwrote.kept i hi hlt)
  · change _ ≤ t.bytes.length
    have hold := hwrote.length
    cases content with
    | nil =>
      rw [List.length_nil]
      omega
    | cons c content =>
      have hstop := hin (List.cons_ne_nil _ _)
      omega

/-- `WPacketMemcpy`. -/
theorem wPacketMemcpy_post (src : List UInt8) (moved : Option ℕ) (w : Writer)
    (hcurr : w.pkt.curr ≤ w.bytes.length) :
    Prog.Post (wPacketMemcpy src moved)
      (fun _ t => w.Wrote src.length t ∧ w.pkt.curr + src.length ≤ t.bytes.length)
      (fun _ _ => True) w := by
  rw [wPacketMemcpy, Prog.post_ite]
  refine ⟨fun hempty => ?_, fun _ => wPacketFill_post src moved w hcurr⟩
  rw [hempty]
  exact ⟨⟨rfl, rfl, rfl, rfl, le_refl _, fun _ _ _ => rfl⟩, hcurr⟩

/-- `WPacketPutBytes`. -/
theorem wPacketPutBytes_post (val size : ℕ) (moved : Option ℕ) (w : Writer)
    (hcurr : w.pkt.curr ≤ w.bytes.length) :
    Prog.Post (wPacketPutBytes val size moved)
      (fun _ t => w.Wrote size t ∧ w.pkt.curr + size ≤ t.bytes.length)
      (fun _ _ => True) w := by
  have hfill := wPacketFill_post (Bytes.ofNat size val) moved w hcurr
  rw [wPacketFill, Bytes.ofNat_length, Prog.post_bind] at hfill
  rw [wPacketPutBytes, Prog.post_bind]
  refine hfill.mono (fun a t h => ?_) fun _ _ h => h
  rw [wPacketPutValue, Prog.post_bind]
  refine h.mono (fun _ u hu => ?_) fun _ _ h => h
  rw [Prog.post_ensure]
  exact ⟨fun _ => hu, fun _ => trivial⟩

/-- A node is linked for a sub-packet that is started, with the address of its length field. -/
theorem wPacketStartSubBytes_post (len : ℕ) (moved : Option ℕ) (w : Writer) :
    Prog.Post (wPacketStartSubBytes len moved)
      (fun _ t => ¬ quicLt ((w.pkt.maxsize : ℤ) - w.pkt.written) len ∧
        t.pkt = { w.pkt with
          written := w.pkt.written + len, curr := w.pkt.curr + len, subs := some w.next } ∧
        t.node = Function.update w.node w.next
          (some ⟨w.pkt.subs, t.data + w.pkt.curr, len⟩) ∧
        t.next = w.next + 1 ∧ t.tmp = w.tmp ∧ w.bytes.length ≤ t.bytes.length ∧
        (∀ i < w.pkt.curr, i < w.bytes.length → t.bytes[i]? = w.bytes[i]?) ∧
        (w.pkt.isStatic = false → w.pkt.written ≤ w.bytes.length →
          w.pkt.written + len ≤ sizeMax → w.pkt.written + len ≤ t.bytes.length))
      (fun _ _ => True) w := by
  rw [wPacketStartSubBytes, Prog.post_bind, Prog.post_get]
  dsimp only
  rw [Prog.post_bind, Prog.post_modify, Prog.post_bind]
  refine (wPacketAllocateBytes_post len moved _).mono (fun a t h => ?_) fun _ _ h => h
  obtain ⟨hwrote, rfl, hcheck, hroom⟩ := h
  rw [Prog.post_modify]
  refine ⟨hcheck, hwrote.pkt, ?_, hwrote.next, hwrote.tmp, hwrote.length, hwrote.kept, hroom⟩
  change Function.update t.node w.next _ = _
  rw [hwrote.node]
  exact Function.update_idem _ _ _

end Writer

end Tbquic
