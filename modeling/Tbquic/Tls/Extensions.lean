import Mathlib.Data.List.Basic
import Tbquic.Tls.Reading

/-!
# Blocks of extensions

A block is a sequence of extensions, each with a type, a length and a body. `TlsParseExtensions`
reads the block again for each type that it knows, and calls the parser of the type with the body.
-/

namespace Tbquic

/-- `type` and `context` of an entry of the table. -/
structure ExtKind where
  /-- The type of the extension. -/
  type : ℕ
  /-- The messages that the extension applies to. -/
  context : ℕ
  deriving DecidableEq, Repr

/-- `TlsExtParse`. -/
structure TlsExtParse (τ : Type) extends ExtKind where
  /-- Parse the body. -/
  parse : TlsInput → Prog Fail τ Unit

/-- `TlsShouldParseExtension`. -/
def tlsShouldParseExtension (extctx thisctx : ℕ) : Bool := extctx &&& thisctx ≠ 0

/-- What `TlsParseExtensions` works on. -/
structure TlsExtState (τ : Type) where
  /-- The connection. -/
  host : τ
  /-- The message behind what was read. -/
  pkt : RPacket
  /-- The calls of parsers, by their places in the table. No routine reads them. -/
  calls : List (ℕ × TlsInput)

namespace TlsExtState

variable {τ α : Type}

/-- Run a parser. -/
def onHost (m : Prog Fail τ α) : Prog Fail (TlsExtState τ) α :=
  Prog.zoom TlsExtState.host (fun host s => { s with host }) m

/-- Run an operation on the message. -/
def onPkt (m : Prog Fail RPacket α) : Prog Fail (TlsExtState τ) α :=
  Prog.zoom TlsExtState.pkt (fun pkt s => { s with pkt }) m

/-- A parser is called. -/
def record (call : ℕ × TlsInput) (s : TlsExtState τ) : TlsExtState τ :=
  { s with calls := s.calls ++ [call] }

end TlsExtState

/-- `RPacketBufInit` on `len` bytes at the read position, and `RPacketHeadSet`, with the memory
behind the message. -/
def extData (behind : List UInt8) (pkt : RPacket) (len : ℕ) : TlsInput where
  past := pkt.past
  rest := (pkt.rest ++ behind).take len
  beyond := len - (pkt.rest ++ behind).length

/-- `TlsExtLenParse`. -/
def tlsExtLenParse : Prog Fail RPacket Unit := do
  let extLen ← rPacketGet2
  let pkt ← Prog.get
  Prog.ensure .ret (pkt.remaining = extLen)

/-- The inner loop of `TlsParseExtensions`. The result is what the parser gets, if the type is
found. Each round reads bytes, so there are no more rounds than bytes. -/
def tlsExtScan (behind : List UInt8) (type : ℕ) : ℕ → Prog Fail RPacket (Option TlsInput)
  | 0 => Prog.fail .fuel
  | fuel + 1 => do
    let tmp ← Prog.get
    if tmp.remaining = 0 then pure none
    else do
      let t ← rPacketGet2
      let len ← rPacketGet2
      if len = 0 then tlsExtScan behind type fuel
      else if t ≠ type then do
        ignoreRet (rPacketPull len)
        tlsExtScan behind type fuel
      else do
        let tmp ← Prog.get
        pure (some (extData behind tmp len))

section Parse

variable {τ : Type}

/-- A round of the outer loop of `TlsParseExtensions`, with the place of the entry. -/
def tlsParseExt (behind : List UInt8) (context i : ℕ) (thisexd : TlsExtParse τ) :
    Prog Fail (TlsExtState τ) Unit :=
  if tlsShouldParseExtension thisexd.context context = false then pure ()
  else do
    let s ← Prog.get
    let found ← Prog.ofExcept (tlsExtScan behind thisexd.type (s.pkt.remaining + 1) s.pkt).1
    match found with
    | none => pure ()
    | some data => do
      Prog.modify (TlsExtState.record (i, data))
      TlsExtState.onHost (thisexd.parse data)

/-- The outer loop of `TlsParseExtensions`, from a place in the table. -/
def tlsParseExts (behind : List UInt8) (context : ℕ) :
    ℕ → List (TlsExtParse τ) → Prog Fail (TlsExtState τ) Unit
  | _, [] => pure ()
  | i, thisexd :: ext => do
    tlsParseExt behind context i thisexd
    tlsParseExts behind context (i + 1) ext

/-- `TlsParseExtensions`, with the memory behind the message. -/
def tlsParseExtensions (behind : List UInt8) (context : ℕ) (ext : List (TlsExtParse τ)) :
    Prog Fail (TlsExtState τ) Unit := do
  TlsExtState.onPkt tlsExtLenParse
  tlsParseExts behind context 0 ext
  let s ← Prog.get
  TlsExtState.onPkt (ignoreRet (rPacketPull s.pkt.remaining))

end Parse

/-- An extension. -/
structure ExtEntry where
  /-- The type. -/
  type : ℕ
  /-- The body. -/
  body : List UInt8
  /-- The type has two bytes. -/
  type_lt : type < 256 ^ 2
  /-- The length has two bytes. -/
  body_lt : body.length < 256 ^ 2

/-- The bytes of an extension. -/
def ExtEntry.wire (e : ExtEntry) : List UInt8 :=
  Bytes.ofNat 2 e.type ++ (Bytes.ofNat 2 e.body.length ++ e.body)

/-- The bytes of some extensions. -/
def extWire (es : List ExtEntry) : List UInt8 := es.flatMap ExtEntry.wire

/-- A block whose length has two bytes. -/
structure ExtBlock where
  /-- The extensions. -/
  entries : List ExtEntry
  /-- The length fits. -/
  length_lt : (extWire entries).length < 256 ^ 2

/-- The bytes of a block with its length. -/
def ExtBlock.bytes (b : ExtBlock) : List UInt8 :=
  Bytes.ofNat 2 (extWire b.entries).length ++ extWire b.entries

section Required

variable {τ : Type}

/-- The parsers do not look at the bytes before the body. -/
def IgnorePast (ext : List (TlsExtParse τ)) : Prop :=
  ∀ p ∈ ext, ∀ past past' rest beyond, p.parse ⟨past, rest, beyond⟩ = p.parse ⟨past', rest, beyond⟩

end Required

/-- The start of an extension as the loop reads it. -/
structure ExtHeader where
  /-- The type. -/
  type : ℕ
  /-- The length. -/
  len : ℕ
  /-- The bytes up to the body. -/
  past : List UInt8
  /-- The bytes behind the length. -/
  rest : List UInt8
  deriving DecidableEq, Repr

/-- What the parser of the type gets. -/
def ExtHeader.data (behind : List UInt8) (h : ExtHeader) : TlsInput :=
  extData behind ⟨h.past, h.rest⟩ h.len

/-- The way of the loop over a block without a parser that stops it, and the bytes that are left.
Behind a body that is not all there, the loop goes on with the body. -/
def extWalk (past : List UInt8) : List UInt8 → List ExtHeader × List UInt8
  | a :: b :: c :: d :: rest =>
    let len := Bytes.toNat [c, d]
    let head := past ++ [a, b, c, d]
    let walk :=
      if len ≤ rest.length then extWalk (head ++ rest.take len) (rest.drop len)
      else extWalk head rest
    (⟨Bytes.toNat [a, b], len, head, rest⟩ :: walk.1, walk.2)
  | left => ([], left)
termination_by bytes => bytes.length
decreasing_by
  · simp only [List.length_drop, List.length_cons]
    omega
  · simp only [List.length_cons]
    omega

/-- The first start with a type and a body. -/
def extFind (headers : List ExtHeader) (type : ℕ) : Option ExtHeader :=
  headers.find? fun h => h.type = type ∧ h.len ≠ 0

/-- What the loop finds. -/
def extFound (behind past block : List UInt8) (type : ℕ) : Except Fail (Option TlsInput) :=
  match extFind (extWalk past block).1 type with
  | some h => .ok (some (h.data behind))
  | none => if (extWalk past block).2 = [] then .ok none else .error .ret

section Scan

variable {behind : List UInt8} {type : ℕ}

/-- The first four bytes of an extension. -/
theorem rPacketGet2_two (past : List UInt8) (a b : UInt8) {rest : List UInt8}
    (hrest : rest.length < 2 ^ 31) :
    rPacketGet2 ⟨past, a :: b :: rest⟩ = (.ok (Bytes.toNat [a, b]), ⟨past ++ [a, b], rest⟩) := by
  have h := rPacketGetBytes_append past [a, b] hrest
  rw [rPacketGet2, rPacketGetData]
  exact Prog.bind_of_ok h

/-- Fewer than two bytes are not read. -/
theorem rPacketGet2_of_short (past : List UInt8) {left : List UInt8} (hleft : left.length < 2) :
    rPacketGet2 ⟨past, left⟩ = (.error .ret, ⟨past, left⟩) := by
  have hcheck : quicLt left.length (2 : ℕ) := by
    rw [quicLt_iff] <;> omega
  have h := rPacketGetBytes_of_short past hleft
  rw [if_pos hcheck] at h
  rw [rPacketGet2, rPacketGetData]
  exact Prog.bind_of_error h

/-- The way ends with fewer than four bytes. -/
theorem extWalk_of_short (past : List UInt8) {left : List UInt8} (hleft : left.length < 4) :
    extWalk past left = ([], left) := by
  rw [extWalk]
  rintro a b c d rest rfl
  simp only [List.length_cons] at hleft
  omega

/-- What is skipped behind a length. -/
theorem ignoreRet_rPacketPull (past : List UInt8) {rest : List UInt8} {len : ℕ}
    (hrest : rest.length < 2 ^ 31) (hlen : len < 2 ^ 31) :
    ignoreRet (rPacketPull len) ⟨past, rest⟩ =
      (.ok (), if len ≤ rest.length then ⟨past ++ rest.take len, rest.drop len⟩
        else ⟨past, rest⟩) := by
  by_cases hle : len ≤ rest.length
  · have hpull := @rPacketPull_append past (rest.take len) (rest.drop len)
      (by rw [List.length_drop]; omega)
    rw [List.take_append_drop, List.length_take, min_eq_left hle] at hpull
    rw [ignoreRet, Prog.attempt_bind, hpull, if_pos hle]
    rfl
  · have hcheck : quicLt rest.length len := by
      rw [quicLt_iff] <;> omega
    have hpull : rPacketPull len ⟨past, rest⟩ = (.error .ret, ⟨past, rest⟩) := by
      rw [rPacketPull]
      exact Prog.bind_of_error (if_pos hcheck)
    rw [ignoreRet, Prog.attempt_bind, hpull, if_neg hle]
    rfl

/-- The loop finds what its way over the block shows. -/
theorem tlsExtScan_eq {fuel : ℕ} {past block : List UInt8} (hfuel : block.length < fuel)
    (hsize : block.length < 2 ^ 31) :
    (tlsExtScan behind type fuel ⟨past, block⟩).1 = extFound behind past block type := by
  induction fuel generalizing past block with
  | zero => exact absurd hfuel (Nat.not_lt_zero _)
  | succ fuel ih =>
    rw [tlsExtScan, Prog.get_bind, RPacket.remaining]
    dsimp only
    rcases block with _ | ⟨a, _ | ⟨b, _ | ⟨c, _ | ⟨d, rest⟩⟩⟩⟩
    · rw [extFound, extWalk_of_short past (by decide)]
      rfl
    · rw [extFound, extWalk_of_short past (by simp), if_neg (by simp),
        Prog.bind_of_error (rPacketGet2_of_short past (by simp))]
      rfl
    · rw [extFound, extWalk_of_short past (by simp), if_neg (by simp),
        Prog.bind_of_ok (rPacketGet2_two past a b (by simp)),
        Prog.bind_of_error (rPacketGet2_of_short _ (by simp))]
      rfl
    · rw [extFound, extWalk_of_short past (by simp), if_neg (by simp),
        Prog.bind_of_ok (rPacketGet2_two past a b (by simp)),
        Prog.bind_of_error (rPacketGet2_of_short _ (by simp))]
      rfl
    · simp only [List.length_cons] at hfuel hsize
      have hrest : rest.length < 2 ^ 31 := by omega
      have hlen : Bytes.toNat [c, d] < 2 ^ 31 :=
        (Bytes.toNat_lt [c, d]).trans (by simp)
      have hhead : past ++ [a, b] ++ [c, d] = past ++ [a, b, c, d] := by simp
      rw [if_neg (by simp), Prog.bind_of_ok (rPacketGet2_two past a b (by simp; omega)),
        Prog.bind_of_ok (rPacketGet2_two _ c d hrest), hhead, extFound, extWalk]
      dsimp only [extFind]
      by_cases hzero : Bytes.toNat [c, d] = 0
      · rw [if_pos hzero, ih (by omega) hrest, extFound, hzero, if_pos (Nat.zero_le _),
          List.take_zero, List.append_nil, List.drop_zero, List.find?_cons_of_neg (by simp)]
        rfl
      · rw [if_neg hzero]
        by_cases htype : Bytes.toNat [a, b] = type
        · rw [if_neg (not_not.mpr htype), List.find?_cons_of_pos (by simp [htype, hzero]),
            Prog.get_bind]
          rfl
        · rw [if_pos htype, Prog.bind_of_ok (ignoreRet_rPacketPull _ hrest hlen),
            List.find?_cons_of_neg (by simp [htype])]
          split
          · rw [ih (by rw [List.length_drop]; omega) (by rw [List.length_drop]; omega), extFound]
            rfl
          · rw [ih (by omega) hrest, extFound]
            rfl

/-- The bytes of one extension more. -/
theorem extWire_cons (e : ExtEntry) (es : List ExtEntry) (tail : List UInt8) :
    extWire (e :: es) ++ tail =
      Bytes.ofNat 2 e.type ++
        (Bytes.ofNat 2 e.body.length ++ (e.body ++ (extWire es ++ tail))) := by
  rw [extWire, List.flatMap_cons, ExtEntry.wire]
  simp only [List.append_assoc]
  rfl

/-- The way over an extension. -/
theorem extWalk_cons (past : List UInt8) (e : ExtEntry) (es : List ExtEntry) (tail : List UInt8) :
    ∃ head after, extWalk past (extWire (e :: es) ++ tail) =
      (⟨e.type, e.body.length, head, e.body ++ (extWire es ++ tail)⟩ ::
        (extWalk after (extWire es ++ tail)).1, (extWalk after (extWire es ++ tail)).2) := by
  obtain ⟨a, b, hab⟩ := List.length_eq_two.mp (Bytes.ofNat_length 2 e.type)
  obtain ⟨c, d, hcd⟩ := List.length_eq_two.mp (Bytes.ofNat_length 2 e.body.length)
  have htype : Bytes.toNat [a, b] = e.type := by
    rw [← hab, Bytes.toNat_ofNat_of_lt e.type_lt]
  have hlen : Bytes.toNat [c, d] = e.body.length := by
    rw [← hcd, Bytes.toNat_ofNat_of_lt e.body_lt]
  rw [extWire_cons, hab, hcd]
  simp only [List.cons_append, List.nil_append]
  rw [extWalk, htype, hlen, if_pos (by simp), List.drop_left]
  exact ⟨_, _, rfl⟩

/-- What is found behind extensions of which none has the type and a body. -/
theorem extFound_of_find?_eq_none {es : List ExtEntry} (past tail : List UInt8)
    (h : (es.find? fun e => e.type = type ∧ e.body ≠ []) = none) :
    ∃ after, extFound behind past (extWire es ++ tail) type = extFound behind after tail type := by
  induction es generalizing past with
  | nil => exact ⟨past, rfl⟩
  | cons e es ih =>
    rw [List.find?_cons] at h
    split at h
    next => cases h
    next hnot =>
      obtain ⟨head, mid, hwalk⟩ := extWalk_cons past e es tail
      obtain ⟨after, hafter⟩ := ih mid h
      refine ⟨after, ?_⟩
      rw [← hafter, extFound, extFound, hwalk]
      dsimp only [extFind]
      rw [List.find?_cons_of_neg (by simpa using of_decide_eq_false hnot)]

/-- The first of the extensions that has the type and a body is found. -/
theorem extFound_of_find?_eq_some {es : List ExtEntry} {e : ExtEntry} (past tail : List UInt8)
    (h : (es.find? fun e => e.type = type ∧ e.body ≠ []) = some e) :
    ∃ head, extFound behind past (extWire es ++ tail) type = .ok (some ⟨head, e.body, 0⟩) := by
  induction es generalizing past with
  | nil => cases h
  | cons e' es ih =>
    obtain ⟨head, mid, hwalk⟩ := extWalk_cons past e' es tail
    rw [List.find?_cons] at h
    split at h
    next hyes =>
      cases h
      refine ⟨head, ?_⟩
      rw [extFound, hwalk]
      dsimp only [extFind]
      rw [List.find?_cons_of_pos (by simpa using of_decide_eq_true hyes)]
      simp [ExtHeader.data, extData]
    next hnot =>
      obtain ⟨head', hfound⟩ := ih mid h
      refine ⟨head', ?_⟩
      rw [← hfound, extFound, extFound, hwalk]
      dsimp only [extFind]
      rw [List.find?_cons_of_neg (by simpa using of_decide_eq_false hnot)]

end Scan

section Sound

variable {behind past block : List UInt8} {type : ℕ}

/-- An extension with the type and a body stands behind complete extensions. -/
def Proper (block : List UInt8) (type : ℕ) : Prop :=
  ∃ (es : List ExtEntry) (e : ExtEntry) (more : List UInt8),
    block = extWire es ++ (e.wire ++ more) ∧ e.type = type ∧ e.body ≠ []

/-- When `TlsParseExtensions` does what is required with a block. A block of complete extensions has
a body for each type of the table that it has. In any other block some bytes are left at the end of
the way, and the first type of the table that does not stand properly in the block is not found. -/
def Sound (kinds : List ExtKind) (context : ℕ) (block : List UInt8) : Prop :=
  (∃ es, block = extWire es ∧ ∀ k ∈ kinds, tlsShouldParseExtension k.context context = true →
    k.type ∈ es.map ExtEntry.type → ∃ e ∈ es, e.type = k.type ∧ e.body ≠ []) ∨
  (¬ ∃ es, block = extWire es) ∧ (extWalk [] block).2 ≠ [] ∧
    ∃ before k after, kinds = before ++ k :: after ∧
      tlsShouldParseExtension k.context context = true ∧
      extFind (extWalk [] block).1 k.type = none ∧
      ∀ q ∈ before, tlsShouldParseExtension q.context context = true → Proper block q.type

/-- Extensions one after the other. -/
theorem extWire_append (es es' : List ExtEntry) : extWire (es ++ es') = extWire es ++ extWire es' :=
  List.flatMap_append

/-- The bytes of an extension among others. -/
theorem extWire_split (before after : List ExtEntry) (e : ExtEntry) :
    extWire (before ++ e :: after) = extWire before ++ (e.wire ++ extWire after) := by
  rw [extWire_append]
  rfl

/-- The bytes of extensions determine them. -/
theorem extWire_injective {es es' : List ExtEntry} (h : extWire es = extWire es') : es = es' := by
  have hsplit {e e' : ExtEntry} {xs ys : List UInt8} (h : Bytes.ofNat 2 e.type ++
      (Bytes.ofNat 2 e.body.length ++ (e.body ++ xs)) = Bytes.ofNat 2 e'.type ++
      (Bytes.ofNat 2 e'.body.length ++ (e'.body ++ ys))) : e = e' ∧ xs = ys := by
    obtain ⟨htype, h⟩ := List.append_inj h (by rw [Bytes.ofNat_length, Bytes.ofNat_length])
    obtain ⟨hlen, h⟩ := List.append_inj h (by rw [Bytes.ofNat_length, Bytes.ofNat_length])
    have htype' := congrArg Bytes.toNat htype
    have hlen' := congrArg Bytes.toNat hlen
    rw [Bytes.toNat_ofNat_of_lt e.type_lt, Bytes.toNat_ofNat_of_lt e'.type_lt] at htype'
    rw [Bytes.toNat_ofNat_of_lt e.body_lt, Bytes.toNat_ofNat_of_lt e'.body_lt] at hlen'
    obtain ⟨hbody, hrest⟩ := List.append_inj h hlen'
    refine ⟨?_, hrest⟩
    cases e
    cases e'
    cases htype'
    cases hbody
    rfl
  have hcons (e : ExtEntry) (es : List ExtEntry) : extWire (e :: es) ≠ [] := by
    intro heq
    have hlen := congrArg List.length heq
    rw [← List.append_nil (extWire _), extWire_cons, List.length_append, Bytes.ofNat_length] at hlen
    simp at hlen
  induction es generalizing es' with
  | nil =>
    cases es' with
    | nil => rfl
    | cons e' es' => exact absurd h.symm (hcons e' es')
  | cons e es ih =>
    cases es' with
    | nil => exact absurd h (hcons e es)
    | cons e' es' =>
      rw [← List.append_nil (extWire _), ← List.append_nil (extWire (e' :: es')), extWire_cons,
        extWire_cons, List.append_nil, List.append_nil] at h
      obtain ⟨rfl, hrest⟩ := hsplit h
      rw [ih hrest]

/-- What is found in complete extensions. -/
theorem extFound_extWire (es : List ExtEntry) (past : List UInt8) (type : ℕ) :
    (es.find? (fun e => e.type = type ∧ e.body ≠ []) = none ∧
      extFound behind past (extWire es) type = .ok none) ∨
    ∃ e head, es.find? (fun e => e.type = type ∧ e.body ≠ []) = some e ∧
      extFound behind past (extWire es) type = .ok (some ⟨head, e.body, 0⟩) := by
  rw [← List.append_nil (extWire es)]
  cases hfind : es.find? fun e => e.type = type ∧ e.body ≠ [] with
  | none =>
    obtain ⟨after, hafter⟩ := @extFound_of_find?_eq_none behind type es past [] hfind
    rw [hafter, extFound, extWalk_of_short after (by simp)]
    exact .inl ⟨rfl, rfl⟩
  | some e =>
    obtain ⟨head, hhead⟩ := @extFound_of_find?_eq_some behind type es e past [] hfind
    exact .inr ⟨e, head, rfl, hhead⟩

/-- A type that stands properly in a block is found there. -/
theorem Proper.found (h : Proper block type) (behind past : List UInt8) :
    ∃ (es : List ExtEntry) (e : ExtEntry) (more head : List UInt8),
      block = extWire es ++ (e.wire ++ more) ∧ e.type = type ∧
        extFound behind past block type = .ok (some ⟨head, e.body, 0⟩) := by
  obtain ⟨es, e, more, rfl, rfl, hbody⟩ := h
  have hblock : extWire es ++ (e.wire ++ more) = extWire (es ++ [e]) ++ more := by
    rw [extWire_split, List.append_assoc, List.append_assoc]
    rfl
  have hsome : ((es ++ [e]).find? fun e' => e'.type = e.type ∧ e'.body ≠ []).isSome := by
    rw [List.find?_isSome]
    exact ⟨e, List.mem_append_right _ (List.mem_singleton.mpr rfl), decide_eq_true ⟨rfl, hbody⟩⟩
  obtain ⟨e', hfind⟩ := Option.isSome_iff_exists.mp hsome
  obtain ⟨head, hhead⟩ := @extFound_of_find?_eq_some behind e.type _ e' past more hfind
  have hpred := List.find?_some hfind
  have htype := (of_decide_eq_true hpred).1
  obtain ⟨before, after, hsplit⟩ := List.append_of_mem (List.mem_of_find?_eq_some hfind)
  refine ⟨before, e', extWire after ++ more, head, ?_, htype, hblock ▸ hhead⟩
  rw [hblock, hsplit, extWire_split, List.append_assoc, List.append_assoc]

end Sound

end Tbquic
