import Tbquic.Writer.Memory

/-!
# Brackets of a writer

What a sequence of operations on a writer means: a number of bytes, the sub-packets that are open,
the snapshots that may be restored, and the length fields that were closed. No address occurs in it,
but for the one at which the buffer lay when a sub-packet was started.
-/

namespace Tbquic

/-- A length field that was closed. -/
structure LengthField where
  /-- Where its sub-packet was started. -/
  start : ℕ
  /-- The size of the field. -/
  size : ℕ
  /-- The number of bytes written inside the sub-packet. -/
  count : ℕ
  deriving DecidableEq, Repr

/-- The position behind a field. -/
def LengthField.stop (f : LengthField) : ℕ := f.start + f.size

/-- The field stands in a buffer: it holds its number at the place where it was started. -/
def LengthField.StandsIn (bytes : List UInt8) (f : LengthField) : Prop :=
  ∀ i < f.size, bytes[f.start + i]? = (Bytes.ofNat f.size f.count)[i]?

/-- An open bracket: a sub-packet or a snapshot. -/
structure Bracket where
  /-- The address of the buffer behind the start of a sub-packet. A snapshot has none. -/
  base : Option ℕ
  /-- The number of bytes before it. -/
  start : ℕ
  /-- The size of its length field. -/
  size : ℕ
  /-- The fields closed before it. -/
  closed : List LengthField
  deriving DecidableEq, Repr

namespace Bracket

/-- The position behind the length field. -/
def stop (b : Bracket) : ℕ := b.start + b.size

/-- The field when the bracket is closed behind some bytes. -/
def field (b : Bracket) (pos : ℕ) : LengthField := ⟨b.start, b.size, pos - b.stop⟩

/-- The number of bytes inside fits in the field. -/
def Fits (b : Bracket) (pos : ℕ) : Prop := pos - b.stop < 256 ^ b.size

instance (b : Bracket) (pos : ℕ) : Decidable (b.Fits pos) := inferInstanceAs (Decidable (_ < _))

/-- The bracket can be closed by the code: the buffer lies where it lay when the sub-packet was
started, and the number of bytes inside passes the assertion of `WPacketClose`. -/
def Sound (b : Bracket) (data pos : ℕ) : Prop :=
  b.base = some data ∧ pos - b.stop < 2 ^ 64 ∧ quicGe (pos - b.stop : ℕ) 0

instance (b : Bracket) (data pos : ℕ) : Decidable (b.Sound data pos) :=
  inferInstanceAs (Decidable (_ ∧ _ ∧ _))

end Bracket

/-- What was written. -/
structure Outline where
  /-- The number of bytes. -/
  pos : ℕ
  /-- The closed length fields. -/
  closed : List LengthField
  /-- The open brackets, the innermost first. -/
  brackets : List Bracket
  /-- The snapshots that `WPacketForceClose` passed. They cannot be restored. -/
  spent : ℕ
  deriving DecidableEq, Repr

namespace Outline

/-- Nothing was written. -/
def empty : Outline := ⟨0, [], [], 0⟩

/-- Bytes are written. -/
def write (d : Outline) (len : ℕ) : Outline := { d with pos := d.pos + len }

/-- A sub-packet is started. -/
def startSub (d : Outline) (size base : ℕ) : Outline :=
  { d with pos := d.pos + size, brackets := ⟨some base, d.pos, size, d.closed⟩ :: d.brackets }

/-- The innermost bracket, if it is a sub-packet, and the brackets around it. -/
def innermost (d : Outline) : Option (Bracket × List Bracket) :=
  match d.brackets with
  | [] => none
  | b :: rest => if b.base = none then none else some (b, rest)

/-- The innermost sub-packet is closed. -/
def close (d : Outline) (b : Bracket) (rest : List Bracket) : Outline :=
  { d with closed := b.field d.pos :: d.closed, brackets := rest }

/-- A snapshot is taken. -/
def save (d : Outline) : Outline :=
  { d with brackets := ⟨none, d.pos, 0, d.closed⟩ :: d.brackets }

/-- The innermost bracket is a snapshot that is not needed any more. -/
def drop (d : Outline) : Option Outline :=
  match d.brackets with
  | [] => if 0 < d.spent then some { d with spent := d.spent - 1 } else none
  | b :: rest => if b.base = none then some { d with brackets := rest } else none

/-- The innermost snapshot, and the brackets around it. -/
def snapshot : List Bracket → Option (Bracket × List Bracket)
  | [] => none
  | b :: rest => if b.base = none then some (b, rest) else snapshot rest

/-- What was written since the snapshot is dropped. -/
def restore (d : Outline) : Option Outline :=
  (snapshot d.brackets).map fun p =>
    { d with pos := p.1.start, closed := p.1.closed, brackets := p.2 }

/-- The closed fields when all sub-packets are closed, if all numbers fit. -/
def allClosed (pos : ℕ) : List Bracket → List LengthField → Option (List LengthField)
  | [], closed => some closed
  | b :: rest, closed =>
    if b.base = none then allClosed pos rest closed
    else if b.Fits pos then allClosed pos rest (b.field pos :: closed)
    else none

/-- All sub-packets are closed, and the fields are these. -/
def forceClose (d : Outline) (closed : List LengthField) : Outline :=
  { d with
    closed
    brackets := []
    spent := d.spent + (d.brackets.filter (·.base = none)).length }

end Outline

/-- An operation on a writer. Where the buffer may grow, `moved` is the result of `BUF_MEM_grow`. -/
inductive WriterEvent
  /-- `WPacketStartSubBytes`. -/
  | startSub (size : ℕ) (moved : Option ℕ)
  /-- `WPacketPutBytes`. -/
  | put (val size : ℕ) (moved : Option ℕ)
  /-- `WPacketMemcpy`. -/
  | memcpy (src : List UInt8) (moved : Option ℕ)
  /-- `WPacketAllocateBytes`, with what the caller puts there. -/
  | allocate (content : List UInt8) (moved : Option ℕ)
  /-- `WPacketClose`. -/
  | close
  /-- `WPacketForceClose`. -/
  | forceClose
  /-- A snapshot in `TlsConstructExtensions`. -/
  | save
  /-- The snapshot is restored: the extension is not sent. -/
  | restore
  /-- The snapshot is dropped: the extension is sent. -/
  | drop

/-- A writer with what was written. -/
structure Writing where
  /-- The writer. -/
  writer : Writer
  /-- What was written. -/
  outline : Outline

namespace Writing

/-- A new writer. -/
def start (isStatic : Bool) (data : ℕ) (bytes : List UInt8) : Writing :=
  ⟨.init isStatic data bytes, .empty⟩

/-- The state behind an operation that has to succeed. Behind a failure its callers return. -/
def after (r : Except Fail Unit × Writer) (outline : Writer → Outline) : Option Writing :=
  match r with
  | (.ok _, w) => some ⟨w, outline w⟩
  | (.error _, _) => none

/-- The state behind the closing of a sub-packet, which may fail. -/
def afterClose (r : Except Fail Unit × Writer) (d d' : Outline) : Option Writing :=
  match r with
  | (.ok _, w) => some ⟨w, d'⟩
  | (.error .ret, w) => some ⟨w, d⟩
  | (.error _, _) => none

/-- The state behind an operation of a well-bracketed sequence: `WPacketClose` closes the innermost
bracket, unless `WPacketForceClose` has closed all. -/
def step (s : Writing) : WriterEvent → Option Writing
  | .startSub size moved =>
    after (Writer.wPacketStartSubBytes size moved s.writer) fun w => s.outline.startSub size w.data
  | .put val size moved =>
    after (Writer.wPacketPutBytes val size moved s.writer) fun _ => s.outline.write size
  | .memcpy src moved =>
    after (Writer.wPacketMemcpy src moved s.writer) fun _ => s.outline.write src.length
  | .allocate content moved =>
    after (Writer.wPacketFill content moved s.writer) fun _ => s.outline.write content.length
  | .close =>
    match s.outline.innermost with
    | some (b, rest) => afterClose (Writer.wPacketClose s.writer) s.outline (s.outline.close b rest)
    | none =>
      if s.writer.pkt.closed = true ∧ ∀ b ∈ s.outline.brackets, b.base = none then
        after (Writer.wPacketClose s.writer) fun _ => s.outline
      else none
  | .forceClose =>
    (Outline.allClosed s.outline.pos s.outline.brackets s.outline.closed).bind fun closed =>
      after (Writer.wPacketForceClose s.writer) fun _ => s.outline.forceClose closed
  | .save => some ⟨s.writer.saveTmp, s.outline.save⟩
  | .restore => s.outline.restore.map fun d => ⟨s.writer.restoreTmp, d⟩
  | .drop => s.outline.drop.map fun d => ⟨s.writer.dropTmp, d⟩

end Writing

end Tbquic
