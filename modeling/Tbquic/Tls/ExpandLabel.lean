import Tbquic.Tls.Hkdf
import Tbquic.Writer.Memory

/-!
# The info string of HKDF-Expand-Label

`TLS13HkdfExpandLabel` sizes a buffer for the structure `HkdfLabel` and fills it part by part. The
length of the label is stored in a `uint8_t` without a check.
-/

namespace Tbquic

/-- `"tls13 "`. -/
def tls13LabelPrefix : List UInt8 := [0x74, 0x6c, 0x73, 0x31, 0x33, 0x20]

/-- The structure `HkdfLabel` of TLS 1.3, without the start that all labels share. -/
structure HkdfLabel where
  /-- `length`. -/
  length : ℕ
  /-- The label. -/
  label : List UInt8
  /-- `context`. -/
  context : List UInt8
  /-- The length is a 16-bit number. -/
  length_lt : length < 2 ^ 16
  /-- The label with its start has a length of one byte. -/
  label_lt : tls13LabelPrefix.length + label.length < 2 ^ 8
  /-- The context has a length of one byte. -/
  context_lt : context.length < 2 ^ 8

/-- The bytes of the structure. -/
def HkdfLabel.bytes (l : HkdfLabel) : List UInt8 :=
  Bytes.ofNat 2 l.length ++ (Bytes.ofNat 1 (tls13LabelPrefix.length + l.label.length) ++
    (tls13LabelPrefix ++ (l.label ++ (Bytes.ofNat 1 l.context.length ++ l.context))))

/-- The arguments of `TLS13HkdfExpandLabel` that belong to the label. -/
structure LabelCall where
  /-- `label`. -/
  label : List UInt8
  /-- `data`, which may be `NULL`. -/
  data : Option (List UInt8)
  /-- `out_len`. -/
  outLen : ℕ
  /-- The strings are in memory, and a `size_t` holds the length of the structure. -/
  size_lt : 10 + label.length + (data.getD []).length < 2 ^ 64

namespace LabelCall

variable (c : LabelCall)

/-- The context: `NULL` stands for the empty one. -/
def context : List UInt8 := c.data.getD []

/-- `label_vector_len`. -/
def labelVectorLen : ℕ := (tls13LabelPrefix.length + c.label.length) % 2 ^ 8

/-- `buf_len`. -/
def bufLen : ℕ := 2 + 1 + tls13LabelPrefix.length + c.label.length + 1 + c.context.length

/-- The writes of `TLS13HkdfExpandLabel`. `grow` gives the results of `BUF_MEM_grow`, by the number
of the call. -/
def write (grow : ℕ → Option ℕ) : Prog Fail Writer Unit := do
  Writer.bufMemGrow (c.bufLen % 2 ^ 64) (grow 0)
  Writer.wPacketPutBytes (c.outLen % 2 ^ 32) 2 (grow 1)
  Writer.wPacketPutBytes c.labelVectorLen 1 (grow 2)
  Writer.wPacketMemcpy tls13LabelPrefix (grow 3)
  Writer.wPacketMemcpy c.label (grow 4)
  Writer.wPacketPutBytes (c.context.length % 2 ^ 32) 1 (grow 5)
  match c.data with
  | none => pure ()
  | some data => Writer.wPacketMemcpy data (grow 6)

/-- `TLS13HkdfExpandLabel`. The state is the buffer and the memory from `out` on. -/
def tls13HkdfExpandLabel {Ctx : Type} (evp : HmacEvp Ctx) (grow : ℕ → Option ℕ)
    (secret : List UInt8) (fuel : ℕ) : Prog Fail (Writer × Option (List UInt8)) Unit := do
  Prog.onFst (c.write grow)
  let s ← Prog.get
  Prog.onSnd (HkdfLoop.hkdfExpand evp secret s.1.bytes c.outLen fuel)

/-- The bytes that are written. -/
def wire : List UInt8 :=
  Bytes.ofNat 2 (c.outLen % 2 ^ 32) ++ (Bytes.ofNat 1 c.labelVectorLen ++ (tls13LabelPrefix ++
    (c.label ++ (Bytes.ofNat 1 (c.context.length % 2 ^ 32) ++ c.context))))

/-- A write is refused: there is no room as the macro sees it, or the length of the context has
more than one byte in its lower half. -/
def Refused : Prop :=
  (c.label ≠ [] ∧ quicLt 65526 c.label.length) ∨
    quicLt (65526 - c.label.length) 1 ∨
    2 ^ 8 ≤ c.context.length % 2 ^ 32 ∨
    (c.context ≠ [] ∧ quicLt (65525 - c.label.length) c.context.length)

end LabelCall

namespace Writer

variable {w : Writer} {before room content : List UInt8} {moved : Option ℕ}

/-- A writer on a `BUF_MEM` that holds some bytes and has room behind them. -/
structure Holds (w : Writer) (before room : List UInt8) : Prop where
  /-- The buffer may grow. -/
  isStatic : w.pkt.isStatic = false
  /-- The greatest number of bytes. -/
  maxsize : w.pkt.maxsize = wPacketBufMaxLen
  /-- The position behind the bytes. -/
  curr : w.pkt.curr = before.length
  /-- The number of bytes. -/
  written : w.pkt.written = before.length
  /-- The buffer. -/
  bytes : w.bytes = before ++ room
  /-- Its length is a `size_t`. -/
  length_lt : (before ++ room).length < 2 ^ 64

/-- Bytes for which there is room are written, unless the macro refuses them. -/
theorem Holds.fill (h : w.Holds before room) (hroom : content.length ≤ room.length) :
    Prog.Decides .ret (quicLt ((wPacketBufMaxLen : ℤ) - before.length) content.length)
      (wPacketFill content moved)
      (fun t => t.Holds (before ++ content) (room.drop content.length)) w := by
  have hlength : (before ++ room).length = before.length + room.length := List.length_append
  have hlt := h.length_lt
  have hstay : ¬ (w.pkt.isStatic = false ∧
      ((w.bytes.length : ℤ) - w.pkt.written) % 2 ^ 64 < content.length) := by
    rintro ⟨-, hless⟩
    rw [h.bytes, h.written] at hless
    omega
  rw [Prog.Decides, Prog.Post, wPacketFill, wPacketAllocateBytes, wPacketReserveBytes,
    Prog.bind_assoc, Prog.bind_assoc, Prog.get_bind, h.maxsize, h.written]
  by_cases hcheck : quicLt ((wPacketBufMaxLen : ℤ) - before.length) content.length
  · rw [Prog.ensure_of_neg (not_not.mpr hcheck), Prog.fail_bind, Prog.fail_bind]
    exact ⟨rfl, hcheck⟩
  · have hsplit : w.bytes = before ++ room.take content.length ++ room.drop content.length := by
      rw [List.append_assoc, List.take_append_drop, h.bytes]
    have hsame : content.length = (room.take content.length).length := by
      rw [List.length_take, Nat.min_eq_left hroom]
    have hover : Bytes.overwrite w.bytes w.pkt.curr content =
        before ++ content ++ room.drop content.length := by
      rw [hsplit, h.curr]
      exact Bytes.overwrite_append _ hsame
    have hstore (u : Writer) (hu : u = { w with
        pkt.written := w.pkt.written + content.length, pkt.curr := w.pkt.curr + content.length }) :
        store (w.data + w.pkt.curr) content u =
          (.ok (), { u with bytes := before ++ content ++ room.drop content.length }) := by
      subst hu
      rw [store]
      dsimp only
      by_cases hnil : content = []
      · rw [if_pos hnil, hnil, List.append_nil, List.length_nil, List.drop_zero, ← h.bytes]
      · rw [if_neg hnil, if_pos, Nat.add_sub_cancel_left, hover]
        rw [h.bytes, h.curr]
        omega
    rw [Prog.ensure_of_pos hcheck, Prog.pure_bind, Prog.bind_assoc, reserveGrow, Prog.bind_assoc,
      Prog.get_bind, if_neg hstay, Prog.pure_bind, Prog.bind_assoc, Prog.get_bind, Prog.pure_bind,
      Prog.bind_assoc, Prog.modify_bind, Prog.pure_bind, hstore _ rfl]
    refine ⟨⟨h.isStatic, h.maxsize, ?_, ?_, rfl, ?_⟩, hcheck⟩
    · rw [List.length_append, ← h.curr]
    · rw [List.length_append, ← h.written]
    · rw [List.length_append, List.length_append, List.length_drop]
      omega

/-- A number for which there is room is stored, unless it has more bytes than its field. -/
theorem Holds.putBytes (h : w.Holds before room) {val size : ℕ} (hroom : size ≤ room.length) :
    Prog.Decides .ret
      (quicLt ((wPacketBufMaxLen : ℤ) - before.length) size ∨ val / 256 ^ size ≠ 0)
      (wPacketPutBytes val size moved)
      (fun t => t.Holds (before ++ Bytes.ofNat size val) (room.drop size)) w := by
  have hlen : (Bytes.ofNat size val).length = size := Bytes.ofNat_length _ _
  have heq : wPacketPutBytes val size moved =
      wPacketFill (Bytes.ofNat size val) moved >>= fun _ =>
        Prog.ensure .ret (val / 256 ^ size = 0) := by
    rw [wPacketPutBytes, wPacketFill, hlen, Prog.bind_assoc]
    rfl
  have hfill := @Holds.fill w before room (Bytes.ofNat size val) moved h (hlen.trans_le hroom)
  rw [hlen] at hfill
  rw [heq]
  refine hfill.bind fun t ht => ?_
  rw [Prog.Decides, Prog.post_ensure]
  exact ⟨fun hval => ⟨ht, not_not.mpr hval⟩, fun hval => ⟨rfl, hval⟩⟩

/-- A string for which there is room is copied. -/
theorem Holds.memcpy (h : w.Holds before room) (hroom : content.length ≤ room.length) :
    Prog.Decides .ret
      (content ≠ [] ∧ quicLt ((wPacketBufMaxLen : ℤ) - before.length) content.length)
      (wPacketMemcpy content moved)
      (fun t => t.Holds (before ++ content) (room.drop content.length)) w := by
  rw [wPacketMemcpy]
  by_cases hnil : content = []
  · rw [if_pos (List.length_eq_zero_iff.mpr hnil), Prog.Decides, Prog.post_pure, hnil,
      List.append_nil]
    exact ⟨h, fun hne => hne.1 rfl⟩
  · rw [if_neg fun hzero => hnil (List.length_eq_zero_iff.mp hzero)]
    exact (h.fill hroom).imp (and_iff_right hnil).symm fun _ ht => ht

end Writer

namespace LabelCall

variable {c : LabelCall} {grow : ℕ → Option ℕ}

/-- The parts fill the buffer, unless a write is refused. -/
theorem write_decides (c : LabelCall) (grow : ℕ → Option ℕ) :
    Prog.Decides .ret (grow 0 = none ∨ 2 ^ 16 ≤ c.outLen % 2 ^ 32 ∨ c.Refused) (c.write grow)
      (fun t => t.bytes = c.wire) (Writer.init false 0 []) := by
  have hsize := c.size_lt
  have hprefix : tls13LabelPrefix.length = 6 := rfl
  have hlen : c.bufLen = 10 + c.label.length + c.context.length := by
    rw [bufLen, hprefix]
    omega
  have hctx : c.context.length = (c.data.getD []).length := rfl
  have hlt : c.bufLen < 2 ^ 64 := by omega
  rw [write, Nat.mod_eq_of_lt hlt]
  have hgrow : Prog.Decides .ret (grow 0 = none) (Writer.bufMemGrow c.bufLen (grow 0))
      (fun t => t.Holds [] (List.replicate c.bufLen 0)) (Writer.init false 0 []) := by
    cases hgrow : grow 0 with
    | none => exact ⟨rfl, rfl⟩
    | some data =>
      refine ⟨⟨rfl, rfl, rfl, rfl, rfl, ?_⟩, Option.some_ne_none data⟩
      rwa [List.nil_append, List.length_replicate]
  have hdata (t : Writer) {before room : List UInt8} (ht : t.Holds before room)
      (hroom : c.context.length ≤ room.length) :
      Prog.Decides .ret
        (c.context ≠ [] ∧ quicLt ((wPacketBufMaxLen : ℤ) - before.length) c.context.length)
        (match c.data with
          | none => pure ()
          | some data => Writer.wPacketMemcpy data (grow 6))
        (fun t => t.Holds (before ++ c.context) (room.drop c.context.length)) t := by
    rw [context] at hroom ⊢
    cases hdata : c.data with
    | none =>
      rw [Prog.Decides, Prog.post_pure, Option.getD_none, List.append_nil]
      exact ⟨ht, fun hne => hne.1 rfl⟩
    | some data =>
      rw [hdata, Option.getD_some] at hroom
      exact ht.memcpy hroom
  refine (hgrow.bind fun t₀ h₀ => (h₀.putBytes ?_).bind fun t₁ h₁ => (h₁.putBytes ?_).bind
    fun t₂ h₂ => (h₂.memcpy ?_).bind fun t₃ h₃ => (h₃.memcpy ?_).bind fun t₄ h₄ =>
    (h₄.putBytes ?_).bind fun t₅ h₅ => hdata t₅ h₅ ?_).imp ?_ ?_
  iterate 6
    simp only [List.length_drop, List.length_replicate, hprefix]
    omega
  · simp only [List.length_append, List.length_nil, Bytes.ofNat_length, hprefix]
    have hput : ¬ quicLt ((wPacketBufMaxLen : ℤ) - (0 : ℕ)) (2 : ℕ) := by decide
    have hput₂ : ¬ quicLt ((wPacketBufMaxLen : ℤ) - (0 + 2 : ℕ)) 1 := by decide
    have hput₃ : ¬ quicLt ((wPacketBufMaxLen : ℤ) - (0 + 2 + 1 : ℕ)) (6 : ℕ) := by decide
    have hlabel : (wPacketBufMaxLen : ℤ) - (0 + 2 + 1 + 6 : ℕ) = 65526 := rfl
    have hput₅ : (wPacketBufMaxLen : ℤ) - (0 + 2 + 1 + 6 + c.label.length : ℕ) =
        65526 - c.label.length := by
      rw [← hlabel]
      omega
    have hcontext : (wPacketBufMaxLen : ℤ) - (0 + 2 + 1 + 6 + c.label.length + 1 : ℕ) =
        65525 - c.label.length := by
      omega
    have hout : c.outLen % 2 ^ 32 / 256 ^ 2 ≠ 0 ↔ 2 ^ 16 ≤ c.outLen % 2 ^ 32 := by omega
    have hvector : c.labelVectorLen / 256 ^ 1 = 0 := by
      unfold labelVectorLen
      omega
    have hbyte : c.context.length % 2 ^ 32 / 256 ^ 1 ≠ 0 ↔ 2 ^ 8 ≤ c.context.length % 2 ^ 32 := by
      omega
    rw [hlabel, hput₅, hcontext, hout, hvector, hbyte, Refused]
    simp only [hput, hput₂, hput₃, false_or, ne_eq, not_true_eq_false, and_false, or_assoc,
      Nat.cast_one]
  · intro t ht
    rw [ht.bytes, List.drop_of_length_le, List.append_nil, wire]
    · simp only [List.nil_append, List.append_assoc]
    · simp only [List.length_drop, List.length_replicate, hprefix]
      omega

/-- A run of the function with `NULL` or some memory for the output, from an empty buffer. -/
def run {Ctx : Type} (c : LabelCall) (evp : HmacEvp Ctx) (grow : ℕ → Option ℕ)
    (secret : List UInt8) (fuel : ℕ) (out : Option (List UInt8)) :
    Except Fail Unit × Writer × Option (List UInt8) :=
  c.tls13HkdfExpandLabel evp grow secret fuel (Writer.init false 0 [], out)

/-- A run that does not return an error has expanded with an info string. -/
def ExpandsWith {Ctx : Type} (c : LabelCall) (evp : HmacEvp Ctx) (info : List UInt8) : Prop :=
  ∃ grow secret fuel out, (c.run evp grow secret fuel out).1 ≠ .error .ret ∧
    (c.run evp grow secret fuel out).2.1.bytes = info

/-- The function returns an error, or it expands with the structure of its arguments, which no
other arguments expand with. -/
structure EncodesLabel {Ctx : Type} (c : LabelCall) (evp : HmacEvp Ctx) (grow : ℕ → Option ℕ)
    (secret : List UInt8) : Prop where
  /-- The info string is the structure. -/
  exact (fuel : ℕ) (out : Option (List UInt8)) :
    (c.run evp grow secret fuel out).1 ≠ .error .ret →
    ∃ l : HkdfLabel, (l.length, l.label, l.context) = (c.outLen, c.label, c.context) ∧
      (c.run evp grow secret fuel out).2.1.bytes = l.bytes
  /-- Other arguments give another one. -/
  distinct (fuel : ℕ) (out : Option (List UInt8)) (other : LabelCall) :
    (c.run evp grow secret fuel out).1 ≠ .error .ret →
    other.ExpandsWith evp (c.run evp grow secret fuel out).2.1.bytes →
    (other.outLen, other.label, other.context) = (c.outLen, c.label, c.context)

section Run

variable {Ctx : Type} {evp : HmacEvp Ctx} {secret : List UInt8} {fuel : ℕ}
  {out : Option (List UInt8)}

/-- A run whose writes are refused returns an error. -/
theorem run_of_refused (h : grow 0 = none ∨ 2 ^ 16 ≤ c.outLen % 2 ^ 32 ∨ c.Refused) :
    (c.run evp grow secret fuel out).1 = .error .ret := by
  have herror := (write_decides c grow).eq_error h
  rcases hw : c.write grow (Writer.init false 0 []) with ⟨r, t⟩
  rw [hw] at herror
  dsimp only at herror
  subst herror
  have hfst : Prog.onFst (c.write grow) (Writer.init false 0 [], out) =
      (.error .ret, (t, out)) := by
    rw [Prog.onFst_apply, hw]
  rw [run, tls13HkdfExpandLabel, Prog.bind_of_error hfst]

/-- Behind its writes the function expands with what was written. -/
theorem run_of_not_refused (h : ¬ (grow 0 = none ∨ 2 ^ 16 ≤ c.outLen % 2 ^ 32 ∨ c.Refused)) :
    ∃ t : Writer, t.bytes = c.wire ∧ c.run evp grow secret fuel out =
      ((HkdfLoop.hkdfExpand evp secret c.wire c.outLen fuel out).1, t,
        (HkdfLoop.hkdfExpand evp secret c.wire c.outLen fuel out).2) := by
  obtain ⟨t, ht, hbytes⟩ := (write_decides c grow).exists_ok h
  refine ⟨t, hbytes, ?_⟩
  rw [run, tls13HkdfExpandLabel, Prog.onFst_bind_of_ok ht, Prog.get_bind, Prog.onSnd_apply, hbytes]

/-- A run that does not return an error has written its arguments, and the output is not too
long. -/
theorem wire_of_run {h : KeyedHash} (hevp : evp.size = h.size)
    (hrun : (c.run evp grow secret fuel out).1 ≠ .error .ret) :
    (c.run evp grow secret fuel out).2.1.bytes = c.wire ∧ grow 0 ≠ none ∧ ¬ c.Refused ∧
      c.outLen ≤ 255 * h.size := by
  by_cases hwrite : grow 0 = none ∨ 2 ^ 16 ≤ c.outLen % 2 ^ 32 ∨ c.Refused
  · exact absurd (run_of_refused hwrite) hrun
  · obtain ⟨t, hbytes, hexpand⟩ :=
      @run_of_not_refused c grow Ctx evp secret fuel out hwrite
    rw [hexpand]
    refine ⟨hbytes, fun h => hwrite (.inl h), fun h => hwrite (.inr (.inr h)), ?_⟩
    rw [hexpand] at hrun
    by_contra hlong
    have hmany : 255 < HkdfLoop.blockNum evp c.outLen := by
      have hnum : HkdfLoop.blockNum evp c.outLen = Hkdf.blockCount h c.outLen := by
        rw [HkdfLoop.blockNum, hevp, Hkdf.blockCount]
      rw [hnum]
      exact lt_of_not_ge fun hle => hlong (Hkdf.blockCount_le_iff.mp hle)
    cases out with
    | none => exact hrun rfl
    | some okm => exact hrun (congrArg Prod.fst (HkdfLoop.hkdfExpand_of_many hmany fuel okm))

/-- A run that is cut off in front of the first block has not returned an error. -/
theorem run_zero_ne {h : KeyedHash} {isOpen : Ctx → List UInt8 → List UInt8 → Prop}
    {closed : Ctx → List UInt8 → Prop} (hevp : evp.Computes h isOpen closed)
    (hsize : h.size ≤ evpMaxMdSize) (hgrow : grow 0 ≠ none) (hwrite : ¬ c.Refused)
    (hlen : c.outLen ≤ 255 * h.size) :
    (c.run evp grow secret 0 (some [])).1 ≠ .error .ret := by
  have hmax : evpMaxMdSize = 64 := rfl
  have hnot : ¬ (grow 0 = none ∨ 2 ^ 16 ≤ c.outLen % 2 ^ 32 ∨ c.Refused) := by
    rintro (h | h | h)
    · exact hgrow h
    · omega
    · exact hwrite h
  have hnum : HkdfLoop.blockNum evp c.outLen = Hkdf.blockCount h c.outLen := by
    rw [HkdfLoop.blockNum, hevp.size, Hkdf.blockCount]
  have hfew := Hkdf.blockCount_le_iff.mpr hlen
  obtain ⟨ctx, ctx', hnew, hinit, -⟩ := hevp.init secret
  obtain ⟨t, -, hexpand⟩ := @run_of_not_refused c grow Ctx evp secret 0 (some []) hnot
  rw [hexpand, HkdfLoop.hkdfExpand, hnum]
  dsimp only
  rw [if_neg (not_lt.mpr hfew), hnew]
  dsimp only [Option.bind]
  rw [hinit]
  intro hrun
  cases hrun

/-- The bytes determine the arguments as long as their lengths are stored. -/
theorem wire_injective {other : LabelCall} (hlabel : c.label.length ≤ 249)
    (hcontext : c.context.length ≤ 255) (hout : c.outLen < 2 ^ 16) (hother : other.outLen < 2 ^ 16)
    (h : other.wire = c.wire) :
    (other.outLen, other.label, other.context) = (c.outLen, c.label, c.context) := by
  have hlead : tls13LabelPrefix.length = 6 := rfl
  have htotal := congrArg List.length h
  unfold wire at h htotal
  simp only [List.length_append, Bytes.ofNat_length, hlead] at htotal
  obtain ⟨hlen, h⟩ := List.append_inj h (by rw [Bytes.ofNat_length, Bytes.ofNat_length])
  obtain ⟨hvector, h⟩ := List.append_inj h (by rw [Bytes.ofNat_length, Bytes.ofNat_length])
  have hsame : other.label.length = c.label.length := by
    have hnat := congrArg Bytes.toNat hvector
    rw [Bytes.toNat_ofNat, Bytes.toNat_ofNat] at hnat
    unfold labelVectorLen at hnat
    rw [hlead] at hnat
    omega
  obtain ⟨hlabelEq, h⟩ := List.append_inj (List.append_cancel_left h) hsame
  obtain ⟨-, hcontextEq⟩ := List.append_inj h (by rw [Bytes.ofNat_length, Bytes.ofNat_length])
  have houtEq : other.outLen = c.outLen := by
    have hnat := congrArg Bytes.toNat hlen
    rw [Bytes.toNat_ofNat, Bytes.toNat_ofNat] at hnat
    omega
  rw [houtEq, hlabelEq, hcontextEq]

/-- The structure is encoded right when its lengths fit in their fields, or the function refuses
the arguments. -/
theorem encodesLabel_iff {h : KeyedHash} {isOpen : Ctx → List UInt8 → List UInt8 → Prop}
    {closed : Ctx → List UInt8 → Prop} (hevp : evp.Computes h isOpen closed)
    (hsize : h.size ≤ evpMaxMdSize) (c : LabelCall) (grow : ℕ → Option ℕ) (secret : List UInt8) :
    c.EncodesLabel evp grow secret ↔
      (c.label.length ≤ 249 ∧ c.context.length ≤ 255) ∨ grow 0 = none ∨ 255 * h.size < c.outLen ∨
        c.Refused := by
  have hmax : evpMaxMdSize = 64 := rfl
  have hprefix : tls13LabelPrefix.length = 6 := rfl
  constructor
  · intro hright
    by_contra hnot
    simp only [not_or, not_lt] at hnot
    obtain ⟨hlong, hgrow, hlen, hwrite⟩ := hnot
    obtain ⟨l, hl, -⟩ :=
      hright.exact 0 (some []) (run_zero_ne hevp hsize hgrow hwrite hlen)
    simp only [Prod.mk.injEq] at hl
    have hlabel := l.label_lt
    have hcontext := l.context_lt
    rw [hl.2.1, hprefix] at hlabel
    rw [hl.2.2] at hcontext
    exact hlong ⟨by omega, by omega⟩
  · intro hcond
    have hshort {fuel : ℕ} {out : Option (List UInt8)}
        (hrun : (c.run evp grow secret fuel out).1 ≠ .error .ret) :
        (c.run evp grow secret fuel out).2.1.bytes = c.wire ∧ c.label.length ≤ 249 ∧
          c.context.length ≤ 255 ∧ c.outLen < 2 ^ 16 := by
      obtain ⟨hbytes, hgrow, hwrite, hlen⟩ := wire_of_run hevp.size hrun
      rcases hcond with ⟨hlabel, hcontext⟩ | hnone | hlong | hrefused
      · exact ⟨hbytes, hlabel, hcontext, by omega⟩
      · exact absurd hnone hgrow
      · omega
      · exact absurd hrefused hwrite
    refine ⟨fun fuel out hrun => ?_, fun fuel out other hrun hother => ?_⟩
    · obtain ⟨hbytes, hlabel, hcontext, hout⟩ := hshort hrun
      refine ⟨⟨c.outLen, c.label, c.context, hout, by omega, by omega⟩, rfl, ?_⟩
      rw [hbytes, wire, HkdfLabel.bytes, labelVectorLen, Nat.mod_eq_of_lt (by omega),
        Nat.mod_eq_of_lt (by omega), Nat.mod_eq_of_lt (by omega)]
    · obtain ⟨hbytes, hlabel, hcontext, hout⟩ := hshort hrun
      obtain ⟨grow', secret', fuel', out', hrun', hbytes'⟩ := hother
      obtain ⟨hwire', -, -, hlen'⟩ := wire_of_run hevp.size hrun'
      refine wire_injective hlabel hcontext hout (by omega) ?_
      rw [← hwire', hbytes', hbytes]

/-- The label `quic key` with an empty context. -/
def quicKeyCall : LabelCall where
  label := [0x71, 0x75, 0x69, 0x63, 0x20, 0x6b, 0x65, 0x79]
  data := none
  outLen := 16
  size_lt := by decide

/-- The info string of a packet protection key is the structure. -/
theorem encodesLabel_quicKey :
    quicKeyCall.EncodesLabel HkdfLoop.countEvp (fun _ => some 0) [] :=
  (encodesLabel_iff HkdfLoop.countEvp_computes (by decide) quicKeyCall _ []).mpr
    (.inl (by decide))

/-- A label of 250 bytes. -/
def longCall : LabelCall where
  label := List.replicate 250 0x61
  data := none
  outLen := 16
  size_lt := by
    rw [List.length_replicate]
    decide

/-- The length of a label of 250 bytes is stored as 0. -/
theorem not_encodesLabel_long :
    ¬ longCall.EncodesLabel HkdfLoop.countEvp (fun _ => some 0) [] := by
  intro h
  have hlen : longCall.label.length = 250 := List.length_replicate
  have hwrite : ¬ longCall.Refused := by
    unfold Refused
    rw [hlen]
    decide
  have hrun := @run_zero_ne longCall (fun _ => some 0) _ _ [] _ _ _ HkdfLoop.countEvp_computes
    (by decide) (Option.some_ne_none 0) hwrite (by decide)
  obtain ⟨l, hl, -⟩ := h.exact 0 (some []) hrun
  have hlabel := l.label_lt
  simp only [Prod.mk.injEq] at hl
  rw [hl.2.1, hlen] at hlabel
  exact absurd hlabel (by decide)

end Run

section Library

variable (lib : TlsLib) (md : QuicDigest)

/-- The handshake uses the output of the function, where its loop ends. -/
theorem run_of_library {Ctx : Type} {evp : HmacEvp Ctx}
    {isOpen : Ctx → List UInt8 → List UInt8 → Prop} {closed : Ctx → List UInt8 → Prop}
    (hevp : evp.Computes (HkdfLoop.keyedHash lib md) isOpen closed) {secret out : List UInt8}
    {label : String} (hlabel : c.label = tlsLabel label) (hlen : c.outLen ≤ 254 * md.size)
    (hout : Tbquic.tls13HkdfExpandLabel lib md secret label c.context c.outLen = some out)
    (hgrow : grow 0 ≠ none) (hwrite : ¬ c.Refused) {okm : List UInt8} (hokm : c.outLen ≤ okm.length)
    {fuel : ℕ} (hfuel : 255 ≤ fuel) :
    ∃ t, c.run evp grow secret fuel (some okm) = (.ok (), t, some (out ++ okm.drop c.outLen)) := by
  unfold Tbquic.tls13HkdfExpandLabel at hout
  split_ifs at hout with hbounds
  have hnot : ¬ (grow 0 = none ∨ 2 ^ 16 ≤ c.outLen % 2 ^ 32 ∨ c.Refused) := by
    rintro (h | h | h)
    · exact hgrow h
    · omega
    · exact hwrite h
  have hstart : tlsLabel "tls13 " = tls13LabelPrefix := by decide +kernel
  have hwire : c.wire = Bytes.ofNat 2 c.outLen ++ Bytes.ofNat 1 (tls13LabelPrefix ++ c.label).length
      ++ (tls13LabelPrefix ++ c.label) ++ Bytes.ofNat 1 c.context.length ++ c.context := by
    have hvector : Bytes.ofNat 1 c.labelVectorLen =
        Bytes.ofNat 1 (tls13LabelPrefix ++ c.label).length := by
      rw [labelVectorLen, List.length_append]
      exact congrArg (fun b => [b]) UInt8.ofNat_mod_size
    rw [wire, hvector, Nat.mod_eq_of_lt (by omega), Nat.mod_eq_of_lt (by omega)]
    simp only [List.append_assoc]
  obtain ⟨t, -, hexpand⟩ := @run_of_not_refused c grow Ctx evp secret fuel (some okm) hnot
  dsimp only at hout
  rw [hstart, ← hlabel, ← hwire] at hout
  have hloop := HkdfLoop.hkdfExpand_of_library lib md hevp hlen hout hokm hfuel
  exact ⟨t, by rw [hexpand, hloop]⟩

end Library

end LabelCall

end Tbquic
