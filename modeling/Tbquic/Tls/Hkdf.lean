import Tbquic.Lib.Hkdf
import Tbquic.Lib.Loop
import Tbquic.Tls.Library

/-!
# The loop of HKDF-Expand

`HkdfExpand` counts its blocks in a `uint8_t` and compares it with the number of blocks. With 255
blocks the counter wraps around and the loop does not end.
-/

namespace Tbquic

/-- The functions of the cryptographic library on an `HMAC_CTX`, for a digest. -/
structure HmacEvp (Ctx : Type) where
  /-- `EVP_MD_size`. -/
  size : ℕ
  /-- `HMAC_CTX_new`. -/
  new : Option Ctx
  /-- `HMAC_Init_ex` with a key. -/
  init : List UInt8 → Ctx → Option Ctx
  /-- `HMAC_Init_ex` without a key. -/
  restart : Ctx → Option Ctx
  /-- `HMAC_Update`. -/
  update : List UInt8 → Ctx → Option Ctx
  /-- `HMAC_Final`. -/
  final : Ctx → Option (List UInt8 × Ctx)

/-- The local variables of `HkdfExpand` in its loop, with the memory of the output. -/
structure HkdfLoop (Ctx : Type) where
  /-- `hmac`. -/
  ctx : Ctx
  /-- The start of `prev`, as far as `HMAC_Final` wrote it. -/
  prev : List UInt8
  /-- `i`. -/
  i : UInt8
  /-- `done_len`. -/
  doneLen : ℕ
  /-- The memory from `okm` on. -/
  okm : List UInt8

namespace HkdfLoop

variable {Ctx : Type}

/-- A call of the library on the context. -/
def onCtx (f : Ctx → Option Ctx) : Prog Fail (HkdfLoop Ctx) Unit := do
  let s ← Prog.get
  let ctx ← Prog.ofOption .ret (f s.ctx)
  Prog.modify fun s => { s with ctx }

/-- `memcpy` from `prev` to the output. -/
def copy (len : ℕ) : Prog Fail (HkdfLoop Ctx) Unit := do
  let s ← Prog.get
  Prog.ensure .ub (s.doneLen + len ≤ s.okm.length)
  Prog.modify fun s => { s with okm := Bytes.overwrite s.okm s.doneLen (s.prev.take len) }

variable (evp : HmacEvp Ctx) (prk info : List UInt8) (okmLen : ℕ)

/-- The start of an iteration behind the first: `i` is compared with 1. -/
def chain : Prog Fail (HkdfLoop Ctx) Unit := do
  let s ← Prog.get
  if 1 < s.i then do
    onCtx evp.restart
    onCtx (evp.update s.prev)
  else pure ()

/-- An iteration of the loop. -/
def round : Prog Fail (HkdfLoop Ctx) Unit := do
  chain evp
  onCtx (evp.update info)
  let s ← Prog.get
  onCtx (evp.update [s.i])
  let s ← Prog.get
  let (prev, ctx) ← Prog.ofOption .ret (evp.final s.ctx)
  Prog.modify fun s => { s with prev, ctx }
  let copyLen := if okmLen < s.doneLen + evp.size then okmLen - s.doneLen else evp.size
  copy copyLen
  Prog.modify fun s => { s with doneLen := s.doneLen + copyLen, i := s.i + 1 }

/-- `n`, the number of blocks. -/
def blockNum : ℕ := okmLen / evp.size + if okmLen % evp.size = 0 then 0 else 1

/-- `HkdfExpand`. The state is the memory from `okm` on, if `okm` is not `NULL`. -/
def hkdfExpand (fuel : ℕ) : Prog Fail (Option (List UInt8)) Unit := fun memory =>
  let n := blockNum evp okmLen
  match memory with
  | none => (.error .ret, none)
  | some okm =>
    if 255 < n then (.error .ret, some okm)
    else
      match evp.new.bind (evp.init prk) with
      | none => (.error .ret, some okm)
      | some ctx =>
        let run := Prog.repeatUntil .fuel (fun s => decide (n < s.i.toNat)) (round evp info okmLen)
          fuel { ctx, prev := [], i := 1, doneLen := 0, okm }
        (run.1, some run.2.okm)

end HkdfLoop

/-- The library computes a keyed hash. A context is open for more bytes, or closed by
`HMAC_Final` until it is initialised again. -/
structure HmacEvp.Computes {Ctx : Type} (evp : HmacEvp Ctx) (h : KeyedHash)
    (isOpen : Ctx → List UInt8 → List UInt8 → Prop) (closed : Ctx → List UInt8 → Prop) : Prop where
  /-- The size of the digest. -/
  size : evp.size = h.size
  /-- A context is initialised with a key. -/
  init (key : List UInt8) : ∃ ctx ctx', evp.new = some ctx ∧ evp.init key ctx = some ctx' ∧
    isOpen ctx' key []
  /-- A closed context is initialised again with its key. -/
  restart {ctx : Ctx} {key : List UInt8} : closed ctx key →
    ∃ ctx', evp.restart ctx = some ctx' ∧ isOpen ctx' key []
  /-- An open context takes more bytes. -/
  update {ctx : Ctx} {key bytes : List UInt8} (more : List UInt8) : isOpen ctx key bytes →
    ∃ ctx', evp.update more ctx = some ctx' ∧ isOpen ctx' key (bytes ++ more)
  /-- An open context gives the hash of its bytes and is closed. -/
  final {ctx : Ctx} {key bytes : List UInt8} : isOpen ctx key bytes →
    ∃ ctx', evp.final ctx = some (h.hash key bytes, ctx') ∧ closed ctx' key

namespace HkdfLoop

section Expand

variable {Ctx : Type} {evp : HmacEvp Ctx} {h : KeyedHash}
  {isOpen : Ctx → List UInt8 → List UInt8 → Prop} {closed : Ctx → List UInt8 → Prop}
  {prk info : List UInt8} {okmLen : ℕ}

theorem onCtx_of_some {f : Ctx → Option Ctx} {s : HkdfLoop Ctx} {ctx : Ctx}
    (hf : f s.ctx = some ctx) : onCtx f s = (.ok (), { s with ctx }) := by
  rw [onCtx, Prog.get_bind, hf, Prog.ofOption_some, Prog.pure_bind]
  rfl

/-- The loop behind some blocks. -/
structure Stage (isOpen : Ctx → List UInt8 → List UInt8 → Prop) (closed : Ctx → List UInt8 → Prop)
    (h : KeyedHash) (prk info : List UInt8) (okmLen : ℕ) (okm : List UInt8) (k : ℕ)
    (s : HkdfLoop Ctx) : Prop where
  /-- The counter of the next block. -/
  i : s.i = UInt8.ofNat (k + 1)
  /-- The bytes that were written. -/
  doneLen : s.doneLen = min (k * h.size) okmLen
  /-- The last block. -/
  prev : s.prev = Hkdf.block h prk info k
  /-- The output so far, and the bytes behind it. -/
  okm : s.okm = (Hkdf.blocks h prk info k).take okmLen ++ okm.drop (min (k * h.size) okmLen)
  /-- The context. -/
  ctx : if k = 0 then isOpen s.ctx prk [] else closed s.ctx prk

/-- Behind the start of an iteration the context holds the block before. -/
theorem chain_of_stage (hevp : evp.Computes h isOpen closed) {okm : List UInt8} {k : ℕ}
    {s : HkdfLoop Ctx} (hs : Stage isOpen closed h prk info okmLen okm k s) (hk : k < 255) :
    ∃ ctx, chain evp s = (.ok (), { s with ctx }) ∧
      isOpen ctx prk (Hkdf.block h prk info k) := by
  have hi : s.i.toNat = k + 1 := by
    rw [hs.i, UInt8.toNat_ofNat', Nat.mod_eq_of_lt (by omega)]
  have hctx := hs.ctx
  rw [chain, Prog.get_bind]
  by_cases hzero : k = 0
  · have hle : ¬ 1 < s.i := by
      rw [UInt8.lt_iff_toNat_lt, hi, hzero]
      exact Nat.lt_irrefl 1
    rw [if_pos hzero] at hctx
    rw [if_neg hle, hzero]
    exact ⟨s.ctx, rfl, hctx⟩
  · have hlt : 1 < s.i := by
      rw [UInt8.lt_iff_toNat_lt, hi]
      exact Nat.lt_add_of_pos_left (Nat.pos_of_ne_zero hzero)
    rw [if_neg hzero] at hctx
    obtain ⟨ctx, hrestart, hopen⟩ := hevp.restart hctx
    obtain ⟨ctx', hupdate, hopen'⟩ := hevp.update s.prev hopen
    rw [if_pos hlt, Prog.bind_of_ok (onCtx_of_some hrestart)]
    refine ⟨ctx', onCtx_of_some (s := { s with ctx }) hupdate, ?_⟩
    rwa [List.nil_append, hs.prev] at hopen'

/-- An iteration appends a block, the last one as far as it belongs to the output. -/
theorem round_of_stage (hevp : evp.Computes h isOpen closed) {okm : List UInt8}
    (hokm : okmLen ≤ okm.length) {k : ℕ} {s : HkdfLoop Ctx}
    (hs : Stage isOpen closed h prk info okmLen okm k s) (hlt : k < Hkdf.blockCount h okmLen)
    (hk : k < 255) :
    ∃ t, round evp info okmLen s = (.ok (), t) ∧
      Stage isOpen closed h prk info okmLen okm (k + 1) t := by
  obtain ⟨ctx, hchain, hopen⟩ := chain_of_stage hevp hs hk
  obtain ⟨ctx₁, hinfo, hopen₁⟩ := hevp.update info hopen
  obtain ⟨ctx₂, hctr, hopen₂⟩ := hevp.update [s.i] hopen₁
  obtain ⟨ctx₃, hfinal, hclosed⟩ := hevp.final hopen₂
  have hblock : h.hash prk (Hkdf.block h prk info k ++ info ++ [s.i]) =
      Hkdf.block h prk info (k + 1) := by
    rw [hs.i]
    rfl
  rw [hblock] at hfinal
  have hfull : k * h.size < okmLen := Hkdf.lt_of_lt_blockCount hlt
  have hdone : s.doneLen = k * h.size := by
    rw [hs.doneLen, Nat.min_eq_left hfull.le]
  set len := min h.size (okmLen - k * h.size) with hlen
  have hcopyLen : (if okmLen < k * h.size + evp.size then okmLen - k * h.size else evp.size) =
      len := by
    rw [hevp.size]
    split_ifs <;> omega
  have hmem : s.okm = Hkdf.blocks h prk info k ++ okm.drop (k * h.size) := by
    rw [hs.okm, Nat.min_eq_left hfull.le, List.take_of_length_le]
    rw [Hkdf.blocks_length]
    exact hfull.le
  have hroom : k * h.size + len ≤ s.okm.length := by
    rw [hmem, List.length_append, Hkdf.blocks_length, List.length_drop]
    omega
  have hnext : (Hkdf.blocks h prk info (k + 1)).take okmLen =
      Hkdf.blocks h prk info k ++ (Hkdf.block h prk info (k + 1)).take len := by
    have hlast : (Hkdf.block h prk info (k + 1)).take (okmLen - k * h.size) =
        (Hkdf.block h prk info (k + 1)).take len := by
      rw [List.take_eq_take_iff, Hkdf.block_length]
      omega
    rw [Hkdf.blocks, List.take_append, Hkdf.blocks_length, hlast, List.take_of_length_le]
    rw [Hkdf.blocks_length]
    exact hfull.le
  have hstop : min ((k + 1) * h.size) okmLen = k * h.size + len := by
    rw [Nat.succ_mul]
    omega
  have hover : Bytes.overwrite s.okm (k * h.size) ((Hkdf.block h prk info (k + 1)).take len) =
      (Hkdf.blocks h prk info (k + 1)).take okmLen ++ okm.drop (k * h.size + len) := by
    have hsplit := List.take_append_drop len (okm.drop (k * h.size))
    rw [List.drop_drop] at hsplit
    have hsame : ((Hkdf.block h prk info (k + 1)).take len).length =
        ((okm.drop (k * h.size)).take len).length := by
      rw [List.length_take, List.length_take, Hkdf.block_length, List.length_drop]
      omega
    have hwrite := @Bytes.overwrite_append (Hkdf.blocks h prk info k) _ _
      (okm.drop (k * h.size + len)) hsame
    rwa [List.append_assoc, hsplit, Hkdf.blocks_length, ← hmem, ← hnext] at hwrite
  refine ⟨{ ctx := ctx₃, prev := Hkdf.block h prk info (k + 1), i := s.i + 1
            doneLen := k * h.size + len
            okm := (Hkdf.blocks h prk info (k + 1)).take okmLen ++ okm.drop (k * h.size + len) },
    ?_, ?_, hstop.symm, rfl, ?_, ?_⟩
  · have hupdate : onCtx (evp.update info) { s with ctx } = (.ok (), { s with ctx := ctx₁ }) :=
      onCtx_of_some hinfo
    have hupdate' : onCtx (evp.update [s.i]) { s with ctx := ctx₁ } =
        (.ok (), { s with ctx := ctx₂ }) :=
      onCtx_of_some hctr
    rw [round, Prog.bind_of_ok hchain, Prog.bind_of_ok hupdate, Prog.get_bind,
      Prog.bind_of_ok hupdate', Prog.get_bind, hfinal, Prog.ofOption_some, Prog.pure_bind]
    dsimp only
    rw [Prog.modify_bind, hdone, hcopyLen, copy, Prog.bind_assoc, Prog.get_bind,
      Prog.ensure_of_pos hroom, Prog.pure_bind, Prog.modify_bind]
    dsimp only
    rw [hover]
    rfl
  · change s.i + 1 = UInt8.ofNat (k + 1 + 1)
    rw [UInt8.ofNat_add (k + 1) 1, hs.i]
    rfl
  · rw [hstop]
  · rw [if_neg (Nat.succ_ne_zero k)]
    exact hclosed

/-- The loop ends with the output when its counter does not wrap around. -/
theorem hkdfExpand_of_few (hevp : evp.Computes h isOpen closed)
    (hfew : Hkdf.blockCount h okmLen < 255) {okm : List UInt8} (hokm : okmLen ≤ okm.length)
    {fuel : ℕ} (hfuel : 255 ≤ fuel) :
    hkdfExpand evp prk info okmLen fuel (some okm) =
      (.ok (), some (Hkdf.expand h prk info okmLen ++ okm.drop okmLen)) := by
  have hnum : blockNum evp okmLen = Hkdf.blockCount h okmLen := by
    rw [blockNum, hevp.size, Hkdf.blockCount]
  obtain ⟨ctx, ctx', hnew, hinit, hopen⟩ := hevp.init prk
  have hstart : Stage isOpen closed h prk info okmLen okm 0
      { ctx := ctx', prev := [], i := 1, doneLen := 0, okm } := by
    refine ⟨rfl, ?_, rfl, ?_, hopen⟩
    · rw [Nat.zero_mul, Nat.zero_min]
    · rw [Nat.zero_mul, Nat.zero_min, Hkdf.blocks, List.take_nil]
      rfl
  have hi {k : ℕ} {s : HkdfLoop Ctx} (hs : Stage isOpen closed h prk info okmLen okm k s)
      (hk : k < 255) : s.i.toNat = k + 1 := by
    rw [hs.i, UInt8.toNat_ofNat', Nat.mod_eq_of_lt (by omega)]
  have hstep (k : ℕ) (s : HkdfLoop Ctx) (hk : k < Hkdf.blockCount h okmLen)
      (hs : Stage isOpen closed h prk info okmLen okm k s) :
      decide (Hkdf.blockCount h okmLen < s.i.toNat) = false ∧
        ∃ t, round evp info okmLen s = (.ok (), t) ∧
          Stage isOpen closed h prk info okmLen okm (k + 1) t := by
    have hk' : k < 255 := by omega
    refine ⟨?_, round_of_stage hevp hokm hs hk hk'⟩
    rw [decide_eq_false_iff_not, hi hs hk']
    omega
  have hlast (s : HkdfLoop Ctx)
      (hs : Stage isOpen closed h prk info okmLen okm (Hkdf.blockCount h okmLen) s) :
      decide (Hkdf.blockCount h okmLen < s.i.toNat) = true := by
    rw [decide_eq_true_iff, hi hs hfew]
    exact Nat.lt_succ_self _
  obtain ⟨t, ht, hrun⟩ := @Prog.repeatUntil_of_stages Fail _ .fuel _ _ _ _ hstep hlast 0
    (Nat.zero_le _) _ hstart
  have hend : t.okm = Hkdf.expand h prk info okmLen ++ okm.drop okmLen := by
    rw [ht.okm, Nat.min_eq_right Hkdf.le_blockCount, Hkdf.expand]
  rw [hkdfExpand, hnum]
  dsimp only
  rw [if_neg (by omega), hnew]
  dsimp only [Option.bind]
  rw [hinit]
  dsimp only
  rw [hrun fuel (by omega), hend]

/-- The loop does not end when the counter wraps around. -/
theorem hkdfExpand_ne_ok_of_wrap (hmany : blockNum evp okmLen = 255) (fuel : ℕ)
    (memory : Option (List UInt8)) :
    (hkdfExpand evp prk info okmLen fuel memory).1 ≠ .ok () := by
  have hnever (s : HkdfLoop Ctx) : decide (blockNum evp okmLen < s.i.toNat) = false := by
    have hlt := s.i.toNat_lt
    rw [decide_eq_false_iff_not, hmany]
    omega
  unfold hkdfExpand
  dsimp only
  split
  · exact fun h => (by cases h)
  · split_ifs
    · exact fun h => (by cases h)
    · split
      · exact fun h => (by cases h)
      · exact Prog.repeatUntil_ne_ok hnever fuel

/-- A request for more blocks is refused. -/
theorem hkdfExpand_of_many (hmany : 255 < blockNum evp okmLen) (fuel : ℕ) (okm : List UInt8) :
    hkdfExpand evp prk info okmLen fuel (some okm) = (.error .ret, some okm) := by
  unfold hkdfExpand
  exact if_pos hmany

/-- A request for up to 255 blocks ends with the output in the memory and nothing behind it, and
one for more blocks is refused. -/
def ExpandsRight (evp : HmacEvp Ctx) (h : KeyedHash) (prk info : List UInt8) (okmLen : ℕ) : Prop :=
  ∀ okm : List UInt8, okmLen ≤ okm.length →
    if okmLen ≤ 255 * h.size then
      ∃ rounds, ∀ fuel, rounds ≤ fuel → hkdfExpand evp prk info okmLen fuel (some okm) =
        (.ok (), some (Hkdf.expand h prk info okmLen ++ okm.drop okmLen))
    else ∀ fuel, hkdfExpand evp prk info okmLen fuel (some okm) = (.error .ret, some okm)

/-- The output is expanded right when it does not have exactly 255 blocks. -/
theorem expandsRight_iff (hevp : evp.Computes h isOpen closed) (prk info : List UInt8)
    (okmLen : ℕ) :
    ExpandsRight evp h prk info okmLen ↔ ¬ (254 * h.size < okmLen ∧ okmLen ≤ 255 * h.size) := by
  have hnum : blockNum evp okmLen = Hkdf.blockCount h okmLen := by
    rw [blockNum, hevp.size, Hkdf.blockCount]
  have hfew := @Hkdf.blockCount_le_iff h okmLen 254
  have hall := @Hkdf.blockCount_le_iff h okmLen 255
  constructor
  · rintro hright ⟨hlow, hhigh⟩
    have hwrap : blockNum evp okmLen = 255 := by
      have hle := hall.mpr hhigh
      have hgt : ¬ Hkdf.blockCount h okmLen ≤ 254 := fun hle => absurd (hfew.mp hle) (by omega)
      omega
    have hrun := hright (List.replicate okmLen 0) (List.length_replicate).ge
    rw [if_pos hhigh] at hrun
    obtain ⟨rounds, hrun⟩ := hrun
    exact hkdfExpand_ne_ok_of_wrap hwrap rounds _ (congrArg Prod.fst (hrun rounds le_rfl))
  · intro hnot okm hokm
    split_ifs with hlen
    · have hle : okmLen ≤ 254 * h.size := by omega
      exact ⟨255, fun fuel hfuel => hkdfExpand_of_few hevp (Nat.lt_succ_of_le (hfew.mpr hle)) hokm
        hfuel⟩
    · refine fun fuel => hkdfExpand_of_many ?_ fuel okm
      have hgt : ¬ Hkdf.blockCount h okmLen ≤ 255 := fun hle => hlen (hall.mp hle)
      omega

/-- A hash of one byte: the number of bytes. -/
def countHash : KeyedHash where
  size := 1
  size_pos := Nat.one_pos
  hash _ bytes := [UInt8.ofNat bytes.length]
  hash_length _ _ := rfl

/-- A library that keeps the key and the bytes. -/
def countEvp : HmacEvp (List UInt8 × List UInt8) where
  size := 1
  new := some ([], [])
  init key _ := some (key, [])
  restart ctx := some (ctx.1, [])
  update more ctx := some (ctx.1, ctx.2 ++ more)
  final ctx := some (countHash.hash ctx.1 ctx.2, ctx)

/-- The library computes the hash. -/
theorem countEvp_computes :
    countEvp.Computes countHash (fun ctx key bytes => ctx = (key, bytes))
      fun ctx key => ctx.1 = key where
  size := rfl
  init key := ⟨_, _, rfl, rfl, rfl⟩
  restart := by
    rintro ctx key rfl
    exact ⟨_, rfl, rfl⟩
  update := by
    rintro ctx key bytes more rfl
    exact ⟨_, rfl, rfl⟩
  final := by
    rintro ctx key bytes rfl
    exact ⟨_, rfl, rfl⟩

/-- The greatest number of blocks with which the loop ends. -/
theorem expandsRight_most : ExpandsRight countEvp countHash [] [] 254 :=
  (expandsRight_iff countEvp_computes [] [] 254).mpr fun h => absurd h.1 (by decide)

/-- With 255 blocks the loop does not end. -/
theorem not_expandsRight_wrap : ¬ ExpandsRight countEvp countHash [] [] 255 := by
  intro h
  have hrun := h (List.replicate 255 0) (List.length_replicate).ge
  rw [if_pos (by decide)] at hrun
  obtain ⟨rounds, hrun⟩ := hrun
  have hwrap : blockNum countEvp 255 = 255 := rfl
  exact hkdfExpand_ne_ok_of_wrap hwrap rounds _ (congrArg Prod.fst (hrun rounds le_rfl))

end Expand

section Library

variable (lib : TlsLib) (md : QuicDigest)

/-- The keyed hash of a digest. -/
def keyedHash : KeyedHash where
  size := md.size
  size_pos := by cases md <;> decide
  hash := lib.hmac md
  hash_length := lib.hmac_length md

/-- The blocks of the handshake go on behind those of the expansion. -/
theorem hkdfBlocks_append (prk info : List UInt8) (n k : ℕ) :
    Hkdf.blocks (keyedHash lib md) prk info k ++
        hkdfBlocks lib md prk info n (k + 1) (Hkdf.block (keyedHash lib md) prk info k) =
      Hkdf.blocks (keyedHash lib md) prk info (k + n) := by
  induction n generalizing k with
  | zero => exact List.append_nil _
  | succ n ih =>
    have hnum : k + (n + 1) = k + 1 + n := by omega
    rw [hnum, ← ih (k + 1), Hkdf.blocks, List.append_assoc]
    rfl

/-- The handshake uses the output of the loop, where it ends. -/
theorem hkdfExpand_of_library {Ctx : Type} {evp : HmacEvp Ctx}
    {isOpen : Ctx → List UInt8 → List UInt8 → Prop} {closed : Ctx → List UInt8 → Prop}
    (hevp : evp.Computes (keyedHash lib md) isOpen closed) {prk info out : List UInt8} {len : ℕ}
    (hlen : len ≤ 254 * md.size) (hout : Tbquic.hkdfExpand lib md prk info len = some out)
    {okm : List UInt8} (hokm : len ≤ okm.length) {fuel : ℕ} (hfuel : 255 ≤ fuel) :
    hkdfExpand evp prk info len fuel (some okm) = (.ok (), some (out ++ okm.drop len)) := by
  have hfew : Hkdf.blockCount (keyedHash lib md) len < 255 :=
    Nat.lt_succ_of_le (Hkdf.blockCount_le_iff.mpr hlen)
  have hexpand : out = Hkdf.expand (keyedHash lib md) prk info len := by
    have hblocks := hkdfBlocks_append lib md prk info (Hkdf.blockCount (keyedHash lib md) len) 0
    have hout : (if 255 < Hkdf.blockCount (keyedHash lib md) len then none
        else some ((hkdfBlocks lib md prk info (Hkdf.blockCount (keyedHash lib md) len) 1 []).take
          len)) = some out := hout
    rw [if_neg (not_lt.mpr hfew.le)] at hout
    rw [Hkdf.expand, ← Nat.zero_add (Hkdf.blockCount _ _), ← hblocks]
    exact (Option.some.inj hout).symm
  rw [hexpand]
  exact hkdfExpand_of_few hevp hfew hokm hfuel

end Library

end HkdfLoop

end Tbquic
