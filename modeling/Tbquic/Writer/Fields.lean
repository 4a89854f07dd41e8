import Tbquic.Lib.Trace
import Tbquic.Writer.Outline

/-!
# The length fields of sub-packets

A writer follows the outline of what was written, for any nesting of sub-packets and snapshots and
for a buffer that grows at any time, as long as the buffer lies where it lay when the sub-packet
that is closed was started. Then every closed length field holds the number of bytes inside.
-/

namespace Tbquic

/-- The fields and the brackets lie behind one another. What was closed inside a bracket lies behind
its length field, and what was closed before it lies before its start. -/
def Layered : ℕ → List LengthField → List Bracket → Prop
  | pos, closed, [] => ∀ f ∈ closed, f.stop ≤ pos
  | pos, closed, b :: rest =>
    (∀ f ∈ closed, f.stop ≤ pos) ∧ b.stop ≤ pos ∧
      (∃ new, closed = new ++ b.closed ∧ ∀ f ∈ new, b.stop ≤ f.start) ∧
      Layered b.start b.closed rest

namespace Layered

variable {pos : ℕ} {closed : List LengthField} {b : Bracket} {rest brackets : List Bracket}
  {f : LengthField}

/-- The fields lie in what was written. -/
theorem stop_le (h : Layered pos closed brackets) : ∀ f ∈ closed, f.stop ≤ pos := by
  cases brackets with
  | nil => exact h
  | cons b rest => exact h.1

/-- More is written. -/
theorem mono {pos' : ℕ} (h : Layered pos closed brackets) (hle : pos ≤ pos') :
    Layered pos' closed brackets := by
  cases brackets with
  | nil => exact fun f hf => (h f hf).trans hle
  | cons b rest =>
    obtain ⟨hfields, hstop, hnew, hrest⟩ := h
    exact ⟨fun f hf => (hfields f hf).trans hle, hstop.trans hle, hnew, hrest⟩

/-- A bracket is opened. -/
theorem push (h : Layered pos closed brackets) (base : Option ℕ) (size : ℕ) :
    Layered (pos + size) closed (⟨base, pos, size, closed⟩ :: brackets) := by
  refine ⟨fun f hf => (h.stop_le f hf).trans (Nat.le_add_right _ _), le_refl _, ⟨[], rfl, ?_⟩, h⟩
  exact fun f hf => absurd hf List.not_mem_nil

/-- The innermost bracket is left out. -/
theorem pop (h : Layered pos closed (b :: rest)) : Layered pos closed rest := by
  obtain ⟨hfields, hstop, ⟨new, rfl, hnew⟩, hrest⟩ := h
  have hstart : b.start ≤ pos := (Nat.le_add_right _ _).trans hstop
  cases rest with
  | nil => exact hfields
  | cons g rest =>
    obtain ⟨-, hg, ⟨more, hclosed, hmore⟩, hrest'⟩ := hrest
    refine ⟨hfields, hg.trans hstart, ⟨new ++ more, ?_, fun f hf => ?_⟩, hrest'⟩
    · rw [hclosed, List.append_assoc]
    · rcases List.mem_append.mp hf with hf | hf
      · exact (hg.trans (Nat.le_add_right _ _)).trans (hnew f hf)
      · exact hmore f hf

/-- The innermost bracket becomes a field. -/
theorem close (h : Layered pos closed (b :: rest)) : Layered pos (b.field pos :: closed) rest := by
  have hpop := h.pop
  have hstop : (b.field pos).stop ≤ pos := h.2.1
  cases rest with
  | nil => exact List.forall_mem_cons.mpr ⟨hstop, hpop⟩
  | cons g rest =>
    obtain ⟨hfields, hg, ⟨new, hclosed, hnew⟩, hrest⟩ := hpop
    have hbefore : g.stop ≤ b.start := h.2.2.2.2.1
    refine ⟨List.forall_mem_cons.mpr ⟨hstop, hfields⟩, hg, ⟨b.field pos :: new, ?_, ?_⟩, hrest⟩
    · rw [hclosed, List.cons_append]
    · exact List.forall_mem_cons.mpr ⟨hbefore, hnew⟩

/-- The length field of the innermost bracket meets no closed field. -/
theorem disjoint (h : Layered pos closed (b :: rest)) :
    ∀ f ∈ closed, f.stop ≤ b.start ∨ b.stop ≤ f.start := by
  obtain ⟨-, -, ⟨new, rfl, hnew⟩, hrest⟩ := h
  intro f hf
  rcases List.mem_append.mp hf with hf | hf
  · exact .inr (hnew f hf)
  · exact .inl (hrest.stop_le f hf)

/-- The fields at a snapshot are among those of now. -/
theorem snapshot {s : Bracket × List Bracket} (h : Layered pos closed brackets)
    (hs : Outline.snapshot brackets = some s) :
    s.1.start ≤ pos ∧ (∀ f ∈ s.1.closed, f ∈ closed) ∧ Layered s.1.start s.1.closed s.2 := by
  induction brackets generalizing pos closed with
  | nil => cases hs
  | cons b rest ih =>
    obtain ⟨-, hstop, ⟨new, rfl, -⟩, hrest⟩ := h
    have hstart : b.start ≤ pos := (Nat.le_add_right _ _).trans hstop
    unfold Outline.snapshot at hs
    split_ifs at hs
    · cases hs
      exact ⟨hstart, fun f hf => List.mem_append_right _ hf, hrest⟩
    · obtain ⟨hle, hmem, hlayered⟩ := ih hrest hs
      exact ⟨hle.trans hstart, fun f hf => List.mem_append_right _ (hmem f hf), hlayered⟩

end Layered

/-- The sub-packets of a writer are those of the open brackets, the innermost first, and its copies
are those of the snapshots. A node is younger than its parent. -/
def Linked (kind : Bool × ℕ) (node : ℕ → Option WriterSub) (spent : ℕ) :
    ℕ → Option ℕ → List WriterFields → List Bracket → Prop
  | _, subs, tmp, [] => subs = none ∧ tmp.length = spent
  | bound, subs, tmp, b :: rest =>
    match b.base with
    | some base => ∃ a sub, subs = some a ∧ a < bound ∧ node a = some sub ∧
        sub.value = base + b.start ∧ sub.valLen = b.size ∧
          Linked kind node spent a sub.parent tmp rest
    | none => ∃ t tmp', tmp = t :: tmp' ∧ (t.isStatic, t.maxsize) = kind ∧ t.subs = subs ∧
        t.curr = b.start ∧ t.written = b.start ∧ Linked kind node spent bound subs tmp' rest

namespace Linked

variable {kind : Bool × ℕ} {node node' : ℕ → Option WriterSub} {spent bound bound' : ℕ}
  {subs : Option ℕ} {tmp : List WriterFields} {b : Bracket} {rest brackets : List Bracket}

/-- Younger nodes do not matter. -/
theorem congr (h : Linked kind node spent bound subs tmp brackets) (hle : bound ≤ bound')
    (hnode : ∀ a < bound, node' a = node a) :
    Linked kind node' spent bound' subs tmp brackets := by
  induction brackets generalizing bound bound' subs tmp with
  | nil => exact h
  | cons b rest ih =>
    unfold Linked at h ⊢
    split at h
    · obtain ⟨a, sub, hsubs, ha, hsub, hvalue, hlen, hrest⟩ := h
      refine ⟨a, sub, hsubs, ha.trans_le hle, (hnode a ha).trans hsub, hvalue, hlen, ?_⟩
      exact ih hrest (le_refl _) fun i hi => hnode i (hi.trans ha)
    · obtain ⟨t, tmp', htmp, hkind, hsubs, hcurr, hwritten, hrest⟩ := h
      exact ⟨t, tmp', htmp, hkind, hsubs, hcurr, hwritten, ih hrest hle hnode⟩

/-- There are no more open sub-packets than nodes. -/
theorem count_le (h : Linked kind node spent bound subs tmp brackets) :
    (brackets.filter fun b => b.base ≠ none).length ≤ bound := by
  induction brackets generalizing bound subs tmp with
  | nil => exact Nat.zero_le _
  | cons b rest ih =>
    unfold Linked at h
    split at h
    · rename_i base hbase
      obtain ⟨a, sub, -, ha, -, -, -, hrest⟩ := h
      have hcons := ih hrest
      rw [List.filter_cons_of_pos (by rw [hbase]; exact decide_eq_true (Option.some_ne_none _)),
        List.length_cons]
      omega
    · rename_i hbase
      obtain ⟨t, tmp', -, -, -, -, -, hrest⟩ := h
      rw [List.filter_cons_of_neg (by rw [hbase]; simp)]
      exact ih hrest

/-- Without an open sub-packet the writer has none. -/
theorem subs_eq_none (h : Linked kind node spent bound subs tmp brackets)
    (hbase : ∀ b ∈ brackets, b.base = none) : subs = none := by
  induction brackets generalizing bound tmp with
  | nil => exact h.1
  | cons b rest ih =>
    unfold Linked at h
    rw [hbase b List.mem_cons_self] at h
    obtain ⟨t, tmp', -, -, -, -, -, hrest⟩ := h
    exact ih hrest fun g hg => hbase g (List.mem_cons_of_mem _ hg)

/-- The copy of the innermost snapshot. -/
theorem snapshot {s : Bracket × List Bracket} (h : Linked kind node spent bound subs tmp brackets)
    (hs : Outline.snapshot brackets = some s) :
    ∃ t tmp', tmp = t :: tmp' ∧ (t.isStatic, t.maxsize) = kind ∧ t.curr = s.1.start ∧
      t.written = s.1.start ∧ Linked kind node spent bound t.subs tmp' s.2 := by
  induction brackets generalizing bound subs tmp with
  | nil => cases hs
  | cons b rest ih =>
    unfold Outline.snapshot at hs
    unfold Linked at h
    split at h
    · rename_i base hbase
      rw [if_neg (by rw [hbase]; exact Option.some_ne_none _)] at hs
      obtain ⟨a, sub, -, ha, -, -, -, hrest⟩ := h
      obtain ⟨t, tmp', htmp, hkind, hcurr, hwritten, hlinked⟩ := ih hrest hs
      exact ⟨t, tmp', htmp, hkind, hcurr, hwritten, hlinked.congr ha.le fun _ _ => rfl⟩
    · rename_i hbase
      rw [if_pos hbase] at hs
      cases hs
      obtain ⟨t, tmp', htmp, hkind, rfl, hcurr, hwritten, hrest⟩ := h
      exact ⟨t, tmp', htmp, hkind, hcurr, hwritten, hrest⟩

end Linked

namespace Writer

variable {w : Writer} {a : ℕ} {sub : WriterSub} {b : Bracket}

/-- The innermost sub-packet with its length field filled. -/
def filled (w : Writer) (b : Bracket) : Writer :=
  { w with bytes := Bytes.overwrite w.bytes b.start (Bytes.ofNat b.size (w.pkt.curr - b.stop)) }

/-- The writer when its innermost sub-packet is closed. -/
def subClosed (w : Writer) (b : Bracket) (a : ℕ) (parent : Option ℕ) : Writer :=
  { w.filled b with pkt.subs := parent, node := Function.update w.node a none }

/-- The innermost sub-packet is closed where the buffer did not move: the number of bytes inside is
stored, and the close fails when it does not fit. -/
theorem wPacketClose_eq (hsubs : w.pkt.subs = some a) (hsub : w.node a = some sub)
    (hvalue : sub.value = w.data + b.start) (hlen : sub.valLen = b.size)
    (hstop : b.stop ≤ w.pkt.curr) (hcurr : w.pkt.curr ≤ w.bytes.length)
    (hsound : b.Sound w.data w.pkt.curr) :
    wPacketClose w = if b.Fits w.pkt.curr then
        (.ok (), w.subClosed b a sub.parent)
      else (.error .ret, w.filled b) := by
  obtain ⟨-, hinside, hassert⟩ := hsound
  have hdata : ((((w.data + w.pkt.curr : ℕ) : ℤ) - sub.value - sub.valLen) % 2 ^ 64).toNat =
      w.pkt.curr - b.stop := by
    rw [hvalue, hlen]
    unfold Bracket.stop at hstop hinside ⊢
    omega
  have hstore : store sub.value (Bytes.ofNat sub.valLen (w.pkt.curr - b.stop)) w =
      (.ok (), w.filled b) := by
    rw [hvalue, hlen, store, filled]
    by_cases hempty : Bytes.ofNat b.size (w.pkt.curr - b.stop) = []
    · rw [if_pos hempty, hempty, Bytes.overwrite_nil]
    · rw [if_neg hempty, if_pos, Nat.add_sub_cancel_left]
      rw [Bytes.ofNat_length]
      unfold Bracket.stop at hstop
      omega
  have hrun (k : Unit → Prog Fail Writer Unit) :
      (wPacketPutValue sub.value (w.pkt.curr - b.stop) sub.valLen >>= k) w =
        if b.Fits w.pkt.curr then k () (w.filled b) else (.error .ret, w.filled b) := by
    have hfits : (w.pkt.curr - b.stop) / 256 ^ sub.valLen = 0 ↔ b.Fits w.pkt.curr := by
      rw [hlen, Nat.div_eq_zero_iff, or_iff_right (Nat.pow_pos (by decide)).ne', Bracket.Fits]
    rw [wPacketPutValue, Prog.bind_assoc, Prog.bind_of_ok hstore]
    by_cases hb : b.Fits w.pkt.curr
    · rw [Prog.ensure_of_pos (hfits.mpr hb), Prog.pure_bind, if_pos hb]
    · rw [Prog.ensure_of_neg fun h => hb (hfits.mp h), Prog.fail_bind, if_neg hb]
      rfl
  rw [wPacketClose, Prog.get_bind, hsubs]
  dsimp only
  rw [hsub]
  dsimp only
  rw [hdata, Prog.ensure_of_pos hassert, Prog.pure_bind, hrun]
  rfl

/-- A field stays when another one is filled. -/
theorem standsIn_filled {f : LengthField} (hf : f.StandsIn w.bytes)
    (hdisjoint : f.stop ≤ b.start ∨ b.stop ≤ f.start) : f.StandsIn (w.filled b).bytes := by
  intro i hi
  rw [← hf i hi]
  refine Bytes.getElem?_overwrite_of_not_mem ?_
  rw [Bytes.ofNat_length]
  unfold LengthField.stop Bracket.stop at hdisjoint
  omega

/-- The field that is filled holds the number of bytes inside. -/
theorem field_standsIn (hstop : b.stop ≤ w.pkt.curr) (hcurr : w.pkt.curr ≤ w.bytes.length) :
    (b.field w.pkt.curr).StandsIn (w.filled b).bytes := by
  intro i hi
  have hi : i < b.size := hi
  unfold Bracket.stop at hstop
  have hoverwrite := @Bytes.getElem?_overwrite_of_mem w.bytes
    (Bytes.ofNat b.size (w.pkt.curr - b.stop)) b.start (b.start + i) (Nat.le_add_right _ _)
    (by rw [Bytes.ofNat_length]; omega) (by omega)
  rw [Nat.add_sub_cancel_left] at hoverwrite
  exact hoverwrite

end Writer

/-- The brackets can all be closed by the code, as far as `WPacketForceClose` gets. -/
def AllSound (data pos : ℕ) : List Bracket → Prop
  | [] => True
  | b :: rest =>
    if b.base = none then AllSound data pos rest
    else b.Sound data pos ∧ (b.Fits pos → AllSound data pos rest)

instance decidableAllSound (data pos : ℕ) :
    (brackets : List Bracket) → Decidable (AllSound data pos brackets)
  | [] => .isTrue trivial
  | b :: rest =>
    have := decidableAllSound data pos rest
    inferInstanceAs (Decidable (if b.base = none then AllSound data pos rest
      else b.Sound data pos ∧ (b.Fits pos → AllSound data pos rest)))

section ForceClose

variable {kind : Bool × ℕ} {spent bound pos : ℕ} {subs : Option ℕ} {tmp : List WriterFields}
  {brackets : List Bracket} {closed : List LengthField} {w : Writer}

/-- The copies are those of the snapshots and the spent ones. -/
theorem Linked.tmp_length {node : ℕ → Option WriterSub}
    (h : Linked kind node spent bound subs tmp brackets) :
    tmp.length = spent + (brackets.filter (·.base = none)).length := by
  induction brackets generalizing bound subs tmp with
  | nil => exact h.2
  | cons b rest ih =>
    unfold Linked at h
    split at h
    · rename_i base hbase
      obtain ⟨a, sub, -, -, -, -, -, hrest⟩ := h
      rw [List.filter_cons_of_neg (by rw [hbase]; simp)]
      exact ih hrest
    · rename_i hbase
      obtain ⟨t, tmp', rfl, -, -, -, -, hrest⟩ := h
      rw [List.filter_cons_of_pos (by rw [hbase]; simp), List.length_cons, List.length_cons,
        ih hrest]
      omega

/-- The loop of `WPacketForceClose` closes all sub-packets, from the innermost on, unless a number
does not fit. -/
theorem forceCloseLoop_spec {fuel : ℕ} (hpos : w.pkt.curr = pos) (hlength : pos ≤ w.bytes.length)
    (hlinked : Linked kind w.node spent bound w.pkt.subs tmp brackets)
    (hlayered : Layered pos closed brackets) (hstands : ∀ f ∈ closed, f.StandsIn w.bytes)
    (hsound : AllSound w.data pos brackets)
    (hfuel : (brackets.filter fun b => b.base ≠ none).length < fuel) :
    match Outline.allClosed pos brackets closed with
    | some fields => ∃ t, Writer.forceCloseLoop fuel w = (.ok (), t) ∧
        t.pkt = { w.pkt with subs := none } ∧ t.tmp = w.tmp ∧
        t.bytes.length = w.bytes.length ∧ ∀ f ∈ fields, f.stop ≤ pos ∧ f.StandsIn t.bytes
    | none => ∃ t, Writer.forceCloseLoop fuel w = (.error .ret, t) := by
  induction brackets generalizing w bound tmp closed fuel with
  | nil =>
    obtain ⟨hsubs, -⟩ := hlinked
    obtain ⟨fuel, rfl⟩ := Nat.exists_eq_succ_of_ne_zero (Nat.ne_of_gt hfuel)
    refine ⟨w, ?_, ?_, rfl, rfl, fun f hf => ⟨hlayered f hf, hstands f hf⟩⟩
    · rw [Writer.forceCloseLoop, Prog.get_bind, if_pos hsubs]
      rfl
    · rw [← hsubs]
  | cons b rest ih =>
    unfold Outline.allClosed
    unfold AllSound at hsound
    unfold Linked at hlinked
    split at hlinked
    · rename_i base hbase
      have hsome : b.base ≠ none := by
        rw [hbase]
        exact Option.some_ne_none _
      rw [if_neg hsome] at hsound
      rw [if_neg hsome]
      rw [List.filter_cons_of_pos (by rw [hbase]; simp), List.length_cons] at hfuel
      obtain ⟨fuel, rfl⟩ := Nat.exists_eq_succ_of_ne_zero (Nat.ne_of_gt (Nat.zero_lt_of_lt hfuel))
      obtain ⟨a, sub, hsubs, ha, hsub, hvalue, hlen, hrest⟩ := hlinked
      obtain ⟨hb, hmore⟩ := hsound
      have hdata : base = w.data := Option.some_injective _ (hbase.symm.trans hb.1)
      subst hpos
      have hclose := Writer.wPacketClose_eq hsubs hsub (hdata ▸ hvalue) hlen hlayered.2.1 hlength hb
      have hopen : ¬ w.pkt.subs = none := by
        rw [hsubs]
        exact Option.some_ne_none _
      rw [Writer.forceCloseLoop, Prog.get_bind, if_neg hopen]
      by_cases hfits : b.Fits w.pkt.curr
      · rw [if_pos hfits] at hclose ⊢
        rw [Prog.bind_of_ok hclose]
        have hlength' : (w.filled b).bytes.length = w.bytes.length := Bytes.overwrite_length _ _ _
        have hnext := @ih a tmp (b.field w.pkt.curr :: closed) (w.subClosed b a sub.parent) fuel rfl
          (hlength.trans hlength'.ge)
          (hrest.congr (le_refl a) fun i hi => Function.update_of_ne (Nat.ne_of_lt hi) _ _)
          hlayered.close
          (List.forall_mem_cons.mpr ⟨Writer.field_standsIn hlayered.2.1 hlength,
            fun f hf => Writer.standsIn_filled (hstands f hf) (hlayered.disjoint f hf)⟩)
          (hmore hfits) (Nat.lt_of_succ_lt_succ hfuel)
        cases hall : Outline.allClosed w.pkt.curr rest (b.field w.pkt.curr :: closed) with
        | none =>
          rw [hall] at hnext
          exact hnext
        | some fields =>
          rw [hall] at hnext
          obtain ⟨t, hrun, hpkt, htmp, hbytes, hfields⟩ := hnext
          exact ⟨t, hrun, hpkt, htmp, hbytes.trans hlength', hfields⟩
      · rw [if_neg hfits] at hclose ⊢
        exact ⟨_, Prog.bind_of_error hclose⟩
    · rename_i hbase
      rw [if_pos hbase] at hsound ⊢
      obtain ⟨t, tmp', rfl, -, -, -, -, hrest⟩ := hlinked
      rw [List.filter_cons_of_neg (by rw [hbase]; simp)] at hfuel
      exact ih hpos hlength hrest hlayered.pop hstands hsound hfuel

end ForceClose

end Tbquic
