import Tbquic.Writer.Fields

/-!
# Nested length fields

The run of a writer over a well-bracketed sequence of operations. While every sub-packet is closed
where it was started, the writer follows its outline, its closed length fields stand, and a close
fails if and only if the number of bytes inside does not fit.
-/

namespace Tbquic

namespace Writing

/-- A writer follows its outline. Of its kind are whether its buffer is static, and its limit. -/
structure Aligned (kind : Bool × ℕ) (s : Writing) : Prop where
  /-- The kind stays. -/
  same : (s.writer.pkt.isStatic, s.writer.pkt.maxsize) = kind
  /-- The position in the buffer. -/
  curr : s.writer.pkt.curr = s.outline.pos
  /-- The number of bytes. -/
  written : s.writer.pkt.written = s.outline.pos
  /-- They lie in the buffer. -/
  length : s.outline.pos ≤ s.writer.bytes.length
  /-- A static buffer has room up to the limit. -/
  room : kind.1 = true → kind.2 ≤ s.writer.bytes.length
  /-- The sub-packets and the copies are those of the open brackets. -/
  linked : Linked kind s.writer.node s.outline.spent s.writer.next s.writer.pkt.subs s.writer.tmp
    s.outline.brackets
  /-- The fields and the brackets lie behind one another. -/
  layered : Layered s.outline.pos s.outline.closed s.outline.brackets
  /-- The closed fields stand. -/
  stands : ∀ f ∈ s.outline.closed, f.StandsIn s.writer.bytes

namespace Aligned

variable {kind : Bool × ℕ} {s : Writing} {t : Writer} {b : Bracket} {rest : List Bracket}

/-- A new writer. -/
theorem start (isStatic : Bool) (data : ℕ) (bytes : List UInt8) :
    (start isStatic data bytes).Aligned
      (isStatic, if isStatic then bytes.length else wPacketBufMaxLen) where
  same := rfl
  curr := rfl
  written := rfl
  length := Nat.zero_le _
  room := fun hstatic => (if_pos hstatic).le
  linked := ⟨rfl, rfl⟩
  layered := fun _ hf => absurd hf List.not_mem_nil
  stands := fun _ hf => absurd hf List.not_mem_nil

/-- The closed fields stand when the bytes of the packet stay. -/
theorem stands_of_kept (h : s.Aligned kind) {bytes : List UInt8}
    (hkept : ∀ i < s.writer.pkt.curr, i < s.writer.bytes.length →
      bytes[i]? = s.writer.bytes[i]?) :
    ∀ f ∈ s.outline.closed, f.StandsIn bytes := by
  intro f hf i hi
  have hstop := h.layered.stop_le f hf
  have hlength := h.length
  unfold LengthField.stop at hstop
  rw [hkept _ (by rw [h.curr]; omega) (by omega)]
  exact h.stands f hf i hi

/-- Bytes are written. -/
theorem write (h : s.Aligned kind) {len : ℕ} (hwrote : s.writer.Wrote len t)
    (hlength : s.writer.pkt.curr + len ≤ t.bytes.length) :
    Aligned kind ⟨t, s.outline.write len⟩ where
  same := by rw [hwrote.pkt]; exact h.same
  curr := by rw [hwrote.pkt]; exact congrArg (· + len) h.curr
  written := by rw [hwrote.pkt]; exact congrArg (· + len) h.written
  length := by rw [h.curr] at hlength; exact hlength
  room := fun hstatic => (h.room hstatic).trans hwrote.length
  linked := by
    dsimp only
    rw [hwrote.pkt, hwrote.node, hwrote.next, hwrote.tmp]
    exact h.linked
  layered := h.layered.mono (Nat.le_add_right _ _)
  stands := h.stands_of_kept hwrote.kept

/-- A sub-packet is started. -/
theorem startSub (h : s.Aligned kind) {size : ℕ} (hmax : kind.1 = false → kind.2 ≤ sizeMax)
    (hfits : s.writer.pkt.written + size ≤ s.writer.pkt.maxsize)
    (hpkt : t.pkt = { s.writer.pkt with
      written := s.writer.pkt.written + size
      curr := s.writer.pkt.curr + size
      subs := some s.writer.next })
    (hnode : t.node = Function.update s.writer.node s.writer.next
      (some ⟨s.writer.pkt.subs, t.data + s.writer.pkt.curr, size⟩))
    (hnext : t.next = s.writer.next + 1) (htmp : t.tmp = s.writer.tmp)
    (hbytes : s.writer.bytes.length ≤ t.bytes.length)
    (hkept : ∀ i < s.writer.pkt.curr, i < s.writer.bytes.length →
      t.bytes[i]? = s.writer.bytes[i]?)
    (hroom : s.writer.pkt.isStatic = false → s.writer.pkt.written ≤ s.writer.bytes.length →
      s.writer.pkt.written + size ≤ sizeMax → s.writer.pkt.written + size ≤ t.bytes.length) :
    Aligned kind ⟨t, s.outline.startSub size t.data⟩ := by
  have hlimit : s.writer.pkt.maxsize = kind.2 := congrArg Prod.snd h.same
  have hstatic : s.writer.pkt.isStatic = kind.1 := congrArg Prod.fst h.same
  have hwritten := h.written
  refine ⟨?_, ?_, ?_, ?_, fun hs => (h.room hs).trans hbytes, ?_, h.layered.push _ _,
    h.stands_of_kept hkept⟩
  · rw [hpkt]
    exact h.same
  · rw [hpkt]
    exact congrArg (· + size) h.curr
  · rw [hpkt]
    exact congrArg (· + size) h.written
  · change s.outline.pos + size ≤ t.bytes.length
    rw [← hwritten]
    cases hkind : kind.1 with
    | true =>
      have hroom' := h.room hkind
      omega
    | false =>
      have hmax' := hmax hkind
      exact hroom (hstatic.trans hkind) (hwritten.trans_le h.length) (by omega)
  · dsimp only [Outline.startSub]
    rw [hpkt, hnode, hnext, htmp]
    refine ⟨s.writer.next, _, rfl, Nat.lt_succ_self _, Function.update_self _ _ _, ?_, rfl, ?_⟩
    · exact congrArg (t.data + ·) h.curr
    · exact h.linked.congr (le_refl _) fun i hi => Function.update_of_ne (Nat.ne_of_lt hi) _ _

/-- A length field is filled. -/
theorem filled (h : s.Aligned kind) (hbrackets : s.outline.brackets = b :: rest) :
    Aligned kind ⟨s.writer.filled b, s.outline⟩ := by
  have hlength : (s.writer.filled b).bytes.length = s.writer.bytes.length :=
    Bytes.overwrite_length _ _ _
  have hlayered := h.layered
  rw [hbrackets] at hlayered
  exact ⟨h.same, h.curr, h.written, h.length.trans hlength.ge,
    fun hs => (h.room hs).trans hlength.ge, h.linked, h.layered,
    fun f hf => Writer.standsIn_filled (h.stands f hf) (hlayered.disjoint f hf)⟩

/-- The innermost sub-packet is closed. -/
theorem close (h : s.Aligned kind) (hinner : s.outline.innermost = some (b, rest))
    (hsound : b.Sound s.writer.data s.outline.pos) :
    ∃ a parent, Writer.wPacketClose s.writer =
        (if b.Fits s.outline.pos then (.ok (), s.writer.subClosed b a parent)
        else (.error .ret, s.writer.filled b)) ∧
      Aligned kind ⟨s.writer.subClosed b a parent, s.outline.close b rest⟩ ∧
      Aligned kind ⟨s.writer.filled b, s.outline⟩ := by
  have hbrackets : s.outline.brackets = b :: rest := by
    unfold Outline.innermost at hinner
    split at hinner
    · cases hinner
    · split_ifs at hinner
      cases hinner
      assumption
  have hlinked := h.linked
  have hlayered := h.layered
  rw [hbrackets] at hlinked hlayered
  unfold Linked at hlinked
  rw [hsound.1] at hlinked
  obtain ⟨a, sub, hsubs, ha, hsub, hvalue, hlen, hrest⟩ := hlinked
  rw [← h.curr] at hsound ⊢
  have hstop : b.stop ≤ s.writer.pkt.curr := hlayered.2.1.trans h.curr.ge
  have hcurr : s.writer.pkt.curr ≤ s.writer.bytes.length := h.curr.trans_le h.length
  have hfilled := h.filled hbrackets
  refine ⟨a, sub.parent, Writer.wPacketClose_eq hsubs hsub hvalue hlen hstop hcurr hsound,
    ⟨h.same, h.curr, h.written, hfilled.length, hfilled.room, ?_, hlayered.close, ?_⟩, hfilled⟩
  · exact hrest.congr ha.le fun i hi => Function.update_of_ne (Nat.ne_of_lt hi) _ _
  · refine List.forall_mem_cons.mpr ⟨?_, hfilled.stands⟩
    have hfield := Writer.field_standsIn hstop hcurr
    rw [h.curr] at hfield
    exact hfield

/-- All sub-packets are closed. -/
theorem forceClose (h : s.Aligned kind)
    (hsound : AllSound s.writer.data s.outline.pos s.outline.brackets) :
    match Outline.allClosed s.outline.pos s.outline.brackets s.outline.closed with
    | some closed => ∃ t, Writer.wPacketForceClose s.writer = (.ok (), t) ∧
        Aligned kind ⟨t, s.outline.forceClose closed⟩
    | none => ∃ t, Writer.wPacketForceClose s.writer = (.error .ret, t) := by
  have hloop := forceCloseLoop_spec h.curr h.length h.linked h.layered h.stands hsound
    (Nat.lt_succ_of_le h.linked.count_le)
  cases hall : Outline.allClosed s.outline.pos s.outline.brackets s.outline.closed with
  | none =>
    rw [hall] at hloop
    obtain ⟨t, hrun⟩ := hloop
    refine ⟨t, ?_⟩
    rw [Writer.wPacketForceClose, Prog.get_bind]
    exact Prog.bind_of_error hrun
  | some closed =>
    rw [hall] at hloop
    obtain ⟨t, hrun, hpkt, htmp, hbytes, hfields⟩ := hloop
    refine ⟨{ t with pkt.closed := true }, ?_, ?_, ?_, ?_, h.length.trans hbytes.ge,
      fun hs => (h.room hs).trans hbytes.ge, ⟨?_, ?_⟩, fun f hf => (hfields f hf).1,
      fun f hf => (hfields f hf).2⟩
    · rw [Writer.wPacketForceClose, Prog.get_bind, Prog.bind_of_ok hrun]
      rfl
    · dsimp only
      rw [hpkt]
      exact h.same
    · dsimp only
      rw [hpkt]
      exact h.curr
    · dsimp only
      rw [hpkt]
      exact h.written
    · dsimp only
      rw [hpkt]
    · exact (congrArg List.length htmp).trans h.linked.tmp_length

/-- A snapshot is taken. -/
theorem save (h : s.Aligned kind) : Aligned kind ⟨s.writer.saveTmp, s.outline.save⟩ :=
  ⟨h.same, h.curr, h.written, h.length, h.room,
    ⟨s.writer.pkt, s.writer.tmp, rfl, h.same, rfl, h.curr, h.written, h.linked⟩,
    h.layered.push none 0, h.stands⟩

/-- A snapshot is dropped. -/
theorem drop (h : s.Aligned kind) {d : Outline} (hdrop : s.outline.drop = some d) :
    Aligned kind ⟨s.writer.dropTmp, d⟩ := by
  have hlinked := h.linked
  have hlayered := h.layered
  unfold Outline.drop at hdrop
  split at hdrop
  · rename_i hbrackets
    split_ifs at hdrop with hspent
    cases hdrop
    refine ⟨h.same, h.curr, h.written, h.length, h.room, ?_, h.layered, h.stands⟩
    rw [hbrackets] at hlinked
    dsimp only [Writer.dropTmp]
    rw [hbrackets]
    exact ⟨hlinked.1, by rw [List.length_tail, hlinked.2]⟩
  · rename_i b rest hbrackets
    split_ifs at hdrop with hbase
    cases hdrop
    rw [hbrackets] at hlinked hlayered
    unfold Linked at hlinked
    rw [hbase] at hlinked
    obtain ⟨pkt, tmp, htmp, -, -, -, -, hrest⟩ := hlinked
    refine ⟨h.same, h.curr, h.written, h.length, h.room, ?_, hlayered.pop, h.stands⟩
    dsimp only [Writer.dropTmp]
    rw [htmp]
    exact hrest

/-- A snapshot is restored. -/
theorem restore (h : s.Aligned kind) {d : Outline} (hrestore : s.outline.restore = some d) :
    Aligned kind ⟨s.writer.restoreTmp, d⟩ := by
  obtain ⟨p, hp, rfl⟩ := Option.map_eq_some_iff.mp hrestore
  obtain ⟨hstart, hmem, hlayered⟩ := h.layered.snapshot hp
  obtain ⟨pkt, tmp, htmp, hsame, hcurr, hwritten, hlinked⟩ := h.linked.snapshot hp
  rw [Writer.restoreTmp, htmp]
  exact ⟨hsame, hcurr, hwritten, hstart.trans h.length, h.room, hlinked, hlayered,
    fun f hf => h.stands f (hmem f hf)⟩

end Aligned

/-- The sub-packets that an operation closes can be closed by the code: the buffer lies where it lay
when they were started, and the numbers pass the assertion of `WPacketClose`. The room for a length
field is checked with the macro. -/
def CloseSound (s : Writing) : WriterEvent → Prop
  | .startSub size _ =>
    ¬ quicLt ((s.writer.pkt.maxsize : ℤ) - s.writer.pkt.written) size →
      s.writer.pkt.written + size ≤ s.writer.pkt.maxsize
  | .close => ∀ p ∈ s.outline.innermost, p.1.Sound s.writer.data s.outline.pos
  | .forceClose => AllSound s.writer.data s.outline.pos s.outline.brackets
  | _ => True

/-- A close fails if and only if a number does not fit in its field. -/
def ClosesProper (s : Writing) : WriterEvent → Prop
  | .close => ∀ p ∈ s.outline.innermost, (Writer.wPacketClose s.writer).1 =
      if p.1.Fits s.outline.pos then .ok () else .error .ret
  | .forceClose => (Writer.wPacketForceClose s.writer).1 =
      if (Outline.allClosed s.outline.pos s.outline.brackets s.outline.closed).isSome then .ok ()
      else .error .ret
  | _ => True

instance (s : Writing) : (e : WriterEvent) → Decidable (s.CloseSound e)
  | .startSub _ _ => inferInstanceAs (Decidable (_ → _))
  | .close => inferInstanceAs (Decidable (∀ p ∈ s.outline.innermost, _))
  | .forceClose => inferInstanceAs (Decidable (AllSound _ _ _))
  | .put _ _ _ | .memcpy _ _ | .allocate _ _ | .save | .restore | .drop => .isTrue trivial

instance (s : Writing) : (e : WriterEvent) → Decidable (s.ClosesProper e)
  | .close => inferInstanceAs (Decidable (∀ p ∈ s.outline.innermost, _))
  | .forceClose => inferInstanceAs (Decidable (_ = _))
  | .startSub _ _ | .put _ _ _ | .memcpy _ _ | .allocate _ _ | .save | .restore | .drop =>
    .isTrue trivial

/-- The state behind an operation that succeeds. -/
theorem after_eq_some {r : Except Fail Unit × Writer} {outline : Writer → Outline} {t : Writing}
    (h : after r outline = some t) : ∃ w, r = (.ok (), w) ∧ t = ⟨w, outline w⟩ := by
  unfold after at h
  split at h
  · exact ⟨_, rfl, (Option.some.inj h).symm⟩
  · cases h

variable {kind : Bool × ℕ} {s t : Writing} {e : WriterEvent}

/-- A close is proper where the sub-packet can be closed. -/
theorem Aligned.closesProper (h : s.Aligned kind) (hsound : s.CloseSound e) :
    s.ClosesProper e := by
  unfold CloseSound at hsound
  unfold ClosesProper
  split
  · rintro ⟨b, rest⟩ hinner
    obtain ⟨a, parent, hrun, -, -⟩ := h.close hinner (hsound _ hinner)
    rw [hrun]
    split_ifs <;> rfl
  · have hall := h.forceClose hsound
    cases hclosed : Outline.allClosed s.outline.pos s.outline.brackets s.outline.closed with
    | none =>
      rw [hclosed] at hall
      obtain ⟨t, hrun⟩ := hall
      rw [hrun]
      rfl
    | some closed =>
      rw [hclosed] at hall
      obtain ⟨t, hrun, -⟩ := hall
      rw [hrun]
      rfl
  · trivial

/-- An operation keeps the writer on its outline where the sub-packets that it closes can be
closed. -/
theorem Aligned.step (h : s.Aligned kind) (hmax : kind.1 = false → kind.2 ≤ sizeMax)
    (hsound : s.CloseSound e) (hstep : s.step e = some t) : t.Aligned kind := by
  have hcurr : s.writer.pkt.curr ≤ s.writer.bytes.length := h.curr.trans_le h.length
  cases e with
  | startSub size moved =>
    obtain ⟨w, hrun, rfl⟩ := after_eq_some hstep
    obtain ⟨hcheck, hpkt, hnode, hnext, htmp, hbytes, hkept, hroom⟩ :=
      (Writer.wPacketStartSubBytes_post size moved s.writer).of_ok hrun
    exact h.startSub hmax (hsound hcheck) hpkt hnode hnext htmp hbytes hkept hroom
  | put val size moved =>
    obtain ⟨w, hrun, rfl⟩ := after_eq_some hstep
    obtain ⟨hwrote, hlength⟩ :=
      (Writer.wPacketPutBytes_post val size moved s.writer hcurr).of_ok hrun
    exact h.write hwrote hlength
  | memcpy src moved =>
    obtain ⟨w, hrun, rfl⟩ := after_eq_some hstep
    obtain ⟨hwrote, hlength⟩ := (Writer.wPacketMemcpy_post src moved s.writer hcurr).of_ok hrun
    exact h.write hwrote hlength
  | allocate content moved =>
    obtain ⟨w, hrun, rfl⟩ := after_eq_some hstep
    obtain ⟨hwrote, hlength⟩ := (Writer.wPacketFill_post content moved s.writer hcurr).of_ok hrun
    exact h.write hwrote hlength
  | close =>
    unfold CloseSound at hsound
    unfold Writing.step at hstep
    cases hinner : s.outline.innermost with
    | none =>
      simp only [hinner] at hstep
      split_ifs at hstep with hall
      obtain ⟨w, hrun, rfl⟩ := after_eq_some hstep
      rw [Writer.wPacketClose, Prog.get_bind, h.linked.subs_eq_none hall.2,
        Prog.ensure_of_pos hall.1] at hrun
      obtain rfl : s.writer = w := congrArg Prod.snd hrun
      exact h
    | some p =>
      obtain ⟨b, rest⟩ := p
      simp only [hinner] at hstep
      obtain ⟨a, parent, hrun, hclosed, hfilled⟩ := h.close hinner (hsound _ hinner)
      rw [hrun] at hstep
      split_ifs at hstep with hfits
      · cases hstep
        exact hclosed
      · cases hstep
        exact hfilled
  | forceClose =>
    obtain ⟨closed, hclosed, hafter⟩ := Option.bind_eq_some_iff.mp hstep
    obtain ⟨w, hrun, rfl⟩ := after_eq_some hafter
    have hall := h.forceClose hsound
    rw [hclosed] at hall
    obtain ⟨u, hrun', haligned⟩ := hall
    obtain rfl : u = w := congrArg Prod.snd (hrun'.symm.trans hrun)
    exact haligned
  | save =>
    cases hstep
    exact h.save
  | restore =>
    obtain ⟨d, hd, rfl⟩ := Option.map_eq_some_iff.mp hstep
    exact h.restore hd
  | drop =>
    obtain ⟨d, hd, rfl⟩ := Option.map_eq_some_iff.mp hstep
    exact h.drop hd

/-- In every well-bracketed sequence of operations whose sub-packets are closed where they were
started, a close fails if and only if the number of bytes inside does not fit in its field, and
every closed field holds that number at the place where its sub-packet was started. -/
theorem closesProper_of_run (isStatic : Bool) (data : ℕ) (bytes : List UInt8)
    (es : List WriterEvent)
    (hsound : Trace.Along step CloseSound (start isStatic data bytes) es) :
    Trace.Along step ClosesProper (start isStatic data bytes) es ∧
      ∀ t, Trace.run step (start isStatic data bytes) es = some t →
        ∀ f ∈ t.outline.closed, f.StandsIn t.writer.bytes := by
  have hstart := Aligned.start isStatic data bytes
  have hmax : isStatic = false →
      (if isStatic then bytes.length else wPacketBufMaxLen) ≤ sizeMax := by
    rintro rfl
    rw [if_neg Bool.false_ne_true]
    decide
  have hstep := fun (s : Writing) (e : WriterEvent) (t : Writing)
    (h : s.Aligned (isStatic, if isStatic then bytes.length else wPacketBufMaxLen))
    (hok : s.CloseSound e) (hrun : s.step e = some t) => h.step hmax hok hrun
  constructor
  · exact hsound.mono_of_invariant _ (fun s e h hok => h.closesProper hok) hstep hstart
  · exact fun t hrun => (Trace.run_invariant_along _ hstep hstart hsound hrun).stands

/-- An extension that `TlsConstructExtensions` sends, or not. -/
structure ExtensionWrite where
  /-- `type`. -/
  type : ℕ
  /-- The operations of `construct`. -/
  construct : List WriterEvent
  /-- The result of `construct` is not `EXT_RETURN_NOT_SENT`. -/
  sent : Bool

/-- `TlsConstructExtensions`, in a buffer with room for the types and the lengths. -/
def tlsConstructExtensions (exts : List ExtensionWrite) : List WriterEvent :=
  [.startSub 2 none] ++ exts.flatMap (fun ext =>
    [.save, .put ext.type 2 none, .startSub 2 none] ++ ext.construct ++
      [.close, if ext.sent then .drop else .restore]) ++ [.close]

/-- A message with an extension that is sent and one that is not. -/
def extensionsMessage : List WriterEvent :=
  [.put 1 1 none, .startSub 3 none] ++
    tlsConstructExtensions [⟨43, [.startSub 1 none, .put 0x304 2 none, .close], true⟩,
      ⟨51, [.memcpy [1, 2, 3] none], false⟩] ++ [.forceClose]

/-- It holds of a message with extensions, in a buffer with room for it. -/
theorem closesProper_of_run_extensionsMessage :
    ∃ t, Trace.run step (start false 1000 (List.replicate 32 0)) extensionsMessage = some t ∧
      t.outline.closed = [⟨1, 3, 9⟩, ⟨4, 2, 7⟩, ⟨8, 2, 3⟩, ⟨10, 1, 2⟩] ∧
      ∀ f ∈ t.outline.closed, f.StandsIn t.writer.bytes := by
  have hclosed : (Trace.run step (start false 1000 (List.replicate 32 0)) extensionsMessage).map
      (·.outline.closed) = some [⟨1, 3, 9⟩, ⟨4, 2, 7⟩, ⟨8, 2, 3⟩, ⟨10, 1, 2⟩] := by
    decide +kernel
  obtain ⟨t, ht, heq⟩ := Option.map_eq_some_iff.mp hclosed
  have hsound : Trace.Along step CloseSound (start false 1000 (List.replicate 32 0))
      extensionsMessage := by
    decide +kernel
  exact ⟨t, ht, heq, (closesProper_of_run false 1000 (List.replicate 32 0) extensionsMessage
    hsound).2 t ht⟩

/-- When the buffer moves while a sub-packet is open, `WPacketClose` stores through the address of
before. -/
theorem not_closesProper_of_moved : ¬ Trace.Along step ClosesProper
    (start false 1000 (List.replicate 4 0))
    [.startSub 2 none, .memcpy [1, 2, 3] (some 5000), .close] := by
  decide +kernel

end Writing

end Tbquic
