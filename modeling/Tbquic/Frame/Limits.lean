import Mathlib.Data.List.Perm.Basic
import Tbquic.Frame.Connection

/-!
# Limits of the connection

MAX_DATA and the two kinds of MAX_STREAMS frames raise the limits that the peer sets for the
connection. A limit is raised when `QUIC_GT` says that the value received is larger, so it is the
maximum of the values as long as no difference fools the macro.
-/

namespace Tbquic

/-- The limits that a peer can raise for the connection. -/
inductive LimitKind
  | data
  | streamsBidi
  | streamsUni
  deriving DecidableEq, Repr

namespace LimitKind

/-- The type of the frame that raises a limit. -/
def frameType : LimitKind → ℕ
  | data => 0x10
  | streamsBidi => 0x12
  | streamsUni => 0x13

/-- The parameter that holds a limit. -/
def get : LimitKind → QuicTransParams → ℕ
  | data => QuicTransParams.initialMaxData
  | streamsBidi => QuicTransParams.initialMaxStreamBidi
  | streamsUni => QuicTransParams.initialMaxStreamUni

/-- Change the parameter that holds a limit. -/
def set : LimitKind → ℕ → QuicTransParams → QuicTransParams
  | data => fun value param => { param with initialMaxData := value }
  | streamsBidi => fun value param => { param with initialMaxStreamBidi := value }
  | streamsUni => fun value param => { param with initialMaxStreamUni := value }

/-- A limit that is changed has the new value. -/
@[simp] theorem get_set (k : LimitKind) (value : ℕ) (param : QuicTransParams) :
    k.get (k.set value param) = value := by
  cases k <;> rfl

/-- The other limits keep their values. -/
theorem get_set_of_ne {k k' : LimitKind} (h : k' ≠ k) (value : ℕ) (param : QuicTransParams) :
    k'.get (k.set value param) = k'.get param := by
  cases k <;> cases k' <;> first | rfl | exact absurd rfl h

end LimitKind

/-- A frame that raises a limit. The type and the value may have any encoding. -/
structure LimitFrame where
  /-- The limit. -/
  kind : LimitKind
  /-- The type. -/
  type : VarLength
  /-- The value. -/
  value : VarLength
  /-- The type is that of the limit. -/
  type_value : type.value = kind.frameType

namespace LimitFrame

/-- The bytes of a frame. -/
def bytes (f : LimitFrame) : List UInt8 := f.type.bytes ++ f.value.bytes

/-- The payload of a packet with some frames. -/
def payload (fs : List LimitFrame) : List UInt8 := fs.flatMap bytes

/-- The update of the parameters at the end of `QuicFrameStreamParamUpdate`. -/
def raise (param : QuicTransParams) (f : LimitFrame) : QuicTransParams :=
  if quicGt f.value.value (f.kind.get param) then f.kind.set f.value.value param else param

/-- The values that some frames carry for a limit. -/
def values (k : LimitKind) (fs : List LimitFrame) : List ℕ :=
  (fs.filter fun f => f.kind = k).map fun f => f.value.value

/-- No frame of a sequence has a value whose difference with the maximum of the values before it
fools `QUIC_GT`. The maxima at the start are given. -/
def Comparable : (LimitKind → ℕ) → List LimitFrame → Prop
  | _, [] => True
  | maxima, f :: fs => GtAgrees f.value.value (maxima f.kind) ∧
      Comparable (Function.update maxima f.kind (max (maxima f.kind) f.value.value)) fs

instance decidableComparable : ∀ (maxima : LimitKind → ℕ) (fs : List LimitFrame),
    Decidable (Comparable maxima fs)
  | _, [] => .isTrue trivial
  | maxima, f :: fs =>
    have := decidableComparable
      (Function.update maxima f.kind (max (maxima f.kind) f.value.value)) fs
    inferInstanceAs (Decidable (_ ∧ _))

end LimitFrame

namespace FrameConn

/-- The limits of the connection. -/
def limit (c : FrameConn) (k : LimitKind) : ℕ := k.get c.streams.peerParam

/-- The connection behind a frame that raises a limit. -/
def raiseLimit (c : FrameConn) (f : LimitFrame) : FrameConn :=
  { c with streams.peerParam := f.raise c.streams.peerParam }

/-- The connection behind the frames of some packets. -/
def recvLimits (mem : ℕ → Bool) (c : FrameConn) (packets : List (List LimitFrame)) : FrameConn :=
  packets.foldl (fun c fs => (FrameState.recvPayload mem c (LimitFrame.payload fs)).2.conn) c

/-- In however many packets a sequence of frames or a part of its start arrives, every limit is the
maximum of its first value and of the values received for it. -/
def LimitsAreMaxima (mem : ℕ → Bool) (c : FrameConn) (fs : List LimitFrame) : Prop :=
  ∀ packets : List (List LimitFrame), packets.flatten <+: fs →
    (∀ gs ∈ packets, (LimitFrame.payload gs).length < 2 ^ 31) →
    ∀ k, (c.recvLimits mem packets).limit k =
      (LimitFrame.values k packets.flatten).foldl max (c.limit k)

end FrameConn

namespace LimitFrame

variable {mem : ℕ → Bool} {c : FrameConn} {f : LimitFrame} {fs gs : List LimitFrame}

/-- The parser of a frame that raises a limit. -/
theorem frameParser_limit (mem : ℕ → Bool) (k : LimitKind) :
    FrameState.frameParser mem k.frameType =
      some (FrameState.quicFrameStreamParamUpdate k.get k.set) := by
  cases k <;> rfl

/-- A value is read and compared with the limit. -/
theorem paramUpdate_append (k : LimitKind) (v : VarLength) (past : List UInt8) {rest : List UInt8}
    (c : FrameConn) (hrest : (v.bytes ++ rest).length < 2 ^ 31) :
    FrameState.quicFrameStreamParamUpdate k.get k.set ⟨⟨past, v.bytes ++ rest⟩, c, false, false⟩ =
      (.ok (), ⟨⟨past ++ v.bytes, rest⟩,
        { c with streams.peerParam :=
            if quicGt v.value (k.get c.streams.peerParam) then k.set v.value c.streams.peerParam
            else c.streams.peerParam }, false, false⟩) := by
  have hread : FrameState.readVar ⟨⟨past, v.bytes ++ rest⟩, c, false, false⟩ =
      (.ok v.value, ⟨⟨past ++ v.bytes, rest⟩, c, false, false⟩) :=
    Prog.zoom_of_ok (v.decode_append past hrest)
  rw [FrameState.quicFrameStreamParamUpdate, Prog.bind_of_ok hread]
  unfold FrameState.connection FrameConn.withStreams
  rw [Prog.zoom_apply, Prog.modify_apply]
  dsimp only
  split_ifs <;> rfl

/-- A frame has two to sixteen bytes. -/
theorem bytes_length (f : LimitFrame) : 2 ≤ f.bytes.length ∧ f.bytes.length ≤ 16 := by
  have htype := f.type.tail_length_le
  have hvalue := f.value.tail_length_le
  rw [bytes, VarLength.bytes, VarLength.bytes, List.length_append, List.length_cons,
    List.length_cons]
  omega

/-- The frames of a packet raise the limits one after the other. -/
theorem loop_payload (fs : List LimitFrame) (past : List UInt8) (c : FrameConn) {fuel : ℕ}
    (flags : FrameFlags) (hlen : (payload fs).length < 2 ^ 31)
    (hfuel : (payload fs).length < fuel) :
    ∃ flags', quicFrameLoop (FrameState.frameHandlers mem) fuel flags
        ⟨⟨past, payload fs⟩, c, false, false⟩ =
      (.ok flags', ⟨⟨past ++ payload fs, []⟩, fs.foldl FrameConn.raiseLimit c, false, false⟩) := by
  induction fs generalizing past c fuel flags with
  | nil =>
    obtain ⟨fuel, rfl⟩ := Nat.exists_eq_succ_of_ne_zero (Nat.ne_zero_of_lt hfuel)
    refine ⟨flags, ?_⟩
    have hloop := @quicFrameLoop_nil FrameState (FrameState.frameHandlers mem) fuel flags
      ⟨⟨past, []⟩, c, false, false⟩ rfl
    rw [show payload [] = [] from rfl, List.append_nil]
    exact hloop
  | cons f fs ih =>
    obtain ⟨fuel, rfl⟩ := Nat.exists_eq_succ_of_ne_zero (Nat.ne_zero_of_lt hfuel)
    have hsplit : payload (f :: fs) = f.type.bytes ++ (f.value.bytes ++ payload fs) := by
      rw [payload, List.flatMap_cons, bytes, List.append_assoc]
      rfl
    have hsize := f.bytes_length.1
    rw [bytes, List.length_append] at hsize
    rw [hsplit] at hlen hfuel ⊢
    have htype : f.kind.frameType < quicFrameTypeMax ∧ f.kind.frameType ≠ quicFrameTypePadding := by
      cases f.kind <;> decide
    have hdecode : quicVariableLengthDecode ((FrameState.frameHandlers mem).pkt
        ⟨⟨past, f.type.bytes ++ (f.value.bytes ++ payload fs)⟩, c, false, false⟩) = _ :=
      f.type.decode_append past hlen
    simp only [List.length_append] at hlen hfuel
    have hupdate := paramUpdate_append f.kind f.value (past ++ f.type.bytes) c
      (show (f.value.bytes ++ payload fs).length < 2 ^ 31 by
        rw [List.length_append]
        omega)
    obtain ⟨flags', hloop⟩ := ih (past ++ f.type.bytes ++ f.value.bytes) (c.raiseLimit f)
      (flags.add f.kind.frameType) (by omega) (show (payload fs).length < fuel by omega)
    refine ⟨flags', ?_⟩
    rw [quicFrameLoop_of_type (FrameState.frameHandlers mem) hdecode, f.type_value, quicFrameRound,
      Prog.ensure_of_pos htype.1, Prog.pure_bind, if_neg htype.2]
    change (Prog.ofOption Fail.ret (FrameState.frameParser mem f.kind.frameType) >>= _) _ = _
    rw [frameParser_limit, Prog.ofOption_some, Prog.pure_bind]
    refine (Prog.bind_of_ok hupdate).trans ?_
    rw [show past ++ f.type.bytes ++ f.value.bytes ++ payload fs =
      past ++ (f.type.bytes ++ (f.value.bytes ++ payload fs)) by
        simp only [List.append_assoc]] at hloop
    exact hloop

/-- The connection behind a packet. -/
theorem recvPayload_conn (hlen : (payload fs).length < 2 ^ 31) :
    (FrameState.recvPayload mem c (payload fs)).2.conn = fs.foldl FrameConn.raiseLimit c := by
  obtain ⟨flags, hloop⟩ := @loop_payload mem fs [] c ((payload fs).length + 1) ⟨false, false⟩ hlen
    (Nat.lt_succ_self _)
  rw [FrameState.recvPayload]
  exact congrArg (fun r => r.2.conn) hloop

/-- The division into packets does not matter. -/
theorem recvLimits_eq (packets : List (List LimitFrame))
    (hlen : ∀ gs ∈ packets, (payload gs).length < 2 ^ 31) :
    c.recvLimits mem packets = packets.flatten.foldl FrameConn.raiseLimit c := by
  induction packets generalizing c with
  | nil => rfl
  | cons gs packets ih =>
    rw [List.forall_mem_cons] at hlen
    rw [List.flatten_cons, List.foldl_append, ← ih hlen.2, ← recvPayload_conn hlen.1]
    rfl

/-- The limits behind a frame. -/
theorem limit_raiseLimit (c : FrameConn) (f : LimitFrame) :
    (c.raiseLimit f).limit = Function.update c.limit f.kind
      (if quicGt f.value.value (c.limit f.kind) then f.value.value else c.limit f.kind) := by
  funext k
  change k.get (f.raise c.streams.peerParam) = _
  rw [raise]
  by_cases hk : k = f.kind
  · subst hk
    rw [Function.update_self, FrameConn.limit]
    split_ifs
    · rw [LimitKind.get_set]
    · rfl
  · rw [Function.update_of_ne hk]
    split_ifs
    · exact LimitKind.get_set_of_ne hk _ _
    · rfl

/-- The values of a sequence behind a frame. -/
theorem values_cons (k : LimitKind) (f : LimitFrame) (fs : List LimitFrame) (m : LimitKind → ℕ) :
    (values k (f :: fs)).foldl max (m k) =
      (values k fs).foldl max
        (Function.update m f.kind (max (m f.kind) f.value.value) k) := by
  unfold values
  by_cases hk : f.kind = k
  · subst hk
    rw [List.filter_cons_of_pos (by simp), List.map_cons, List.foldl_cons, Function.update_self]
  · rw [List.filter_cons_of_neg (by simpa using hk), Function.update_of_ne (Ne.symm hk)]

/-- A limit is raised to the maximum exactly when its difference with the value does not fool
`QUIC_GT`. -/
theorem raised_eq_max_iff {m v : ℕ} :
    (if quicGt v m then v else m) = max m v ↔ GtAgrees v m := by
  rw [gtAgrees_iff]
  by_cases hgt : quicGt v m
  · rw [if_pos hgt, iff_true_left hgt]
    have hne : v ≠ m := by
      rintro rfl
      rw [quicGt_iff_mod] at hgt
      omega
    omega
  · rw [if_neg hgt, iff_false_left hgt]
    omega

/-- Values whose differences do not fool `QUIC_GT` are accumulated to their maximum. -/
theorem limit_foldl (fs : List LimitFrame) (hfs : Comparable c.limit fs) (k : LimitKind) :
    (fs.foldl FrameConn.raiseLimit c).limit k = (values k fs).foldl max (c.limit k) := by
  induction fs generalizing c with
  | nil => rfl
  | cons f fs ih =>
    have hraise : (c.raiseLimit f).limit =
        Function.update c.limit f.kind (max (c.limit f.kind) f.value.value) := by
      rw [limit_raiseLimit, raised_eq_max_iff.mpr hfs.1]
    rw [List.foldl_cons, values_cons k f fs c.limit, ← hraise]
    refine ih ?_
    rw [hraise]
    exact hfs.2

/-- The start of a sequence is as comparable as the sequence. -/
theorem Comparable.of_prefix {m : LimitKind → ℕ} (h : gs <+: fs) (hfs : Comparable m fs) :
    Comparable m gs := by
  induction gs generalizing m fs with
  | nil => trivial
  | cons f gs ih =>
    obtain ⟨rest, rfl⟩ := h
    exact ⟨hfs.1, ih ⟨rest, rfl⟩ hfs.2⟩

/-- Limits that are maxima behind every start of a sequence were compared correctly. -/
theorem comparable_of_maxima (hmax : ∀ gs, gs <+: fs → ∀ k,
    (gs.foldl FrameConn.raiseLimit c).limit k = (values k gs).foldl max (c.limit k)) :
    Comparable c.limit fs := by
  induction fs generalizing c with
  | nil => trivial
  | cons f fs ih =>
    have hfirst := hmax [f] ⟨fs, rfl⟩ f.kind
    rw [values_cons, List.foldl_cons, List.foldl_nil, limit_raiseLimit, Function.update_self,
      Function.update_self] at hfirst
    have hagrees := raised_eq_max_iff.mp hfirst
    have hraise : (c.raiseLimit f).limit =
        Function.update c.limit f.kind (max (c.limit f.kind) f.value.value) := by
      rw [limit_raiseLimit, raised_eq_max_iff.mpr hagrees]
    refine ⟨hagrees, ?_⟩
    rw [← hraise]
    refine ih fun gs hgs k => ?_
    have hgs' := hmax (f :: gs) (List.cons_prefix_cons.mpr ⟨rfl, hgs⟩) k
    rwa [values_cons k f gs c.limit, ← hraise, List.foldl_cons] at hgs'

/-- The limits are the maxima of the values received, however these arrive, exactly when no
difference of a value with the maximum before it fools `QUIC_GT`. -/
theorem limitsAreMaxima_iff (mem : ℕ → Bool) (c : FrameConn) (fs : List LimitFrame) :
    c.LimitsAreMaxima mem fs ↔ Comparable c.limit fs := by
  constructor
  · intro h
    refine comparable_of_maxima fun gs hgs k => ?_
    have hflatten : (gs.map fun f => [f]).flatten = gs := by
      rw [← List.flatMap_def, List.flatMap_singleton']
    have hlen : ∀ ps ∈ gs.map fun f => [f], (payload ps).length < 2 ^ 31 := by
      intro ps hps
      obtain ⟨f, hf, rfl⟩ := List.mem_map.mp hps
      have hsize := f.bytes_length.2
      rw [payload, List.flatMap_singleton]
      omega
    have hmax := h (gs.map fun f => [f]) (hflatten.symm ▸ hgs) hlen k
    rwa [recvLimits_eq _ hlen, hflatten] at hmax
  · intro h packets hprefix hlen k
    rw [recvLimits_eq _ hlen]
    exact limit_foldl _ (h.of_prefix hprefix) k

/-- A MAX_DATA frame whose value has eight bytes. -/
def maxData (tail : List UInt8) (h : tail.length = 7) : LimitFrame where
  kind := .data
  type := ⟨0x10, [], by decide⟩
  value := ⟨0xC0, tail, by rw [h]; decide⟩
  type_value := by decide

/-- A value that is larger by `2 ^ 31` does not raise the limit. -/
theorem maxData_ignored : ¬ openedConn.LimitsAreMaxima (fun _ => true)
    [maxData [0, 0, 0, 0x80, 0, 0x10, 0] (by decide)] := by
  intro h
  have hlimit := h [[maxData [0, 0, 0, 0x80, 0, 0x10, 0] (by decide)]] (List.prefix_refl _)
    (by decide +kernel) .data
  revert hlimit
  decide +kernel

end LimitFrame

end Tbquic
