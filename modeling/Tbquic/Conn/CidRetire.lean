import Tbquic.Conn.CidPool

/-!
# Retiring the connection IDs of this endpoint

This endpoint issues its connection IDs into `conn.scid`, and those of the peer are in `conn.dcid`.
The parser of RETIRE_CONNECTION_ID looks for the sequence number in the second pool.
-/

namespace Tbquic

/-- `QuicCidIssue`, with the random bytes of the ID and its token. -/
def QuicCidPool.issue (p : QuicCidPool) (id statelessResetToken : List UInt8) : QuicCidPool :=
  { p.add { seq := p.maxSeq, id, statelessResetToken } with maxSeq := (p.maxSeq + 1) % 2 ^ 64 }

/-- `QuicCidMatch`. -/
def quicCidMatch (p : QuicCidPool) (id : List UInt8) : Bool := p.queue.any fun cid => cid.id = id

/-- `QuicConn`, with what frames change beside the pool of the peer. -/
structure CidPools where
  /-- The connection, with the pool `dcid` of the peer. -/
  conn : FrameConn
  /-- The pool `scid` of this endpoint. -/
  scid : QuicCidPool

/-- What happens to the pools. -/
inductive CidEvent
  /-- This endpoint issues a connection ID. -/
  | issue (id statelessResetToken : List UInt8)
  /-- A NEW_CONNECTION_ID frame arrives. -/
  | newConnId (frame : RPacket)
  /-- A RETIRE_CONNECTION_ID frame arrives. -/
  | retireConnId (frame : RPacket)

namespace CidPools

/-- The pools that `QuicConnInit` sets up. -/
def start (c : FrameConn) : CidPools where
  conn := { c with cidPool := { maxSeq := 0, num := 0, queue := [] } }
  scid := { maxSeq := 0, num := 0, queue := [] }

/-- A parser runs on the connection. A frame with an error leaves the connection as its parser
does. -/
def parse (parser : Prog Fail FrameState Unit) (s : CidPools) (frame : RPacket) :
    Option CidPools :=
  match parser ⟨frame, s.conn, false, false⟩ with
  | (.ok _, t) | (.error .ret, t) => some { s with conn := t.conn }
  | _ => none

/-- One event. -/
def step (mem : ℕ → Bool) (s : CidPools) : CidEvent → Option CidPools
  | .issue id token => some { s with scid := s.scid.issue id token }
  | .newConnId frame => s.parse (FrameState.quicFrameNewConnIdParser mem) frame
  | .retireConnId frame => s.parse FrameState.quicFrameRetireConnIdParser frame

/-- A sequence number leaves the pool of this endpoint, and nothing else changes. -/
structure Retires (s t : CidPools) (seq : ℕ) : Prop where
  /-- The connection ID is removed, the others stay. -/
  removed : t.scid.queue = s.scid.queue.filter fun cid => cid.seq ≠ seq
  /-- Only packets to the others still match. -/
  matched : ∀ id, quicCidMatch t.scid id = true ↔
    ∃ cid ∈ s.scid.queue, cid.seq ≠ seq ∧ cid.id = id
  /-- The connection IDs of the peer stay. -/
  received : t.conn.cidPool = s.conn.cidPool

/-- A RETIRE_CONNECTION_ID frame retires the connection ID that it names. -/
def RetireProper (mem : ℕ → Bool) (s : CidPools) (e : CidEvent) : Prop :=
  ∀ frame seq t, e = .retireConnId frame → frameNumbers 1 frame = some [seq] →
    step mem s e = some t → Retires s t seq

/-- A RETIRE_CONNECTION_ID frame names a connection ID that is not in the pool of this endpoint
and is not found in the pool of the peer: bit 31 of its number is clear, or the search in the
queue ends without it. -/
def NamesNothing (s : CidPools) (e : CidEvent) : Prop :=
  ∀ frame seq, e = .retireConnId frame → frameNumbers 1 frame = some [seq] →
    (∀ cid ∈ s.scid.queue, cid.seq ≠ seq) ∧
      (seq % 2 ^ 32 < 2 ^ 31 ∨ QuicCidPool.unlink seq s.conn.cidPool.queue = none)

variable {mem : ℕ → Bool} {s t : CidPools} {frame : RPacket}

/-- What a parser leaves. -/
theorem parse_eq_some {parser : Prog Fail FrameState Unit} (h : s.parse parser frame = some t) :
    ∃ r u, parser ⟨frame, s.conn, false, false⟩ = (r, u) ∧ t = { s with conn := u.conn } := by
  unfold parse at h
  split at h
  · rename_i heq
    exact ⟨_, _, heq, (Option.some.inj h).symm⟩
  · rename_i heq
    exact ⟨_, _, heq, (Option.some.inj h).symm⟩
  · cases h

/-- The numbers of the peer's connection IDs are not counted. -/
theorem step_maxSeq {e : CidEvent} (hs : s.conn.cidPool.maxSeq = 0)
    (h : step mem s e = some t) : t.conn.cidPool.maxSeq = 0 := by
  cases e with
  | issue id token =>
    cases h
    exact hs
  | newConnId frame =>
    obtain ⟨r, u, hrun, rfl⟩ := parse_eq_some h
    rcases newConnIdParser_cases hrun with ⟨hconn, -⟩ | ⟨_, _, _, -, -, ⟨_, -, -, -, hconn⟩ |
      ⟨-, -, hconn⟩⟩
    all_goals
      change u.conn.cidPool.maxSeq = 0
      rw [hconn]
      exact hs
  | retireConnId frame =>
    obtain ⟨r, u, hrun, rfl⟩ := parse_eq_some h
    change u.conn.cidPool.maxSeq = 0
    rw [FrameState.quicFrameRetireConnIdParser, FrameState.readVar] at hrun
    rcases hseq : quicVariableLengthDecode frame with ⟨a, pkt⟩
    cases a with
    | error e =>
      rw [Prog.bind_of_error (Prog.zoom_of_error hseq)] at hrun
      cases hrun
      exact hs
    | ok seq =>
      rw [Prog.bind_of_ok (Prog.zoom_of_ok hseq)] at hrun
      cases hrun
      change ((s.conn.cidPool.retire seq).getD s.conn.cidPool).maxSeq = 0
      cases hretire : s.conn.cidPool.retire seq with
      | none => exact hs
      | some p =>
        unfold QuicCidPool.retire at hretire
        split at hretire
        · cases hretire
        · obtain ⟨queue, -, rfl⟩ := Option.map_eq_some_iff.mp hretire
          exact hs

/-- A RETIRE_CONNECTION_ID frame that is read is looked up in the pool of the peer. -/
theorem step_retireConnId {seq : ℕ} (hseq : frameNumbers 1 frame = some [seq]) :
    step mem s (.retireConnId frame) = some { s with
      conn.cidPool := (s.conn.cidPool.retire seq).getD s.conn.cidPool } := by
  obtain ⟨pkt, hread, -⟩ := frameNumbers_cons hseq
  rw [step, parse, FrameState.quicFrameRetireConnIdParser, FrameState.readVar,
    Prog.bind_of_ok (Prog.zoom_of_ok hread)]
  rfl

/-- What `QuicCidRetire` finds in a pool whose numbers are not counted. -/
theorem retire_eq_none_iff {p : QuicCidPool} {seq : ℕ} (hp : p.maxSeq = 0) :
    p.retire seq = none ↔ seq % 2 ^ 32 < 2 ^ 31 ∨ QuicCidPool.unlink seq p.queue = none := by
  have hge : quicGe seq p.maxSeq ↔ seq % 2 ^ 32 < 2 ^ 31 := by
    rw [quicGe_iff_mod, hp]
    omega
  unfold QuicCidPool.retire
  split
  · rename_i h
    exact iff_of_true rfl (.inl (hge.mp h))
  · rename_i h
    rw [Option.map_eq_none_iff, or_iff_right (fun hlt => h (hge.mpr hlt))]

/-- A pool from which a connection ID is retired changes. -/
theorem retire_getD_eq_iff {p : QuicCidPool} {seq : ℕ} :
    (p.retire seq).getD p = p ↔ p.retire seq = none := by
  cases hretire : p.retire seq with
  | none => exact iff_of_true rfl rfl
  | some q =>
    refine iff_of_false (fun heq => ?_) fun h => (by cases h)
    change q = p at heq
    subst heq
    unfold QuicCidPool.retire at hretire
    split at hretire
    · cases hretire
    · obtain ⟨queue, -, heq⟩ := Option.map_eq_some_iff.mp hretire
      have hnum := congrArg QuicCidPool.num heq
      change q.num - 1 = q.num at hnum
      omega

/-- A frame retires what it names exactly when it names nothing. -/
theorem retireProper_iff {e : CidEvent} (hs : s.conn.cidPool.maxSeq = 0) :
    RetireProper mem s e ↔ NamesNothing s e := by
  refine forall_congr' fun frame => forall_congr' fun seq => ?_
  rw [forall_comm]
  refine forall_congr' fun he => ?_
  subst he
  rw [forall_comm]
  refine forall_congr' fun hseq => ?_
  have hreceived := (@retire_getD_eq_iff s.conn.cidPool seq).trans
    (retire_eq_none_iff hs)
  constructor
  · intro h
    obtain ⟨hremoved, -, hkept⟩ := h _ (step_retireConnId hseq)
    refine ⟨fun cid hcid => ?_, hreceived.mp hkept⟩
    exact of_decide_eq_true (List.filter_eq_self.mp hremoved.symm cid hcid)
  · rintro ⟨hissued, hmiss⟩ t ht
    rw [step_retireConnId hseq] at ht
    cases ht
    refine ⟨(List.filter_eq_self.mpr fun cid hcid => decide_eq_true (hissued cid hcid)).symm,
      fun id => ?_, hreceived.mpr hmiss⟩
    rw [quicCidMatch, List.any_eq_true]
    constructor
    · rintro ⟨cid, hcid, hid⟩
      exact ⟨cid, hcid, hissued cid hcid, of_decide_eq_true hid⟩
    · rintro ⟨cid, hcid, -, hid⟩
      exact ⟨cid, hcid, decide_eq_true hid⟩

/-- Every RETIRE_CONNECTION_ID frame retires what it names, and nothing else, in exactly the runs
in which all these frames name nothing. -/
theorem retireProper_along_iff (mem : ℕ → Bool) (c : FrameConn) (es : List CidEvent) :
    Trace.Along (step mem) (RetireProper mem) (start c) es ↔
      Trace.Along (step mem) NamesNothing (start c) es :=
  Trace.along_congr_of_invariant (fun s => s.conn.cidPool.maxSeq = 0)
    (fun _ _ hs => retireProper_iff hs) (fun _ _ _ hs _ h => step_maxSeq hs h) rfl

/-- A connection ID that was issued stays when the peer retires it. -/
theorem issued_not_retired :
    ¬ Trace.Along (step fun _ => true) (RetireProper fun _ => true) (start openedConn)
      [.issue [1] (List.replicate 16 0), .retireConnId (rPacketBufInit [0])] := by
  rintro ⟨-, hnext⟩
  have hseq : frameNumbers 1 (rPacketBufInit [0]) = some [0] := by decide +kernel
  have hretires := (hnext _ rfl).1 _ 0 _ rfl hseq (step_retireConnId hseq)
  have hremoved := hretires.removed
  revert hremoved
  decide +kernel

end CidPools

end Tbquic
