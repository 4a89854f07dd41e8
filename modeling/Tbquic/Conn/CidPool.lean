import Tbquic.Frame.Moves
import Tbquic.Lib.Trace

/-!
# The connection IDs of the peer

The pool of connection IDs that the peer issues in NEW_CONNECTION_ID frames. An ID is appended
where it arrives, and the removal of retired IDs stops at the first one that it keeps.
-/

namespace Tbquic

/-- The sequence numbers increase. -/
def CidsOrdered (queue : List QuicCid) : Prop := queue.Pairwise fun a b => a.seq < b.seq

instance (queue : List QuicCid) : Decidable (CidsOrdered queue) :=
  inferInstanceAs (Decidable (List.Pairwise _ _))

/-- The loop of `QuicCidRetirePriorTo` compares as the order does until it stops. -/
def RetiresRight (priorTo : ℕ) : List QuicCid → Prop
  | [] => True
  | cid :: queue =>
    if quicGe cid.seq priorTo then priorTo ≤ cid.seq
    else cid.seq < priorTo ∧ RetiresRight priorTo queue

/-- What is left of a pool when the connection IDs below a number are retired. -/
def keptCids (priorTo : ℕ) (queue : List QuicCid) : List QuicCid :=
  queue.filter fun cid => priorTo ≤ cid.seq

section Retire

variable {priorTo : ℕ} {queue : List QuicCid} {cid : QuicCid}

theorem CidsOrdered.kept (h : CidsOrdered queue) : CidsOrdered (keptCids priorTo queue) :=
  List.Pairwise.filter _ h

/-- A pool without retired entries is kept. -/
theorem keptCids_of_le (h : ∀ cid ∈ queue, priorTo ≤ cid.seq) : keptCids priorTo queue = queue :=
  List.filter_eq_self.mpr fun cid hcid => decide_eq_true (h cid hcid)

/-- The loop removes exactly the entries below the number when its comparisons are right. -/
theorem dropWhile_eq_kept_iff (h : CidsOrdered queue) :
    (queue.dropWhile fun cid => ¬ quicGe cid.seq priorTo) = keptCids priorTo queue ↔
      RetiresRight priorTo queue := by
  induction queue with
  | nil => exact iff_of_true rfl trivial
  | cons cid queue ih =>
    obtain ⟨hfirst, hrest⟩ := List.pairwise_cons.mp h
    rw [RetiresRight]
    by_cases hge : quicGe cid.seq priorTo
    · rw [if_pos hge, List.dropWhile_cons_of_neg (by simpa using hge)]
      constructor
      · intro heq
        have hmem : cid ∈ keptCids priorTo (cid :: queue) := heq ▸ List.mem_cons_self
        exact of_decide_eq_true (List.mem_filter.mp hmem).2
      · intro hle
        refine (keptCids_of_le fun other hother => ?_).symm
        rcases List.mem_cons.mp hother with rfl | hother
        · exact hle
        · exact hle.trans (hfirst other hother).le
    · rw [if_neg hge, List.dropWhile_cons_of_pos (by simpa using hge)]
      by_cases hlt : cid.seq < priorTo
      · rw [keptCids, List.filter_cons_of_neg (by simpa using hlt), and_iff_right hlt]
        exact ih hrest
      · refine iff_of_false (fun heq => ?_) fun hright => hlt hright.1
        have hmem : cid ∈ queue.dropWhile fun cid => ¬ quicGe cid.seq priorTo := by
          rw [heq]
          exact List.mem_filter.mpr ⟨List.mem_cons_self, decide_eq_true (not_lt.mp hlt)⟩
        have hself := hfirst cid ((List.dropWhile_sublist _).subset hmem)
        exact absurd hself (lt_irrefl _)

/-- The number of entries is counted down with them. -/
theorem retirePriorTo_num {p : QuicCidPool} (h : p.num = p.queue.length) :
    (p.retirePriorTo priorTo).num = (p.retirePriorTo priorTo).queue.length := by
  have hsplit := congrArg List.length
    (List.takeWhile_append_dropWhile (p := fun cid => decide ¬ quicGe cid.seq priorTo)
      (l := p.queue))
  rw [List.length_append] at hsplit
  change p.num - ((p.queue.takeWhile _).length : ℤ) = ((p.queue.dropWhile _).length : ℤ)
  omega

end Retire

/-- What a NEW_CONNECTION_ID frame says: Retire Prior To and the connection ID. -/
def readNewConnIdFrame : Prog Fail RPacket (ℕ × QuicCid) := do
  let seq ← quicVariableLengthDecode
  let retirePriorTo ← quicVariableLengthDecode
  let len ← quicVariableLengthDecode
  let id ← rPacketGetBytes len
  let statelessResetToken ← rPacketGetBytes quicStatelessResetTokenLen
  pure (retirePriorTo, { seq, id, statelessResetToken })

/-- A frame is read whole, and there are memory and room for its connection ID. -/
structure AddsCid (mem : ℕ → Bool) (c : FrameConn) (frame : RPacket) (priorTo : ℕ)
    (cid : QuicCid) : Prop where
  /-- The frame is read. -/
  read : (readNewConnIdFrame frame).1 = .ok (priorTo, cid)
  /-- The peer uses connection IDs. -/
  dcid : c.dcidLen ≠ 0
  /-- There is memory for the ID. -/
  memory : mem cid.id.length = true
  /-- `QuicActiveCidLimitCheck` behind the removal of the retired IDs. -/
  limit : ¬ quicGe (c.cidPool.retirePriorTo priorTo).num c.activeConnLimit

/-- Bytes that were read are as many as requested. -/
theorem rPacketGetBytes_length {len : ℕ} {pkt pkt' : RPacket} {bytes : List UInt8}
    (h : rPacketGetBytes len pkt = (.ok bytes, pkt')) : bytes.length = len := by
  obtain ⟨b, pkt₁, hpeek, hrest⟩ := Prog.bind_eq_ok.mp h
  have hbytes : b = bytes := by
    rw [Prog.modify_bind] at hrest
    cases hrest
    rfl
  unfold rPacketPeekBytes at hpeek
  split at hpeek
  · cases hpeek
  · split at hpeek
    · cases hpeek
    · rename_i hlong
      cases hpeek
      rw [← hbytes, List.length_take]
      exact min_eq_left (not_lt.mp hlong)

section Parser

variable {mem : ℕ → Bool} {frame : RPacket} {c : FrameConn} {r : Except Fail Unit} {t : FrameState}

/-- The end of the parser, behind the check of the limit. -/
theorem newConnIdEnd_cases {seq len : ℕ} {s : FrameState}
    (hrun : (do
      let id ← FrameState.quicDataParse mem len
      let statelessResetToken ← FrameState.readBytes quicStatelessResetTokenLen
      FrameState.connection (Prog.modify fun c =>
        { c with cidPool := c.cidPool.add { seq, id, statelessResetToken } })) s = (r, t)) :
    (∃ id pkt₁ token pkt₂, rPacketGetBytes len s.pkt = (.ok id, pkt₁) ∧
        rPacketGetBytes quicStatelessResetTokenLen pkt₁ = (.ok token, pkt₂) ∧ mem len = true ∧
        r = .ok () ∧ t.conn = { s.conn with
          cidPool := s.conn.cidPool.add { seq, id, statelessResetToken := token } }) ∨
      (¬ ∃ id pkt₁ token pkt₂, rPacketGetBytes len s.pkt = (.ok id, pkt₁) ∧
        rPacketGetBytes quicStatelessResetTokenLen pkt₁ = (.ok token, pkt₂) ∧ mem len = true) ∧
        r ≠ .ok () ∧ t.conn = s.conn := by
  rw [FrameState.quicDataParse, Prog.bind_assoc] at hrun
  by_cases hmem : mem len = true
  · rw [Prog.bind_of_ok (FrameState.check_of_pos hmem), Prog.bind_assoc] at hrun
    rcases hid : rPacketGetBytes len s.pkt with ⟨a, pkt₁⟩
    have hattempt : Prog.attempt (FrameState.readBytes len) s =
        (.ok a, { s with pkt := pkt₁ }) := by
      rw [Prog.attempt, FrameState.readBytes, Prog.zoom_apply, hid]
    rw [Prog.bind_of_ok hattempt] at hrun
    cases a with
    | error e =>
      refine .inr ⟨?_, ?_⟩
      · rintro ⟨id, pkt, -, -, hread, -⟩
        cases hread
      cases e with
      | ret =>
        dsimp only at hrun
        rw [Prog.bind_of_error (show FrameState.invalidFree { s with pkt := pkt₁ } = _ from rfl)]
          at hrun
        cases hrun
        exact ⟨fun h => (by cases h), rfl⟩
      | assert | ub | fuel =>
        dsimp only at hrun
        rw [Prog.fail_bind] at hrun
        cases hrun
        exact ⟨fun h => (by cases h), rfl⟩
    | ok id =>
      dsimp only at hrun
      rw [Prog.pure_bind] at hrun
      rcases htoken : rPacketGetBytes quicStatelessResetTokenLen pkt₁ with ⟨b, pkt₂⟩
      cases b with
      | error e =>
        rw [FrameState.readBytes, Prog.bind_of_error (Prog.zoom_of_error htoken)] at hrun
        cases hrun
        refine .inr ⟨?_, fun h => (by cases h), rfl⟩
        rintro ⟨id', pkt, token, pkt', hread, hread', -⟩
        cases hread
        rw [htoken] at hread'
        cases hread'
      | ok token =>
        rw [FrameState.readBytes, Prog.bind_of_ok (Prog.zoom_of_ok htoken)] at hrun
        cases hrun
        exact .inl ⟨id, pkt₁, token, pkt₂, rfl, htoken, hmem, rfl, rfl⟩
  · rw [Prog.bind_of_error (FrameState.check_of_neg hmem)] at hrun
    cases hrun
    refine .inr ⟨?_, fun h => (by cases h), rfl⟩
    rintro ⟨-, -, -, -, -, -, hyes⟩
    exact hmem hyes

/-- What a frame says, in terms of its parts. -/
theorem readNewConnIdFrame_ok_iff {seq priorTo len : ℕ} {pkt₁ pkt₂ pkt₃ : RPacket}
    (hseq : quicVariableLengthDecode frame = (.ok seq, pkt₁))
    (hprior : quicVariableLengthDecode pkt₁ = (.ok priorTo, pkt₂))
    (hlen : quicVariableLengthDecode pkt₂ = (.ok len, pkt₃)) {p : ℕ} {cid : QuicCid} :
    (readNewConnIdFrame frame).1 = .ok (p, cid) ↔ p = priorTo ∧ cid.seq = seq ∧
      ∃ pkt₄ pkt₅, rPacketGetBytes len pkt₃ = (.ok cid.id, pkt₄) ∧
        rPacketGetBytes quicStatelessResetTokenLen pkt₄ = (.ok cid.statelessResetToken, pkt₅) := by
  rw [readNewConnIdFrame, Prog.bind_of_ok hseq, Prog.bind_of_ok hprior, Prog.bind_of_ok hlen]
  rcases hid : rPacketGetBytes len pkt₃ with ⟨a, pkt₄⟩
  cases a with
  | error e =>
    rw [Prog.bind_of_error hid]
    refine iff_of_false (fun h => (by cases h)) ?_
    rintro ⟨_, _, pkt, pkt', hread, _⟩
    cases hread
  | ok id =>
    rw [Prog.bind_of_ok hid]
    rcases htoken : rPacketGetBytes quicStatelessResetTokenLen pkt₄ with ⟨b, pkt₅⟩
    cases b with
    | error e =>
      rw [Prog.bind_of_error htoken]
      refine iff_of_false (fun h => (by cases h)) ?_
      rintro ⟨_, _, pkt, pkt', hread, hread'⟩
      cases hread
      rw [htoken] at hread'
      cases hread'
    | ok token =>
      rw [Prog.bind_of_ok htoken]
      constructor
      · intro h
        cases h
        exact ⟨rfl, rfl, pkt₄, pkt₅, rfl, htoken⟩
      · rintro ⟨rfl, rfl, pkt, pkt', hread, hread'⟩
        cases hread
        rw [htoken] at hread'
        cases hread'
        rfl

/-- A NEW_CONNECTION_ID frame is refused before the pool is touched, or the retired IDs leave the
pool and its own is appended or not. -/
theorem newConnIdParser_cases
    (hrun : FrameState.quicFrameNewConnIdParser mem ⟨frame, c, false, false⟩ = (r, t)) :
    (t.conn = c ∧ r ≠ .ok () ∧ (frameNumbers 3 frame = none ∨ c.dcidLen = 0)) ∨
    ∃ seq priorTo len, frameNumbers 3 frame = some [seq, priorTo, len] ∧ c.dcidLen ≠ 0 ∧
      ((∃ cid, AddsCid mem c frame priorTo cid ∧ cid.seq = seq ∧ r = .ok () ∧
          t.conn = { c with cidPool := (c.cidPool.retirePriorTo priorTo).add cid }) ∨
        ((∀ p cid, ¬ AddsCid mem c frame p cid) ∧ r ≠ .ok () ∧
          t.conn = { c with cidPool := c.cidPool.retirePriorTo priorTo })) := by
  rw [FrameState.quicFrameNewConnIdParser, FrameState.readVar] at hrun
  rcases hseq : quicVariableLengthDecode frame with ⟨a, pkt₁⟩
  cases a with
  | error e =>
    rw [Prog.bind_of_error (Prog.zoom_of_error hseq)] at hrun
    cases hrun
    exact .inl ⟨rfl, fun h => (by cases h), .inl (by simp only [frameNumbers, hseq])⟩
  | ok seq =>
  rw [Prog.bind_of_ok (Prog.zoom_of_ok hseq)] at hrun
  rcases hprior : quicVariableLengthDecode pkt₁ with ⟨a, pkt₂⟩
  cases a with
  | error e =>
    rw [Prog.bind_of_error (Prog.zoom_of_error hprior)] at hrun
    cases hrun
    exact .inl ⟨rfl, fun h => (by cases h), .inl (by simp only [frameNumbers, hseq, hprior,
      Option.map_none])⟩
  | ok priorTo =>
  rw [Prog.bind_of_ok (Prog.zoom_of_ok hprior)] at hrun
  rcases hlen : quicVariableLengthDecode pkt₂ with ⟨a, pkt₃⟩
  cases a with
  | error e =>
    rw [Prog.bind_of_error (Prog.zoom_of_error hlen)] at hrun
    cases hrun
    exact .inl ⟨rfl, fun h => (by cases h), .inl (by simp only [frameNumbers, hseq, hprior, hlen,
      Option.map_none])⟩
  | ok len =>
  rw [Prog.bind_of_ok (Prog.zoom_of_ok hlen)] at hrun
  have hread {p : ℕ} {cid : QuicCid} := @readNewConnIdFrame_ok_iff frame seq _ len _ _ _
    hseq hprior hlen p cid
  by_cases hdcid : c.dcidLen ≠ 0
  swap
  · rw [Prog.bind_of_error (FrameState.check_of_neg (by exact hdcid))] at hrun
    cases hrun
    exact .inl ⟨rfl, fun h => (by cases h), .inr (not_not.mp hdcid)⟩
  refine .inr ⟨seq, priorTo, len, frameNumbers_three hseq hprior hlen, hdcid, ?_⟩
  have hretire (s : FrameState) : FrameState.connection (Prog.modify fun c : FrameConn =>
      { c with cidPool := c.cidPool.retirePriorTo priorTo }) s =
      (.ok (), { s with conn.cidPool := s.conn.cidPool.retirePriorTo priorTo }) := rfl
  rw [Prog.bind_of_ok (FrameState.check_of_pos (by exact hdcid)), Prog.bind_of_ok (hretire _)]
    at hrun
  by_cases hlimit : ¬ quicGe (c.cidPool.retirePriorTo priorTo).num c.activeConnLimit
  swap
  · rw [Prog.bind_of_error (FrameState.check_of_neg (by exact hlimit))] at hrun
    cases hrun
    refine .inr ⟨fun p cid hadds => ?_, fun h => (by cases h), rfl⟩
    obtain ⟨rfl, -⟩ := hread.mp hadds.read
    exact hlimit hadds.limit
  rw [Prog.bind_of_ok (FrameState.check_of_pos (by exact hlimit))] at hrun
  rcases newConnIdEnd_cases hrun with ⟨id, pkt₄, token, pkt₅, hid, htoken, hmem, rfl, ht⟩ |
    ⟨hnot, hr, ht⟩
  · refine .inl ⟨⟨seq, id, token⟩, ⟨?_, hdcid, ?_, hlimit⟩, rfl, rfl, ht⟩
    · exact hread.mpr ⟨rfl, rfl, pkt₄, pkt₅, hid, htoken⟩
    · rwa [rPacketGetBytes_length hid]
  · refine .inr ⟨fun p cid hadds => ?_, hr, ht⟩
    obtain ⟨rfl, rfl, pkt₄, pkt₅, hid, htoken⟩ := hread.mp hadds.read
    refine hnot ⟨cid.id, pkt₄, cid.statelessResetToken, pkt₅, hid, htoken, ?_⟩
    rw [← rPacketGetBytes_length hid]
    exact hadds.memory

end Parser

/-- A frame that is read whole has its first three numbers. -/
theorem readNewConnIdFrame_numbers {frame : RPacket} {priorTo : ℕ} {cid : QuicCid}
    (h : (readNewConnIdFrame frame).1 = .ok (priorTo, cid)) :
    ∃ len, frameNumbers 3 frame = some [cid.seq, priorTo, len] := by
  rcases hseq : quicVariableLengthDecode frame with ⟨a, pkt₁⟩
  cases a with
  | error e =>
    rw [readNewConnIdFrame, Prog.bind_of_error hseq] at h
    cases h
  | ok seq =>
  rcases hprior : quicVariableLengthDecode pkt₁ with ⟨a, pkt₂⟩
  cases a with
  | error e =>
    rw [readNewConnIdFrame, Prog.bind_of_ok hseq, Prog.bind_of_error hprior] at h
    cases h
  | ok prior =>
  rcases hlen : quicVariableLengthDecode pkt₂ with ⟨a, pkt₃⟩
  cases a with
  | error e =>
    rw [readNewConnIdFrame, Prog.bind_of_ok hseq, Prog.bind_of_ok hprior,
      Prog.bind_of_error hlen] at h
    cases h
  | ok len =>
    obtain ⟨rfl, hcid, -⟩ := (readNewConnIdFrame_ok_iff hseq hprior hlen).mp h
    exact ⟨len, hcid ▸ frameNumbers_three hseq hprior hlen⟩

/-- A connection with the NEW_CONNECTION_ID frames that it has read. -/
structure CidReceiver where
  /-- The connection. -/
  conn : FrameConn
  /-- The largest Retire Prior To so far. -/
  retired : ℕ
  /-- The frames that were accepted. -/
  accepted : List RPacket

namespace CidReceiver

/-- A connection whose pool `QuicCidPoolInit` has set up. -/
def start (c : FrameConn) : CidReceiver where
  conn := { c with cidPool := { maxSeq := 0, num := 0, queue := [] } }
  retired := 0
  accepted := []

/-- `QuicFrameNewConnIdParser` on the next frame. -/
def parse (mem : ℕ → Bool) (s : CidReceiver) (frame : RPacket) :
    Except Fail Unit × FrameState :=
  FrameState.quicFrameNewConnIdParser mem ⟨frame, s.conn, false, false⟩

/-- The largest Retire Prior To when the next frame is read. -/
def nextRetired (s : CidReceiver) (frame : RPacket) : ℕ :=
  match frameNumbers 3 frame with
  | some [_, priorTo, _] => max s.retired priorTo
  | _ => s.retired

/-- What is left when the next frame is read. -/
def after (mem : ℕ → Bool) (s : CidReceiver) (frame : RPacket) : CidReceiver where
  conn := (s.parse mem frame).2.conn
  retired := s.nextRetired frame
  accepted :=
    if (s.parse mem frame).1 = .ok () then s.accepted ++ [frame] else s.accepted

/-- The next frame is read. A frame with an error leaves the connection as its parser does. -/
def step (mem : ℕ → Bool) (s : CidReceiver) (frame : RPacket) : Option CidReceiver :=
  match (s.parse mem frame).1 with
  | .ok _ | .error .ret => some (s.after mem frame)
  | _ => none

/-- The connection IDs of the peer. -/
def queue (s : CidReceiver) : List QuicCid := s.conn.cidPool.queue

/-- The pool is ordered, counted, within the limit and without retired connection IDs. -/
structure PoolKept (s : CidReceiver) : Prop where
  /-- The sequence numbers increase. -/
  ordered : CidsOrdered s.queue
  /-- The number of entries is right. -/
  counted : s.conn.cidPool.num = s.queue.length
  /-- There are no more connection IDs than this endpoint allows. -/
  limited : s.queue.length ≤ s.conn.activeConnLimit
  /-- What the peer retired is gone. -/
  current : ∀ cid ∈ s.queue, s.retired ≤ cid.seq

/-- A frame keeps the pool, retires what it says, and changes nothing the second time. -/
structure PoolProper (mem : ℕ → Bool) (s : CidReceiver) (frame : RPacket) : Prop where
  /-- The pool is kept. -/
  kept : PoolKept (s.after mem frame)
  /-- `QuicCidRetirePriorTo` removes exactly the connection IDs below the number. -/
  retires : s.conn.dcidLen ≠ 0 → ∀ seq priorTo len,
    frameNumbers 3 frame = some [seq, priorTo, len] →
    (s.conn.cidPool.retirePriorTo priorTo).queue = keptCids priorTo s.queue
  /-- A frame that was accepted before changes nothing. -/
  repeated : frame ∈ s.accepted → (s.parse mem frame).2.conn.cidPool = s.conn.cidPool

/-- The comparisons of the loop of `QuicCidRetirePriorTo` are right, and a connection ID for
which there is room has a sequence number above all in the pool and not retired. -/
structure KeepsPool (mem : ℕ → Bool) (s : CidReceiver) (frame : RPacket) : Prop where
  /-- The loop stops at the first connection ID that is not retired. -/
  retires : s.conn.dcidLen ≠ 0 → ∀ seq priorTo len,
    frameNumbers 3 frame = some [seq, priorTo, len] → RetiresRight priorTo s.queue
  /-- A connection ID that is added comes in order. -/
  inOrder : s.conn.dcidLen ≠ 0 → ∀ priorTo cid,
    (readNewConnIdFrame frame).1 = .ok (priorTo, cid) → mem cid.id.length = true →
    ¬ quicGe (keptCids priorTo s.queue).length s.conn.activeConnLimit →
    s.retired ≤ cid.seq ∧ priorTo ≤ cid.seq ∧
      ∀ other ∈ keptCids priorTo s.queue, other.seq < cid.seq

/-- The connection ID of an accepted frame is in the pool or retired. -/
def Remembers (s : CidReceiver) (frame : RPacket) : Prop :=
  ∃ priorTo cid, (readNewConnIdFrame frame).1 = .ok (priorTo, cid) ∧ priorTo ≤ s.retired ∧
    (cid.seq < s.retired ∨ ∃ other ∈ s.queue, other.seq = cid.seq)

/-- What a run keeps. -/
structure Kept (s : CidReceiver) : Prop where
  /-- The pool is kept. -/
  pool : PoolKept s
  /-- A peer without connection IDs has none. -/
  empty : s.conn.dcidLen = 0 → s.queue = []
  /-- Accepted frames are remembered. -/
  accepted : ∀ frame ∈ s.accepted, Remembers s frame

variable {mem : ℕ → Bool} {s t : CidReceiver} {frame : RPacket}

/-- A step ends in what is left. -/
theorem step_eq_some (h : step mem s frame = some t) : t = s.after mem frame := by
  unfold step at h
  split at h
  · exact (Option.some.inj h).symm
  · exact (Option.some.inj h).symm
  · cases h

theorem nextRetired_of_numbers {seq priorTo len : ℕ}
    (h : frameNumbers 3 frame = some [seq, priorTo, len]) :
    s.nextRetired frame = max s.retired priorTo := by
  rw [nextRetired, h]

/-- Every frame before is at most as far as the next one. -/
theorem le_nextRetired : s.retired ≤ s.nextRetired frame := by
  unfold nextRetired
  split
  · exact le_max_left _ _
  · exact le_rfl

/-- A frame is refused without effect, or the retired connection IDs leave the pool and its own
is added or not. -/
theorem after_cases (mem : ℕ → Bool) (s : CidReceiver) (frame : RPacket) :
    ((s.after mem frame).conn = s.conn ∧ (s.after mem frame).accepted = s.accepted ∧
      (frameNumbers 3 frame = none ∨ s.conn.dcidLen = 0)) ∨
    ∃ seq priorTo len, frameNumbers 3 frame = some [seq, priorTo, len] ∧ s.conn.dcidLen ≠ 0 ∧
      ((∃ cid, AddsCid mem s.conn frame priorTo cid ∧
          (s.after mem frame).accepted = s.accepted ++ [frame] ∧
          (s.after mem frame).conn =
            { s.conn with cidPool := (s.conn.cidPool.retirePriorTo priorTo).add cid }) ∨
        ((∀ p cid, ¬ AddsCid mem s.conn frame p cid) ∧
          (s.after mem frame).accepted = s.accepted ∧
          (s.after mem frame).conn =
            { s.conn with cidPool := s.conn.cidPool.retirePriorTo priorTo })) := by
  have hcases := @newConnIdParser_cases mem frame s.conn _ _ rfl
  rcases hcases with ⟨hconn, hr, hwhy⟩ | ⟨seq, priorTo, len, hnumbers, hdcid, hrest⟩
  · exact .inl ⟨hconn, if_neg hr, hwhy⟩
  · refine .inr ⟨seq, priorTo, len, hnumbers, hdcid, ?_⟩
    rcases hrest with ⟨cid, hadds, -, hr, hconn⟩ | ⟨hnot, hr, hconn⟩
    · exact .inl ⟨cid, hadds, if_pos hr, hconn⟩
    · exact .inr ⟨hnot, if_neg hr, hconn⟩

/-- The numbers of a frame that is read whole are those of its parts. -/
theorem numbers_unique {seq priorTo len p : ℕ} {cid : QuicCid}
    (hnumbers : frameNumbers 3 frame = some [seq, priorTo, len])
    (hread : (readNewConnIdFrame frame).1 = .ok (p, cid)) : p = priorTo := by
  obtain ⟨len', hnumbers'⟩ := readNewConnIdFrame_numbers hread
  rw [hnumbers] at hnumbers'
  cases hnumbers'
  rfl

/-- Whether a connection ID is added, in terms of the connection IDs that are not retired. -/
theorem addsCid_iff {priorTo : ℕ} {cid : QuicCid} (hs : Kept s)
    (hretire : (s.conn.cidPool.retirePriorTo priorTo).queue = keptCids priorTo s.queue) :
    AddsCid mem s.conn frame priorTo cid ↔ (readNewConnIdFrame frame).1 = .ok (priorTo, cid) ∧
      s.conn.dcidLen ≠ 0 ∧ mem cid.id.length = true ∧
      ¬ quicGe (keptCids priorTo s.queue).length s.conn.activeConnLimit := by
  have hnum := @retirePriorTo_num priorTo _ hs.pool.counted
  rw [hretire] at hnum
  constructor
  · intro h
    exact ⟨h.read, h.dcid, h.memory, hnum ▸ h.limit⟩
  · rintro ⟨hread, hdcid, hmem, hlimit⟩
    exact ⟨hread, hdcid, hmem, hnum ▸ hlimit⟩

/-- Where the limit is not reached there is room for one more. -/
theorem lt_of_not_quicGe {n limit : ℕ} (hle : n ≤ limit) (h : ¬ quicGe n limit) : n < limit := by
  refine lt_of_le_of_ne hle fun heq => h ?_
  rw [heq, quicGe_iff_mod, sub_self]
  decide

/-- What `keptCids` leaves is not retired. -/
theorem current_kept {priorTo : ℕ} (hs : Kept s) :
    ∀ cid ∈ keptCids priorTo s.queue, max s.retired priorTo ≤ cid.seq := by
  intro cid hcid
  obtain ⟨hmem, hprior⟩ := List.mem_filter.mp hcid
  exact max_le (hs.pool.current cid hmem) (of_decide_eq_true hprior)

/-- The pool behind a frame that is read. -/
theorem poolKept_after {priorTo : ℕ} {cids : List QuicCid} (hs : Kept s)
    (hqueue : (s.after mem frame).queue = keptCids priorTo s.queue ++ cids)
    (hnum : (s.after mem frame).conn.cidPool.num = (s.after mem frame).queue.length)
    (hlimit : (s.after mem frame).conn.activeConnLimit = s.conn.activeConnLimit)
    (hretired : s.nextRetired frame = max s.retired priorTo) :
    PoolKept (s.after mem frame) ↔ CidsOrdered cids ∧
      (keptCids priorTo s.queue ++ cids).length ≤ s.conn.activeConnLimit ∧
      (∀ cid ∈ cids, max s.retired priorTo ≤ cid.seq ∧
        ∀ other ∈ keptCids priorTo s.queue, other.seq < cid.seq) := by
  have hordered : CidsOrdered (s.after mem frame).queue ↔ CidsOrdered cids ∧
      ∀ other ∈ keptCids priorTo s.queue, ∀ cid ∈ cids, other.seq < cid.seq := by
    rw [hqueue, CidsOrdered, List.pairwise_append]
    exact and_iff_right hs.pool.ordered.kept
  constructor
  · intro h
    obtain ⟨hcids, hlt⟩ := hordered.mp h.ordered
    refine ⟨hcids, hqueue ▸ hlimit ▸ h.limited, fun cid hcid => ⟨?_, fun other hother => ?_⟩⟩
    · rw [← hretired]
      exact h.current cid (hqueue ▸ List.mem_append_right _ hcid)
    · exact hlt other hother cid hcid
  · rintro ⟨hcids, hlen, hnew⟩
    refine ⟨hordered.mpr ⟨hcids, fun other hother cid hcid => (hnew cid hcid).2 other hother⟩,
      hnum, ?_, fun cid hcid => ?_⟩
    · rwa [hqueue, hlimit]
    · change s.nextRetired frame ≤ cid.seq
      rw [hretired]
      rw [hqueue] at hcid
      rcases List.mem_append.mp hcid with hold | hcid
      · exact current_kept hs cid hold
      · exact (hnew cid hcid).1

/-- A frame that is refused before the pool is touched keeps it. -/
theorem poolKept_of_same (hs : Kept s) (hconn : (s.after mem frame).conn = s.conn)
    (hwhy : frameNumbers 3 frame = none ∨ s.conn.dcidLen = 0) : PoolKept (s.after mem frame) := by
  have hqueue : (s.after mem frame).queue = s.queue := by rw [queue, queue, hconn]
  refine ⟨hqueue ▸ hs.pool.ordered, ?_, ?_, fun cid hcid => ?_⟩
  · rw [hqueue, hconn]
    exact hs.pool.counted
  · rw [hqueue, hconn]
    exact hs.pool.limited
  · rw [hqueue] at hcid
    rcases hwhy with hnone | hdcid
    · change s.nextRetired frame ≤ cid.seq
      rw [nextRetired, hnone]
      exact hs.pool.current cid hcid
    · rw [hs.empty hdcid] at hcid
      cases hcid

/-- A frame that was accepted is not added again in order. -/
theorem Remembers.not_inOrder {priorTo : ℕ} {cid : QuicCid} (h : Remembers s frame)
    (hread : (readNewConnIdFrame frame).1 = .ok (priorTo, cid)) (hretired : s.retired ≤ cid.seq) :
    ¬ ∀ other ∈ s.queue, other.seq < cid.seq := by
  obtain ⟨p, cid', hread', -, hcid⟩ := h
  rw [hread] at hread'
  cases hread'
  intro hlt
  rcases hcid with hcid | ⟨other, hother, hseq⟩
  · omega
  · exact absurd (hlt other hother) (by omega)

/-- A repeated frame retires nothing more. -/
theorem Remembers.retire_eq {seq priorTo len : ℕ} (hs : Kept s) (h : Remembers s frame)
    (hnumbers : frameNumbers 3 frame = some [seq, priorTo, len]) :
    keptCids priorTo s.queue = s.queue := by
  obtain ⟨p, cid, hread, hprior, -⟩ := h
  have hp := numbers_unique hnumbers hread
  refine keptCids_of_le fun cid hcid => ?_
  have hcurrent := hs.pool.current cid hcid
  omega

/-- What is retired of a pool that keeps its entries is nothing. -/
theorem retirePriorTo_eq {priorTo : ℕ} {p : QuicCidPool} (hnum : p.num = p.queue.length)
    (hqueue : (p.retirePriorTo priorTo).queue = p.queue) : p.retirePriorTo priorTo = p := by
  have hcount := @retirePriorTo_num priorTo _ hnum
  rw [hqueue, ← hnum] at hcount
  obtain ⟨maxSeq, num, queue⟩ := p
  exact congrArg₂ (QuicCidPool.mk maxSeq) hcount hqueue

/-- The loop of `QuicCidRetirePriorTo` on a pool that is kept. -/
theorem retire_eq_iff (hs : Kept s) (priorTo : ℕ) :
    (s.conn.cidPool.retirePriorTo priorTo).queue = keptCids priorTo s.queue ↔
      RetiresRight priorTo s.queue :=
  dropWhile_eq_kept_iff hs.pool.ordered

/-- The queue behind a frame whose connection ID is added. -/
theorem queue_of_added {priorTo : ℕ} {cid : QuicCid}
    (hretire : (s.conn.cidPool.retirePriorTo priorTo).queue = keptCids priorTo s.queue)
    (hconn : (s.after mem frame).conn =
      { s.conn with cidPool := (s.conn.cidPool.retirePriorTo priorTo).add cid }) :
    (s.after mem frame).queue = keptCids priorTo s.queue ++ [cid] := by
  rw [queue, hconn, ← hretire]
  rfl

/-- A connection ID that a proper frame adds comes in order. -/
theorem PoolProper.keepsPool (hs : Kept s) (h : PoolProper mem s frame) :
    KeepsPool mem s frame := by
  refine ⟨fun hdcid seq priorTo len hnumbers => ?_, fun hdcid p cid hread hmem hlimit => ?_⟩
  · exact (retire_eq_iff hs priorTo).mp (h.retires hdcid seq priorTo len hnumbers)
  rcases after_cases mem s frame with ⟨-, -, hwhy⟩ | ⟨seq, priorTo, len, hnumbers, -, hrest⟩
  · obtain ⟨len, hnumbers⟩ := readNewConnIdFrame_numbers hread
    rcases hwhy with hnone | hzero
    · rw [hnone] at hnumbers
      cases hnumbers
    · exact absurd hzero hdcid
  have hp := numbers_unique hnumbers hread
  subst hp
  have hretire := h.retires hdcid seq p len hnumbers
  rcases hrest with ⟨cid', hadds', -, hconn⟩ | ⟨hnot, -, -⟩
  · have hcid : cid' = cid := (Prod.mk.inj (Except.ok.inj (hadds'.read.symm.trans hread))).2
    subst hcid
    have hnew := ((poolKept_after hs (queue_of_added hretire hconn) h.kept.counted
      (by rw [hconn]; rfl) (nextRetired_of_numbers hnumbers)).mp h.kept).2.2
    obtain ⟨hcurrent, hlt⟩ := hnew cid' List.mem_cons_self
    exact ⟨(le_max_left _ _).trans hcurrent, (le_max_right _ _).trans hcurrent, hlt⟩
  · exact absurd ((addsCid_iff hs hretire).mpr ⟨hread, hdcid, hmem, hlimit⟩) (hnot p cid)

/-- A frame whose connection ID is added in order keeps the pool. -/
theorem KeepsPool.kept_of_added {seq priorTo len : ℕ} {cid : QuicCid} (hs : Kept s)
    (h : KeepsPool mem s frame) (hnumbers : frameNumbers 3 frame = some [seq, priorTo, len])
    (hadds : AddsCid mem s.conn frame priorTo cid)
    (hconn : (s.after mem frame).conn =
      { s.conn with cidPool := (s.conn.cidPool.retirePriorTo priorTo).add cid }) :
    PoolKept (s.after mem frame) ∧ frame ∉ s.accepted := by
  have hretire := (retire_eq_iff hs priorTo).mpr (h.retires hadds.dcid seq priorTo len hnumbers)
  obtain ⟨hread, hdcid, hmem, hlimit⟩ := (addsCid_iff hs hretire).mp hadds
  obtain ⟨hcurrent, hprior, hlt⟩ := h.inOrder hdcid priorTo cid hread hmem hlimit
  have hqueue := queue_of_added hretire hconn
  have hnum := @retirePriorTo_num priorTo _ hs.pool.counted
  have hle : (keptCids priorTo s.queue).length ≤ s.conn.activeConnLimit :=
    (List.length_filter_le _ _).trans hs.pool.limited
  refine ⟨(poolKept_after hs hqueue ?_ (by rw [hconn]; rfl)
    (nextRetired_of_numbers hnumbers)).mpr ⟨?_, ?_, ?_⟩, fun haccepted => ?_⟩
  · rw [hqueue, hconn, ← hretire, List.length_append, List.length_singleton, Nat.cast_add,
      ← hnum]
    rfl
  · exact List.pairwise_singleton _ _
  · rw [List.length_append]
    exact lt_of_not_quicGe hle hlimit
  · intro other hother
    rw [List.mem_singleton.mp hother]
    exact ⟨max_le hcurrent hprior, hlt⟩
  · have hremembers := hs.accepted frame haccepted
    rw [hremembers.retire_eq hs hnumbers] at hlt
    exact absurd hlt (hremembers.not_inOrder hread hcurrent)

/-- A frame whose connection ID is not added keeps the pool. -/
theorem kept_of_not_added {seq priorTo len : ℕ} (hs : Kept s)
    (hnumbers : frameNumbers 3 frame = some [seq, priorTo, len])
    (hretire : (s.conn.cidPool.retirePriorTo priorTo).queue = keptCids priorTo s.queue)
    (hconn : (s.after mem frame).conn =
      { s.conn with cidPool := s.conn.cidPool.retirePriorTo priorTo }) :
    PoolKept (s.after mem frame) := by
  have hqueue : (s.after mem frame).queue = keptCids priorTo s.queue ++ [] := by
    rw [queue, hconn, ← hretire, List.append_nil]
  refine (poolKept_after hs hqueue ?_ (by rw [hconn]; rfl)
    (nextRetired_of_numbers hnumbers)).mpr ⟨List.Pairwise.nil, ?_, ?_⟩
  · rw [queue, hconn]
    exact retirePriorTo_num hs.pool.counted
  · rw [List.append_nil]
    exact (List.length_filter_le _ _).trans hs.pool.limited
  · intro other hother
    cases hother

/-- A frame that keeps to the order is proper. -/
theorem KeepsPool.poolProper (hs : Kept s) (h : KeepsPool mem s frame) :
    PoolProper mem s frame := by
  have hall (hdcid : s.conn.dcidLen ≠ 0) (seq priorTo len : ℕ)
      (hnumbers : frameNumbers 3 frame = some [seq, priorTo, len]) :=
    (retire_eq_iff hs priorTo).mpr (h.retires hdcid seq priorTo len hnumbers)
  rcases after_cases mem s frame with ⟨hconn, -, hwhy⟩ |
    ⟨seq, priorTo, len, hnumbers, hdcid, hrest⟩
  · exact ⟨poolKept_of_same hs hconn hwhy, hall, fun _ => congrArg FrameConn.cidPool hconn⟩
  rcases hrest with ⟨cid, hadds, -, hconn⟩ | ⟨-, -, hconn⟩
  · obtain ⟨hkept, hnew⟩ := h.kept_of_added hs hnumbers hadds hconn
    exact ⟨hkept, hall, fun haccepted => absurd haccepted hnew⟩
  · have hretire := hall hdcid seq priorTo len hnumbers
    refine ⟨kept_of_not_added hs hnumbers hretire hconn, hall, fun haccepted => ?_⟩
    change (s.after mem frame).conn.cidPool = s.conn.cidPool
    rw [hconn]
    refine retirePriorTo_eq hs.pool.counted ?_
    rw [hretire, (hs.accepted frame haccepted).retire_eq hs hnumbers]
    rfl

/-- An accepted frame is remembered while the pool is retired and added to. -/
theorem Remembers.mono {other : RPacket} (h : Remembers s other)
    (hretired : s.retired ≤ t.retired)
    (hkept : ∀ cid ∈ s.queue, t.retired ≤ cid.seq → cid ∈ t.queue) : Remembers t other := by
  obtain ⟨priorTo, cid, hread, hprior, hcid⟩ := h
  refine ⟨priorTo, cid, hread, hprior.trans hretired, ?_⟩
  rcases hcid with hcid | ⟨entry, hentry, hseq⟩
  · exact .inl (hcid.trans_le hretired)
  · by_cases hlt : cid.seq < t.retired
    · exact .inl hlt
    · exact .inr ⟨entry, hkept entry hentry (hseq ▸ not_lt.mp hlt), hseq⟩

/-- A proper frame keeps what a run keeps. -/
theorem PoolProper.kept_after (h : PoolProper mem s frame) (hs : Kept s) :
    Kept (s.after mem frame) := by
  rcases after_cases mem s frame with ⟨hconn, haccepted, -⟩ |
    ⟨seq, priorTo, len, hnumbers, hdcid, hrest⟩
  · have hqueue : (s.after mem frame).queue = s.queue := by rw [queue, queue, hconn]
    refine ⟨h.kept, fun hzero => ?_, fun other hother => ?_⟩
    · rw [hqueue]
      rw [hconn] at hzero
      exact hs.empty hzero
    · rw [haccepted] at hother
      exact (hs.accepted other hother).mono le_nextRetired fun cid hcid _ => hqueue ▸ hcid
  have hretire := h.retires hdcid seq priorTo len hnumbers
  have hretired : (s.after mem frame).retired = max s.retired priorTo :=
    nextRetired_of_numbers hnumbers
  have hmono (hsub : keptCids priorTo s.queue ⊆ (s.after mem frame).queue) (other : RPacket)
      (hother : other ∈ s.accepted) : Remembers (s.after mem frame) other := by
    refine (hs.accepted other hother).mono le_nextRetired fun cid hcid hle => hsub ?_
    rw [hretired] at hle
    exact List.mem_filter.mpr ⟨hcid, decide_eq_true ((le_max_right _ _).trans hle)⟩
  rcases hrest with ⟨cid, hadds, haccepted, hconn⟩ | ⟨-, haccepted, hconn⟩
  · have hqueue := queue_of_added hretire hconn
    refine ⟨h.kept, fun hzero => ?_, fun other hother => ?_⟩
    · rw [hconn] at hzero
      exact absurd hzero hdcid
    · rw [haccepted] at hother
      rcases List.mem_append.mp hother with hother | hother
      · exact hmono (hqueue ▸ List.subset_append_left _ _) other hother
      · rw [List.mem_singleton.mp hother]
        refine ⟨priorTo, cid, hadds.read, hretired ▸ le_max_right _ _, .inr ⟨cid, ?_, rfl⟩⟩
        exact hqueue ▸ List.mem_append_right _ List.mem_cons_self
  · have hqueue : (s.after mem frame).queue = keptCids priorTo s.queue := by
      rw [queue, hconn, ← hretire]
    refine ⟨h.kept, fun hzero => ?_, fun other hother => ?_⟩
    · rw [hconn] at hzero
      exact absurd hzero hdcid
    · rw [haccepted] at hother
      exact hmono (hqueue ▸ fun _ hcid => hcid) other hother

/-- A new pool is kept. -/
theorem start_kept (c : FrameConn) : Kept (start c) where
  pool := ⟨List.Pairwise.nil, rfl, Nat.zero_le _, fun _ hcid => (by cases hcid)⟩
  empty _ := rfl
  accepted _ hframe := (by cases hframe)

/-- The pool is ordered, counted, within the limit and free of retired connection IDs, and
repeated frames change nothing, in exactly the runs in which every connection ID comes in order
and the comparisons of the retiring loop are right. -/
theorem poolProper_along_iff (mem : ℕ → Bool) (c : FrameConn) (frames : List RPacket) :
    Trace.Along (step mem) (PoolProper mem) (start c) frames ↔
      Trace.Along (step mem) (KeepsPool mem) (start c) frames := by
  refine Trace.along_congr_of_invariant Kept (fun s frame hs =>
    ⟨PoolProper.keepsPool hs, KeepsPool.poolProper hs⟩) (fun s frame t hs hok h => ?_)
    (start_kept c)
  rw [step_eq_some h]
  exact hok.kept_after hs

/-- NEW_CONNECTION_ID with a sequence number, nothing to retire and an ID of one byte. -/
def newConnIdFrame (seq : UInt8) : RPacket :=
  rPacketBufInit ([seq, 0, 1, seq] ++ List.replicate 16 seq)

/-- Of two connection IDs the second is overtaken by the third: the pool is out of order. -/
theorem pool_disordered :
    ¬ Trace.Along (step fun _ => true) (PoolProper fun _ => true) (start openedConn)
      [newConnIdFrame 2, newConnIdFrame 1] := by
  rintro ⟨-, hnext⟩
  have hread : ((start openedConn).parse (fun _ => true) (newConnIdFrame 2)).1 = .ok () := by
    decide +kernel
  have hstep : step (fun _ => true) (start openedConn) (newConnIdFrame 2) =
      some ((start openedConn).after (fun _ => true) (newConnIdFrame 2)) := by
    rw [step, hread]
  have hordered := (hnext _ hstep).1.kept.ordered
  revert hordered
  decide +kernel

end CidReceiver

end Tbquic
