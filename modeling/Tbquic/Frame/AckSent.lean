import Mathlib.Data.List.TakeWhile
import Tbquic.Frame.Ack
import Tbquic.Lib.Sweep

/-!
# Acknowledged packets

`QBufAckSentPkt` removes the packets of one range from the sent queue, from the newest packet
downwards. It starts at the newest packet only when the range before it ran to the end of the
queue.
-/

namespace Tbquic

/-- What happens to a packet with the range from `p.1` to `p.2`. -/
def ackSweep (p : ℕ × ℕ) : Sweep QBuff where
  stops qb := decide (¬ quicGt qb.pktNum p.2) && decide (quicGt p.1 qb.pktNum)
  takes qb := decide (¬ quicGt qb.pktNum p.2) && decide (¬ quicGt p.1 qb.pktNum)
  takes_of_stops qb h := by
    rw [Bool.and_eq_true, decide_eq_true_iff, decide_eq_true_iff] at h
    rw [Bool.and_eq_false_iff]
    exact Or.inr (decide_eq_false (not_not.mpr h.2))

/-- The effect of an acknowledged packet on its stream. -/
def ackEffect (q : QuicStreams) (qb : QBuff) : QuicStreams :=
  qBufStreamFlagsProc qb.streamId qb.flags q

/-- The loop of `QBufAckSentPkt` is a sweep. -/
theorem qBufAckLoop_eq (p : ℕ × ℕ) (l : List QBuff) (q : QuicStreams) :
    qBufAckLoop p.1 p.2 l q =
      ((ackSweep p).left l, l.any (ackSweep p).stops,
        ((ackSweep p).taken l).foldl ackEffect q) := by
  induction l generalizing q with
  | nil => rfl
  | cons qb l ih =>
    rw [qBufAckLoop, Sweep.left_cons, Sweep.taken_cons, List.any_cons]
    by_cases hpast : quicGt qb.pktNum p.2
    · simp [ackSweep, hpast, ih]
    · by_cases hstop : quicGt p.1 qb.pktNum
      · simp [ackSweep, hpast, hstop]
      · simp [ackSweep, hpast, hstop, ih, ackEffect]

/-- The state after a range. -/
def ackSwept (p : ℕ × ℕ) (s : FrameRecv) : FrameRecv :=
  { s with
    sentQueue := ((ackSweep p).left s.sentQueue.reverse).reverse
    streams := ((ackSweep p).taken s.sentQueue.reverse).foldl ackEffect s.streams }

/-- `QBufAckSentPkt` started at the newest packet is a sweep. -/
theorem qBufAckSentPkt_false_eq (p : ℕ × ℕ) (s : FrameRecv) :
    qBufAckSentPkt p.1 p.2 false s =
      (.ok (s.sentQueue.reverse.any (ackSweep p).stops), ackSwept p s) := by
  rw [qBufAckSentPkt_false, qBufAckLoop_eq, ackSwept]

/-- What a run of the parser over some ranges does to the sent packets, when `start` tells whether
the range before them returned a buffer. -/
structure AckRun (ws : List (Sweep QBuff)) (start : Bool) (s : FrameRecv)
    (run : Except Fail Unit × FrameRecv) : Prop where
  /-- No null pointer is followed exactly when only the last range returns a buffer. -/
  no_ub : run.1 ≠ .error .ub ↔
    (start = true → ws = []) ∧ Sweep.Unstopped ws s.sentQueue.reverse
  /-- The packets left are those left by the sweeps. -/
  sentQueue : run.1 ≠ .error .ub →
    run.2.sentQueue = (Sweep.leftBy ws s.sentQueue.reverse).reverse
  /-- The packets taken by the sweeps have their effect. -/
  streams : run.1 ≠ .error .ub →
    run.2.streams = (Sweep.takenBy ws s.sentQueue.reverse).foldl ackEffect s.streams

/-- A run over no ranges changes nothing. -/
theorem AckRun.nil {start : Bool} {s t : FrameRecv} {r : Except Fail Unit} (hr : r ≠ .error .ub)
    (hqueue : t.sentQueue = s.sentQueue) (hstreams : t.streams = s.streams) :
    AckRun [] start s (r, t) where
  no_ub := iff_of_true hr ⟨fun _ => rfl, trivial⟩
  sentQueue _ := by rw [Sweep.leftBy, List.reverse_reverse, hqueue]
  streams _ := hstreams

/-- A run over some ranges behind another one. -/
theorem AckRun.cons {ws : List (Sweep QBuff)} {p : ℕ × ℕ} {s : FrameRecv}
    {run : Except Fail Unit × FrameRecv}
    (h : AckRun ws (s.sentQueue.reverse.any (ackSweep p).stops) (ackSwept p s) run) :
    AckRun (ackSweep p :: ws) false s run := by
  have hqueue : (ackSwept p s).sentQueue.reverse = (ackSweep p).left s.sentQueue.reverse :=
    List.reverse_reverse _
  have hany : s.sentQueue.reverse.any (ackSweep p).stops = true → ws = [] ↔
      (ws ≠ [] → ∀ qb ∈ s.sentQueue.reverse, (ackSweep p).stops qb = false) := by
    rw [← not_imp_not, Bool.not_eq_true, List.any_eq_false]
    simp only [Bool.not_eq_true, ne_eq]
  constructor
  · rw [h.no_ub, hqueue, Sweep.Unstopped, hany]
    simp only [Bool.false_eq_true, false_imp_iff, true_and]
  · intro hrun
    rw [h.sentQueue hrun, hqueue, Sweep.leftBy]
  · intro hrun
    rw [h.streams hrun, hqueue, Sweep.takenBy, List.foldl_append]
    rfl

/-- The intervals before the first with a negative sign. -/
def ackPerformed (ps : List (ℤ × ℤ)) : List (ℕ × ℕ) :=
  (ps.takeWhile fun p => ¬ (SeemsNegative p.2 ∨ SeemsNegative p.1)).map toUint64Interval

/-- The parser runs over the further ranges before the first with a negative sign. -/
theorem frameRecvAck_runRanges (ps : List (ℤ × ℤ)) (start : Bool) (s : FrameRecv) :
    AckRun ((ackPerformed ps).map ackSweep) start s (frameRecvAck.runRanges ps start s) := by
  induction ps generalizing start s with
  | nil => exact AckRun.nil (fun h => by cases h) rfl rfl
  | cons p ps ih =>
    rw [AckHandlers.runRanges]
    by_cases hsign : SeemsNegative p.2 ∨ SeemsNegative p.1
    · have hnil : ackPerformed (p :: ps) = [] := by
        rw [ackPerformed, List.takeWhile_cons_of_neg, List.map_nil]
        rw [decide_eq_true_iff, not_not]
        exact hsign
      rw [hnil, Prog.ensure_of_neg (not_not.mpr hsign), Prog.fail_bind]
      exact AckRun.nil (fun h => by cases h) rfl rfl
    · have hcons : ackPerformed (p :: ps) = toUint64Interval p :: ackPerformed ps := by
        rw [ackPerformed, List.takeWhile_cons_of_pos, List.map_cons, ackPerformed]
        rw [decide_eq_true_iff]
        exact hsign
      rw [hcons, List.map_cons, Prog.ensure_of_pos hsign, Prog.pure_bind]
      cases start with
      | false =>
        have hcall : frameRecvAck.ackSentPkt (toUint64 p.1) (toUint64 p.2) false s = _ :=
          qBufAckSentPkt_false_eq (toUint64Interval p) s
        rw [Prog.bind_of_ok hcall]
        exact AckRun.cons (ih _ _)
      | true =>
        have hcall : frameRecvAck.ackSentPkt (toUint64 p.1) (toUint64 p.2) true s = _ :=
          qBufAckSentPkt_true (toUint64 p.1) (toUint64 p.2) s
        rw [Prog.bind_of_error hcall]
        constructor
        · simp
        · intro h
          exact absurd rfl h
        · intro h
          exact absurd rfl h

namespace AckFrame

variable (f : AckFrame)

/-- The ranges of a frame that the parser gets to, as 64-bit numbers. -/
def performed : List (ℕ × ℕ) :=
  if Tbquic.SeemsNegative f.firstSmallest then []
  else (toUint64 f.firstSmallest, f.largestAcked.value) ::
    ackPerformed (ackIntervals f.firstSmallest f.ranges)

/-- The sweeps of a frame over the sent packets. -/
def sweeps : List (Sweep QBuff) := f.performed.map ackSweep

/-- The parser runs over the ranges that it gets to. -/
theorem ackRun (s : FrameRecv) : AckRun f.sweeps false s (frameRecvAck.run f s) := by
  have hqueue : (frameRecvAck.raise f.largestAcked.value s).sentQueue = s.sentQueue := by
    change (ite _ _ _ : FrameRecv).sentQueue = _
    split_ifs <;> rfl
  have hstreams : (frameRecvAck.raise f.largestAcked.value s).streams = s.streams := by
    change (ite _ _ _ : FrameRecv).streams = _
    split_ifs <;> rfl
  rw [sweeps, performed, AckHandlers.run, Prog.modify_bind]
  by_cases hsign : Tbquic.SeemsNegative f.firstSmallest
  · rw [if_pos hsign, List.map_nil, Prog.ensure_of_neg (not_not.mpr hsign), Prog.fail_bind]
    exact AckRun.nil (fun h => by cases h) hqueue hstreams
  · have hcall : frameRecvAck.ackSentPkt (toUint64 f.firstSmallest) f.largestAcked.value false
        (frameRecvAck.raise f.largestAcked.value s) = _ :=
      qBufAckSentPkt_false_eq (toUint64 f.firstSmallest, f.largestAcked.value) _
    rw [if_neg hsign, List.map_cons, Prog.ensure_of_pos hsign, Prog.pure_bind,
      Prog.bind_of_ok hcall]
    have hrun := AckRun.cons (frameRecvAck_runRanges (ackIntervals f.firstSmallest f.ranges) _
      (ackSwept (toUint64 f.firstSmallest, f.largestAcked.value)
        (frameRecvAck.raise f.largestAcked.value s)))
    refine ⟨hqueue ▸ hrun.no_ub, ?_, ?_⟩
    · intro h
      rw [hrun.sentQueue h, hqueue]
    · intro h
      rw [hrun.streams h, hqueue, hstreams]

/-- A frame acknowledges a packet number. -/
def Covers (n : ℕ) : Prop := ∃ p ∈ f.intervals, p.1 ≤ n ∧ n ≤ p.2

instance (n : ℕ) : Decidable (f.Covers n) := inferInstanceAs (Decidable (∃ p ∈ _, _))

/-- What is required of a parser run: no null pointer is followed, exactly the packets that the
frame acknowledges are removed, and each of them has its effect once. -/
structure Acknowledged (s : FrameRecv) (run : Except Fail Unit × FrameRecv) : Prop where
  /-- No null pointer is followed. -/
  no_ub : run.1 ≠ .error .ub
  /-- The other packets are left in their order. -/
  sentQueue : run.2.sentQueue = s.sentQueue.filter fun qb => ¬ f.Covers qb.pktNum
  /-- Every packet that is removed has its effect once. -/
  streams : ∃ acked : List QBuff,
    acked.Perm (s.sentQueue.filter fun qb => f.Covers qb.pktNum) ∧
      run.2.streams = acked.foldl ackEffect s.streams

/-- A packet that stops a range other than the last is taken by an earlier range. -/
def Unstopped (queue : List QBuff) : Prop :=
  ∀ (earlier : List (Sweep QBuff)) (w next : Sweep QBuff) (later : List (Sweep QBuff)),
    f.sweeps = earlier ++ w :: next :: later →
      ∀ qb ∈ queue, w.stops qb = true → ∃ v ∈ earlier, v.takes qb = true

/-- The ranges that the parser gets to are those of the frame, and none of them but the last is
stopped. -/
structure Sweepable (queue : List QBuff) : Prop where
  /-- No range but the last is stopped. -/
  unstopped : f.Unstopped queue
  /-- A packet is acknowledged exactly when some range takes it, and the newer packets that stop
  this range are taken by earlier ones. -/
  covered : ∀ qb ∈ queue, f.Covers qb.pktNum ↔
    ∃ earlier w later, f.sweeps = earlier ++ w :: later ∧ w.takes qb = true ∧
      ∀ newer ∈ queue, qb.pktNum < newer.pktNum → w.stops newer = true →
        ∃ v ∈ earlier, v.takes newer = true

variable {f}

/-- No null pointer is followed exactly when no range but the last is stopped. -/
theorem no_ub_iff {s : FrameRecv} :
    (frameRecvAck.run f s).1 ≠ .error .ub ↔ f.Unstopped s.sentQueue := by
  rw [(f.ackRun s).no_ub, Sweep.unstopped_iff]
  simp only [Bool.false_eq_true, false_imp_iff, true_and, List.mem_reverse, Unstopped]

/-- The ranges of a run without null pointers take the packets that one of them gets to. -/
theorem mem_takenBy_sweeps {queue : List QBuff}
    (hsorted : queue.Pairwise fun a b => a.pktNum < b.pktNum)
    (h : Sweep.Unstopped f.sweeps queue.reverse) (qb : QBuff) :
    qb ∈ Sweep.takenBy f.sweeps queue.reverse ↔ qb ∈ queue ∧
      ∃ earlier w later, f.sweeps = earlier ++ w :: later ∧ w.takes qb = true ∧
        ∀ newer ∈ queue, qb.pktNum < newer.pktNum → w.stops newer = true →
          ∃ v ∈ earlier, v.takes newer = true := by
  rw [Sweep.mem_takenBy_iff (r := fun a b : QBuff => b.pktNum < a.pktNum)
    (fun a b hab hba => lt_asymm hab hba) (List.pairwise_reverse.mpr hsorted) h]
  simp only [Sweep.GetsTo, List.mem_reverse]

/-- A frame acknowledges what it should exactly when its ranges can sweep over the queue. -/
theorem acknowledged_iff (f : AckFrame) (s : FrameRecv) (past rest : List UInt8)
    (hlen : (f.bytes ++ rest).length < 2 ^ 31)
    (hsorted : s.sentQueue.Pairwise fun a b => a.pktNum < b.pktNum) :
    f.Acknowledged s (quicFrameAckParser { s with pkt := { past, rest := f.bytes ++ rest } }) ↔
      f.Sweepable s.sentQueue := by
  obtain ⟨pkt, hparser⟩ : ∃ pkt, frameRecvAck.parser
      { s with pkt := { past, rest := f.bytes ++ rest } } =
        ((frameRecvAck.run f s).1, { (frameRecvAck.run f s).2 with pkt }) :=
    AckHandlers.parser_append f past s hlen
  have hrun := f.ackRun s
  have hub := hrun.no_ub
  simp only [Bool.false_eq_true, false_imp_iff, true_and] at hub
  have hnodup : s.sentQueue.reverse.Nodup := by
    refine List.nodup_reverse.mpr (hsorted.imp ?_)
    rintro a b hab rfl
    exact lt_irrefl _ hab
  rw [quicFrameAckParser_eq, hparser]
  constructor
  · rintro ⟨hno, hqueue, -⟩
    have hunstopped := hub.mp hno
    refine ⟨no_ub_iff.mp hno, ?_⟩
    · intro qb hqb
      have htaken := mem_takenBy_sweeps hsorted hunstopped qb
      rw [and_iff_right hqb] at htaken
      rw [← htaken, ← not_iff_not, ← Sweep.mem_leftBy_iff hnodup (List.mem_reverse.mpr hqb),
        ← List.mem_reverse, ← hrun.sentQueue hno]
      rw [show (frameRecvAck.run f s).2.sentQueue = _ from hqueue, List.mem_filter,
        and_iff_right hqb, decide_eq_true_iff]
  · rintro ⟨hunstopped, hcovered⟩
    have hno := no_ub_iff.mpr hunstopped
    have hfree := hub.mp hno
    have htaken (qb : QBuff) : qb ∈ Sweep.takenBy f.sweeps s.sentQueue.reverse ↔
        qb ∈ s.sentQueue ∧ f.Covers qb.pktNum := by
      rw [mem_takenBy_sweeps hsorted hfree]
      exact and_congr_right fun hqb => (hcovered qb hqb).symm
    refine ⟨hno, ?_, ?_⟩
    · have hleft : Sweep.leftBy f.sweeps s.sentQueue.reverse =
          s.sentQueue.reverse.filter fun qb => ¬ f.Covers qb.pktNum := by
        refine Sweep.leftBy_eq_filter hnodup ?_
        intro qb hqb
        rw [htaken, and_iff_right (List.mem_reverse.mp hqb), decide_eq_false_iff_not, not_not]
      change (frameRecvAck.run f s).2.sentQueue = _
      rw [hrun.sentQueue hno, hleft, List.filter_reverse, List.reverse_reverse]
    · refine ⟨_, ?_, hrun.streams hno⟩
      refine (List.perm_ext_iff_of_nodup ?_ ?_).mpr ?_
      · have hperm := Sweep.takenBy_append_leftBy_perm f.sweeps s.sentQueue.reverse
        exact (hperm.nodup_iff.mpr hnodup).of_append_left
      · exact (List.nodup_reverse.mp hnodup).filter _
      · intro qb
        rw [htaken, List.mem_filter, decide_eq_true_iff]

/-- The bounds of a valid frame are at most its largest number. -/
theorem bounds_of_not_hasNegative (hvalid : ¬ f.HasNegative) {p : ℤ × ℤ} (hp : p ∈ f.intervals) :
    0 ≤ p.1 ∧ p.1 ≤ p.2 ∧ p.2 ≤ f.largestAcked.value := by
  have hlow : 0 ≤ p.1 := not_lt.mp fun hneg => hvalid ⟨p, hp, Or.inl hneg⟩
  have hfirst : f.firstSmallest ≤ f.largestAcked.value := by
    rw [firstSmallest]
    omega
  rw [intervals, List.mem_cons] at hp
  rcases hp with rfl | hp
  · exact ⟨hlow, hfirst, le_refl _⟩
  · have := ackIntervals_lt hp
    omega

/-- The parser gets to all ranges of a valid frame with small numbers. -/
theorem sweeps_of_small (hvalid : ¬ f.HasNegative) (hlargest : f.largestAcked.value < 2 ^ 31) :
    f.sweeps = f.intervals.map fun p => ackSweep (toUint64Interval p) := by
  have hsign : ∀ p ∈ f.intervals,
      ¬ (Tbquic.SeemsNegative p.2 ∨ Tbquic.SeemsNegative p.1) := by
    intro p hp
    have := bounds_of_not_hasNegative hvalid hp
    unfold Tbquic.SeemsNegative
    omega
  rw [intervals, List.forall_mem_cons] at hsign
  have hall : (ackIntervals f.firstSmallest f.ranges).takeWhile
      (fun p => ¬ (Tbquic.SeemsNegative p.2 ∨ Tbquic.SeemsNegative p.1)) =
        ackIntervals f.firstSmallest f.ranges := by
    rw [List.takeWhile_eq_self_iff]
    intro p hp
    exact decide_eq_true (hsign.2 p hp)
  have htop : toUint64Interval (f.firstSmallest, (f.largestAcked.value : ℤ)) =
      (toUint64 f.firstSmallest, f.largestAcked.value) := by
    rw [toUint64Interval, Prod.mk.injEq, eq_self_iff_true, true_and]
    unfold toUint64
    omega
  rw [sweeps, performed, if_neg fun h => hsign.1 (Or.inr h), ackPerformed, hall, intervals,
    List.map_cons, List.map_map, List.map_cons, htop]
  rfl

/-- Small numbers are compared as they are. -/
theorem ackSweep_of_small {p : ℤ × ℤ} (hlow : 0 ≤ p.1) (horder : p.1 ≤ p.2) (hhigh : p.2 < 2 ^ 31)
    {qb : QBuff} (hqb : qb.pktNum < 2 ^ 31) :
    ((ackSweep (toUint64Interval p)).stops qb = true ↔ (qb.pktNum : ℤ) < p.1) ∧
      ((ackSweep (toUint64Interval p)).takes qb = true ↔ p.1 ≤ qb.pktNum ∧ qb.pktNum ≤ p.2) := by
  have hpast : quicGt (qb.pktNum : ℤ) (toUint64 p.2) ↔ p.2 < qb.pktNum := by
    rw [toUint64_eq (by omega) (by omega), quicGt_iff] <;> omega
  have hstop : quicGt (toUint64 p.1 : ℤ) qb.pktNum ↔ (qb.pktNum : ℤ) < p.1 := by
    rw [toUint64_eq hlow (by omega), quicGt_iff] <;> omega
  constructor
  · rw [ackSweep, toUint64Interval, Bool.and_eq_true, decide_eq_true_iff, decide_eq_true_iff,
      hpast, hstop]
    omega
  · rw [ackSweep, toUint64Interval, Bool.and_eq_true, decide_eq_true_iff, decide_eq_true_iff,
      hpast, hstop]
    omega

/-- With small numbers the ranges of a valid frame can sweep over the queue exactly when there is
one range, or no packet is below the first. -/
theorem sweepable_iff_of_small (hvalid : ¬ f.HasNegative) (hlargest : f.largestAcked.value < 2 ^ 31)
    {queue : List QBuff} (hqueue : ∀ qb ∈ queue, qb.pktNum < 2 ^ 31) :
    f.Sweepable queue ↔ f.ranges = [] ∨ ∀ qb ∈ queue, f.firstSmallest ≤ qb.pktNum := by
  have hsweeps := sweeps_of_small hvalid hlargest
  have hcompare {p : ℤ × ℤ} (hp : p ∈ f.intervals) {qb : QBuff} (hqb : qb ∈ queue) :=
    have hbounds := bounds_of_not_hasNegative hvalid hp
    ackSweep_of_small hbounds.1 hbounds.2.1 (by omega) (hqueue qb hqb)
  have hfirst : (f.firstSmallest, (f.largestAcked.value : ℤ)) ∈ f.intervals := List.mem_cons_self
  rw [intervals, List.map_cons] at hsweeps
  constructor
  · rintro ⟨hunstopped, -⟩
    rw [or_iff_not_imp_left]
    intro hranges qb hqb
    obtain ⟨r, ranges, hcons⟩ := List.exists_cons_of_ne_nil hranges
    rw [hcons, ackIntervals, List.map_cons] at hsweeps
    by_contra hbelow
    obtain ⟨v, hv, -⟩ := hunstopped [] _ _ _ hsweeps qb hqb
      ((hcompare hfirst hqb).1.mpr (not_le.mp hbelow))
    cases hv
  · intro h
    have hlater {p : ℤ × ℤ} (hp : p ∈ ackIntervals f.firstSmallest f.ranges) {qb : QBuff}
        (hqb : qb ∈ queue) : p.2 < qb.pktNum := by
      have hne : f.ranges ≠ [] := by
        intro hnil
        rw [hnil] at hp
        cases hp
      exact (ackIntervals_lt hp).2.trans_le (h.resolve_left hne qb hqb)
    refine ⟨?_, ?_⟩
    · intro earlier w next later hsplit qb hqb hstops
      exfalso
      rw [hsweeps] at hsplit
      cases earlier with
      | nil =>
        obtain ⟨rfl, htail⟩ := List.cons.inj hsplit
        have hne : f.ranges ≠ [] := by
          intro hnil
          rw [hnil] at htail
          cases htail
        have hqueue := h.resolve_left hne qb hqb
        have hbelow := (hcompare hfirst hqb).1.mp hstops
        exact absurd hqueue (not_le.mpr hbelow)
      | cons v earlier =>
        have hw : w ∈ (ackIntervals f.firstSmallest f.ranges).map
            fun p => ackSweep (toUint64Interval p) := by
          rw [(List.cons.inj hsplit).2]
          exact List.mem_append_right earlier List.mem_cons_self
        obtain ⟨p, hp, rfl⟩ := List.mem_map.mp hw
        have hbelow := (hcompare (List.mem_cons_of_mem _ hp) hqb).1.mp hstops
        have habove := hlater hp hqb
        have horder := (ackIntervals_lt hp).1
        omega
    · intro qb hqb
      constructor
      · rintro ⟨p, hp, hlow, hhigh⟩
        rcases List.mem_cons.mp hp with rfl | hp
        · refine ⟨[], _, _, hsweeps, (hcompare hfirst hqb).2.mpr ⟨hlow, hhigh⟩, ?_⟩
          intro newer hnewer hlt hstops
          have hbelow := (hcompare hfirst hnewer).1.mp hstops
          dsimp only at hlow hbelow
          omega
        · exact absurd hhigh (not_le.mpr (hlater hp hqb))
      · rintro ⟨earlier, w, later, hsplit, htakes, -⟩
        have hw : w ∈ f.sweeps := by
          rw [hsplit]
          exact List.mem_append_right earlier List.mem_cons_self
        rw [sweeps_of_small hvalid hlargest] at hw
        obtain ⟨p, hp, rfl⟩ := List.mem_map.mp hw
        exact ⟨p, hp, (hcompare hp hqb).2.mp htakes⟩

end AckFrame

/-- A packet that was sent, with the FIN of stream 4. -/
def sentPacket (n : ℕ) : QBuff :=
  { qBuffNew 0 0 with
    pktNum := n, flags := qbuffFlagsStreamFin, streamId := 4, fits := Nat.zero_le _ }

/-- A connection that has sent some packets. -/
def sentPackets (ns : List ℕ) : FrameRecv where
  pkt := { past := [], rest := [] }
  streams := openedStreams
  largestAcked := 0
  sentQueue := ns.map sentPacket
  reads := []

/-- Two ranges acknowledge the packets 3 and 5 when no packet is below them. -/
theorem twoRangesAck_acknowledged : twoRangesAck.Acknowledged (sentPackets [3, 5])
    (quicFrameAckParser { sentPackets [3, 5] with
      pkt := { past := [], rest := twoRangesAck.bytes ++ [] } }) := by
  refine (AckFrame.acknowledged_iff twoRangesAck (sentPackets [3, 5]) [] [] (by decide)
    (by decide)).mpr ?_
  exact (AckFrame.sweepable_iff_of_small (by decide) (by decide) (by decide)).mpr
    (Or.inr (by decide))

/-- The second of two ranges follows a null pointer when the packet 1 was sent. -/
theorem twoRangesAck_not_acknowledged : ¬ twoRangesAck.Acknowledged (sentPackets [1, 3])
    (quicFrameAckParser { sentPackets [1, 3] with
      pkt := { past := [], rest := twoRangesAck.bytes ++ [] } }) := by
  intro h
  refine h.no_ub ?_
  decide +kernel

/-- The part of a connection that receives ACK frames, with a record of the ranges. -/
structure AckTrace where
  /-- The connection. -/
  recv : FrameRecv
  /-- The arguments `smallest` and `largest` of the calls of `QBufAckSentPkt`. -/
  calls : List (ℕ × ℕ)

namespace AckTrace

/-- A routine on the connection. -/
def onRecv {α : Type} (m : Prog Fail FrameRecv α) : Prog Fail AckTrace α :=
  Prog.zoom AckTrace.recv (fun recv s => { s with recv }) m

/-- Record a call. -/
def record (smallest largest : ℕ) : Prog Fail AckTrace Unit :=
  Prog.modify fun s => { s with calls := s.calls ++ [(smallest, largest)] }

end AckTrace

open AckTrace

/-- The handlers of a connection that record the calls of `QBufAckSentPkt`. -/
def ackTrace : AckHandlers AckTrace where
  setPkt pkt s := { s with recv := frameRecvAck.setPkt pkt s.recv }
  readVar := onRecv frameRecvAck.readVar
  raise largest s := { s with recv := frameRecvAck.raise largest s.recv }
  ackSentPkt smallest largest start := do
    record smallest largest
    onRecv (frameRecvAck.ackSentPkt smallest largest start)
  readVar_setPkt _ _ := rfl
  raise_setPkt largest pkt s := by
    rw [frameRecvAck.raise_setPkt]
  ackSentPkt_setPkt smallest largest start pkt s := by
    have hset := frameRecvAck.ackSentPkt_setPkt smallest largest start pkt s.recv
    simp only [record, onRecv, Prog.modify_bind, Prog.zoom_apply, hset]

/-- A call of `QBufAckSentPkt` is recorded. -/
theorem ackTrace_ackSentPkt (smallest largest : ℕ) (start : Bool) (s : AckTrace) :
    ackTrace.ackSentPkt smallest largest start s =
      ((qBufAckSentPkt smallest largest start s.recv).1,
        { recv := (qBufAckSentPkt smallest largest start s.recv).2
          calls := s.calls ++ [(smallest, largest)] }) :=
  Prog.modify_bind _ _ s

/-- The record of a call changes nothing. -/
theorem ackTrace_ackSentPkt_image (smallest largest : ℕ) (start : Bool) :
    Prog.Image AckTrace.recv (ackTrace.ackSentPkt smallest largest start)
      (frameRecvAck.ackSentPkt smallest largest start) := by
  intro s
  rw [ackTrace_ackSentPkt]
  rfl

/-- The further ranges are read as by the routine without the record. -/
theorem ackTrace_ranges_image (smallest : ℕ) (start : Bool) (count : ℕ) :
    Prog.Image AckTrace.recv (ackTrace.ranges smallest start count)
      (frameRecvAck.ranges smallest start count) := by
  induction count generalizing smallest start with
  | zero => exact Prog.image_pure ()
  | succ count ih =>
    refine Prog.Image.bind (fun _ => rfl) fun gap => Prog.Image.bind (fun _ => rfl) fun len => ?_
    refine Prog.Image.bind (Prog.image_ensure _ _) fun _ => ?_
    exact Prog.Image.bind (ackTrace_ackSentPkt_image _ _ start) fun start => ih _ start

/-- The record changes nothing: the connection is left as by `QuicFrameAckParser`, which returns the
same. -/
theorem ackTrace_parser_image : Prog.Image AckTrace.recv ackTrace.parser quicFrameAckParser := by
  rw [quicFrameAckParser_eq]
  refine Prog.Image.bind (fun _ => rfl) fun largest => ?_
  refine Prog.Image.bind (Prog.image_modify fun _ => rfl) fun _ => ?_
  refine Prog.Image.bind (fun _ => rfl) fun delay => Prog.Image.bind (fun _ => rfl) fun count => ?_
  refine Prog.Image.bind (fun _ => rfl) fun first => ?_
  refine Prog.Image.bind (Prog.image_ensure _ _) fun _ => ?_
  exact Prog.Image.bind (ackTrace_ackSentPkt_image _ _ false) fun start =>
    ackTrace_ranges_image _ start count

/-- How a run over some ranges ends: at a null pointer, at a bound with a negative sign, or behind
all ranges, which were passed on. -/
inductive AckTraceEnds (ps : List (ℤ × ℤ)) (s : AckTrace) : Except Fail Unit × AckTrace → Prop
  /-- A null pointer is followed. -/
  | null (t : AckTrace) : AckTraceEnds ps s (.error .ub, t)
  /-- A bound seems to be negative. -/
  | rejected (t : AckTrace) (h : ∃ p ∈ ps, SeemsNegative p.2 ∨ SeemsNegative p.1) :
    AckTraceEnds ps s (.error .ret, t)
  /-- The ranges are passed on. -/
  | passed (t : AckTrace) (h : ∀ p ∈ ps, ¬ (SeemsNegative p.2 ∨ SeemsNegative p.1))
    (hcalls : t.calls = s.calls ++ ps.map toUint64Interval) : AckTraceEnds ps s (.ok (), t)

/-- A call of `QBufAckSentPkt` follows a null pointer at most. -/
theorem qBufAckSentPkt_error {smallest largest : ℕ} {start : Bool} {s : FrameRecv} {e : Fail}
    (h : (qBufAckSentPkt smallest largest start s).1 = .error e) : e = .ub := by
  cases start with
  | false =>
    rw [qBufAckSentPkt_false] at h
    cases h
  | true =>
    rw [qBufAckSentPkt_true] at h
    cases h
    rfl

/-- A range is passed on in front of others. -/
theorem AckTraceEnds.cons {p : ℤ × ℤ} {ps : List (ℤ × ℤ)} {s t : AckTrace}
    {run : Except Fail Unit × AckTrace} (hp : ¬ (SeemsNegative p.2 ∨ SeemsNegative p.1))
    (ht : t.calls = s.calls ++ [toUint64Interval p]) (h : AckTraceEnds ps t run) :
    AckTraceEnds (p :: ps) s run := by
  cases h with
  | null t' => exact .null t'
  | rejected t' h => exact .rejected t' (List.exists_mem_cons_of_exists h)
  | passed t' h hcalls =>
    refine .passed t' (List.forall_mem_cons.mpr ⟨hp, h⟩) ?_
    rw [hcalls, ht, List.append_assoc, List.singleton_append, List.map_cons]

/-- The further ranges are passed on up to a null pointer or a bound with a negative sign. -/
theorem ackTrace_runRanges_ends (ps : List (ℤ × ℤ)) (start : Bool) (s : AckTrace) :
    AckTraceEnds ps s (ackTrace.runRanges ps start s) := by
  induction ps generalizing start s with
  | nil => exact .passed s (List.forall_mem_nil _) (List.append_nil _).symm
  | cons p ps ih =>
    rw [AckHandlers.runRanges]
    by_cases hp : SeemsNegative p.2 ∨ SeemsNegative p.1
    · rw [Prog.ensure_of_neg (not_not.mpr hp), Prog.fail_bind]
      exact .rejected s (List.exists_mem_cons_of _ hp)
    · rw [Prog.ensure_of_pos hp, Prog.pure_bind]
      have hcall := ackTrace_ackSentPkt (toUint64 p.1) (toUint64 p.2) start s
      cases hr : (qBufAckSentPkt (toUint64 p.1) (toUint64 p.2) start s.recv).1 with
      | error e =>
        rw [hr] at hcall
        rw [Prog.bind_of_error hcall, qBufAckSentPkt_error hr]
        exact .null _
      | ok start' =>
        rw [hr] at hcall
        rw [Prog.bind_of_ok hcall]
        exact .cons hp rfl (ih start' _)

namespace AckFrame

/-- What is required of a parser run: it fails exactly when a bound is negative, and otherwise
passes on exactly the intervals of the frame. -/
structure Passed (f : AckFrame) (run : Except Fail Unit × AckTrace) : Prop where
  /-- A frame is rejected for a negative bound and for nothing else. -/
  rejected : run.1 = .error .ret ↔ f.HasNegative
  /-- The intervals of a frame that is not rejected are passed on. -/
  passed : ¬ f.HasNegative →
    run.1 = .ok () ∧ run.2.calls.map (fun c => ((c.1 : ℤ), (c.2 : ℤ))) = f.intervals

/-- How a run over a frame ends. -/
inductive TraceEnds (f : AckFrame) : Except Fail Unit × AckTrace → Prop
  /-- A null pointer is followed. -/
  | null (t : AckTrace) : TraceEnds f (.error .ub, t)
  /-- A bound seems to be negative. -/
  | rejected (t : AckTrace) (h : f.SeemsNegative) : TraceEnds f (.error .ret, t)
  /-- The intervals are passed on. -/
  | passed (t : AckTrace) (h : ¬ f.SeemsNegative)
    (hcalls : t.calls = f.intervals.map toUint64Interval) : TraceEnds f (.ok (), t)

/-- The intervals of a frame are passed on up to a null pointer or a bound with a negative sign. -/
theorem ackTrace_run_ends (f : AckFrame) (recv : FrameRecv) :
    f.TraceEnds (ackTrace.run f { recv, calls := [] }) := by
  rw [AckHandlers.run, Prog.modify_bind]
  by_cases hfirst : Tbquic.SeemsNegative f.firstSmallest
  · rw [Prog.ensure_of_neg (not_not.mpr hfirst), Prog.fail_bind]
    exact .rejected _ (.inl hfirst)
  rw [Prog.ensure_of_pos hfirst, Prog.pure_bind]
  let s := ackTrace.raise f.largestAcked.value { recv, calls := [] }
  have hcall := ackTrace_ackSentPkt (toUint64 f.firstSmallest) f.largestAcked.value false s
  rcases hsent : qBufAckSentPkt (toUint64 f.firstSmallest) f.largestAcked.value false s.recv with
    ⟨r, recv'⟩
  rw [hsent] at hcall
  cases r with
  | error e =>
    rw [Prog.bind_of_error hcall, qBufAckSentPkt_error (congrArg Prod.fst hsent)]
    exact .null _
  | ok start =>
    rw [Prog.bind_of_ok hcall]
    have hends := ackTrace_runRanges_ends (ackIntervals f.firstSmallest f.ranges) start
      { recv := recv', calls := s.calls ++ [(toUint64 f.firstSmallest, f.largestAcked.value)] }
    generalize ackTrace.runRanges _ _ _ = run at hends ⊢
    cases hends with
    | null u => exact .null u
    | rejected u h => exact .rejected u (.inr h)
    | passed u h hcalls =>
      have hlargest : toUint64 f.largestAcked.value = f.largestAcked.value := by
        have hlt := f.largestAcked.value_lt
        unfold toUint64
        omega
      refine .passed u ?_ ?_
      · rintro (hneg | ⟨p, hp, hneg⟩)
        · exact hfirst hneg
        · exact h p hp hneg
      · rw [hcalls, intervals, List.map_cons, toUint64Interval, hlargest]
        rfl

/-- A frame is rejected and passed on as required exactly when a negative sign is read off one of
its bounds just in case that a bound is negative, and no range but the last is stopped. -/
theorem passed_iff (f : AckFrame) (s : FrameRecv) (past rest : List UInt8)
    (hlen : (f.bytes ++ rest).length < 2 ^ 31) :
    f.Passed (ackTrace.parser
        { recv := { s with pkt := { past, rest := f.bytes ++ rest } }, calls := [] }) ↔
      (f.SeemsNegative ↔ f.HasNegative) ∧ f.Unstopped s.sentQueue := by
  obtain ⟨pkt, hparser⟩ : ∃ pkt, frameRecvAck.parser
      { s with pkt := { past, rest := f.bytes ++ rest } } =
        ((frameRecvAck.run f s).1, { (frameRecvAck.run f s).2 with pkt }) :=
    AckHandlers.parser_append f past s hlen
  obtain ⟨pkt', htrace⟩ : ∃ pkt', ackTrace.parser
      { recv := { s with pkt := { past, rest := f.bytes ++ rest } }, calls := [] } =
        ((ackTrace.run f { recv := s, calls := [] }).1,
          ackTrace.setPkt pkt' (ackTrace.run f { recv := s, calls := [] }).2) :=
    AckHandlers.parser_append f past ({ recv := s, calls := [] } : AckTrace) hlen
  have himage := ackTrace_parser_image
    { recv := { s with pkt := { past, rest := f.bytes ++ rest } }, calls := [] }
  rw [quicFrameAckParser_eq, hparser, htrace, Prod.mk.injEq] at himage
  have hub := @no_ub_iff f s
  rw [himage.1] at hub
  rw [htrace, ← hub]
  have hends := f.ackTrace_run_ends s
  generalize ackTrace.run f { recv := s, calls := [] } = run at hends ⊢
  constructor
  · intro h
    cases hends with
    | null t =>
      have hneg : ¬ f.HasNegative := fun hneg => by cases h.rejected.mpr hneg
      cases (h.passed hneg).1
    | rejected t hseems =>
      exact ⟨iff_of_true hseems (h.rejected.mp rfl), fun hub => by cases hub⟩
    | passed t hseems hcalls =>
      have hneg : ¬ f.HasNegative := fun hneg => by cases h.rejected.mpr hneg
      exact ⟨iff_of_false hseems hneg, fun hub => by cases hub⟩
  · rintro ⟨hiff, hnoub⟩
    cases hends with
    | null t => exact absurd rfl hnoub
    | rejected t hseems =>
      exact ⟨iff_of_true rfl (hiff.mp hseems), fun hneg => absurd (hiff.mp hseems) hneg⟩
    | passed t hseems hcalls =>
      have hneg := mt hiff.mpr hseems
      refine ⟨iff_of_false (fun h => by cases h) hneg, fun _ => ⟨rfl, ?_⟩⟩
      change t.calls.map _ = _
      rw [hcalls, f.map_toUint64Interval hneg]

end AckFrame

/-- The two ranges are passed on when no packet is below them. -/
theorem twoRangesAck_passed : twoRangesAck.Passed (ackTrace.parser
    { recv := { sentPackets [3, 5] with
        pkt := { past := [], rest := twoRangesAck.bytes ++ [] } }, calls := [] }) := by
  have hvalid : ¬ twoRangesAck.HasNegative := by decide
  refine (twoRangesAck.passed_iff (sentPackets [3, 5]) [] [] (by decide)).mpr
    ⟨iff_of_false (by decide) hvalid, ?_⟩
  exact ((AckFrame.sweepable_iff_of_small hvalid (by decide) (by decide)).mpr
    (.inr (by decide))).unstopped

/-- The frame is rejected although no bound is negative. -/
theorem largeAck_not_passed : ¬ largeAck.Passed (ackTrace.parser
    { recv := { sentPackets [2 ^ 31] with pkt := { past := [], rest := largeAck.bytes ++ [] } }
      calls := [] }) := by
  intro h
  have hrun : (ackTrace.parser
      { recv := { sentPackets [2 ^ 31] with pkt := { past := [], rest := largeAck.bytes ++ [] } }
        calls := [] }).1 = .error .ret := by
    decide +kernel
  exact absurd (h.rejected.mp hrun) (by decide)

end Tbquic
