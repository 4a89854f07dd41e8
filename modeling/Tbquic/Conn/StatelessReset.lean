import Tbquic.Conn.CidRetire
import Tbquic.Tls.TransRoundTrip

/-!
# Stateless resets

A packet that cannot be processed closes the connection when its datagram ends with a stateless
reset token of the peer. The token of the transport parameters stays zero on every connection, and
those of the connection IDs are in the pool of the peer.
-/

namespace Tbquic

open Prog

/-- A connection, with what its peer has said about stateless resets. -/
structure ResetConn where
  /-- The connection. -/
  conn : FrameConn
  /-- `peer_param`. -/
  peerParam : TransParams
  /-- The token in the transport parameters of the peer. -/
  supplied : Option (List UInt8)
  /-- The largest Retire Prior To so far. -/
  retired : ℕ
  /-- The connection IDs of the NEW_CONNECTION_ID frames that were accepted. -/
  offered : List QuicCid

/-- What happens to a connection. The frames of a packet come before the packet fails. -/
inductive ResetEvent
  /-- The transport parameters of the peer arrive. -/
  | params (tls : QtpTls) (ps : List QtpParam)
  /-- A frame arrives. -/
  | frame (type : ℕ) (frame : RPacket)
  /-- The header or the body of a packet cannot be parsed. Some bytes of the datagram were read
  before the packet. -/
  | unprocessed (datagram : List UInt8) (read : ℕ)

/-- The last bytes of a datagram where a token can stand. -/
def lastToken (datagram : List UInt8) : List UInt8 :=
  datagram.drop (datagram.length - quicStatelessResetTokenLen)

namespace ResetConn

/-- A new connection. -/
def start (c : FrameConn) : ResetConn where
  conn := { c with cidPool := { maxSeq := 0, num := 0, queue := [] } }
  peerParam := quicTransParamInit
  supplied := none
  retired := 0
  offered := []

/-- `QuicCheckStatelessResetToken`. -/
def quicCheckStatelessResetToken (token : Option (List UInt8)) (s : ResetConn) : ResetConn :=
  match token with
  | none => s
  | some token =>
    if (s.conn.streams.server = false ∧ s.peerParam.statelessResetToken = token) ∨
        ∃ cid ∈ s.conn.cidPool.queue, cid.statelessResetToken = token then
      { s with conn.statem := .closed }
    else s

/-- The token that `QuicPacketRead` takes from the packet before it parses it. -/
def packetToken (pkt : List UInt8) : Option (List UInt8) :=
  let offset : ℕ := (((pkt.length : ℤ) - quicStatelessResetTokenLen) % 2 ^ 64).toNat
  if quicGt offset 0 then some ((pkt.drop offset).take quicStatelessResetTokenLen) else none

/-- `QuicPacketRead`, with the parsers of the header and the body as a parameter. -/
def quicPacketRead (parse : Prog Fail ResetConn Unit) (pkt : List UInt8) :
    Prog Fail ResetConn Unit := do
  match ← Prog.attempt parse with
  | .error .ret => do
    Prog.modify (quicCheckStatelessResetToken (packetToken pkt))
    Prog.fail .ret
  | .error e => Prog.fail e
  | .ok () => pure ()

/-- The largest Retire Prior To behind a frame. -/
def nextRetired (s : ResetConn) (type : ℕ) (frame : RPacket) : ℕ :=
  if type = 0x18 ∧ s.conn.dcidLen ≠ 0 then
    match frameNumbers 3 frame with
    | some [_, priorTo, _] => max s.retired priorTo
    | _ => s.retired
  else s.retired

/-- The connection IDs offered behind a frame. -/
def nextOffered (s : ResetConn) (type : ℕ) (frame : RPacket) (r : Except Fail Unit) :
    List QuicCid :=
  if type = 0x18 ∧ r = .ok () then
    match (readNewConnIdFrame frame).1 with
    | .ok (_, cid) => s.offered ++ [cid]
    | .error _ => s.offered
  else s.offered

/-- A frame is parsed. -/
def recvFrame (mem : ℕ → Bool) (type : ℕ) (frame : RPacket) (s : ResetConn) : Option ResetConn :=
  match FrameState.frameParser mem type with
  | none => some s
  | some parser =>
    match parser ⟨frame, s.conn, false, false⟩ with
    | (.ok u, t) => some { s with
        conn := t.conn
        retired := s.nextRetired type frame
        offered := s.nextOffered type frame (.ok u) }
    | (.error .ret, t) => some { s with
        conn := t.conn
        retired := s.nextRetired type frame
        offered := s.nextOffered type frame (.error .ret) }
    | _ => none

/-- The transport parameters are parsed. -/
def recvParams (tls : QtpTls) (ps : List QtpParam) (s : ResetConn) : Option ResetConn :=
  match tlsParseQtpExtension tls (transportParam s.conn.streams.server)
      ⟨rPacketBufInit (QtpParam.listBytes ps), s.peerParam⟩ with
  | (.ok _, t) | (.error .ret, t) => some { s with
      peerParam := t.peerParam
      supplied := (QtpParam.token ps).or s.supplied }
  | _ => none

/-- One event. -/
def step (mem : ℕ → Bool) (s : ResetConn) : ResetEvent → Option ResetConn
  | .params tls ps => recvParams tls ps s
  | .frame type frame => recvFrame mem type frame s
  | .unprocessed datagram read =>
    some (quicPacketRead (Prog.fail .ret) (datagram.drop read) s).2

/-- The peer offered a token in a NEW_CONNECTION_ID frame and has not retired it. -/
def Offers (s : ResetConn) (token : List UInt8) : Prop :=
  ∃ cid ∈ s.offered, s.retired ≤ cid.seq ∧ cid.statelessResetToken = token

/-- The peer supplied a token. -/
def Supplies (s : ResetConn) (token : List UInt8) : Prop :=
  s.supplied = some token ∨ s.Offers token

/-- A packet that cannot be processed closes the connection exactly when its datagram ends with a
token that the peer supplied. -/
def ResetProper (mem : ℕ → Bool) (s : ResetConn) (e : ResetEvent) : Prop :=
  ∀ datagram read t, e = .unprocessed datagram read → datagram.length < 2 ^ 31 →
    s.conn.statem ≠ .closed → step mem s e = some t →
    (t.conn.statem = .closed ↔
      quicStatelessResetTokenLen ≤ datagram.length ∧ s.Supplies (lastToken datagram))

/-- The loop of `QuicCidRetirePriorTo` removes exactly what is retired. -/
def RetiresExactly (priorTo : ℕ) : List QuicCid → Prop
  | [] => True
  | cid :: queue =>
    if quicGe cid.seq priorTo then ∀ other ∈ cid :: queue, priorTo ≤ other.seq
    else cid.seq < priorTo ∧ RetiresExactly priorTo queue

/-- A NEW_CONNECTION_ID frame retires exactly what it says, and a connection ID that it adds is
not retired. -/
structure KeepsOffered (mem : ℕ → Bool) (s : ResetConn) (frame : RPacket) : Prop where
  /-- The loop removes what is retired. -/
  retires : s.conn.dcidLen ≠ 0 → ∀ seq priorTo len,
    frameNumbers 3 frame = some [seq, priorTo, len] →
    RetiresExactly priorTo s.conn.cidPool.queue
  /-- A connection ID that is added is not retired. -/
  current : ∀ priorTo cid, AddsCid mem s.conn frame priorTo cid →
    s.retired ≤ cid.seq ∧ priorTo ≤ cid.seq

/-- A datagram of which nothing can be processed ends with a token that is looked at and found
where it was offered, or with none. -/
structure FindsToken (s : ResetConn) (datagram : List UInt8) (read : ℕ) : Prop where
  /-- A token that was supplied is in a connection ID, and more bytes are there than it. -/
  found : quicStatelessResetTokenLen ≤ datagram.length → s.Supplies (lastToken datagram) →
    s.Offers (lastToken datagram) ∧ read + quicStatelessResetTokenLen < datagram.length
  /-- A client does not see zeros that were not supplied. -/
  nonzero : read + quicStatelessResetTokenLen < datagram.length →
    s.conn.streams.server = false → lastToken datagram = List.replicate 16 0 →
    s.Supplies (lastToken datagram)

/-- The condition on an event. -/
def KeepsTokens (mem : ℕ → Bool) (s : ResetConn) : ResetEvent → Prop
  | .params _ _ => True
  | .frame type frame =>
    (type = 0x18 → s.KeepsOffered mem frame) ∧
      (type = 0x19 → ∀ seq, frameNumbers 1 frame = some [seq] →
        seq % 2 ^ 32 < 2 ^ 31 ∨ QuicCidPool.unlink seq s.conn.cidPool.queue = none)
  | .unprocessed datagram read => s.FindsToken datagram read

/-- What a run keeps. -/
structure Kept (s : ResetConn) : Prop where
  /-- The pool holds the connection IDs that were offered and not retired. -/
  queue : s.conn.cidPool.queue = keptCids s.retired s.offered
  /-- The numbers of the peer are not counted. -/
  maxSeq : s.conn.cidPool.maxSeq = 0
  /-- No token was recorded from transport parameters. -/
  token : s.peerParam.statelessResetToken = List.replicate 16 0

variable {mem : ℕ → Bool} {s t : ResetConn}

/-- The loop keeps what is not retired. -/
theorem RetiresExactly.dropWhile_eq {priorTo : ℕ} {queue : List QuicCid}
    (h : RetiresExactly priorTo queue) :
    (queue.dropWhile fun cid => ¬ quicGe cid.seq priorTo) = keptCids priorTo queue := by
  induction queue with
  | nil => rfl
  | cons cid queue ih =>
    rw [RetiresExactly] at h
    by_cases hge : quicGe cid.seq priorTo
    · rw [if_pos hge] at h
      rw [List.dropWhile_cons_of_neg (by simpa using hge)]
      exact (keptCids_of_le h).symm
    · rw [if_neg hge] at h
      rw [List.dropWhile_cons_of_pos (by simpa using hge), keptCids,
        List.filter_cons_of_neg (by simpa using h.1)]
      exact ih h.2

/-- Retiring twice is retiring up to the larger number. -/
theorem keptCids_keptCids (a b : ℕ) (queue : List QuicCid) :
    keptCids b (keptCids a queue) = keptCids (max a b) queue := by
  rw [keptCids, keptCids, keptCids, List.filter_filter]
  refine List.filter_congr fun cid _ => ?_
  rw [← Bool.decide_and, decide_eq_decide, max_le_iff]
  exact and_comm

end ResetConn

namespace QtpState

/-- The token of the peer's parameters stays. -/
def SameToken (s t : QtpState) : Prop :=
  t.peerParam.statelessResetToken = s.peerParam.statelessResetToken

theorem SameToken.refl (s : QtpState) : s.SameToken s := rfl

theorem SameToken.trans {s t u : QtpState} (h : s.SameToken t) (h' : t.SameToken u) :
    s.SameToken u :=
  Eq.trans h' h

/-- Reading bytes changes no parameter. -/
theorem keeps_reading {α : Type} (m : Prog Fail RPacket α) :
    Keeps SameToken (QtpState.reading m) :=
  keeps_zoom fun _ => rfl

end QtpState

open QtpState

/-- A round records no token. -/
theorem qtpRound_token (server : Bool) (tls : QtpTls) :
    Keeps SameToken (qtpRound tls (transportParam server)) := by
  refine (keeps_reading _).bind SameToken.trans fun type =>
    (keeps_reading _).bind SameToken.trans fun len => ?_
  rw [QtpParam.qtpParser_eq]
  cases QtpParam.integerOffset type with
  | some offset => exact (keeps_reading _).bind SameToken.trans fun n => keeps_modify fun _ => rfl
  | none =>
    dsimp only
    split_ifs
    · refine (keeps_reading _).bind SameToken.trans fun scid => ?_
      split_ifs
      · exact keeps_pure SameToken.refl ()
      · exact keeps_ensure SameToken.refl _ _
    · exact keeps_reading _

/-- Reading the parameters of the peer records no token. -/
theorem tlsParseQtpExtension_token (server : Bool) (tls : QtpTls) :
    Keeps SameToken (tlsParseQtpExtension tls (transportParam server)) := by
  have hloop (fuel : ℕ) : Keeps SameToken (qtpParseLoop tls (transportParam server) fuel) := by
    induction fuel with
    | zero => exact keeps_fail SameToken.refl _
    | succ fuel ih =>
      refine keeps_get_bind fun s => ?_
      split_ifs
      · rfl
      · have hbind := Keeps.bind (R := SameToken) SameToken.trans (qtpRound_token server tls)
          fun _ => ih
        exact hbind s
  exact keeps_get_bind fun s => hloop _ s

namespace FrameMoves

variable {type : ℕ} {frame : RPacket} {c d : FrameConn}

/-- Only two frames change the connection IDs of the peer. -/
theorem cidPool (h : FrameMoves type frame c d) (hnew : type ≠ 0x18) (hretire : type ≠ 0x19) :
    d.cidPool = c.cidPool := by
  refine h.preserves (R := fun c d => d.cidPool = c.cidPool) (fun _ => rfl)
    (fun _ _ _ hcd hde => hde.trans hcd) fun c d hmove => ?_
  cases hmove with
  | aside token cidPool buffer hpool =>
    rcases hpool with hpool | htype | htype
    · exact hpool
    · exact absurd htype hnew
    · exact absurd htype hretire
  | _ => rfl

end FrameMoves

namespace ResetConn

variable {mem : ℕ → Bool} {s t : ResetConn} {type : ℕ} {frame : RPacket}

/-- What a frame leaves. -/
theorem recvFrame_eq_some {parser : Prog Fail FrameState Unit}
    (hparser : FrameState.frameParser mem type = some parser)
    (h : recvFrame mem type frame s = some t) :
    ∃ r u, parser ⟨frame, s.conn, false, false⟩ = (r, u) ∧ t = { s with
      conn := u.conn
      retired := s.nextRetired type frame
      offered := s.nextOffered type frame r } := by
  unfold recvFrame at h
  rw [hparser] at h
  dsimp only at h
  split at h
  · rename_i heq
    exact ⟨_, _, heq, (Option.some.inj h).symm⟩
  · rename_i heq
    exact ⟨_, _, heq, (Option.some.inj h).symm⟩
  · cases h

/-- A frame of another type keeps the pool and what was offered. -/
theorem recvFrame_kept_of_ne (hs : Kept s) (hnew : type ≠ 0x18) (hretire : type ≠ 0x19)
    (h : recvFrame mem type frame s = some t) : Kept t := by
  cases hparser : FrameState.frameParser mem type with
  | none =>
    unfold recvFrame at h
    rw [hparser] at h
    cases h
    exact hs
  | some parser =>
    obtain ⟨r, u, hrun, rfl⟩ := recvFrame_eq_some hparser h
    have hpool := FrameMoves.cidPool (d := u.conn)
      (by have hmoves := frameParser_moving hparser ⟨frame, s.conn, false, false⟩
          unfold Moving at hmoves
          rwa [hrun] at hmoves) hnew hretire
    refine ⟨?_, ?_, hs.token⟩
    · change u.conn.cidPool.queue =
        keptCids (s.nextRetired type frame) (s.nextOffered type frame r)
      rw [hpool, nextRetired, nextOffered, if_neg fun h => hnew h.1, if_neg fun h => hnew h.1]
      exact hs.queue
    · change u.conn.cidPool.maxSeq = 0
      rw [hpool]
      exact hs.maxSeq

/-- A NEW_CONNECTION_ID frame keeps the pool when it retires what it says. -/
theorem recvFrame_newConnId (hs : Kept s) (hok : s.KeepsOffered mem frame)
    (h : recvFrame mem 0x18 frame s = some t) : Kept t := by
  obtain ⟨r, u, hrun, rfl⟩ := recvFrame_eq_some
    (show FrameState.frameParser mem 0x18 = some _ from rfl) h
  rcases newConnIdParser_cases hrun with ⟨hconn, hr, hwhy⟩ |
    ⟨seq, priorTo, len, hnumbers, hdcid, hrest⟩
  · refine ⟨?_, ?_, hs.token⟩
    · change u.conn.cidPool.queue = keptCids (s.nextRetired 0x18 frame) (s.nextOffered 0x18 frame r)
      have hretired : s.nextRetired 0x18 frame = s.retired := by
        unfold nextRetired
        rcases hwhy with hnone | hzero
        · rw [hnone, ite_self]
        · exact if_neg fun h => h.2 hzero
      rw [hconn, hretired, nextOffered, if_neg fun h => hr h.2]
      exact hs.queue
    · change u.conn.cidPool.maxSeq = 0
      rw [hconn]
      exact hs.maxSeq
  have hretired : s.nextRetired 0x18 frame = max s.retired priorTo := by
    rw [nextRetired, if_pos ⟨rfl, hdcid⟩, hnumbers]
  have hqueue : (s.conn.cidPool.retirePriorTo priorTo).queue =
      keptCids (max s.retired priorTo) s.offered := by
    rw [← keptCids_keptCids, ← hs.queue]
    exact (hok.retires hdcid seq priorTo len hnumbers).dropWhile_eq
  rcases hrest with ⟨cid, hadds, -, hr, hconn⟩ | ⟨-, hr, hconn⟩
  · refine ⟨?_, ?_, hs.token⟩
    · change u.conn.cidPool.queue = keptCids (s.nextRetired 0x18 frame) (s.nextOffered 0x18 frame r)
      have hcurrent := hok.current priorTo cid hadds
      have hlast : keptCids (max s.retired priorTo) [cid] = [cid] := by
        refine keptCids_of_le fun other hother => ?_
        rw [List.mem_singleton.mp hother]
        exact max_le hcurrent.1 hcurrent.2
      rw [hconn, hretired, nextOffered, if_pos ⟨rfl, hr⟩, hadds.read]
      change (s.conn.cidPool.retirePriorTo priorTo).queue ++ [cid] =
        keptCids (max s.retired priorTo) (s.offered ++ [cid])
      rw [hqueue, keptCids, keptCids, List.filter_append]
      exact congrArg _ hlast.symm
    · change u.conn.cidPool.maxSeq = 0
      rw [hconn]
      exact hs.maxSeq
  · refine ⟨?_, ?_, hs.token⟩
    · change u.conn.cidPool.queue = keptCids (s.nextRetired 0x18 frame) (s.nextOffered 0x18 frame r)
      rw [hconn, hretired, nextOffered, if_neg fun h => hr h.2]
      exact hqueue
    · change u.conn.cidPool.maxSeq = 0
      rw [hconn]
      exact hs.maxSeq

/-- A RETIRE_CONNECTION_ID frame that names nothing of the pool keeps it. -/
theorem recvFrame_retireConnId (hs : Kept s)
    (hok : ∀ seq, frameNumbers 1 frame = some [seq] →
      seq % 2 ^ 32 < 2 ^ 31 ∨ QuicCidPool.unlink seq s.conn.cidPool.queue = none)
    (h : recvFrame mem 0x19 frame s = some t) : Kept t := by
  obtain ⟨r, u, hrun, rfl⟩ := recvFrame_eq_some
    (show FrameState.frameParser mem 0x19 = some _ from rfl) h
  have hpool : u.conn.cidPool = s.conn.cidPool := by
    rw [FrameState.quicFrameRetireConnIdParser, FrameState.readVar] at hrun
    rcases hseq : quicVariableLengthDecode frame with ⟨a, pkt⟩
    cases a with
    | error e =>
      rw [bind_of_error (zoom_of_error hseq)] at hrun
      cases hrun
      rfl
    | ok seq =>
      rw [bind_of_ok (zoom_of_ok hseq)] at hrun
      cases hrun
      exact CidPools.retire_getD_eq_iff.mpr
        ((CidPools.retire_eq_none_iff hs.maxSeq).mpr (hok seq (frameNumbers_one hseq)))
  refine ⟨?_, ?_, hs.token⟩
  · change u.conn.cidPool.queue = keptCids (s.nextRetired 0x19 frame) (s.nextOffered 0x19 frame r)
    rw [hpool, nextRetired, nextOffered, if_neg fun h => absurd h.1 (by decide),
      if_neg fun h => absurd h.1 (by decide)]
    exact hs.queue
  · change u.conn.cidPool.maxSeq = 0
    rw [hpool]
    exact hs.maxSeq

/-- The transport parameters keep the pool, and record no token. -/
theorem recvParams_kept {tls : QtpTls} {ps : List QtpParam} (hs : Kept s)
    (h : recvParams tls ps s = some t) : Kept t := by
  have htoken := tlsParseQtpExtension_token s.conn.streams.server tls
    ⟨rPacketBufInit (QtpParam.listBytes ps), s.peerParam⟩
  unfold SameToken at htoken
  unfold recvParams at h
  split at h
  · rename_i heq
    cases h
    rw [heq] at htoken
    exact ⟨hs.queue, hs.maxSeq, htoken.trans hs.token⟩
  · rename_i heq
    cases h
    rw [heq] at htoken
    exact ⟨hs.queue, hs.maxSeq, htoken.trans hs.token⟩
  · cases h

/-- What a failing packet leaves. -/
theorem step_unprocessed {datagram : List UInt8} {read : ℕ} :
    step mem s (.unprocessed datagram read) =
      some (quicCheckStatelessResetToken (packetToken (datagram.drop read)) s) := by
  have hread (f : ResetConn → ResetConn) :
      ((Prog.modify f >>= fun _ => (Prog.fail Fail.ret : Prog Fail ResetConn Unit)) s).2 = f s := by
    rw [modify_bind]
    rfl
  rw [step, quicPacketRead, attempt_bind]
  exact congrArg some (hread _)

/-- The check closes the connection or does nothing. -/
theorem quicCheckStatelessResetToken_cases (token : Option (List UInt8)) (s : ResetConn) :
    quicCheckStatelessResetToken token s = s ∨
      quicCheckStatelessResetToken token s = { s with conn.statem := .closed } := by
  cases token with
  | none => exact .inl rfl
  | some token =>
    rw [quicCheckStatelessResetToken]
    dsimp only
    split_ifs
    · exact .inr rfl
    · exact .inl rfl

/-- An event that meets the condition keeps the pool. -/
theorem step_kept {e : ResetEvent} (hs : Kept s) (hok : KeepsTokens mem s e)
    (h : step mem s e = some t) : Kept t := by
  cases e with
  | params tls ps => exact recvParams_kept hs h
  | frame type frame =>
    change recvFrame mem type frame s = some t at h
    by_cases hnew : type = 0x18
    · subst hnew
      exact recvFrame_newConnId hs (hok.1 rfl) h
    · by_cases hretire : type = 0x19
      · subst hretire
        exact recvFrame_retireConnId hs (hok.2 rfl) h
      · exact recvFrame_kept_of_ne hs hnew hretire h
  | unprocessed datagram read =>
    rw [step_unprocessed] at h
    rw [← Option.some.inj h]
    rcases quicCheckStatelessResetToken_cases (packetToken (datagram.drop read)) s with heq | heq
    · rw [heq]
      exact hs
    · rw [heq]
      exact ⟨hs.queue, hs.maxSeq, hs.token⟩

/-- The token of a packet is the end of its datagram, if there is a byte before it. -/
theorem packetToken_eq {datagram : List UInt8} {read : ℕ} (hlen : datagram.length < 2 ^ 31) :
    packetToken (datagram.drop read) =
      if read + quicStatelessResetTokenLen < datagram.length then some (lastToken datagram)
      else none := by
  have hremaining := List.length_drop (i := read) (l := datagram)
  unfold packetToken
  dsimp only
  rw [hremaining, quicStatelessResetTokenLen]
  by_cases hlong : read + 16 < datagram.length
  · have hoffset : ((((datagram.length - read : ℕ) : ℤ) - (16 : ℕ)) % 2 ^ 64).toNat =
        datagram.length - read - 16 := by omega
    rw [hoffset, if_pos hlong, if_pos (by rw [quicGt_iff_mod]; omega), List.drop_drop, lastToken,
      quicStatelessResetTokenLen]
    have hsum : read + (datagram.length - read - 16) = datagram.length - 16 := by omega
    rw [hsum, List.take_of_length_le (by rw [List.length_drop]; omega)]
  · rw [if_neg hlong, if_neg]
    rw [quicGt_iff_mod]
    omega

/-- The tokens in the pool are those that the peer offered and has not retired. -/
theorem Kept.offers_iff (hs : Kept s) {token : List UInt8} :
    (∃ cid ∈ s.conn.cidPool.queue, cid.statelessResetToken = token) ↔ s.Offers token := by
  rw [hs.queue]
  constructor
  · rintro ⟨cid, hcid, htoken⟩
    obtain ⟨hoffered, hretired⟩ := List.mem_filter.mp hcid
    exact ⟨cid, hoffered, of_decide_eq_true hretired, htoken⟩
  · rintro ⟨cid, hoffered, hretired, htoken⟩
    exact ⟨cid, List.mem_filter.mpr ⟨hoffered, decide_eq_true hretired⟩, htoken⟩

/-- A packet that fails closes the connection exactly when a token was supplied. -/
theorem resetProper_of_keeps {e : ResetEvent} (hs : Kept s) (hok : KeepsTokens mem s e) :
    ResetProper mem s e := by
  intro datagram read t he hlen hopen ht
  subst he
  obtain ⟨hfound, hnonzero⟩ := hok
  rw [step_unprocessed, packetToken_eq hlen] at ht
  cases ht
  by_cases hlong : read + quicStatelessResetTokenLen < datagram.length
  · rw [if_pos hlong, quicCheckStatelessResetToken]
    dsimp only
    have hlength : quicStatelessResetTokenLen ≤ datagram.length := by omega
    split_ifs with hmatch
    · rw [hs.token, hs.offers_iff] at hmatch
      refine iff_of_true rfl ⟨hlength, ?_⟩
      rcases hmatch with ⟨hclient, hzero⟩ | hoffers
      · exact hnonzero hlong hclient hzero.symm
      · exact .inr hoffers
    · rw [hs.token, hs.offers_iff] at hmatch
      refine iff_of_false hopen fun h => hmatch (.inr ?_)
      exact (hfound h.1 h.2).1
  · rw [if_neg hlong]
    exact iff_of_false hopen fun h => hlong (hfound h.1 h.2).2

/-- In a run whose NEW_CONNECTION_ID frames retire exactly what they say and whose datagrams end
with tokens that can be found, a packet that cannot be processed closes the connection exactly
when its datagram ends with a token that the peer supplied. -/
theorem resetProper_along (mem : ℕ → Bool) (c : FrameConn) (es : List ResetEvent)
    (hok : Trace.Along (step mem) (KeepsTokens mem) (start c) es) :
    Trace.Along (step mem) (ResetProper mem) (start c) es := by
  refine hok.mono_of_invariant Kept (fun _ _ hs hok => resetProper_of_keeps hs hok)
    (fun _ _ _ hs hok h => step_kept hs hok h) ⟨rfl, rfl, rfl⟩

/-- A client. -/
def clientConn : FrameConn := { openedConn with streams.server := false }

/-- A token that was offered with a connection ID closes the connection. -/
theorem resetProper_along_offered :
    Trace.Along (step fun _ => true) (ResetProper fun _ => true) (start clientConn)
      [.frame 0x18 (CidReceiver.newConnIdFrame 1), .unprocessed (List.replicate 20 1) 1] := by
  refine resetProper_along _ _ _ ⟨⟨fun _ => ⟨fun _ _ _ _ _ => trivial, ?_⟩, fun h => ?_⟩,
    fun t ht => ⟨⟨fun _ hsupplies => ⟨?_, by decide⟩, fun _ _ hzero => ?_⟩, fun _ _ => trivial⟩⟩
  · intro priorTo cid hadds
    have hread : (readNewConnIdFrame (CidReceiver.newConnIdFrame 1)).1.toOption.map Prod.fst =
        some 0 := by
      decide +kernel
    rw [hadds.read] at hread
    have hprior : priorTo = 0 := Option.some.inj hread
    rw [hprior]
    exact ⟨Nat.zero_le _, Nat.zero_le _⟩
  · exact absurd h (by decide)
  · obtain ⟨r, u, -, rfl⟩ := recvFrame_eq_some
      (show FrameState.frameParser (fun _ => true) 0x18 = some _ from rfl) ht
    rcases hsupplies with hsupplied | hoffers
    · cases hsupplied
    · exact hoffers
  · exact absurd hzero (by decide)

/-- Zeros close a client to which no token was supplied. -/
theorem zeros_close :
    ¬ Trace.Along (step fun _ => true) (ResetProper fun _ => true) (start clientConn)
      [.unprocessed (List.replicate 18 0) 1] := by
  rintro ⟨hproper, -⟩
  have hclosed := hproper _ 1 _ rfl (by decide +kernel) (by decide) step_unprocessed
  have hstate : (quicCheckStatelessResetToken (packetToken ((List.replicate 18 0).drop 1))
      (start clientConn)).conn.statem = .closed := by
    decide +kernel
  obtain ⟨-, hsupplied | ⟨cid, hcid, -⟩⟩ := hclosed.mp hstate
  · cases hsupplied
  · cases hcid

end ResetConn

end Tbquic
