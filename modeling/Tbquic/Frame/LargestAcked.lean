import Tbquic.Frame.Atomic
import Tbquic.Frame.Moves
import Tbquic.Lib.Trace
import Tbquic.Nonce
import Tbquic.Ping

/-!
# The largest number acknowledged

A packet number space in which packets are built and frames arrive. `largest_acked` comes from the
peer and bounds the number of the next packet in an assertion.
-/

namespace Tbquic

/-- A packet number space, with what was sent in it and what the peer acknowledged. -/
structure AckSpace (Ctx : Type) where
  /-- The keys and the number of the last packet. -/
  crypto : QuicCrypto Ctx
  /-- The connection as the frames of the space see it, with `c->largest_acked`. -/
  conn : FrameConn
  /-- The largest number of a packet that was sent. -/
  lastSent : ℕ
  /-- The largest number that an accepted ACK frame acknowledged. -/
  acknowledged : ℕ

/-- What happens in a packet number space. -/
inductive AckSpaceEvent
  /-- A frame is parsed. -/
  | frame (type : ℕ) (frame : RPacket)
  /-- `QuicPacketBuild` into a datagram, with the offset of the first byte of the packet and the
  two bits of the length of its number. -/
  | build (pkt : WPacket) (firstByte : ℕ) (pktNumLen : Fin 4) (qb : QBuff) (mask : ℕ)

namespace AckSpace

variable {Ctx : Type} (mem : ℕ → Bool) (evp : Evp Ctx)

/-- The number of the next packet. -/
def nextPktNum (s : AckSpace Ctx) : ℕ := (s.crypto.pktNum + 1) % 2 ^ 64

/-- The objects of the next build. -/
def toBuild (s : AckSpace Ctx) (pkt : WPacket) (qb : QBuff) : PktBuild Ctx :=
  { crypto := { s.crypto with largestAcked := s.conn.largestAcked }, pkt, qb, sealed := [] }

/-- The number that a frame acknowledges. -/
def acknowledge (s : AckSpace Ctx) (type : ℕ) (frame : RPacket) (accepted : Bool) : ℕ :=
  match frameNumbers 1 frame with
  | some [largest] =>
    if type = quicFrameTypeAck ∧ accepted then max s.acknowledged largest else s.acknowledged
  | _ => s.acknowledged

/-- The state behind a frame. -/
def recvFrame (s : AckSpace Ctx) (type : ℕ) (frame : RPacket) : Option (AckSpace Ctx) :=
  match FrameState.frameParser mem type with
  | none => some s
  | some parser =>
    match parser ⟨frame, s.conn, false, false⟩ with
    | (.ok _, t) =>
      some { s with conn := t.conn, acknowledged := s.acknowledge type frame true }
    | (.error .ret, t) =>
      some { s with conn := t.conn, acknowledged := s.acknowledge type frame false }
    | (.error _, _) => none

/-- The state behind a build. A packet that is built is sent. -/
def build (s : AckSpace Ctx) (pkt : WPacket) (firstByte : ℕ) (pktNumLen : Fin 4) (qb : QBuff)
    (mask : ℕ) : Option (AckSpace Ctx) :=
  match quicPacketBuild evp firstByte (pktNumLen.val + 1) mask (s.toBuild pkt qb) with
  | (.ok _, t) =>
    some { s with
      crypto := t.crypto
      conn.sentQueue := s.conn.sentQueue ++ [t.qb]
      lastSent := max s.lastSent t.crypto.pktNum }
  | (.error .ret, t) => some { s with crypto := t.crypto }
  | (.error _, _) => none

/-- The state behind an event. -/
def step (s : AckSpace Ctx) : AckSpaceEvent → Option (AckSpace Ctx)
  | .frame type frame => recvFrame mem s type frame
  | .build pkt firstByte pktNumLen qb mask => build evp s pkt firstByte pktNumLen qb mask

/-- A space in which nothing was sent. -/
structure Unused (s : AckSpace Ctx) : Prop where
  /-- No number was used. -/
  pktNum : s.crypto.pktNum = 0
  /-- None was acknowledged. -/
  largestAcked : s.conn.largestAcked = 0
  /-- No packet was sent. -/
  lastSent : s.lastSent = 0
  /-- No acknowledgement was accepted. -/
  acknowledged : s.acknowledged = 0

/-- `largest_acked` is what the peer acknowledged and was sent, and the next packet can be
numbered. -/
structure AckedSent (s : AckSpace Ctx) : Prop where
  /-- It is the largest number that an accepted frame acknowledged. -/
  largest : s.conn.largestAcked = s.acknowledged
  /-- It was sent. -/
  sent : s.conn.largestAcked ≤ s.lastSent
  /-- The assertion on the next packet holds. -/
  encodes (len : Fin 4) : quicPktNumberEncode s.nextPktNum s.conn.largestAcked ((len.val + 1) * 8) ≠
    .error .assert

/-- The packets number as they should before and behind an event. -/
def AckProper (s : AckSpace Ctx) (e : AckSpaceEvent) : Prop :=
  AckedSent s ∧ ∀ t, step mem evp s e = some t → AckedSent t

/-- An ACK frame whose rest can be read acknowledges a packet that was sent, and `QUIC_GE` orders
its number as it is; any other raises nothing. The next number is not too far ahead of what it
acknowledges, and behind a build not too far ahead of what was acknowledged. -/
def KeepsAcked (s : AckSpace Ctx) : AckSpaceEvent → Prop
  | .frame type frame => type = quicFrameTypeAck → ∀ largest pkt,
    quicVariableLengthDecode frame = (.ok largest, pkt) →
      ((readAckBody largest pkt).result = .ok () → largest ≤ s.lastSent ∧
        (quicGe largest s.conn.largestAcked ↔ s.conn.largestAcked ≤ largest)) ∧
      ((readAckBody largest pkt).result ≠ .ok () →
        quicGe largest s.conn.largestAcked → largest = s.conn.largestAcked) ∧
      (quicGe largest s.conn.largestAcked → largest = 0 ∨
        ((s.crypto.pktNum : ℤ) + 1 - largest) % 2 ^ 32 < 2 ^ 31)
  | .build .. => s.conn.largestAcked = 0 ∨
    ((s.crypto.pktNum : ℤ) + 2 - s.conn.largestAcked) % 2 ^ 32 < 2 ^ 31

end AckSpace

section Build

variable {Ctx : Type} {evp : Evp Ctx}

/-- A build that succeeds took the next number, and one that fails may have. -/
theorem quicPacketBuild_numbered (evp : Evp Ctx) (firstByte mask : ℕ) {pktNumLen : ℕ}
    (hlen : 1 ≤ pktNumLen ∧ pktNumLen ≤ 4) (s : PktBuild Ctx) :
    Prog.Post (quicPacketBuild evp firstByte pktNumLen mask)
      (fun _ t => t.crypto.pktNum = (s.crypto.pktNum + 1) % 2 ^ 64)
      (fun _ t => t.crypto.pktNum = s.crypto.pktNum ∨
        t.crypto.pktNum = (s.crypto.pktNum + 1) % 2 ^ 64) s := by
  simp only [quicPacketBuild, Prog.post_bind, Prog.post_get, Prog.post_ensure, Prog.post_modify,
    Prog.post_ofExcept]
  refine ⟨fun _ => ⟨fun pktNum hcode => ⟨fun cipherLen _ => ⟨fun _ => ?_, fun _ => .inr rfl⟩,
    fun _ _ => .inr rfl⟩, fun _ _ => .inr rfl⟩, fun _ => .inl trivial⟩
  have hseal : ∀ pkt, Prog.Post (quicPacketSeal evp firstByte pktNum pktNumLen cipherLen mask)
      (fun _ t => t.crypto.pktNum = (s.crypto.pktNum + 1) % 2 ^ 64)
      (fun _ t => t.crypto.pktNum = s.crypto.pktNum ∨
        t.crypto.pktNum = (s.crypto.pktNum + 1) % 2 ^ 64) (s.number.setPkt pkt) := fun pkt =>
    (quicPacketSeal_sealed hlen hcode rfl ⟨pkt, rfl⟩).mono (fun _ _ h => h.1) fun _ _ h => .inr h.1
  rw [quicPacketLength]
  split
  · rw [PktBuild.onPkt, Prog.post_zoom]
    exact Prog.Post.of_forall (fun _ pkt => hseal pkt) fun _ pkt => .inr rfl
  · exact hseal s.pkt

end Build

/-- The assertion on a number holds when nothing was acknowledged or `QUIC_GE` takes the number for
no smaller one. -/
theorem quicPktNumberEncode_ne_assert {fullPn largestAcked : ℕ} (len : Fin 4) :
    quicPktNumberEncode fullPn largestAcked ((len.val + 1) * 8) ≠ .error .assert ↔
      largestAcked = 0 ∨ quicGe fullPn largestAcked := by
  have hwidth : (len.val + 1) * 8 ≤ 32 := by omega
  by_cases hassert : largestAcked ≠ 0 ∧ ¬ quicGe fullPn largestAcked
  · refine iff_of_false (not_not.mpr ?_) (by tauto)
    rw [quicPktNumberEncode, quicPktNumberGetParam, if_pos hwidth]
    exact if_pos hassert
  · refine iff_of_true ?_ (by tauto)
    rw [quicPktNumberEncode, quicPktNumberGetParam, if_pos hwidth]
    change (if _ then _ else if _ then _ else _ : Except Fail ℕ) ≠ _
    rw [if_neg hassert]
    split <;> exact fun h => (by cases h)

section Frames

variable {mem : ℕ → Bool} {type largest : ℕ} {c d : FrameConn} {frame pkt : RPacket}
  {r : Except Fail Unit} {t : FrameState}

/-- An ACK frame that follows no null pointer ends as its bytes say, and raises the number. -/
theorem quicFrameAckParser_largestAcked
    (hread : quicVariableLengthDecode frame = (.ok largest, pkt))
    (hrun : FrameState.quicFrameAckParser ⟨frame, c, false, false⟩ = (r, t)) (hr : r ≠ .error .ub) :
    r = (readAckBody largest pkt).result ∧
      t.conn.largestAcked = if quicGe largest c.largestAcked then largest else c.largestAcked := by
  have hpasses := FrameState.ackHandlers.parser_passes frame ⟨frame, c, false, false⟩
  rw [hread] at hpasses
  set s := FrameState.ackHandlers.raise largest ⟨frame, c, false, false⟩ with hs
  have hraise : s.conn.largestAcked =
      if quicGe largest c.largestAcked then largest else c.largestAcked := by
    rw [hs]
    change (ite _ _ _ : FrameState).conn.largestAcked = _
    split_ifs <;> rfl
  have hframe := FrameState.passRanges_frame (readAckBody largest pkt).calls false s
  change FrameState.ackHandlers.parser ⟨frame, c, false, false⟩ = _ at hrun
  rcases hpass : FrameState.ackHandlers.passRanges (readAckBody largest pkt).calls false s with
    ⟨u, v⟩
  cases u with
  | error e =>
    obtain ⟨pkt', hfail⟩ := hpasses.of_error e v hpass
    obtain ⟨rfl, -⟩ := hframe.of_error hpass
    change FrameState.ackHandlers.parser ⟨frame, c, false, false⟩ = _ at hfail
    rw [hfail] at hrun
    cases hrun
    exact absurd rfl hr
  | ok u =>
    have hend := hpasses.of_ok v hpass
    have hv := hframe.of_ok hpass
    change FrameState.ackHandlers.parser ⟨frame, c, false, false⟩ = _ at hend
    rw [hend] at hrun
    cases hrun
    refine ⟨rfl, ?_⟩
    rw [← hraise]
    change v.conn.largestAcked = _
    rw [hv]

/-- A frame of another type leaves the number. -/
theorem FrameMoves.largestAcked (h : FrameMoves type frame c d) (htype : type ≠ quicFrameTypeAck) :
    d.largestAcked = c.largestAcked := by
  refine h.preserves (R := fun c d => d.largestAcked = c.largestAcked) (fun _ => rfl)
    (fun _ _ _ h h' => h'.trans h) fun c d hmove => ?_
  cases hmove with
  | raise _ ht => exact absurd ht htype
  | find | recvReset | stopSending | recvOpen | sendReady | recvFin | dataAdd | notify | limit
  | maxStreamData | acked | aside | draining | handshakeDone => rfl

end Frames

namespace AckSpace

variable {Ctx : Type} {mem : ℕ → Bool} {evp : Evp Ctx} {s t : AckSpace Ctx} {e : AckSpaceEvent}
  {type : ℕ} {frame : RPacket}

/-- The assertion on the next packet, in terms of the distance. -/
theorem encodes_iff : (∀ len : Fin 4, quicPktNumberEncode s.nextPktNum s.conn.largestAcked
      ((len.val + 1) * 8) ≠ .error .assert) ↔ s.conn.largestAcked = 0 ∨
    ((s.crypto.pktNum : ℤ) + 1 - s.conn.largestAcked) % 2 ^ 32 < 2 ^ 31 := by
  have hge : quicGe s.nextPktNum s.conn.largestAcked ↔
      ((s.crypto.pktNum : ℤ) + 1 - s.conn.largestAcked) % 2 ^ 32 < 2 ^ 31 := by
    rw [quicGe_iff_mod, nextPktNum]
    push_cast
    omega
  simp only [quicPktNumberEncode_ne_assert, hge, forall_const]

/-- Where the number and the packet stay, the rest follows from the distance. -/
theorem ackedSent_iff : AckedSent s ↔ s.conn.largestAcked = s.acknowledged ∧
    s.conn.largestAcked ≤ s.lastSent ∧ (s.conn.largestAcked = 0 ∨
      ((s.crypto.pktNum : ℤ) + 1 - s.conn.largestAcked) % 2 ^ 32 < 2 ^ 31) := by
  rw [← encodes_iff]
  exact ⟨fun h => ⟨h.largest, h.sent, h.encodes⟩, fun h => ⟨h.1, h.2.1, h.2.2⟩⟩

/-- The state behind a frame that is parsed. -/
theorem recvFrame_eq_some (h : recvFrame mem s type frame = some t) :
    t = s ∨ ∃ parser r u, FrameState.frameParser mem type = some parser ∧
      parser ⟨frame, s.conn, false, false⟩ = (r, u) ∧ (r = .ok () ∨ r = .error .ret) ∧
      t = { s with
        conn := u.conn, acknowledged := s.acknowledge type frame (decide (r = .ok ())) } := by
  unfold recvFrame at h
  split at h
  · cases h
    exact .inl rfl
  · rename_i parser hparser
    rcases hrun : parser ⟨frame, s.conn, false, false⟩ with ⟨r, u⟩
    rw [hrun] at h
    right
    refine ⟨parser, r, u, hparser, hrun, ?_⟩
    cases r with
    | ok a =>
      cases h
      exact ⟨.inl rfl, rfl⟩
    | error e =>
      cases e with
      | ret =>
        cases h
        exact ⟨.inr rfl, rfl⟩
      | assert | ub | fuel => cases h

/-- A frame of another type acknowledges nothing. -/
theorem acknowledge_of_ne (htype : type ≠ quicFrameTypeAck) (accepted : Bool) :
    s.acknowledge type frame accepted = s.acknowledged := by
  unfold acknowledge
  split
  · exact if_neg fun h => htype h.1
  · rfl

/-- A frame of another type changes neither the number nor what was sent. -/
theorem recvFrame_of_ne (hs : AckedSent s) (h : recvFrame mem s type frame = some t)
    (htype : type ≠ quicFrameTypeAck) : AckedSent t := by
  rcases recvFrame_eq_some h with rfl | ⟨parser, r, u, hparser, hrun, -, rfl⟩
  · exact hs
  · have hmoves := frameParser_moving hparser ⟨frame, s.conn, false, false⟩
    have hsame : u.conn.largestAcked = s.conn.largestAcked := by
      have hlargest := FrameMoves.largestAcked hmoves htype
      rwa [hrun] at hlargest
    rw [ackedSent_iff] at hs ⊢
    dsimp only
    rwa [hsame, acknowledge_of_ne htype]

/-- An ACK frame that meets the condition acknowledges what was sent. -/
theorem recvFrame_ack (hs : AckedSent s) (hok : s.KeepsAcked (.frame quicFrameTypeAck frame))
    (h : recvFrame mem s quicFrameTypeAck frame = some t) : AckedSent t := by
  rcases recvFrame_eq_some h with rfl | ⟨parser, r, u, hparser, hrun, hr, rfl⟩
  · exact hs
  cases hparser
  rcases hread : quicVariableLengthDecode frame with ⟨a, pkt⟩
  rw [ackedSent_iff] at hs ⊢
  obtain ⟨hlargest, hsent, hgap⟩ := hs
  dsimp only
  cases a with
  | error e =>
    have hpasses := FrameState.ackHandlers.parser_passes frame ⟨frame, s.conn, false, false⟩
    rw [hread] at hpasses
    have hfail : FrameState.quicFrameAckParser ⟨frame, s.conn, false, false⟩ =
        (.error e, ⟨pkt, s.conn, false, false⟩) := hpasses
    rw [hfail] at hrun
    cases hrun
    have hnone : frameNumbers 1 frame = none := by simp only [frameNumbers, hread]
    rw [acknowledge, hnone]
    exact ⟨hlargest, hsent, hgap⟩
  | ok largest =>
    have hne : r ≠ .error .ub := by
      rcases hr with rfl | rfl <;> exact fun h => (by cases h)
    obtain ⟨hresult, hraised⟩ := quicFrameAckParser_largestAcked hread hrun hne
    obtain ⟨haccepted, hrejected, hnext⟩ := hok rfl largest pkt hread
    rw [hraised, acknowledge, frameNumbers_one hread]
    dsimp only
    by_cases hge : quicGe largest s.conn.largestAcked
    · rw [if_pos hge]
      by_cases hwhole : (readAckBody largest pkt).result = .ok ()
      · obtain ⟨hle, hiff⟩ := haccepted hwhole
        rw [if_pos ⟨rfl, decide_eq_true (hresult.trans hwhole)⟩, ← hlargest,
          max_eq_right (hiff.mp hge)]
        exact ⟨rfl, hle, hnext hge⟩
      · have hsame := hrejected hwhole hge
        rw [if_neg fun h => hwhole (hresult.symm.trans (of_decide_eq_true h.2)), hsame]
        exact ⟨hlargest, hsent, hgap⟩
    · rw [if_neg hge]
      by_cases hwhole : (readAckBody largest pkt).result = .ok ()
      · obtain ⟨-, hiff⟩ := haccepted hwhole
        rw [if_pos ⟨rfl, decide_eq_true (hresult.trans hwhole)⟩, ← hlargest,
          max_eq_left (not_le.mp fun hle => hge (hiff.mpr hle)).le]
        exact ⟨rfl, hsent, hgap⟩
      · rw [if_neg fun h => hwhole (hresult.symm.trans (of_decide_eq_true h.2))]
        exact ⟨hlargest, hsent, hgap⟩

/-- A build within the distance numbers its packet and leaves what was acknowledged. -/
theorem build_ackedSent {pkt : WPacket} {firstByte mask : ℕ} {pktNumLen : Fin 4} {qb : QBuff}
    (hs : AckedSent s) (hok : s.KeepsAcked (.build pkt firstByte pktNumLen qb mask))
    (h : build evp s pkt firstByte pktNumLen qb mask = some t) : AckedSent t := by
  have hnumbered := quicPacketBuild_numbered evp firstByte mask
    (⟨by omega, by omega⟩ : 1 ≤ pktNumLen.val + 1 ∧ pktNumLen.val + 1 ≤ 4) (s.toBuild pkt qb)
  have hnum : (s.toBuild pkt qb).crypto.pktNum = s.crypto.pktNum := rfl
  rw [ackedSent_iff] at hs ⊢
  obtain ⟨hlargest, hsent, hgap⟩ := hs
  have hnext {n : ℕ} (hn : n = (s.crypto.pktNum + 1) % 2 ^ 64) : s.conn.largestAcked = 0 ∨
      ((n : ℤ) + 1 - s.conn.largestAcked) % 2 ^ 32 < 2 ^ 31 := by
    subst hn
    refine Or.imp_right (fun hdist => ?_) hok
    push_cast
    omega
  unfold build at h
  split at h
  · rename_i heq
    cases h
    exact ⟨hlargest, hsent.trans (le_max_left _ _), hnext (hnumbered.of_ok heq)⟩
  · rename_i heq
    cases h
    refine ⟨hlargest, hsent, ?_⟩
    rcases hnumbered.of_error heq with hsame | hnew
    · dsimp only
      rw [hsame, hnum]
      exact hgap
    · exact hnext hnew
  · cases h

/-- A space in which nothing was sent keeps to what was sent. -/
theorem Unused.ackedSent (h : Unused s) : AckedSent s :=
  ackedSent_iff.mpr ⟨h.largestAcked.trans h.acknowledged.symm,
    h.largestAcked.le.trans s.lastSent.zero_le, .inl h.largestAcked⟩

/-- An event that meets the condition keeps to what was sent. -/
theorem step_ackedSent (hs : AckedSent s) (hok : s.KeepsAcked e) (h : step mem evp s e = some t) :
    AckedSent t := by
  cases e with
  | frame type frame =>
    change recvFrame mem s type frame = some t at h
    by_cases htype : type = quicFrameTypeAck
    · subst htype
      exact recvFrame_ack hs hok h
    · exact recvFrame_of_ne hs h htype
  | build pkt firstByte pktNumLen qb mask =>
    change build evp s pkt firstByte pktNumLen qb mask = some t at h
    exact build_ackedSent hs hok h

/-- In a run whose ACK frames acknowledge what was sent, within the range of `QUIC_GE`,
`largest_acked` is the largest number acknowledged, it was sent, and the assertion on the next
packet holds. -/
theorem ackProper_along (es : List AckSpaceEvent) (hs : Unused s)
    (hok : Trace.Along (step mem evp) KeepsAcked s es) :
    Trace.Along (step mem evp) (AckProper mem evp) s es := by
  refine hok.mono_of_invariant AckedSent (fun s e hs hok => ?_)
    (fun s e t hs hok h => step_ackedSent hs hok h) hs.ackedSent
  exact ⟨hs, fun t ht => step_ackedSent hs hok ht⟩

/-- A space with keys in which nothing was sent. -/
def newSpace : AckSpace Unit where
  crypto := plainCrypto 0 0
  conn := openedConn
  lastSent := 0
  acknowledged := 0

/-- A packet of PING frames is sent and acknowledged. -/
theorem ackProper_along_ping :
    Trace.Along (step (fun _ => true) plainEvp) (AckProper (fun _ => true) plainEvp) newSpace
      [.build (pingPkt 0) 0 1 pingQb shortHeaderMask,
        .frame quicFrameTypeAck (rPacketBufInit [0x01, 0, 0, 0])] := by
  refine ackProper_along _ ⟨rfl, rfl, rfl, rfl⟩ ⟨.inl rfl, fun t ht => ⟨?_, fun _ _ => trivial⟩⟩
  have hstate : (step (fun _ => true) plainEvp newSpace
      (.build (pingPkt 0) 0 1 pingQb shortHeaderMask)).map
        (fun t => (t.lastSent, t.crypto.pktNum, t.conn.largestAcked)) = some (1, 1, 0) := by
    decide +kernel
  rw [ht] at hstate
  obtain ⟨hsent, hrest⟩ := Prod.mk.inj (Option.some.inj hstate)
  obtain ⟨hnum, hacked⟩ := Prod.mk.inj hrest
  intro _ largest pkt hread
  have hlargest : largest = 1 := by
    have hnumbers : frameNumbers 1 (rPacketBufInit [0x01, 0, 0, 0]) = some [1] := by
      decide +kernel
    rw [frameNumbers_one hread] at hnumbers
    exact (List.cons.inj (Option.some.inj hnumbers)).1
  have hresult : (readAckBody 1 pkt).result = .ok () := by
    have hbody : (readAckBody 1 (quicVariableLengthDecode
        (rPacketBufInit [0x01, 0, 0, 0])).2).result = .ok () := by
      decide +kernel
    rwa [hread] at hbody
  rw [hsent, hnum, hacked, hlargest]
  refine ⟨fun _ => ⟨le_rfl, by decide⟩, fun hne => absurd hresult hne, fun _ => .inr ?_⟩
  norm_num

/-- A peer that acknowledges packet 1000 before any was sent makes the next build fail. -/
theorem ack_beforeSent :
    ¬ Trace.Along (step (fun _ => true) plainEvp) (AckProper (fun _ => true) plainEvp) newSpace
      [.frame quicFrameTypeAck (rPacketBufInit [0x43, 0xe8, 0, 0, 0])] := by
  rintro ⟨⟨-, hafter⟩, -⟩
  have hrun : (step (fun _ => true) plainEvp newSpace
      (.frame quicFrameTypeAck (rPacketBufInit [0x43, 0xe8, 0, 0, 0]))).map
        (fun t => (t.conn.largestAcked, t.lastSent)) = some (1000, 0) := by
    decide +kernel
  obtain ⟨t, ht, hfacts⟩ := Option.map_eq_some_iff.mp hrun
  obtain ⟨hlargest, hsent⟩ := Prod.mk.inj hfacts
  have hle := (hafter t ht).sent
  rw [hlargest, hsent] at hle
  exact absurd hle (by decide)

end AckSpace

end Tbquic
