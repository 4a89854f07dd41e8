import Tbquic.Datagram.Split

/-!
# Coalesced packets

`QuicReadStateMachine` and `QuicStreamRecvNew` go through the packets of a datagram. Whether an
iteration consumes a packet depends on the state of the connection and on the packet in front.
-/

namespace Tbquic

namespace PktRecv

variable {κ α β : Type} (calls : PacketCalls κ)

section Recv

/-- A step that keeps the cursor does not change whether a packet is taken in front of it. -/
theorem takes_bind_iff {m : Prog Fail (PktRecv κ) α} {k : α → Prog Fail (PktRecv κ) β}
    {datagram : List UInt8} {s : PktRecv κ}
    (hk : ∀ a t, (k a t).1.isOk = true ∧ (k a t).2.pkt = t.pkt) :
    TakesPacket datagram ((m >>= k) s) ↔ TakesPacket datagram (m s) := by
  rcases hrun : m s with ⟨r, t⟩
  cases r with
  | error e =>
    rw [Prog.bind_of_error hrun]
    constructor
    · intro h
      refine ⟨fun e' he => ?_, fun he => (by cases he)⟩
      cases he
      exact h.inside _ rfl
    · intro h
      refine ⟨fun e' he => ?_, fun he => (by cases he)⟩
      cases he
      exact h.inside _ rfl
  | ok a =>
    rw [Prog.bind_of_ok hrun]
    obtain ⟨hok, hpkt⟩ := hk a t
    constructor
    · intro h
      have hwhole := h.whole hok
      rw [hpkt] at hwhole
      exact ⟨fun e he => (by cases he), fun _ => hwhole⟩
    · intro h
      refine ⟨fun e he => ?_, fun _ => ?_⟩
      · rw [he] at hok
        cases hok
      · rw [hpkt]
        exact h.whole rfl

/-- Taking over a connection ID succeeds and keeps the cursor. -/
theorem quicUpdateDcid_keeps (chosen : Option (List UInt8)) (type : QuicPktType)
    (s : PktRecv κ) :
    (quicUpdateDcid chosen type s).1.isOk = true ∧
      (quicUpdateDcid chosen type s).2.pkt = s.pkt := by
  cases chosen with
  | none => exact ⟨rfl, rfl⟩
  | some dcid => exact ⟨rfl, rfl⟩

/-- A long header is consumed behind its first byte. -/
theorem longHeader_post {flags : UInt8} {s : PktRecv κ} (hpast : s.pkt.past = [flags])
    (hs : s.pkt.rest.length < 2 ^ 31) (hlong : isLongPacket flags.toNat = true) :
    Prog.Post (quicLPacketHeaderParse calls)
      (fun _ t => LongHeader (flags.toNat / 16 % 4) t.pkt.past ∧
        t.pkt.past ++ t.pkt.rest = s.pkt.past ++ s.pkt.rest ∧ t.pkt.rest.length < 2 ^ 31)
      (fun e _ => e = .ret) s := by
  refine (consumes_longHeader calls s hs).mono ?_ fun e t he => he
  rintro _ t ⟨bytes, ⟨version, dcidLen, dcid, scidLen, scid, hversion, hdcid, hscid, rfl⟩,
    hrest, hpast'⟩
  rw [hrest, List.length_append] at hs
  refine ⟨?_, ?_, by omega⟩
  · rw [hpast', hpast]
    exact LongHeader.mk flags version dcidLen dcid scidLen scid hlong hversion hdcid hscid
  · rw [hpast', hrest, List.append_assoc]

/-- The type of a long header is one of the two bits in its first byte. -/
theorem headerOf_longPacketType {flags : ℕ} {header : List UInt8}
    (h : LongHeader (flags / 16 % 4) header) : HeaderOf (longPacketType flags) header := by
  have hlt : flags / 16 % 4 < 4 := Nat.mod_lt _ (by decide)
  unfold longPacketType
  generalize flags / 16 % 4 = n at h hlt
  obtain rfl | rfl | rfl | rfl : n = 0 ∨ n = 1 ∨ n = 2 ∨ n = 3 := by omega
  · exact ⟨fun _ => h, fun h => (by cases h), fun h => (by cases h), fun h => (by cases h),
      fun h => (by cases h)⟩
  · exact ⟨fun h => (by cases h), fun _ => h, fun h => (by cases h), fun h => (by cases h),
      fun h => (by cases h)⟩
  · exact ⟨fun h => (by cases h), fun h => (by cases h), fun _ => h, fun h => (by cases h),
      fun h => (by cases h)⟩
  · exact ⟨fun h => (by cases h), fun h => (by cases h), fun h => (by cases h), fun _ => h,
      fun h => (by cases h)⟩

/-- A header is consumed behind its first byte. -/
theorem header_post {flags : UInt8} {s : PktRecv κ} (hpast : s.pkt.past = [flags])
    (hs : s.pkt.rest.length < 2 ^ 31) :
    Prog.Post (quicPktHeaderParse calls flags.toNat)
      (fun r t => HeaderOf r.1 t.pkt.past ∧
        t.pkt.past ++ t.pkt.rest = s.pkt.past ++ s.pkt.rest ∧ t.pkt.rest.length < 2 ^ 31)
      (fun e _ => e = .ret) s := by
  rw [quicPktHeaderParse]
  by_cases hlong : isLongPacket flags.toNat = true
  · rw [if_pos hlong, Prog.post_bind]
    refine (longHeader_post calls hpast hs hlong).mono ?_ fun e t he => he
    rintro chosen t ⟨hheader, hkept⟩
    exact ⟨headerOf_longPacketType hheader, hkept⟩
  · rw [if_neg hlong, Prog.post_bind]
    refine (consumes_shortHeader calls s hs).mono ?_ fun e t he => he
    rintro _ t ⟨bytes, -, hrest, hpast'⟩
    rw [hrest, List.length_append] at hs
    refine ⟨?_, ?_, by omega⟩
    · refine ⟨fun h => (by cases h), fun h => (by cases h), fun h => (by cases h),
        fun h => (by cases h), fun _ => ⟨flags, bytes, ?_, Bool.eq_false_iff.mpr hlong⟩⟩
      rw [hpast', hpast]
      exact List.singleton_append
    · rw [hpast', hrest, List.append_assoc]

/-- The parser of the packet behind a first byte stays in the datagram and consumes the packet. -/
def ReadSplits (flags : UInt8) (s : PktRecv κ) : Prop :=
  ∀ type chosen s', quicPktHeaderParse calls flags.toNat s = (.ok (type, chosen), s') →
    BodySplits type s'

/-- The condition under which `recv` consumes the packet behind a first byte. -/
structure RecvSplits (state : QuicStatemState) (flags : UInt8) (s : PktRecv κ) : Prop where
  /-- A closed connection has no `recv`. -/
  closed : state ≠ .closed
  /-- A connection that is being closed consumes the first byte only. -/
  idle : state = .closing ∨ state = .draining →
    isLongPacket flags.toNat = false ∧ s.pkt.rest = []
  /-- The first packet of a connection is an Initial packet. -/
  first : state = .initial → isLongPacket flags.toNat = true →
    longPacketType flags.toNat = .initial →
      ∀ chosen s', quicLPacketHeaderParse calls s = (.ok chosen, s') → TokenInside s'
  /-- Any packet may follow. -/
  later : state = .handshake ∨ state = .handshakeDone → ReadSplits calls flags s

/-- A stateless reset is looked for after the packet. -/
theorem quicPacketRead_takes {datagram : List UInt8} {flags : ℕ} {s : PktRecv κ} :
    TakesPacket datagram (quicPacketRead calls flags s) ↔
      TakesPacket datagram (quicPacketParse calls flags s) := by
  unfold quicPacketRead
  split
  next t token hrun hreset =>
    rw [hrun]
    exact iff_of_true takes_of_ret takes_of_ret
  next => exact Iff.rfl

/-- A packet is taken exactly when its parser consumes it. -/
theorem packetRead_takes_iff {flags : UInt8} {s : PktRecv κ} (hpast : s.pkt.past = [flags])
    (hs : s.pkt.rest.length < 2 ^ 31) :
    TakesPacket (s.pkt.past ++ s.pkt.rest) (quicPacketRead calls flags.toNat s) ↔
      ReadSplits calls flags s := by
  have hpost := header_post calls hpast hs
  rw [quicPacketRead_takes, quicPacketParse]
  rcases hrun : quicPktHeaderParse calls flags.toNat s with ⟨r, t⟩
  cases r with
  | error e =>
    have he := hpost.of_error hrun
    rw [Prog.bind_of_error hrun, he]
    refine iff_of_true takes_of_ret ?_
    intro type chosen s' h
    rw [hrun] at h
    cases h
  | ok r =>
    obtain ⟨type, chosen⟩ := r
    obtain ⟨hheader, hkept, ht⟩ := hpost.of_ok hrun
    rw [Prog.bind_of_ok hrun, takes_bind_iff fun _ u => quicUpdateDcid_keeps chosen type u, ← hkept,
      body_takes_iff calls ht hheader]
    constructor
    · intro h type' chosen' s' hrun'
      rw [hrun] at hrun'
      cases hrun'
      exact h
    · intro h
      exact h type chosen t hrun

/-- The first packet of a connection is taken exactly when its token and its Length field are
fine. -/
theorem initialRecv_takes_iff {flags : UInt8} {s : PktRecv κ} (hpast : s.pkt.past = [flags])
    (hs : s.pkt.rest.length < 2 ^ 31) :
    TakesPacket (s.pkt.past ++ s.pkt.rest) (quicInitialRecv calls flags.toNat s) ↔
      (isLongPacket flags.toNat = true → longPacketType flags.toNat = .initial →
        ∀ chosen s', quicLPacketHeaderParse calls s = (.ok chosen, s') → TokenInside s') := by
  rw [quicInitialRecv]
  by_cases hlong : isLongPacket flags.toNat = true
  · rw [Prog.ensure_of_pos hlong, Prog.pure_bind]
    by_cases htype : longPacketType flags.toNat = .initial
    · rw [Prog.ensure_of_pos htype, Prog.pure_bind]
      have hpost := longHeader_post calls hpast hs hlong
      rcases hrun : quicLPacketHeaderParse calls s with ⟨r, t⟩
      cases r with
      | error e =>
        have he := hpost.of_error hrun
        rw [Prog.bind_of_error hrun, he]
        refine iff_of_true takes_of_ret ?_
        rintro - - chosen s' h
        cases h
      | ok chosen =>
        obtain ⟨hheader, hkept, ht⟩ := hpost.of_ok hrun
        have hinitial := (headerOf_longPacketType hheader).initial htype
        rw [Prog.bind_of_ok hrun, takes_bind_iff fun _ u => quicUpdateDcid_keeps chosen .initial u,
          ← hkept, initPacket_takes_iff calls ht hinitial]
        constructor
        · rintro h - - chosen' s' hrun'
          cases hrun'
          exact h
        · intro h
          exact h hlong htype chosen t rfl
    · rw [Prog.ensure_of_neg htype, Prog.fail_bind]
      exact iff_of_true takes_of_ret fun _ h => absurd h htype
  · rw [Prog.ensure_of_neg hlong, Prog.fail_bind]
    exact iff_of_true takes_of_ret fun h => absurd h hlong

/-- A first byte alone is a packet when its header is short and nothing follows. -/
theorem wholePacket_singleton_iff {flags : UInt8} {rest : List UInt8} :
    WholePacket [flags] rest ↔ isLongPacket flags.toNat = false ∧ rest = [] := by
  have hlong {type : ℕ} {header body : List UInt8} (h : LongHeader type header) :
      header ++ body ≠ [flags] := by
    intro hbytes
    have hlength := congrArg List.length hbytes
    cases h with
    | mk flags' version dcidLen dcid scidLen scid _ hversion =>
      rw [List.cons_append, List.length_cons, List.append_assoc, List.length_append,
        hversion] at hlength
      change _ = 1 at hlength
      omega
  constructor
  · intro h
    generalize hbytes : [flags] = bytes at h
    cases h with
    | initial _ _ _ _ _ hheader => exact absurd hbytes.symm (hlong hheader)
    | sealed _ _ _ _ hheader => exact absurd hbytes.symm (hlong hheader)
    | retry _ hheader => exact absurd hbytes.symm (hlong hheader)
    | short flags' body hshort =>
      cases hbytes
      exact ⟨hshort, rfl⟩
  · rintro ⟨hshort, rfl⟩
    exact WholePacket.short flags [] hshort

/-- `recv` takes a packet exactly under its condition. -/
theorem recv_takes_iff {server : Bool} {state : QuicStatemState} {flags : UInt8} {s : PktRecv κ}
    (hpast : s.pkt.past = [flags]) (hs : s.pkt.rest.length < 2 ^ 31) :
    TakesPacket (s.pkt.past ++ s.pkt.rest) (recv calls server state flags.toNat s) ↔
      RecvSplits calls state flags s := by
  have hidle : TakesPacket (s.pkt.past ++ s.pkt.rest)
      ((.ok .finish, s) : Except Fail QuicFlowReturn × PktRecv κ) ↔
        isLongPacket flags.toNat = false ∧ s.pkt.rest = [] := by
    rw [← wholePacket_singleton_iff]
    constructor
    · intro h
      have hwhole := (h.whole rfl).1
      rwa [hpast] at hwhole
    · intro h
      refine ⟨fun e h => (by cases h), fun _ => ⟨?_, rfl⟩⟩
      rw [hpast]
      exact h
  cases state with
  | initial =>
    have hkeeps (t : PktRecv κ) : ((do
        setConn fun c => { c with state := .handshake }
        pure (if server = true then .finish else .wantRead)) :
          Prog Fail (PktRecv κ) QuicFlowReturn) t =
        (.ok (if server = true then .finish else .wantRead),
          { t with conn := { t.conn with state := .handshake } }) := by
      rw [setConn, Prog.modify_bind]
      rfl
    rw [recv, takes_bind_iff fun _ t => by rw [hkeeps]; exact ⟨rfl, rfl⟩,
      initialRecv_takes_iff calls hpast hs]
    constructor
    · intro h
      exact ⟨fun h => (by cases h), fun h => (by simp at h), fun _ => h, fun h => (by simp at h)⟩
    · intro h
      exact h.first rfl
  | handshake =>
    rw [recv, takes_bind_iff fun _ _ => ⟨rfl, rfl⟩, packetRead_takes_iff calls hpast hs]
    constructor
    · intro h
      exact ⟨fun h => (by cases h), fun h => (by simp at h), fun h => (by cases h), fun _ => h⟩
    · intro h
      exact h.later (Or.inl rfl)
  | handshakeDone =>
    rw [recv, takes_bind_iff fun _ _ => ⟨rfl, rfl⟩, packetRead_takes_iff calls hpast hs]
    constructor
    · intro h
      exact ⟨fun h => (by cases h), fun h => (by simp at h), fun h => (by cases h), fun _ => h⟩
    · intro h
      exact h.later (Or.inr rfl)
  | closing =>
    rw [recv]
    refine hidle.trans ?_
    constructor
    · intro h
      exact ⟨fun h => (by cases h), fun _ => h, fun h => (by cases h), fun h => (by simp at h)⟩
    · intro h
      exact h.idle (Or.inl rfl)
  | draining =>
    rw [recv]
    refine hidle.trans ?_
    constructor
    · intro h
      exact ⟨fun h => (by cases h), fun _ => h, fun h => (by cases h), fun h => (by simp at h)⟩
    · intro h
      exact h.idle (Or.inr rfl)
  | closed => exact iff_of_false not_takes_of_ub fun h => h.closed rfl

end Recv

end PktRecv

namespace ReadSm

variable {κ : Type} (calls : PacketCalls κ)

section Splits

/-- What an iteration leaves. -/
structure StepSplits (run : Except Fail Unit × ReadSm κ) : Prop where
  /-- The datagram is not left: an iteration fails with the error code only. -/
  inside : ∀ e, run.1 = .error e → e = .ret
  /-- The iteration consumed a whole packet, and the datagram consists of the packets that were
  consumed of it and of what remains. -/
  whole : run.1.isOk = true → ∃ (earlier : List (List UInt8)) (packet : List UInt8),
    run.2.packets = earlier ++ [packet] ∧ WholePacket packet run.2.pkt.rest ∧
      run.2.datagram = earlier.flatten ++ (packet ++ run.2.pkt.rest)

/-- A loop splits datagrams into packets. -/
structure SplitsDatagrams (done : ReadSm κ → Bool) (step : Prog Fail (ReadSm κ) Unit)
    (start : ReadSm κ) : Prop where
  /-- The loop ends. -/
  ends : ∃ bound, (Prog.repeatUntil .fuel done step bound start).1 ≠ .error .fuel
  /-- Every iteration stays in its datagram and consumes a packet of it. -/
  splits : ∀ s, Prog.Visits done step start s → StepSplits (step s)

/-- The datagrams at hand are as long as an `int` can say, and the datagram that is being read
consists of the packets that were consumed and of what remains. -/
structure WellRead (s : ReadSm κ) : Prop where
  /-- What remains of the datagram. -/
  short : s.pkt.rest.length < 2 ^ 31
  /-- The datagrams to come. -/
  input : ∀ datagram ∈ s.input, datagram.length < 2 ^ 31
  /-- The datagram that is being read. -/
  datagram : s.datagram = s.packets.flatten ++ s.pkt.rest

/-- The bytes that are still to be read, and the number of datagrams. -/
def toRead (s : ReadSm κ) : ℕ :=
  s.pkt.rest.length + (s.input.map fun datagram => datagram.length + 1).sum

/-- A packet is handed on with its first byte. -/
def frontPacket (s : ReadSm κ) (flags : UInt8) (rest : List UInt8) : PktRecv κ :=
  ⟨⟨[flags], rest⟩, s.conn⟩

/-- A run on the packet in front is the run on what follows the first byte. -/
theorem packet_of_cons {recv : ℕ → Prog Fail (PktRecv κ) QuicFlowReturn} {s : ReadSm κ}
    {flags : UInt8} {rest : List UInt8} (hpkt : s.pkt = rPacketBufInit (flags :: rest))
    (hs : rest.length < 2 ^ 31) :
    packet recv s = match recv flags.toNat (s.frontPacket flags rest) with
      | (.error e, t) => (.error e, { s with pkt := t.pkt, conn := t.conn })
      | (.ok ret, t) => (.ok (), { s with
          pkt := t.pkt, conn := t.conn, ret := some ret
          wantData := s.wantData || decide (ret = .wantRead)
          packets := s.packets ++ [t.pkt.past] }) := by
  have hread : rPacketGet1 s.pkt = (.ok flags.toNat, ⟨[flags], rest⟩) := by
    rw [hpkt]
    exact rPacketGet1_cons hs
  rw [packet, Prog.bind_of_ok (Prog.zoom_of_ok hread)]
  rcases hrun : recv flags.toNat (s.frontPacket flags rest) with ⟨r, t⟩
  cases r with
  | error e =>
    have hzoom : onPacket (recv flags.toNat) { s with pkt := ⟨[flags], rest⟩ } = _ :=
      Prog.zoom_of_error hrun
    rw [Prog.bind_of_error hzoom]
  | ok ret =>
    have hzoom : onPacket (recv flags.toNat) { s with pkt := ⟨[flags], rest⟩ } = _ :=
      Prog.zoom_of_ok hrun
    rw [Prog.bind_of_ok hzoom]
    rfl

/-- Nothing is read behind the end of a datagram. -/
theorem packet_of_nil {recv : ℕ → Prog Fail (PktRecv κ) QuicFlowReturn} {s : ReadSm κ}
    (hpkt : s.pkt = rPacketBufInit []) : (packet recv s).1 = .error .ret := by
  have hread : rPacketGet1 s.pkt = (.error .ret, s.pkt) := by
    rw [hpkt]
    exact rPacketGet1_nil
  rw [packet, Prog.bind_of_error (Prog.zoom_of_error hread)]

/-- The packet in front of what remains is split off exactly when `recv` takes it. -/
theorem packet_splits_iff {recv : ℕ → Prog Fail (PktRecv κ) QuicFlowReturn} {s : ReadSm κ}
    (hs : WellRead s) (hpkt : s.pkt = rPacketBufInit s.pkt.rest) :
    StepSplits (packet recv s) ↔ ∀ flags rest, s.pkt.rest = flags :: rest →
      PktRecv.TakesPacket (flags :: rest) (recv flags.toNat (s.frontPacket flags rest)) := by
  cases hrest : s.pkt.rest with
  | nil =>
    rw [hrest] at hpkt
    have hrun := @packet_of_nil κ recv s hpkt
    refine iff_of_true ⟨fun e he => ?_, fun h => ?_⟩ fun _ _ h => (by cases h)
    · rw [hrun] at he
      cases he
      rfl
    · rw [hrun] at h
      cases h
  | cons flags rest =>
    have hshort := hs.short
    have hdatagram := hs.datagram
    rw [hrest] at hpkt hshort hdatagram
    rw [packet_of_cons hpkt (Nat.lt_of_succ_lt hshort)]
    have hfront : (∀ flags' rest', flags :: rest = flags' :: rest' →
        PktRecv.TakesPacket (flags' :: rest')
          (recv flags'.toNat (s.frontPacket flags' rest'))) ↔
        PktRecv.TakesPacket (flags :: rest) (recv flags.toNat (s.frontPacket flags rest)) := by
      constructor
      · intro h
        exact h flags rest rfl
      · rintro h _ _ ⟨⟩
        exact h
    rw [hfront]
    rcases hrun : recv flags.toNat (s.frontPacket flags rest) with ⟨r, t⟩
    cases r with
    | error e =>
      constructor
      · intro h
        exact ⟨fun e' he => h.inside e' (by cases he; rfl), fun he => (by cases he)⟩
      · intro h
        exact ⟨fun e' he => h.inside e' (by cases he; rfl), fun he => (by cases he)⟩
    | ok ret =>
      constructor
      · intro h
        refine ⟨fun e he => (by cases he), fun _ => ?_⟩
        obtain ⟨earlier, packet, hpackets, hwhole, hall⟩ := h.whole rfl
        obtain ⟨rfl, hlast⟩ := List.append_inj' hpackets rfl
        cases hlast
        refine ⟨hwhole, ?_⟩
        exact List.append_cancel_left (hall.symm.trans hdatagram)
      · intro h
        refine ⟨fun e he => (by cases he), fun _ => ?_⟩
        obtain ⟨hwhole, hkept⟩ := h.whole rfl
        refine ⟨s.packets, t.pkt.past, rfl, hwhole, ?_⟩
        change s.datagram = s.packets.flatten ++ (t.pkt.past ++ t.pkt.rest)
        rw [show t.pkt.past ++ t.pkt.rest = flags :: rest from hkept, hdatagram]

/-- A packet has a first byte. -/
theorem length_pos_of_wholePacket {packet rest : List UInt8} (h : WholePacket packet rest) :
    0 < packet.length := by
  have hlong {type : ℕ} {header body : List UInt8} (h : LongHeader type header) :
      0 < (header ++ body).length := by
    cases h with
    | mk => exact Nat.zero_lt_succ _
  cases h with
  | initial _ _ _ _ _ hheader => exact hlong hheader
  | sealed _ _ _ _ hheader => exact hlong hheader
  | retry _ hheader => exact hlong hheader
  | short => exact Nat.zero_lt_succ _

/-- Behind a packet that was split off, less is to be read. -/
theorem packet_step {recv : ℕ → Prog Fail (PktRecv κ) QuicFlowReturn} {s t : ReadSm κ}
    (hs : WellRead s) (hpkt : s.pkt = rPacketBufInit s.pkt.rest)
    (hsplits : StepSplits (packet recv s)) (hrun : packet recv s = (.ok (), t)) :
    WellRead t ∧ toRead t < toRead s := by
  have htakes := (packet_splits_iff hs hpkt).mp hsplits
  cases hrest : s.pkt.rest with
  | nil =>
    rw [hrest] at hpkt
    have hne := @packet_of_nil κ recv s hpkt
    rw [hrun] at hne
    cases hne
  | cons flags rest =>
    have hshort := hs.short
    have hdatagram := hs.datagram
    specialize htakes flags rest hrest
    rw [hrest] at hpkt hshort hdatagram
    rw [packet_of_cons hpkt (Nat.lt_of_succ_lt hshort)] at hrun
    rcases hrecv : recv flags.toNat (s.frontPacket flags rest) with ⟨r, u⟩
    rw [hrecv] at hrun htakes
    cases r with
    | error e => cases hrun
    | ok ret =>
      obtain ⟨hwhole, hkept⟩ := htakes.whole rfl
      have hpos := length_pos_of_wholePacket hwhole
      have hlength := congrArg List.length hkept
      rw [List.length_append] at hlength
      change u.pkt.past.length + u.pkt.rest.length = (flags :: rest).length at hlength
      change 0 < u.pkt.past.length at hpos
      cases hrun
      refine ⟨⟨?_, hs.input, ?_⟩, ?_⟩
      · change u.pkt.rest.length < 2 ^ 31
        omega
      · change s.datagram = (s.packets ++ [u.pkt.past]).flatten ++ u.pkt.rest
        rw [List.flatten_append, List.flatten_singleton, List.append_assoc,
          show u.pkt.past ++ u.pkt.rest = flags :: rest from hkept, hdatagram]
      · unfold toRead
        rw [hrest]
        dsimp only
        omega

/-- What an iteration of `QuicReadStateMachine` starts with. -/
theorem next_cases {s : ReadSm κ} (hs : WellRead s) :
    (next s).1 = .error .ret ∨ ∃ t, next s = (.ok (), t) ∧ WellRead t ∧
      t.pkt = rPacketBufInit t.pkt.rest ∧ toRead t ≤ toRead s := by
  rw [next, Prog.get_bind]
  by_cases hend : s.wantData = true ∧ s.pkt.remaining = 0
  · rw [if_pos hend, readBytes]
    cases hinput : s.input with
    | nil => exact Or.inl rfl
    | cons datagram input =>
      have hshort := hs.input
      rw [hinput] at hshort
      refine Or.inr ⟨_, rfl, ⟨?_, ?_, rfl⟩, rfl, ?_⟩
      · exact hshort datagram List.mem_cons_self
      · exact fun d hd => hshort d (List.mem_cons_of_mem _ hd)
      · unfold toRead
        rw [hinput, List.map_cons, List.sum_cons]
        dsimp only [rPacketBufInit]
        omega
  · rw [if_neg hend]
    exact Or.inr ⟨_, rfl, ⟨hs.short, hs.input, hs.datagram⟩, rfl, le_rfl⟩

/-- The condition under which an iteration of `QuicReadStateMachine` consumes a packet. -/
def IterationSplits (s : ReadSm κ) : Prop :=
  ∀ t flags rest, next s = (.ok (), t) → t.pkt.rest = flags :: rest →
    PktRecv.RecvSplits calls t.conn.state flags (t.frontPacket flags rest)

/-- The condition under which an iteration of `QuicStreamRecvNew` consumes a packet. -/
def StreamSplits (s : ReadSm κ) : Prop :=
  ∀ flags rest, s.pkt.rest = flags :: rest →
    PktRecv.ReadSplits calls flags (s.frontPacket flags rest)

/-- An iteration of `QuicReadStateMachine` splits a packet off exactly under its condition. -/
theorem iteration_splits_iff {s : ReadSm κ} (hs : WellRead s) :
    StepSplits (iteration calls s) ↔ IterationSplits calls s := by
  rcases next_cases hs with hnext | ⟨t, hnext, ht, hpkt, -⟩
  · rcases hrun : next s with ⟨r, t⟩
    rw [hrun] at hnext
    cases hnext
    rw [iteration, Prog.bind_of_error hrun]
    refine iff_of_true ⟨fun e he => by cases he; rfl, fun h => (by cases h)⟩ ?_
    intro t' flags rest hok
    rw [hrun] at hok
    cases hok
  · rw [iteration, Prog.bind_of_ok hnext, Prog.get_bind, packet_splits_iff ht hpkt]
    constructor
    · intro h t' flags rest hok hrest
      rw [hnext] at hok
      cases hok
      have hshort := ht.short
      rw [hrest] at hshort
      exact (PktRecv.recv_takes_iff calls rfl (Nat.lt_of_succ_lt hshort)).mp (h flags rest hrest)
    · intro h flags rest hrest
      have hshort := ht.short
      rw [hrest] at hshort
      exact (PktRecv.recv_takes_iff calls rfl (Nat.lt_of_succ_lt hshort)).mpr
        (h t flags rest hnext hrest)

/-- Behind an iteration of `QuicReadStateMachine` that split a packet off, less is to be read. -/
theorem iteration_step {s t : ReadSm κ} (hs : WellRead s) (hsplits : StepSplits (iteration calls s))
    (hrun : iteration calls s = (.ok (), t)) : WellRead t ∧ toRead t < toRead s := by
  rcases next_cases hs with hnext | ⟨u, hnext, hu, hpkt, hle⟩
  · rcases hfail : next s with ⟨r, u⟩
    rw [hfail] at hnext
    cases hnext
    rw [iteration, Prog.bind_of_error hfail] at hrun
    cases hrun
  · rw [iteration, Prog.bind_of_ok hnext, Prog.get_bind] at hsplits hrun
    obtain ⟨ht, hless⟩ := packet_step hu hpkt hsplits hrun
    exact ⟨ht, hless.trans_le hle⟩

/-- The cursor is moved on behind a packet. -/
theorem streamIteration_run (s : ReadSm κ) :
    streamIteration calls s = match packet (fun flags => do
        PktRecv.quicPacketRead calls flags
        pure .finish) s with
      | (.error e, t) => (.error e, t)
      | (.ok _, t) => (.ok (), { t with pkt := rPacketBufInit t.pkt.rest }) := by
  rw [streamIteration]
  rcases hrun : packet (fun flags => do
      PktRecv.quicPacketRead calls flags
      pure .finish) s with ⟨r, t⟩
  cases r with
  | error e => rw [Prog.bind_of_error hrun]
  | ok u =>
    rw [Prog.bind_of_ok hrun]
    rfl

/-- An iteration of `QuicStreamRecvNew` splits a packet off exactly under its condition. -/
theorem streamIteration_splits_iff {s : ReadSm κ} (hs : WellRead s)
    (hpkt : s.pkt = rPacketBufInit s.pkt.rest) :
    StepSplits (streamIteration calls s) ↔ StreamSplits calls s := by
  have htakes : StepSplits (streamIteration calls s) ↔ StepSplits (packet (fun flags => do
      PktRecv.quicPacketRead calls flags
      pure .finish) s) := by
    rw [streamIteration_run]
    rcases packet (fun flags => do
      PktRecv.quicPacketRead calls flags
      pure .finish) s with ⟨r, t⟩
    cases r with
    | error e => exact Iff.rfl
    | ok u =>
      constructor
      · intro h
        exact ⟨fun e he => (by cases he), fun _ => h.whole rfl⟩
      · intro h
        exact ⟨fun e he => (by cases he), fun _ => h.whole rfl⟩
  rw [htakes, packet_splits_iff hs hpkt]
  refine forall_congr' fun flags => forall_congr' fun rest => forall_congr' fun hrest => ?_
  have hshort := hs.short
  rw [hrest] at hshort
  have hlt : rest.length < 2 ^ 31 := Nat.lt_of_succ_lt hshort
  rw [PktRecv.takes_bind_iff fun _ _ => ⟨rfl, rfl⟩]
  exact @PktRecv.packetRead_takes_iff κ calls flags (s.frontPacket flags rest) rfl hlt

/-- Behind an iteration of `QuicStreamRecvNew` that split a packet off, less is to be read. -/
theorem streamIteration_step {s t : ReadSm κ} (hs : WellRead s)
    (hpkt : s.pkt = rPacketBufInit s.pkt.rest) (hsplits : StepSplits (streamIteration calls s))
    (hrun : streamIteration calls s = (.ok (), t)) :
    (WellRead t ∧ t.pkt = rPacketBufInit t.pkt.rest) ∧ toRead t < toRead s := by
  rw [streamIteration_run] at hsplits hrun
  rcases hpacket : packet (fun flags => do
    PktRecv.quicPacketRead calls flags
    pure .finish) s with ⟨r, u⟩
  rw [hpacket] at hsplits hrun
  cases r with
  | error e => cases hrun
  | ok v =>
    have hwhole : StepSplits (packet (fun flags => do
        PktRecv.quicPacketRead calls flags
        pure .finish) s) := by
      rw [hpacket]
      exact ⟨fun e he => (by cases he), fun _ => hsplits.whole rfl⟩
    obtain ⟨hu, hless⟩ := packet_step hs hpkt hwhole hpacket
    cases hrun
    exact ⟨⟨⟨hu.short, hu.input, hu.datagram⟩, rfl⟩, hless⟩

/-- A loop splits datagrams exactly when every iteration that it comes to does. -/
theorem splitsDatagrams_iff_of_step {done : ReadSm κ → Bool} {step : Prog Fail (ReadSm κ) Unit}
    {start : ReadSm κ} {P C : ReadSm κ → Prop} (hstart : P start)
    (hsplits : ∀ s, P s → (StepSplits (step s) ↔ C s))
    (hstep : ∀ s t, P s → StepSplits (step s) → step s = (.ok (), t) →
      P t ∧ toRead t < toRead s) :
    SplitsDatagrams done step start ↔ ∀ s, Prog.Visits done step start s → C s := by
  constructor
  · intro h s hs
    have hP : P s := hs.invariant
      (fun s t hs hP hrun => (hstep s t hP (h.splits s hs) hrun).1) hstart
    exact (hsplits s hP).mp (h.splits s hs)
  · intro h
    have hP (s : ReadSm κ) (hs : Prog.Visits done step start s) : P s := hs.invariant
      (fun s t hs hP hrun => (hstep s t hP ((hsplits s hP).mpr (h s hs)) hrun).1) hstart
    have hsteps (s : ReadSm κ) (hs : Prog.Visits done step start s) : StepSplits (step s) :=
      (hsplits s (hP s hs)).mpr (h s hs)
    refine ⟨⟨toRead start + 1, ?_⟩, hsteps⟩
    refine Prog.repeatUntil_ne_bound toRead (fun s t hs hrun => ?_) (fun s hs he => ?_)
      (Nat.lt_succ_self _)
    · exact (hstep s t (hP s hs) (hsteps s hs) hrun).2
    · cases (hsteps s hs).inside _ he

/-- `QuicReadStateMachine` and `QuicStreamRecvNew` split datagrams into packets exactly when the
condition holds in every iteration that they come to. -/
theorem splitsDatagrams_iff (conn : HeaderConn κ) :
    (∀ input : List (List UInt8), (∀ datagram ∈ input, datagram.length < 2 ^ 31) →
      (SplitsDatagrams done (iteration calls) (start conn input) ↔
        ∀ s, Prog.Visits done (iteration calls) (start conn input) s →
          IterationSplits calls s)) ∧
    ∀ datagram : List UInt8, datagram.length < 2 ^ 31 →
      (SplitsDatagrams streamDone (streamIteration calls) (streamStart conn datagram) ↔
        ∀ s, Prog.Visits streamDone (streamIteration calls) (streamStart conn datagram) s →
          StreamSplits calls s) := by
  constructor
  · intro input hinput
    have hstart : WellRead (start conn input) := ⟨Nat.two_pow_pos 31, hinput, rfl⟩
    exact splitsDatagrams_iff_of_step hstart (fun s hs => iteration_splits_iff calls hs)
      fun s t hs => iteration_step calls hs
  · intro datagram hdatagram
    have hstart : WellRead (streamStart conn datagram) :=
      ⟨hdatagram, fun d hd => (by cases hd), rfl⟩
    exact splitsDatagrams_iff_of_step (P := fun s => WellRead s ∧ s.pkt = rPacketBufInit s.pkt.rest)
      ⟨hstart, rfl⟩ (fun s hs => streamIteration_splits_iff calls hs.1 hs.2)
      fun s t hs => streamIteration_step calls hs.1 hs.2

/-- Calls that succeed and do nothing. -/
def plainCalls : PacketCalls Unit where
  cidGen _ _ := none
  createInitialDecoders _ _ _ := some ()
  scidMatch _ _ := false
  dcidMatch _ _ := false
  packet _ _ conn := (true, conn)
  checkStatelessResetToken _ conn := conn

/-- A server without connection IDs. -/
def plainConn (state : QuicStatemState) : HeaderConn Unit where
  state := state
  server := true
  version := quicVersion1
  cidLen := 0
  scid := ⟨[], Nat.zero_lt_succ _⟩
  scidInited := false
  dcid := []
  dcidInited := false
  token := none
  other := ()

/-- A packet with a short header is the only packet of its datagram. -/
theorem shortPacket_splits :
    SplitsDatagrams done (iteration plainCalls) (start (plainConn .handshakeDone) [[0x40, 1, 2]]) ∧
      SplitsDatagrams streamDone (streamIteration plainCalls)
        (streamStart (plainConn .handshakeDone) [0x40, 1, 2]) := by
  have hread (s : PktRecv Unit) (hs : s.conn.scid.val.length = 0) :
      PktRecv.ReadSplits plainCalls 0x40 s := by
    intro type chosen s' hrun
    have hheader : PktRecv.quicPktHeaderParse plainCalls (0x40 : UInt8).toNat s =
        (.ok (.oneRtt, none), s) := by
      rw [PktRecv.quicPktHeaderParse, if_neg (by decide), PktRecv.quicSPacketHeaderParse,
        Prog.bind_assoc, Prog.get_bind, if_pos hs, Prog.pure_bind]
      rfl
    rw [hheader] at hrun
    cases hrun
    exact ⟨fun h => (by cases h), fun h => (by cases h), fun h => (by cases h),
      fun h => (by cases h)⟩
  obtain ⟨hmachine, hstream⟩ := splitsDatagrams_iff plainCalls (plainConn .handshakeDone)
  refine ⟨(hmachine _ ?_).mpr fun s hs => ?_, (hstream _ ?_).mpr fun s hs => ?_⟩
  · intro datagram hdatagram
    rw [List.mem_singleton.mp hdatagram]
    decide
  · have hend : done (iteration plainCalls
        (start (plainConn .handshakeDone) [[0x40, 1, 2]])).2 = true := by
      decide +kernel
    rw [hs.eq_start fun t ht => by rw [ht] at hend; exact hend]
    intro t flags rest hnext hrest
    rw [next, Prog.get_bind] at hnext
    cases hnext
    cases hrest
    refine ⟨fun h => (by cases h), fun h => ?_, fun h => (by cases h), fun _ => ?_⟩
    · rcases h with h | h
      · cases h
      · cases h
    · exact hread _ rfl
  · decide
  · have hend : streamDone (streamIteration plainCalls
        (streamStart (plainConn .handshakeDone) [0x40, 1, 2])).2 = true := by
      decide +kernel
    rw [hs.eq_start fun t ht => by rw [ht] at hend; exact hend]
    intro flags rest hrest
    cases hrest
    exact hread _ rfl

/-- A Length field of 2³² is less than what remains in 32 bits. -/
theorem longLength_not_splits :
    ¬ SplitsDatagrams done (iteration plainCalls) (start (plainConn .initial)
      [[0xC0, 0, 0, 0, 1, 0, 0, 0, 0xC0, 0, 0, 1, 0, 0, 0, 0]]) := by
  intro h
  have hrun : (iteration plainCalls (start (plainConn .initial)
      [[0xC0, 0, 0, 0, 1, 0, 0, 0, 0xC0, 0, 0, 1, 0, 0, 0, 0]])).1 = .error .ub := by
    decide +kernel
  cases (h.splits _ (Prog.Visits.start rfl)).inside _ hrun

end Splits

end ReadSm

end Tbquic
