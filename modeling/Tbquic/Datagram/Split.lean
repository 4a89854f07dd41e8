import Tbquic.Datagram.Header
import Tbquic.Lib.Loop

/-!
# Packets of a datagram

A datagram is read packet by packet. The cursor stays in the datagram and moves over one whole
packet in each iteration, unless a length is compared in 32 bits, a token is compared before its
length is, or the parser of a packet does not move the cursor.
-/

namespace Tbquic

/-- The bytes of a long header, with the two bits of its type. -/
inductive LongHeader : ℕ → List UInt8 → Prop
  | mk (flags : UInt8) (version : List UInt8) (dcidLen : UInt8) (dcid : List UInt8)
      (scidLen : UInt8) (scid : List UInt8) (hlong : isLongPacket flags.toNat = true)
      (hversion : version.length = 4) (hdcid : dcid.length = dcidLen.toNat)
      (hscid : scid.length = scidLen.toNat) : LongHeader (flags.toNat / 16 % 4)
        (flags :: (version ++ dcidLen :: (dcid ++ scidLen :: scid)))

/-- A whole packet, with the bytes behind it. Retry packets and packets with a short header take
the rest of their datagram. -/
inductive WholePacket : List UInt8 → List UInt8 → Prop
  | initial {header : List UInt8} (tokenLen : VarLength) (token : List UInt8) (length : VarLength)
      (payload rest : List UInt8) (hheader : LongHeader 0 header)
      (htoken : token.length = tokenLen.value) (hpayload : payload.length = length.value) :
      WholePacket (header ++ (tokenLen.bytes ++ (token ++ (length.bytes ++ payload)))) rest
  | sealed {type : ℕ} {header : List UInt8} (length : VarLength) (payload rest : List UInt8)
      (htype : type = 1 ∨ type = 2) (hheader : LongHeader type header)
      (hpayload : payload.length = length.value) :
      WholePacket (header ++ (length.bytes ++ payload)) rest
  | retry {header : List UInt8} (body : List UInt8) (hheader : LongHeader 3 header) :
      WholePacket (header ++ body) []
  | short (flags : UInt8) (body : List UInt8) (hshort : isLongPacket flags.toNat = false) :
      WholePacket (flags :: body) []

/-- Headers at the start of equal byte strings are equal. -/
theorem LongHeader.append_inj {type type' : ℕ} {header header' a b : List UInt8}
    (h : LongHeader type header) (h' : LongHeader type' header')
    (hbytes : header ++ a = header' ++ b) : type = type' ∧ header = header' ∧ a = b := by
  cases h with
  | mk flags version dcidLen dcid scidLen scid hlong hversion hdcid hscid =>
    cases h' with
    | mk flags' version' dcidLen' dcid' scidLen' scid' hlong' hversion' hdcid' hscid' =>
      simp only [List.cons_append, List.append_assoc, List.cons.injEq] at hbytes
      obtain ⟨rfl, hbytes⟩ := hbytes
      obtain ⟨rfl, hids⟩ := List.append_inj hbytes (hversion.trans hversion'.symm)
      rw [List.cons.injEq] at hids
      obtain ⟨rfl, hdcids⟩ := hids
      obtain ⟨rfl, hscids⟩ := List.append_inj hdcids (hdcid.trans hdcid'.symm)
      rw [List.cons.injEq] at hscids
      obtain ⟨rfl, hscids⟩ := hscids
      obtain ⟨rfl, hrest⟩ := List.append_inj hscids (hscid.trans hscid'.symm)
      exact ⟨rfl, rfl, hrest⟩

/-- The header of a 0-RTT packet alone is no packet. -/
theorem LongHeader.not_whole {type : ℕ} {header rest : List UInt8} (h : LongHeader type header)
    (htype : type = 1 ∨ type = 3 ∧ rest ≠ []) : ¬ WholePacket header rest := by
  have hself : header ++ [] = header := List.append_nil _
  intro hwhole
  generalize hheader : header = bytes at hwhole
  cases hwhole with
  | initial tokenLen token length payload rest hinitial =>
    rw [← hself] at hheader
    obtain ⟨rfl, -⟩ := h.append_inj hinitial hheader
    omega
  | sealed length payload rest htype' hsealed =>
    rw [← hself] at hheader
    obtain ⟨rfl, -, hnil⟩ := h.append_inj hsealed hheader
    rw [VarLength.bytes] at hnil
    cases hnil
  | retry body hretry =>
    rw [← hself] at hheader
    obtain ⟨rfl, -⟩ := h.append_inj hretry hheader
    rcases htype with h | ⟨-, h⟩
    · cases h
    · exact h rfl
  | short flags body hshort =>
    cases h with
    | mk flags' version dcidLen dcid scidLen scid hlong =>
      rw [List.cons.injEq] at hheader
      rw [hheader.1, hshort] at hlong
      cases hlong

namespace PktRecv

variable {κ α β : Type}

section Consumes

/-- A program reads bytes of a certain form, or returns an error. -/
def Consumes (m : Prog Fail (PktRecv κ) α) (P : α → List UInt8 → Prop) : Prop :=
  ∀ s : PktRecv κ, s.pkt.rest.length < 2 ^ 31 → Prog.Post m
    (fun a t => ∃ bytes, P a bytes ∧ s.pkt.rest = bytes ++ t.pkt.rest ∧
      t.pkt.past = s.pkt.past ++ bytes)
    (fun e _ => e = .ret) s

variable {P : α → List UInt8 → Prop}

/-- The rule of consequence. -/
theorem Consumes.mono {m : Prog Fail (PktRecv κ) α} {Q : α → List UInt8 → Prop}
    (h : Consumes m P) (hPQ : ∀ a bytes, P a bytes → Q a bytes) : Consumes m Q := by
  intro s hs
  refine (h s hs).mono ?_ fun e t he => he
  rintro a t ⟨bytes, hbytes, hrest, hpast⟩
  exact ⟨bytes, hPQ a bytes hbytes, hrest, hpast⟩

/-- Nothing is read by a result. -/
theorem Consumes.pure {a : α} (h : P a []) :
    Consumes (Pure.pure a : Prog Fail (PktRecv κ) α) P := by
  intro s _
  exact ⟨[], h, rfl, (List.append_nil _).symm⟩

/-- A step of the connection reads nothing. -/
theorem Consumes.setConn {f : HeaderConn κ → HeaderConn κ} {P : Unit → List UInt8 → Prop}
    (h : P () []) : Consumes (setConn f) P := by
  intro s _
  exact ⟨[], h, rfl, (List.append_nil _).symm⟩

/-- A check reads nothing. -/
theorem Consumes.ensure {p : Prop} [Decidable p] {P : Unit → List UInt8 → Prop} (h : P () []) :
    Consumes (Prog.ensure .ret p : Prog Fail (PktRecv κ) Unit) P := by
  by_cases hp : p
  · rw [Prog.ensure_of_pos hp]
    exact Consumes.pure h
  · rw [Prog.ensure_of_neg hp]
    intro s _
    exact rfl

/-- The rule of sequencing. -/
theorem Consumes.bind {m : Prog Fail (PktRecv κ) α} {k : α → Prog Fail (PktRecv κ) β}
    {Q : α → β → List UInt8 → Prop} (hm : Consumes m P)
    (hk : ∀ a x, P a x → Consumes (k a) (Q a)) :
    Consumes (m >>= k) fun b bytes => ∃ a x y, P a x ∧ Q a b y ∧ bytes = x ++ y := by
  intro s hs
  rw [Prog.post_bind]
  refine (hm s hs).mono ?_ fun e t he => he
  rintro a t ⟨x, hx, hrest, hpast⟩
  have ht : t.pkt.rest.length < 2 ^ 31 := by
    rw [hrest, List.length_append] at hs
    omega
  refine (hk a x hx t ht).mono ?_ fun e u he => he
  rintro b u ⟨y, hy, hrest', hpast'⟩
  refine ⟨x ++ y, ⟨a, x, y, hx, hy, rfl⟩, ?_, ?_⟩
  · rw [hrest, hrest', List.append_assoc]
  · rw [hpast', hpast, List.append_assoc]

/-- The state is looked at. -/
theorem Consumes.get_bind {k : PktRecv κ → Prog Fail (PktRecv κ) α}
    (hk : ∀ s, Consumes (k s) P) : Consumes (Prog.get >>= k) P := by
  intro s hs
  unfold Prog.Post
  rw [Prog.get_bind]
  exact hk s s hs

/-- A check in front reads nothing. -/
theorem Consumes.ensure_bind {p : Prop} [Decidable p] {k : Unit → Prog Fail (PktRecv κ) α}
    (hk : p → Consumes (k ()) P) : Consumes (Prog.ensure .ret p >>= k) P := by
  by_cases hp : p
  · rw [Prog.ensure_of_pos hp, Prog.pure_bind]
    exact hk hp
  · rw [Prog.ensure_of_neg hp, Prog.fail_bind]
    intro s _
    exact rfl

/-- A call in front that may fail reads nothing. -/
theorem Consumes.ofOption_bind {γ : Type} {o : Option γ} {k : γ → Prog Fail (PktRecv κ) α}
    (hk : ∀ a, Consumes (k a) P) : Consumes (Prog.ofOption .ret o >>= k) P := by
  cases o with
  | none =>
    rw [Prog.ofOption_none, Prog.fail_bind]
    intro s _
    exact rfl
  | some a =>
    rw [Prog.ofOption_some, Prog.pure_bind]
    exact hk a

/-- A step of the connection in front reads nothing. -/
theorem Consumes.setConn_bind {f : HeaderConn κ → HeaderConn κ}
    {k : Unit → Prog Fail (PktRecv κ) α} (hk : Consumes (k ()) P) :
    Consumes (PktRecv.setConn f >>= k) P := by
  intro s hs
  unfold Prog.Post
  rw [PktRecv.setConn, Prog.modify_bind]
  exact hk { s with conn := f s.conn } hs

/-- A branch is taken. -/
theorem Consumes.ite {p : Prop} [Decidable p] {m n : Prog Fail (PktRecv κ) α}
    (hm : p → Consumes m P) (hn : ¬ p → Consumes n P) : Consumes (if p then m else n) P := by
  by_cases hp : p
  · rw [if_pos hp]
    exact hm hp
  · rw [if_neg hp]
    exact hn hp

/-- A few bytes are read. -/
theorem Consumes.getBytes {len : ℕ} (hlen : len < 2 ^ 31) :
    @Consumes κ _ (onPkt (rPacketGetBytes len)) fun data bytes =>
      bytes = data ∧ data.length = len := by
  rintro ⟨⟨past, rest⟩, conn⟩ hs
  rw [onPkt, Prog.post_zoom]
  rcases Nat.lt_or_ge rest.length len with hshort | hlong
  · rw [Prog.post_of_error (rPacketGetBytes_of_short past hshort)]
    exact if_pos ((quicLt_iff (by omega) (by omega)).mpr (by omega))
  · have hsplit := List.take_append_drop len rest
    have htake : (rest.take len).length = len := List.length_take_of_le hlong
    have hread := rPacketGetBytes_append past (rest.take len)
      (show (rest.drop len).length < 2 ^ 31 by rw [List.length_drop]; dsimp only at hs; omega)
    rw [hsplit, htake] at hread
    rw [Prog.post_of_eq hread]
    exact ⟨rest.take len, ⟨rfl, htake⟩, hsplit.symm, rfl⟩

/-- A byte is read. -/
theorem Consumes.get1 : @Consumes κ _ (onPkt rPacketGet1) fun n bytes =>
    ∃ b : UInt8, n = b.toNat ∧ bytes = [b] := by
  rintro ⟨⟨past, rest⟩, conn⟩ hs
  rw [onPkt, Prog.post_zoom]
  cases rest with
  | nil =>
    rw [show Prog.Post rPacketGet1 _ _ _ ↔ _ from Prog.post_of_error rPacketGet1_nil]
  | cons b rest =>
    have hrest : rest.length < 2 ^ 31 := Nat.lt_of_succ_lt hs
    have hread : rPacketGet1 { past, rest := b :: rest } = _ := rPacketGet1_cons hrest
    rw [show Prog.Post rPacketGet1 _ _ _ ↔ _ from Prog.post_of_eq hread]
    exact ⟨[b], ⟨b, rfl, rfl⟩, rfl, rfl⟩

/-- Four bytes are read. -/
theorem Consumes.get4 : @Consumes κ _ (onPkt rPacketGet4) fun _ bytes => bytes.length = 4 := by
  intro s hs
  have hread := @Consumes.getBytes κ _ (show 4 < 2 ^ 31 by decide) s hs
  rw [onPkt, Prog.post_zoom] at hread ⊢
  rw [rPacketGet4, rPacketGetData, Prog.post_bind]
  refine hread.mono ?_ fun e t he => he
  rintro data t ⟨bytes, ⟨rfl, hlen⟩, hrest, hpast⟩
  exact ⟨bytes, hlen, hrest, hpast⟩

end Consumes

section Header

variable (calls : PacketCalls κ)

/-- The connection ID of this endpoint is read. -/
theorem consumes_parseDcid {len : ℕ} (hlen : len < 2 ^ 31) :
    Consumes (parseDcid calls len) fun _ bytes => bytes.length = len := by
  refine Consumes.get_bind fun s => Consumes.ite (fun _ => ?_) fun _ => ?_
  · refine (Consumes.bind (Consumes.getBytes hlen) (Q := fun _ _ y => y = [])
      fun data _ _ => ?_).mono ?_
    · refine Consumes.get_bind fun s => Consumes.ofOption_bind fun other => ?_
      refine Consumes.setConn_bind ?_
      refine Consumes.ite (fun _ => ?_) fun _ => ?_
      · exact Consumes.ite (fun _ => Consumes.ensure rfl) fun _ => Consumes.setConn rfl
      · refine Consumes.ite (fun _ => ?_) fun _ => ?_
        · refine Consumes.get_bind fun s => ?_
          split
          · exact Consumes.setConn rfl
          · exact Consumes.ofOption_bind fun _ => Consumes.setConn rfl
        · exact Consumes.get_bind fun s => Consumes.ensure rfl
    · rintro _ _ ⟨data, x, y, ⟨rfl, hx⟩, rfl, rfl⟩
      rwa [List.append_nil]
  · refine (Consumes.bind (Consumes.getBytes hlen) (Q := fun _ _ y => y = [])
      fun data _ _ => ?_).mono ?_
    · exact Consumes.get_bind fun s => Consumes.ensure rfl
    · rintro _ _ ⟨data, x, y, ⟨rfl, hx⟩, rfl, rfl⟩
      rwa [List.append_nil]

/-- The connection ID of the peer is read, unless the peer may still choose it. -/
theorem consumes_parseScid {len : ℕ} (hlen : len < 2 ^ 31) :
    Consumes (parseScid calls len) fun chosen bytes =>
      bytes.length = if chosen = true then 0 else len := by
  have hcmp (m : List UInt8 → Prog Fail (PktRecv κ) Bool)
      (hm : ∀ data, Consumes (m data) fun chosen bytes => chosen = false ∧ bytes = []) :
      Consumes (onPkt (rPacketGetBytes len) >>= m) fun chosen bytes =>
        bytes.length = if chosen = true then 0 else len := by
    refine (Consumes.bind (Consumes.getBytes hlen) fun data _ _ => hm data).mono ?_
    rintro _ _ ⟨data, x, y, ⟨rfl, hx⟩, ⟨rfl, rfl⟩, rfl⟩
    rwa [List.append_nil]
  refine Consumes.get_bind fun s => Consumes.ite (fun _ => ?_) fun _ => ?_
  · refine hcmp _ fun data => Consumes.get_bind fun s => Consumes.ite (fun _ => ?_) fun _ => ?_
    · exact Consumes.setConn_bind (Consumes.pure ⟨rfl, rfl⟩)
    · refine Consumes.ite (fun _ => Consumes.pure ⟨rfl, rfl⟩) fun _ => ?_
      rw [dcidCmp, Prog.bind_assoc]
      refine Consumes.get_bind fun s => ?_
      exact Consumes.ensure_bind fun _ => Consumes.pure ⟨rfl, rfl⟩
  · refine Consumes.get_bind fun s => Consumes.ensure_bind fun _ => ?_
    refine Consumes.ite (fun _ => Consumes.pure rfl) fun _ => ?_
    refine Consumes.ite (fun h => Consumes.pure h.2.symm) fun _ => ?_
    refine hcmp _ fun data => ?_
    rw [dcidCmp, Prog.bind_assoc]
    refine Consumes.get_bind fun s => ?_
    exact Consumes.ensure_bind fun _ => Consumes.pure ⟨rfl, rfl⟩

/-- The bytes of a long header behind the first are read. -/
theorem consumes_longHeader : Consumes (quicLPacketHeaderParse calls) fun _ bytes =>
    ∃ (version : List UInt8) (dcidLen : UInt8) (dcid : List UInt8) (scidLen : UInt8)
      (scid : List UInt8), version.length = 4 ∧ dcid.length = dcidLen.toNat ∧
        scid.length = scidLen.toNat ∧
        bytes = version ++ dcidLen :: (dcid ++ scidLen :: scid) := by
  have hbyte (b : UInt8) : b.toNat < 2 ^ 31 := b.toNat_lt.trans (by decide)
  have hscid : Consumes (do
      let len ← onPkt rPacketGet1
      let chosen ← parseScid calls len
      if chosen then do
        let data ← onPkt (rPacketGetBytes len)
        pure (some data)
      else pure none) fun _ bytes =>
        ∃ (scidLen : UInt8) (scid : List UInt8), scid.length = scidLen.toNat ∧
          bytes = scidLen :: scid := by
    refine (Consumes.bind Consumes.get1 (Q := fun n _ y => y.length = n) ?_).mono ?_
    · rintro _ _ ⟨b, rfl, -⟩
      refine (Consumes.bind (consumes_parseScid calls (hbyte b))
        (Q := fun chosen _ y => y.length = if chosen = true then b.toNat else 0) ?_).mono ?_
      · intro chosen _ _
        refine Consumes.ite (fun h => ?_) fun h => ?_
        · refine (Consumes.bind (Consumes.getBytes (hbyte b)) (Q := fun _ _ y => y = [])
            fun data _ _ => Consumes.pure rfl).mono ?_
          rintro _ _ ⟨data, x, y, ⟨rfl, hx⟩, rfl, rfl⟩
          rw [List.append_nil, hx, if_pos h]
        · exact Consumes.pure (by rw [if_neg h, List.length_nil])
      · rintro _ _ ⟨chosen, x, y, hx, hy, rfl⟩
        rw [List.length_append, hx, hy]
        split_ifs <;> omega
    · rintro _ _ ⟨_, _, y, ⟨b, rfl, rfl⟩, hy, rfl⟩
      exact ⟨b, y, hy, rfl⟩
  refine (Consumes.bind Consumes.get4 (Q := fun _ _ y => ∃ (dcidLen : UInt8) (dcid : List UInt8)
    (scidLen : UInt8) (scid : List UInt8), dcid.length = dcidLen.toNat ∧
      scid.length = scidLen.toNat ∧ y = dcidLen :: (dcid ++ scidLen :: scid)) ?_).mono ?_
  · intro version _ _
    refine (Consumes.bind Consumes.get1 (Q := fun n _ y => ∃ (dcid : List UInt8)
      (scidLen : UInt8) (scid : List UInt8), dcid.length = n ∧
        scid.length = scidLen.toNat ∧ y = dcid ++ scidLen :: scid) ?_).mono ?_
    · rintro _ _ ⟨b, rfl, -⟩
      refine Consumes.get_bind fun s => Consumes.ensure_bind fun _ => ?_
      refine Consumes.ensure_bind fun _ => Consumes.ensure_bind fun _ => ?_
      refine (Consumes.bind (consumes_parseDcid calls (hbyte b)) fun _ _ _ => hscid).mono ?_
      rintro _ _ ⟨_, x, y, hx, ⟨scidLen, scid, hlen, rfl⟩, rfl⟩
      exact ⟨x, scidLen, scid, hx, hlen, rfl⟩
    · rintro _ _ ⟨_, _, y, ⟨b, rfl, rfl⟩, ⟨dcid, scidLen, scid, hdcid, hlen, rfl⟩, rfl⟩
      exact ⟨b, dcid, scidLen, scid, hdcid, hlen, rfl⟩
  · rintro _ _ ⟨_, x, y, hx, ⟨dcidLen, dcid, scidLen, scid, hdcid, hlen, rfl⟩, rfl⟩
    exact ⟨x, dcidLen, dcid, scidLen, scid, hx, hdcid, hlen, rfl⟩

/-- A connection ID behind the first byte of a short header is read. -/
theorem consumes_shortHeader : Consumes (quicSPacketHeaderParse calls) fun _ _ => True := by
  refine Consumes.get_bind fun s => Consumes.ite (fun _ => Consumes.pure trivial) fun _ => ?_
  have hlen : s.conn.scid.val.length < 2 ^ 31 := s.conn.scid.property.trans (by decide)
  refine (Consumes.bind (Consumes.getBytes hlen) (Q := fun _ _ _ => True) fun data _ _ => ?_).mono
    fun _ _ _ => trivial
  exact Consumes.get_bind fun s => Consumes.ensure trivial

end Header

section Body

variable (calls : PacketCalls κ)

/-- The Length field of a packet denotes bytes of the datagram unless it is seen to be too
large. -/
def LengthInside (pkt : RPacket) : Prop :=
  ∀ length pkt', quicVariableLengthDecode pkt = (.ok length, pkt') →
    ¬ quicGt length pkt'.remaining → length ≤ pkt'.remaining

/-- A token with the length of the stored one lies in the datagram, and when it is the stored one,
the Length field behind it is fine as well. -/
def TokenInside (s : PktRecv κ) : Prop :=
  ∀ tokenLen pkt', quicVariableLengthDecode s.pkt = (.ok tokenLen, pkt') →
    (tokenLen = 0 ∨ ∃ token, s.conn.token = some token ∧ token.length = tokenLen) →
    tokenLen ≤ pkt'.remaining ∧
      (tokenLen = 0 ∨ s.conn.token = some (pkt'.rest.take tokenLen) →
        LengthInside (pkt'.forward tokenLen))

/-- The parser of a packet of some type stays in the datagram and consumes the packet. -/
structure BodySplits (type : QuicPktType) (s : PktRecv κ) : Prop where
  /-- The token and the Length field of an Initial packet. -/
  initial : type = .initial → TokenInside s
  /-- The parser of 0-RTT packets leaves the packet behind its header. -/
  zeroRtt : type ≠ .zeroRtt
  /-- The Length field of a Handshake packet. -/
  handshake : type = .handshake → LengthInside s.pkt
  /-- The parser of Retry packets leaves the packet behind its header. -/
  retry : type = .retry → s.pkt.rest = []

/-- A run on the rest of a datagram stays in it and ends behind a whole packet. -/
structure TakesPacket {γ : Type} (datagram : List UInt8) (run : Except Fail γ × PktRecv κ) :
    Prop where
  /-- The datagram is not left: a run fails with the error code only. -/
  inside : ∀ e, run.1 = .error e → e = .ret
  /-- A packet was consumed from the front of the datagram. -/
  whole : run.1.isOk = true → WholePacket run.2.pkt.past run.2.pkt.rest ∧
    run.2.pkt.past ++ run.2.pkt.rest = datagram

/-- A run that fails with the error code stays in the datagram. -/
theorem takes_of_ret {datagram : List UInt8} {t : PktRecv κ} :
    TakesPacket datagram ((.error .ret, t) : Except Fail α × PktRecv κ) := by
  refine ⟨fun e h => ?_, fun h => (by cases h)⟩
  cases h
  rfl

/-- A run that leaves the datagram takes nothing. -/
theorem not_takes_of_ub {datagram : List UInt8} {t : PktRecv κ} :
    ¬ TakesPacket datagram ((.error .ub, t) : Except Fail α × PktRecv κ) := by
  intro h
  cases h.inside .ub rfl

/-- A Length field that is read is compared with what remains. -/
theorem lengthInside_iff {pkt pkt' : RPacket} {length : ℕ}
    (hread : quicVariableLengthDecode pkt = (.ok length, pkt')) :
    LengthInside pkt ↔ (¬ quicGt length pkt'.remaining → length ≤ pkt'.remaining) := by
  constructor
  · intro h
    exact h length pkt' hread
  · intro h n pkt'' hn
    rw [hread] at hn
    cases hn
    exact h

/-- A Length field that is cut short is fine. -/
theorem lengthInside_of_error {pkt pkt' : RPacket} {e : Fail}
    (hread : quicVariableLengthDecode pkt = (.error e, pkt')) : LengthInside pkt := by
  intro n pkt'' hn
  rw [hread] at hn
  cases hn

/-- A packet is cut out by its Length field. -/
theorem quicLengthParse_post {pkt : RPacket} (hpkt : pkt.rest.length < 2 ^ 31) :
    Prog.Post quicLengthParse
      (fun _ t => LengthInside pkt ∧ ∃ (length : VarLength) (payload : List UInt8),
        payload.length = length.value ∧ t.past = pkt.past ++ (length.bytes ++ payload) ∧
          t.past ++ t.rest = pkt.past ++ pkt.rest)
      (fun e _ => e = .ret ∧ LengthInside pkt ∨ e = .ub ∧ ¬ LengthInside pkt) pkt := by
  obtain ⟨past, rest⟩ := pkt
  rcases quicVariableLengthDecode_cases past hpkt with
    ⟨length, after, hrest, hread⟩ | ⟨-, t, hread⟩
  · have hrest : rest = length.bytes ++ after := hrest
    have hinside := lengthInside_iff hread
    unfold Prog.Post
    rw [quicLengthParse, Prog.bind_of_ok hread, Prog.get_bind]
    by_cases hlook : quicGt length.value (RPacket.mk (past ++ length.bytes) after).remaining
    · rw [Prog.ensure_of_neg (not_not.mpr hlook), Prog.fail_bind]
      exact Or.inl ⟨rfl, hinside.mpr fun h => absurd hlook h⟩
    · rw [Prog.ensure_of_pos hlook, Prog.pure_bind]
      by_cases hle : length.value ≤ (RPacket.mk (past ++ length.bytes) after).remaining
      · rw [Prog.ensure_of_pos hle, Prog.pure_bind, Prog.modify_bind]
        refine ⟨hinside.mpr fun _ => hle, length, after.take length.value,
          List.length_take_of_le hle, ?_, ?_⟩
        · exact List.append_assoc _ _ _
        · change past ++ length.bytes ++ after.take length.value ++ after.drop length.value =
            past ++ rest
          rw [List.append_assoc, List.take_append_drop, List.append_assoc, hrest]
      · rw [Prog.ensure_of_neg hle, Prog.fail_bind]
        exact Or.inr ⟨rfl, fun h => hle (hinside.mp h hlook)⟩
  · rw [quicLengthParse, Prog.post_of_error (Prog.bind_of_error hread)]
    exact Or.inl ⟨rfl, lengthInside_of_error hread⟩

/-- What is done with a packet that is cut out leaves the cursor. -/
theorem packet_apply (type : QuicPktType) (msg : RPacket) (s : PktRecv κ) :
    (∀ e, (packet calls type msg s).1 = .error e → e = .ret) ∧
      (packet calls type msg s).2.pkt = s.pkt := by
  unfold packet
  refine ⟨?_, rfl⟩
  dsimp only
  intro e he
  split_ifs at he
  cases he
  rfl

/-- A packet with a Length field at the end of its header is taken when the field is fine. -/
theorem lengthPacket_takes_iff {s : PktRecv κ} {type : QuicPktType}
    (hs : s.pkt.rest.length < 2 ^ 31)
    (hwhole : ∀ (length : VarLength) (payload rest : List UInt8),
      payload.length = length.value →
        WholePacket (s.pkt.past ++ (length.bytes ++ payload)) rest) :
    TakesPacket (s.pkt.past ++ s.pkt.rest)
      ((onPkt quicLengthParse >>= fun msg => packet calls type msg) s) ↔
      LengthInside s.pkt := by
  have hpost := quicLengthParse_post hs
  rcases hread : quicLengthParse s.pkt with ⟨r, pkt'⟩
  cases r with
  | error e =>
    rw [Prog.bind_of_error (show onPkt quicLengthParse s = _ from Prog.zoom_of_error hread)]
    rcases hpost.of_error hread with ⟨rfl, hinside⟩ | ⟨rfl, hinside⟩
    · exact iff_of_true takes_of_ret hinside
    · exact iff_of_false not_takes_of_ub hinside
  | ok msg =>
    obtain ⟨hinside, length, payload, hpayload, hpast, hkept⟩ := hpost.of_ok hread
    rw [Prog.bind_of_ok (show onPkt quicLengthParse s = _ from Prog.zoom_of_ok hread)]
    obtain ⟨hne, hpkt⟩ := packet_apply calls type msg { s with pkt := pkt' }
    refine iff_of_true ⟨hne, fun _ => ?_⟩ hinside
    rw [hpkt]
    refine ⟨?_, hkept⟩
    change WholePacket pkt'.past pkt'.rest
    rw [hpast]
    exact hwhole length payload pkt'.rest hpayload

/-- The token of a packet whose token length is read. -/
theorem tokenInside_iff {s : PktRecv κ} {pkt' : RPacket} {tokenLen : ℕ}
    (hread : quicVariableLengthDecode s.pkt = (.ok tokenLen, pkt')) :
    TokenInside s ↔ ((tokenLen = 0 ∨ ∃ token, s.conn.token = some token ∧ token.length = tokenLen) →
      tokenLen ≤ pkt'.remaining ∧
        (tokenLen = 0 ∨ s.conn.token = some (pkt'.rest.take tokenLen) →
          LengthInside (pkt'.forward tokenLen))) := by
  constructor
  · intro h
    exact h tokenLen pkt' hread
  · intro h n pkt'' hn
    rw [hread] at hn
    cases hn
    exact h

/-- How a token is verified. -/
theorem quicTokenVerify_cases (len : ℕ) (s : PktRecv κ) :
    quicTokenVerify len s = (.ok (), s) ∧
        (len = 0 ∨ s.conn.token = some (s.pkt.rest.take len) ∧ len ≤ s.pkt.remaining) ∨
      quicTokenVerify len s = (.error .ret, s) ∧
        ((len = 0 ∨ ∃ token, s.conn.token = some token ∧ token.length = len) →
          len ≤ s.pkt.remaining ∧
            ¬ (len = 0 ∨ s.conn.token = some (s.pkt.rest.take len))) ∨
      quicTokenVerify len s = (.error .ub, s) ∧
        (∃ token, s.conn.token = some token ∧ token.length = len) ∧ s.pkt.remaining < len := by
  rw [quicTokenVerify]
  by_cases hzero : len = 0
  · rw [if_pos hzero]
    exact Or.inl ⟨rfl, Or.inl hzero⟩
  · rw [if_neg hzero, Prog.get_bind]
    cases htoken : s.conn.token with
    | none =>
      rw [Prog.ofOption_none, Prog.fail_bind]
      refine Or.inr (Or.inl ⟨rfl, ?_⟩)
      rintro (h | ⟨token, h, -⟩)
      · exact absurd h hzero
      · cases h
    | some token =>
      rw [Prog.ofOption_some, Prog.pure_bind]
      by_cases hlen : token.length = len
      · rw [Prog.ensure_of_pos hlen, Prog.pure_bind]
        by_cases hle : len ≤ s.pkt.remaining
        · rw [Prog.ensure_of_pos hle, Prog.pure_bind]
          by_cases hsame : token = s.pkt.rest.take len
          · rw [Prog.ensure_of_pos hsame]
            exact Or.inl ⟨rfl, Or.inr ⟨by rw [← hsame], hle⟩⟩
          · rw [Prog.ensure_of_neg hsame]
            refine Or.inr (Or.inl ⟨rfl, fun _ => ⟨hle, ?_⟩⟩)
            rintro (h | h)
            · exact hzero h
            · exact hsame (Option.some.inj h)
        · rw [Prog.ensure_of_neg hle, Prog.fail_bind]
          exact Or.inr (Or.inr ⟨rfl, ⟨token, rfl, hlen⟩, not_le.mp hle⟩)
      · rw [Prog.ensure_of_neg hlen, Prog.fail_bind]
        refine Or.inr (Or.inl ⟨rfl, ?_⟩)
        rintro (h | ⟨token', h, hlen'⟩)
        · exact absurd h hzero
        · cases h
          exact absurd hlen' hlen

/-- An Initial packet is taken when its token and its Length field are fine. -/
theorem initPacket_takes_iff {s : PktRecv κ} (hs : s.pkt.rest.length < 2 ^ 31)
    (hheader : LongHeader 0 s.pkt.past) :
    TakesPacket (s.pkt.past ++ s.pkt.rest) (quicInitPacketParse calls s) ↔ TokenInside s := by
  rcases s with ⟨⟨past, rest⟩, conn⟩
  rcases quicVariableLengthDecode_cases past hs with ⟨tokenLen, after, hrest, hread⟩ | ⟨-, t, hread⟩
  · have hrest : rest = tokenLen.bytes ++ after := hrest
    have hafter : after.length < 2 ^ 31 := by
      dsimp only at hs
      rw [hrest, List.length_append] at hs
      omega
    have hverify := quicTokenVerify_cases tokenLen.value
      (⟨⟨past ++ tokenLen.bytes, after⟩, conn⟩ : PktRecv κ)
    rw [tokenInside_iff (s := ⟨⟨past, rest⟩, conn⟩) hread, quicInitPacketParse,
      Prog.bind_of_ok (show onPkt quicVariableLengthDecode _ = _ from Prog.zoom_of_ok hread)]
    rcases hverify with ⟨hrun, hok⟩ | ⟨hrun, hno⟩ | ⟨hrun, htoken, hlen⟩
    · rw [Prog.bind_of_ok hrun]
      have hle : tokenLen.value ≤ after.length := by
        rcases hok with hzero | ⟨-, hle⟩
        · omega
        · exact hle
      have htake : (after.take tokenLen.value).length = tokenLen.value :=
        List.length_take_of_le hle
      have hforward : onPkt (Prog.modify (·.forward tokenLen.value))
          (⟨⟨past ++ tokenLen.bytes, after⟩, conn⟩ : PktRecv κ) =
          (.ok (), ⟨(RPacket.mk (past ++ tokenLen.bytes) after).forward tokenLen.value, conn⟩) :=
        rfl
      have hkept : past ++ rest = past ++ tokenLen.bytes ++ after.take tokenLen.value ++
          after.drop tokenLen.value := by
        rw [List.append_assoc, List.take_append_drop, List.append_assoc, hrest]
      rw [Prog.bind_of_ok hforward]
      change TakesPacket (past ++ rest) _ ↔ _
      rw [hkept]
      have htakes := @lengthPacket_takes_iff κ calls
        ⟨(RPacket.mk (past ++ tokenLen.bytes) after).forward tokenLen.value, conn⟩ .initial
      refine (htakes ?_ ?_).trans ?_
      · change (after.drop tokenLen.value).length < 2 ^ 31
        rw [List.length_drop]
        omega
      · intro length payload rest' hpayload
        have hwhole := WholePacket.initial tokenLen (after.take tokenLen.value) length payload
          rest' hheader htake hpayload
        change WholePacket (past ++ tokenLen.bytes ++ after.take tokenLen.value ++
          (length.bytes ++ payload)) rest'
        rwa [List.append_assoc, List.append_assoc]
      · constructor
        · intro h _
          exact ⟨hle, fun _ => h⟩
        · intro h
          rcases hok with hzero | ⟨htoken, -⟩
          · exact (h (Or.inl hzero)).2 (Or.inl hzero)
          · exact (h (Or.inr ⟨_, htoken, htake⟩)).2 (Or.inr htoken)
    · rw [Prog.bind_of_error hrun]
      refine iff_of_true takes_of_ret fun h => ?_
      obtain ⟨hle, hdiffer⟩ := hno h
      exact ⟨hle, fun hsame => absurd hsame hdiffer⟩
    · rw [Prog.bind_of_error hrun]
      refine iff_of_false not_takes_of_ub fun h => ?_
      have hle := (h (Or.inr htoken)).1
      change after.length < tokenLen.value at hlen
      change tokenLen.value ≤ after.length at hle
      omega
  · rw [quicInitPacketParse,
      Prog.bind_of_error (show onPkt quicVariableLengthDecode _ = _ from Prog.zoom_of_error hread)]
    refine iff_of_true takes_of_ret ?_
    intro n pkt'' hn
    change quicVariableLengthDecode { past, rest } = _ at hn
    rw [hread] at hn
    cases hn

/-- The bytes in front of the body of a packet. -/
structure HeaderOf (type : QuicPktType) (header : List UInt8) : Prop where
  /-- The header of an Initial packet. -/
  initial : type = .initial → LongHeader 0 header
  /-- The header of a 0-RTT packet. -/
  zeroRtt : type = .zeroRtt → LongHeader 1 header
  /-- The header of a Handshake packet. -/
  handshake : type = .handshake → LongHeader 2 header
  /-- The header of a Retry packet. -/
  retry : type = .retry → LongHeader 3 header
  /-- The header of a 1-RTT packet. -/
  oneRtt : type = .oneRtt →
    ∃ (flags : UInt8) (rest : List UInt8), header = flags :: rest ∧
      isLongPacket flags.toNat = false

/-- A packet is taken by its parser exactly when its parser stays in the datagram and consumes the
packet. -/
theorem body_takes_iff {type : QuicPktType} {s : PktRecv κ} (hs : s.pkt.rest.length < 2 ^ 31)
    (hheader : HeaderOf type s.pkt.past) :
    TakesPacket (s.pkt.past ++ s.pkt.rest) (quicPktBodyParse calls type s) ↔
      BodySplits type s := by
  cases type with
  | initial =>
    refine (initPacket_takes_iff calls hs (hheader.initial rfl)).trans ?_
    constructor
    · intro h
      exact ⟨fun _ => h, fun h => (by cases h), fun h => (by cases h), fun h => (by cases h)⟩
    · intro h
      exact h.initial rfl
  | zeroRtt =>
    refine iff_of_false (fun h => ?_) fun h => h.zeroRtt rfl
    exact (hheader.zeroRtt rfl).not_whole (Or.inl rfl) (h.whole rfl).1
  | handshake =>
    refine (lengthPacket_takes_iff calls hs ?_).trans ?_
    · intro length payload rest hpayload
      exact WholePacket.sealed length payload rest (Or.inr rfl) (hheader.handshake rfl) hpayload
    · constructor
      · intro h
        exact ⟨fun h => (by cases h), fun h => (by cases h), fun _ => h, fun h => (by cases h)⟩
      · intro h
        exact h.handshake rfl
  | retry =>
    constructor
    · intro h
      refine ⟨fun h => (by cases h), fun h => (by cases h), fun h => (by cases h), fun _ => ?_⟩
      by_contra hrest
      exact (hheader.retry rfl).not_whole (Or.inr ⟨rfl, hrest⟩) (h.whole rfl).1
    · intro h
      refine ⟨fun e h => (by cases h), fun _ => ?_⟩
      have hwhole := WholePacket.retry [] (hheader.retry rfl)
      rw [List.append_nil, ← h.retry rfl] at hwhole
      exact ⟨hwhole, rfl⟩
  | oneRtt =>
    refine iff_of_true ?_
      ⟨fun h => (by cases h), fun h => (by cases h), fun h => (by cases h), fun h => (by cases h)⟩
    change TakesPacket _ (quicOneRttParse calls s)
    rw [quicOneRttParse, Prog.get_bind]
    obtain ⟨hne, hpkt⟩ := packet_apply calls .oneRtt s.pkt s
    rcases hrun : packet calls .oneRtt s.pkt s with ⟨r, t⟩
    rw [hrun] at hne hpkt
    cases r with
    | error e =>
      rw [Prog.bind_of_error hrun]
      exact ⟨hne, fun h => (by cases h)⟩
    | ok u =>
      rw [Prog.bind_of_ok hrun]
      refine ⟨fun e h => (by cases h), fun _ => ?_⟩
      obtain ⟨flags, header, hflags, hshort⟩ := hheader.oneRtt rfl
      have hpast : t.pkt.past ++ t.pkt.rest.take t.pkt.remaining = s.pkt.past ++ s.pkt.rest := by
        rw [RPacket.remaining, List.take_length, show t.pkt = s.pkt from hpkt]
      have hrest : t.pkt.rest.drop t.pkt.remaining = [] := List.drop_length
      change WholePacket (t.pkt.past ++ t.pkt.rest.take t.pkt.remaining)
          (t.pkt.rest.drop t.pkt.remaining) ∧
        t.pkt.past ++ t.pkt.rest.take t.pkt.remaining ++ t.pkt.rest.drop t.pkt.remaining =
          s.pkt.past ++ s.pkt.rest
      rw [hpast, hrest]
      refine ⟨?_, List.append_nil _⟩
      rw [hflags]
      exact WholePacket.short flags _ hshort

end Body

end PktRecv

end Tbquic
