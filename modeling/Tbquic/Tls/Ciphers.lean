import Tbquic.Packet
import Tbquic.Tls.Library

/-!
# The choice of a cipher suite

A server looks up every suite that a ClientHello lists, and takes the first suite of its own list
that is among them. A suite that it does not know ends the handshake.
-/

namespace Tbquic

/-- The part of a server that reads a ClientHello. -/
structure HelloServer where
  /-- The message. -/
  pkt : RPacket
  /-- `client_random`. -/
  clientRandom : List UInt8
  /-- `handshake_cipher`, or `NULL`. -/
  handshakeCipher : Option TlsCipher
  deriving DecidableEq, Repr

namespace HelloServer

/-- Read from the message. -/
def onPkt {α : Type} (m : Prog Fail RPacket α) : Prog Fail HelloServer α :=
  Prog.zoom (·.pkt) (fun pkt s => { s with pkt }) m

variable {α β : Type} {m : Prog Fail RPacket α} {f : α → Prog Fail HelloServer β}
  {pkt pkt' : RPacket} {random : List UInt8} {cipher : Option TlsCipher}

/-- What is read from the message. -/
theorem onPkt_of_ok {a : α} (h : m pkt = (.ok a, pkt')) :
    onPkt m ⟨pkt, random, cipher⟩ = (.ok a, ⟨pkt', random, cipher⟩) :=
  Prog.zoom_of_ok h

/-- A sequence behind what is read. -/
theorem onPkt_bind_of_ok {a : α} (h : m pkt = (.ok a, pkt')) :
    (onPkt m >>= f) ⟨pkt, random, cipher⟩ = f a ⟨pkt', random, cipher⟩ :=
  Prog.bind_of_ok (onPkt_of_ok h)

/-- A sequence whose reading fails. -/
theorem onPkt_bind_of_error {e : Fail} (h : m pkt = (.error e, pkt')) :
    (onPkt m >>= f) ⟨pkt, random, cipher⟩ = (.error e, ⟨pkt', random, cipher⟩) :=
  Prog.bind_of_error (Prog.zoom_of_error h)

end HelloServer

/-- `TlsHelloHeadParse` of a ClientHello. -/
def tlsHelloHeadParse : Prog Fail HelloServer Unit := do
  let _ ← HelloServer.onPkt rPacketGet2
  let random ← HelloServer.onPkt (rPacketGetBytes 32)
  Prog.modify fun s => { s with clientRandom := random }
  let sessionIdLen ← HelloServer.onPkt rPacketGet1
  HelloServer.onPkt (rPacketPull sessionIdLen)

/-- The rounds of `TlsParseCipherList` behind the suites found so far. The list is freed when it
fails. -/
def tlsParseCiphers : ℕ → List TlsCipher → Prog Fail RPacket (List TlsCipher)
  | 0, list => pure list
  | n + 1, list => do
    let id ← rPacketGet2
    let cipher ← Prog.ofOption .ret (quicGetTlsCipherById id)
    tlsParseCiphers n (list ++ [cipher])

/-- `TlsParseCipherList`, which takes two bytes in each round. -/
def tlsParseCipherList (len : ℕ) : Prog Fail RPacket (List TlsCipher) :=
  tlsParseCiphers ((len + 1) / 2) []

/-- `TlsCipherMatchListById`, which takes a `uint16_t`. -/
def tlsCipherMatchListById (list : List TlsCipher) (id : ℕ) : Option TlsCipher :=
  list.find? fun cipher => cipher.id = id % 2 ^ 16

/-- The loop of `TlsClientHelloProc` over the list of the server. -/
def matchServerCiphers (cipherList list : List TlsCipher) : Option TlsCipher :=
  cipherList.findSome? fun serverCipher => tlsCipherMatchListById list serverCipher.id

/-- The part of `TlsClientHelloProc` that chooses the suite. -/
def tlsClientHelloCipher (cipherList : List TlsCipher) : Prog Fail RPacket TlsCipher := do
  let cipherLen ← rPacketGet2
  Prog.ensure .ret (cipherLen % 2 = 0)
  let pkt ← Prog.get
  Prog.ensure .ret (¬ pkt.remaining < cipherLen)
  let list ← tlsParseCipherList cipherLen
  Prog.ofOption .ret (matchServerCiphers cipherList list)

/-- The part of `TlsClientHelloProc` behind the choice. The extensions and what follows them are a
parameter. -/
def tlsClientHelloRest (finish : Prog Fail HelloServer Unit) : Prog Fail HelloServer Unit := do
  let compressLen ← HelloServer.onPkt rPacketGet1
  HelloServer.onPkt (rPacketPull compressLen)
  finish

/-- `TlsClientHelloProc`. -/
def tlsClientHelloProc (cipherList : List TlsCipher) (finish : Prog Fail HelloServer Unit) :
    Prog Fail HelloServer Unit := do
  tlsHelloHeadParse
  let cipher ← HelloServer.onPkt (tlsClientHelloCipher cipherList)
  Prog.modify fun s => { s with handshakeCipher := some cipher }
  tlsClientHelloRest finish

/-- The bytes of a list of suites. -/
def cipherBytes (ids : List UInt16) : List UInt8 :=
  ids.flatMap fun id => Bytes.ofNat 2 id.toNat

/-- Each suite has two bytes. -/
theorem cipherBytes_length (ids : List UInt16) : (cipherBytes ids).length = 2 * ids.length := by
  unfold cipherBytes
  induction ids with
  | nil => rfl
  | cons id ids ih =>
    rw [List.flatMap_cons, List.length_append, Bytes.ofNat_length, ih, List.length_cons]
    omega

/-- A ClientHello, up to its list of suites and the bytes behind it. -/
structure ClientHello where
  /-- `legacy_version`. -/
  version : UInt16
  /-- The random bytes. -/
  random : List UInt8
  /-- The session. -/
  sessionId : List UInt8
  /-- The suites. -/
  ids : List UInt16
  /-- The bytes behind the suites. -/
  tail : List UInt8
  /-- There are 32 random bytes. -/
  random_length : random.length = 32
  /-- The session has its length in one byte. -/
  sessionId_length : sessionId.length < 256
  /-- The list of suites has its length in two bytes. -/
  ids_length : 2 * ids.length < 2 ^ 16
  /-- A message has its length in three bytes. -/
  tail_length : tail.length < 2 ^ 24

namespace ClientHello

variable (hello : ClientHello)

/-- The bytes before the list of suites. -/
def head : List UInt8 :=
  Bytes.ofNat 2 hello.version.toNat ++
    (hello.random ++ (Bytes.ofNat 1 hello.sessionId.length ++ hello.sessionId))

/-- The body of the message. -/
def bytes : List UInt8 :=
  hello.head ++
    (Bytes.ofNat 2 (cipherBytes hello.ids).length ++ (cipherBytes hello.ids ++ hello.tail))

/-- The suite of a server that is to be chosen: the first one that the client lists. -/
def shared (cipherList : List TlsCipher) : Option TlsCipher :=
  cipherList.find? fun cipher => cipher.id ∈ hello.ids.map UInt16.toNat

/-- The server chooses the shared suite and goes on behind the list, or fails without one. -/
def Served (cipherList : List TlsCipher) : Prop :=
  ∀ (finish : Prog Fail HelloServer Unit) (s : HelloServer), s.pkt.rest = hello.bytes →
    match hello.shared cipherList with
    | some cipher => ∃ past, tlsClientHelloProc cipherList finish s =
        tlsClientHelloRest finish ⟨⟨past, hello.tail⟩, hello.random, some cipher⟩
    | none => ∃ t, tlsClientHelloProc cipherList finish s = (.error .ret, t)

/-- The server knows every suite of the list. -/
def Known : Prop := ∀ id ∈ hello.ids, (quicGetTlsCipherById id.toNat).isSome = true

instance : Decidable hello.Known := List.decidableBAll _ hello.ids

end ClientHello

/-- A suite that is found has the number that was looked up. -/
theorem quicGetTlsCipherById_id {id : ℕ} {cipher : TlsCipher}
    (h : quicGetTlsCipherById id = some cipher) : cipher.id = id % 2 ^ 16 := by
  have hfound := List.find?_some h
  exact of_decide_eq_true hfound

/-- A suite of the table is found by its number. -/
theorem quicGetTlsCipherById_of_mem {cipher : TlsCipher} (h : cipher ∈ tlsCiphers) :
    quicGetTlsCipherById cipher.id = some cipher := by
  revert cipher
  decide

/-- The number of a suite of the table has two bytes. -/
theorem tlsCiphers_id_lt {cipher : TlsCipher} (h : cipher ∈ tlsCiphers) :
    cipher.id < 2 ^ 16 := by
  revert cipher
  decide

/-- The suites of a list, as the table has them. -/
def knownCiphers (ids : List UInt16) : List TlsCipher :=
  ids.filterMap fun id => quicGetTlsCipherById id.toNat

/-- A suite of the table is matched when its number is in the list. -/
theorem tlsCipherMatchListById_knownCiphers (ids : List UInt16) {cipher : TlsCipher}
    (h : cipher ∈ tlsCiphers) :
    tlsCipherMatchListById (knownCiphers ids) cipher.id =
      if cipher.id ∈ ids.map UInt16.toNat then some cipher else none := by
  have hid : cipher.id % 2 ^ 16 = cipher.id := Nat.mod_eq_of_lt (tlsCiphers_id_lt h)
  rw [tlsCipherMatchListById, hid]
  split_ifs with hmem
  · -- every suite with this number is the one of the table
    obtain ⟨id, hin, hcipher⟩ := List.mem_map.mp hmem
    have hknown : cipher ∈ knownCiphers ids := by
      refine List.mem_filterMap.mpr ⟨id, hin, ?_⟩
      rw [hcipher]
      exact quicGetTlsCipherById_of_mem h
    cases hfind : (knownCiphers ids).find? fun c => c.id = cipher.id with
    | none =>
      have hno := List.find?_eq_none.mp hfind cipher hknown
      exact absurd (decide_eq_true rfl) hno
    | some found =>
      have hsome := List.find?_some hfind
      have hfound : found.id = cipher.id := of_decide_eq_true hsome
      obtain ⟨id', -, hlookup⟩ := List.mem_filterMap.mp (List.mem_of_find?_eq_some hfind)
      have hmem' : found ∈ tlsCiphers := List.mem_of_find?_eq_some hlookup
      have hsame := quicGetTlsCipherById_of_mem hmem'
      rw [hfound, quicGetTlsCipherById_of_mem h] at hsame
      exact hsame.symm
  · refine List.find?_eq_none.mpr fun found hfound hsame => hmem ?_
    obtain ⟨id, hin, hlookup⟩ := List.mem_filterMap.mp hfound
    have hnumber := quicGetTlsCipherById_id hlookup
    have hsame : found.id = cipher.id := of_decide_eq_true hsame
    rw [Nat.mod_eq_of_lt id.toNat_lt] at hnumber
    exact List.mem_map.mpr ⟨id, hin, hnumber.symm.trans hsame⟩

/-- The loops find the first suite of the server that is in the list. -/
theorem matchServerCiphers_knownCiphers (ids : List UInt16) {cipherList : List TlsCipher}
    (h : ∀ cipher ∈ cipherList, cipher ∈ tlsCiphers) :
    matchServerCiphers cipherList (knownCiphers ids) =
      cipherList.find? fun cipher => cipher.id ∈ ids.map UInt16.toNat := by
  unfold matchServerCiphers
  induction cipherList with
  | nil => rfl
  | cons cipher cipherList ih =>
    rw [List.findSome?_cons, List.find?_cons,
      tlsCipherMatchListById_knownCiphers ids (h cipher List.mem_cons_self)]
    by_cases hmem : cipher.id ∈ ids.map UInt16.toNat
    · rw [if_pos hmem, decide_eq_true hmem]
    · rw [if_neg hmem, decide_eq_false hmem]
      exact ih fun c hc => h c (List.mem_cons_of_mem _ hc)

/-- The number of a suite is read. -/
theorem rPacketGet2_cipherBytes (id : UInt16) (ids : List UInt16) (past tail : List UInt8)
    (hlength : 2 * ids.length + tail.length < 2 ^ 31) :
    rPacketGet2 { past, rest := cipherBytes (id :: ids) ++ tail } =
      (.ok id.toNat,
        { past := past ++ Bytes.ofNat 2 id.toNat, rest := cipherBytes ids ++ tail }) := by
  have hrest : (cipherBytes ids ++ tail).length < 2 ^ 31 := by
    rw [List.length_append, cipherBytes_length]
    exact hlength
  have hget := @rPacketGetData_append past (cipherBytes ids ++ tail) 2 id.toNat id.toNat_lt hrest
  rw [cipherBytes, List.flatMap_cons, List.append_assoc]
  exact hget

/-- A list of known suites is read. -/
theorem tlsParseCiphers_of_known {ids : List UInt16}
    (hknown : ∀ id ∈ ids, (quicGetTlsCipherById id.toNat).isSome = true)
    (past tail : List UInt8) (list : List TlsCipher)
    (hlength : 2 * ids.length + tail.length < 2 ^ 31) :
    ∃ past', tlsParseCiphers ids.length list { past, rest := cipherBytes ids ++ tail } =
      (.ok (list ++ knownCiphers ids), ⟨past', tail⟩) := by
  induction ids generalizing past list with
  | nil =>
    refine ⟨past, ?_⟩
    rw [List.length_nil, tlsParseCiphers, knownCiphers, List.filterMap_nil, List.append_nil]
    rfl
  | cons id ids ih =>
    obtain ⟨cipher, hcipher⟩ := Option.isSome_iff_exists.mp (hknown id List.mem_cons_self)
    rw [List.length_cons] at hlength
    have hget := rPacketGet2_cipherBytes id ids past tail (by omega)
    rw [List.length_cons, tlsParseCiphers, Prog.bind_of_ok hget, hcipher, Prog.ofOption_some,
      Prog.pure_bind]
    obtain ⟨past', hrun⟩ := ih (fun id hid => hknown id (List.mem_cons_of_mem _ hid))
      (past ++ Bytes.ofNat 2 id.toNat) (list ++ [cipher]) (by omega)
    refine ⟨past', hrun.trans ?_⟩
    rw [List.append_assoc, List.singleton_append]
    unfold knownCiphers
    rw [@List.filterMap_cons_some _ _ (fun id : UInt16 => quicGetTlsCipherById id.toNat) id ids
      cipher hcipher]

/-- A suite that is not known stops the reading. -/
theorem tlsParseCiphers_of_unknown {ids : List UInt16} {id : UInt16} (hid : id ∈ ids)
    (hunknown : quicGetTlsCipherById id.toNat = none) (past tail : List UInt8)
    (list : List TlsCipher) (hlength : 2 * ids.length + tail.length < 2 ^ 31) :
    ∃ t, tlsParseCiphers ids.length list { past, rest := cipherBytes ids ++ tail } =
      (.error .ret, t) := by
  induction ids generalizing past list with
  | nil => exact absurd hid List.not_mem_nil
  | cons first ids ih =>
    rw [List.length_cons] at hlength
    have hget := rPacketGet2_cipherBytes first ids past tail (by omega)
    rw [List.length_cons, tlsParseCiphers, Prog.bind_of_ok hget]
    cases hfirst : quicGetTlsCipherById first.toNat with
    | none =>
      rw [Prog.ofOption_none, Prog.fail_bind]
      exact ⟨_, rfl⟩
    | some cipher =>
      rw [Prog.ofOption_some, Prog.pure_bind]
      have hrest : id ∈ ids := by
        rcases List.mem_cons.mp hid with rfl | hrest
        · rw [hunknown] at hfirst
          cases hfirst
        · exact hrest
      exact ih hrest _ _ (by omega)

namespace ClientHello

variable (hello : ClientHello)

/-- The head of the message is read. -/
theorem tlsHelloHeadParse_head {s : HelloServer} (hs : s.pkt.rest = hello.bytes) :
    tlsHelloHeadParse s = (.ok (), { s with
      pkt := ⟨s.pkt.past ++ hello.head, Bytes.ofNat 2 (cipherBytes hello.ids).length ++
        (cipherBytes hello.ids ++ hello.tail)⟩
      clientRandom := hello.random }) := by
  obtain ⟨⟨past, rest⟩, random, cipher⟩ := s
  obtain rfl : rest = hello.bytes := hs
  have hids := cipherBytes_length hello.ids
  have hshort := hello.ids_length
  have htail := hello.tail_length
  have hsession := hello.sessionId_length
  have hlist : (Bytes.ofNat 2 (cipherBytes hello.ids).length ++
      (cipherBytes hello.ids ++ hello.tail)).length < 2 ^ 25 := by
    rw [List.length_append, List.length_append, Bytes.ofNat_length]
    omega
  have hpull := rPacketPull_append
    (past ++ Bytes.ofNat 2 hello.version.toNat ++ hello.random ++
      Bytes.ofNat 1 hello.sessionId.length) hello.sessionId (hlist.trans (by decide))
  have hlen := @rPacketGetData_append (past ++ Bytes.ofNat 2 hello.version.toNat ++ hello.random)
    (hello.sessionId ++ (Bytes.ofNat 2 (cipherBytes hello.ids).length ++
      (cipherBytes hello.ids ++ hello.tail))) 1 hello.sessionId.length hsession
    (by rw [List.length_append]; omega)
  have hrandom := rPacketGetBytes_append (past ++ Bytes.ofNat 2 hello.version.toNat) hello.random
    (show (Bytes.ofNat 1 hello.sessionId.length ++ (hello.sessionId ++
      (Bytes.ofNat 2 (cipherBytes hello.ids).length ++
        (cipherBytes hello.ids ++ hello.tail)))).length < 2 ^ 31 by
      rw [List.length_append, List.length_append, Bytes.ofNat_length]
      omega)
  have hversion := @rPacketGetData_append past (hello.random ++
    (Bytes.ofNat 1 hello.sessionId.length ++ (hello.sessionId ++
      (Bytes.ofNat 2 (cipherBytes hello.ids).length ++
        (cipherBytes hello.ids ++ hello.tail))))) 2 hello.version.toNat hello.version.toNat_lt
    (by
      rw [List.length_append, List.length_append, List.length_append, Bytes.ofNat_length,
        hello.random_length]
      omega)
  rw [hello.random_length] at hrandom
  have hbytes : hello.bytes = Bytes.ofNat 2 hello.version.toNat ++ (hello.random ++
      (Bytes.ofNat 1 hello.sessionId.length ++ (hello.sessionId ++
        (Bytes.ofNat 2 (cipherBytes hello.ids).length ++
          (cipherBytes hello.ids ++ hello.tail))))) := by
    rw [bytes, head]
    simp only [List.append_assoc]
  rw [tlsHelloHeadParse, rPacketGet2, rPacketGet1, hbytes, HelloServer.onPkt_bind_of_ok hversion,
    HelloServer.onPkt_bind_of_ok hrandom, Prog.modify_bind, HelloServer.onPkt_bind_of_ok hlen,
    HelloServer.onPkt_of_ok hpull, head]
  simp only [List.append_assoc]

/-- The list of suites is read and a suite is chosen, or the reading fails. -/
theorem tlsClientHelloCipher_eq (cipherList : List TlsCipher) (past : List UInt8) :
    (hello.Known → ∃ past', tlsClientHelloCipher cipherList
        ⟨past, Bytes.ofNat 2 (cipherBytes hello.ids).length ++
            (cipherBytes hello.ids ++ hello.tail)⟩ =
      ((Prog.ofOption .ret (matchServerCiphers cipherList (knownCiphers hello.ids)) :
        Prog Fail RPacket TlsCipher) ⟨past', hello.tail⟩)) ∧
    (¬ hello.Known → ∃ t, tlsClientHelloCipher cipherList
        ⟨past, Bytes.ofNat 2 (cipherBytes hello.ids).length ++
            (cipherBytes hello.ids ++ hello.tail)⟩ =
      (.error .ret, t)) := by
  have hids := cipherBytes_length hello.ids
  have hshort := hello.ids_length
  have htail := hello.tail_length
  have hbound : 2 * hello.ids.length + hello.tail.length < 2 ^ 31 := by omega
  have hrest : (cipherBytes hello.ids ++ hello.tail).length < 2 ^ 31 := by
    rw [List.length_append]
    omega
  have hlen := @rPacketGetData_append past (cipherBytes hello.ids ++ hello.tail) 2
    (cipherBytes hello.ids).length (by omega) hrest
  have hrounds : ((cipherBytes hello.ids).length + 1) / 2 = hello.ids.length := by omega
  have heven : (cipherBytes hello.ids).length % 2 = 0 := by omega
  have hroom : ¬ (cipherBytes hello.ids ++ hello.tail).length < (cipherBytes hello.ids).length := by
    rw [List.length_append]
    omega
  have hrun : tlsClientHelloCipher cipherList
      ⟨past, Bytes.ofNat 2 (cipherBytes hello.ids).length ++
          (cipherBytes hello.ids ++ hello.tail)⟩ =
      (tlsParseCiphers hello.ids.length [] >>= fun list =>
        Prog.ofOption .ret (matchServerCiphers cipherList list))
        ⟨past ++ Bytes.ofNat 2 (cipherBytes hello.ids).length,
          cipherBytes hello.ids ++ hello.tail⟩ := by
    rw [tlsClientHelloCipher, rPacketGet2, Prog.bind_of_ok hlen, Prog.ensure_of_pos heven,
      Prog.pure_bind, Prog.get_bind, RPacket.remaining, Prog.ensure_of_pos hroom, Prog.pure_bind,
      tlsParseCipherList, hrounds]
  rw [hrun]
  constructor
  · intro hknown
    obtain ⟨past', hparse⟩ := tlsParseCiphers_of_known hknown
      (past ++ Bytes.ofNat 2 (cipherBytes hello.ids).length) hello.tail [] hbound
    exact ⟨past', Prog.bind_of_ok hparse⟩
  · intro hknown
    unfold Known at hknown
    push Not at hknown
    obtain ⟨id, hid, hunknown⟩ := hknown
    obtain ⟨t, hparse⟩ := tlsParseCiphers_of_unknown hid (Option.not_isSome_iff_eq_none.mp hunknown)
      (past ++ Bytes.ofNat 2 (cipherBytes hello.ids).length) hello.tail [] hbound
    exact ⟨t, Prog.bind_of_error hparse⟩

/-- The rest of the message leaves the suite alone when nothing follows it. -/
theorem tlsClientHelloRest_keeps (s : HelloServer) :
    (tlsClientHelloRest (pure ()) s).2.handshakeCipher = s.handshakeCipher := by
  refine Prog.Post.state (P := fun t : HelloServer => t.handshakeCipher = s.handshakeCipher) ?_
  rw [tlsClientHelloRest, Prog.post_bind, HelloServer.onPkt, Prog.post_zoom]
  refine Prog.Post.of_forall (fun _ _ => ?_) fun _ _ => rfl
  rw [Prog.post_bind, HelloServer.onPkt, Prog.post_zoom]
  exact Prog.Post.of_forall (fun _ _ => rfl) fun _ _ => rfl

variable {cipherList : List TlsCipher}

/-- A suite that the server does not know stops it, although it shares another one. -/
theorem not_served_of_unknown (hunknown : ¬ hello.Known)
    (hshared : hello.shared cipherList ≠ none) : ¬ hello.Served cipherList := by
  intro h
  obtain ⟨cipher, hcipher⟩ := Option.ne_none_iff_exists'.mp hshared
  have hrun := h (pure ()) ⟨⟨[], hello.bytes⟩, [], none⟩ rfl
  rw [hcipher] at hrun
  obtain ⟨past, hrun⟩ := hrun
  have hhead := hello.tlsHelloHeadParse_head
    (show (⟨⟨[], hello.bytes⟩, [], none⟩ : HelloServer).pkt.rest = hello.bytes from rfl)
  obtain ⟨t, hfails⟩ := (hello.tlsClientHelloCipher_eq cipherList ([] ++ hello.head)).2 hunknown
  rw [tlsClientHelloProc, Prog.bind_of_ok hhead, HelloServer.onPkt_bind_of_error hfails] at hrun
  have hkeeps := tlsClientHelloRest_keeps ⟨⟨past, hello.tail⟩, hello.random, some cipher⟩
  rw [← hrun] at hkeeps
  cases hkeeps

/-- A server that knows all suites chooses the first one of its list that the client lists. -/
theorem served_of_known (hserver : ∀ cipher ∈ cipherList, cipher ∈ tlsCiphers)
    (hknown : hello.Known) : hello.Served cipherList := by
  intro finish s hs
  have hhead := hello.tlsHelloHeadParse_head hs
  obtain ⟨past, hrun⟩ := (hello.tlsClientHelloCipher_eq cipherList
    (s.pkt.past ++ hello.head)).1 hknown
  rw [matchServerCiphers_knownCiphers hello.ids hserver] at hrun
  unfold shared
  cases hfind : cipherList.find? fun cipher => cipher.id ∈ hello.ids.map UInt16.toNat with
  | some cipher =>
    rw [hfind, Prog.ofOption_some] at hrun
    refine ⟨past, ?_⟩
    rw [tlsClientHelloProc, Prog.bind_of_ok hhead, HelloServer.onPkt_bind_of_ok hrun,
      Prog.modify_bind]
  | none =>
    rw [hfind, Prog.ofOption_none] at hrun
    refine ⟨⟨⟨past, hello.tail⟩, hello.random, s.handshakeCipher⟩, ?_⟩
    rw [tlsClientHelloProc, Prog.bind_of_ok hhead, HelloServer.onPkt_bind_of_error hrun]

/-- A server that shares no suite fails. -/
theorem served_of_shared_eq_none (hserver : ∀ cipher ∈ cipherList, cipher ∈ tlsCiphers)
    (hshared : hello.shared cipherList = none) : hello.Served cipherList := by
  by_cases hknown : hello.Known
  · exact hello.served_of_known hserver hknown
  · intro finish s hs
    rw [hshared]
    have hhead := hello.tlsHelloHeadParse_head hs
    obtain ⟨t, hfails⟩ := (hello.tlsClientHelloCipher_eq cipherList
      (s.pkt.past ++ hello.head)).2 hknown
    refine ⟨⟨t, hello.random, s.handshakeCipher⟩, ?_⟩
    rw [tlsClientHelloProc, Prog.bind_of_ok hhead, HelloServer.onPkt_bind_of_error hfails]

/-- A server chooses the first suite of its list that the client lists, and fails without one, if
and only if it knows every suite that the client lists or shares none of them. -/
theorem served_iff (hserver : ∀ cipher ∈ cipherList, cipher ∈ tlsCiphers) :
    hello.Served cipherList ↔ hello.Known ∨ hello.shared cipherList = none := by
  constructor
  · intro h
    by_contra hno
    push Not at hno
    exact hello.not_served_of_unknown hno.1 hno.2 h
  · rintro (hknown | hshared)
    · exact hello.served_of_known hserver hknown
    · exact hello.served_of_shared_eq_none hserver hshared

/-- `TLS_CIPHERS_DEF`, as `TlsCreateCipherList` reads it. -/
def tlsCiphersDef : List TlsCipher := tlsCiphers.take 3

/-- A ClientHello with some suites. -/
def withIds (ids : List UInt16) (hids : 2 * ids.length < 2 ^ 16) : ClientHello where
  version := 0x0303
  random := List.replicate 32 0
  sessionId := []
  ids := ids
  tail := [1, 0]
  random_length := by decide
  sessionId_length := by decide
  ids_length := hids
  tail_length := by decide

/-- A client with two suites of the source, the last one twice, is served. -/
theorem served_duplicate : (withIds [0x1303, 0x1302, 0x1302] (by decide)).Served tlsCiphersDef :=
  (served_iff _ (by decide)).mpr (Or.inl (by decide))

/-- A client that lists a GREASE value before a shared suite is refused. -/
theorem not_served_grease : ¬ (withIds [0x1a1a, 0x1301] (by decide)).Served tlsCiphersDef :=
  not_served_of_unknown _ (by decide) (by decide)

end ClientHello

end Tbquic
