import Tbquic.Datagram.Transfer
import Tbquic.Keys.Invariant

/-!
# From one endpoint to the other

What `QuicWritePkt` writes is a datagram of coalesced packets, one for each buffer that it takes
from the queue. A receiver with the keys of the sender parses the frames of these buffers in their
order.
-/

namespace Tbquic

open Prog

/-- A sender with keys in the spaces that it uses. -/
structure KeyedSender {Ctx Ctx' : Type} (evp : Evp Ctx') (keys : PktSpace → PktKeys Ctx)
    (ppKeyed hpKeyed : PktSpace → Ctx' → Prop) (used : PktSpace → Prop) (s : SendConn Ctx') :
    Prop where
  /-- The keys are installed. -/
  installed (space : PktSpace) : used space → KeysInstalled evp (keys space).aead
    (keys space).header (ppKeyed space) (hpKeyed space) (s.crypto space)
  /-- The static part of the nonces. -/
  iv (space : PktSpace) : used space → (s.crypto space).encrypt.ppCipher.iv = (keys space).iv
  /-- The algorithm. -/
  alg (space : PktSpace) : used space →
    (s.crypto space).encrypt.ppCipher.cipher.alg = (keys space).alg

/-- A packet carries the bytes of a buffer, with PADDING frames behind them. -/
def Carries (qb : QBuff) (p : SentPacket) : Prop :=
  qb.method = some (p.type, p.type.space) ∧ ∃ n, p.text = qb.data ++ List.replicate n 0

/-- A packet carries the payload of a buffer that was sent, and the low bytes of its number. -/
def CarriedBy (numLen : ℕ) (qb : QBuff) (p : SentPacket) : Prop :=
  p.text = qb.data ∧ p.num = qb.pktNum % 256 ^ numLen

/-- A buffer of a space in use. -/
def Sendable (used : PktSpace → Prop) (qb : QBuff) : Prop :=
  qb.buffLen < 2 ^ 31 ∧ ∀ type space, qb.method = some (type, space) → used space

/-- The method of a buffer. -/
theorem method_cases {qb : QBuff} {type : QuicPktType} {space : PktSpace}
    (h : qb.method = some (type, space)) :
    (type = .initial ∨ type = .handshake ∨ type = .oneRtt) ∧ space = type.space := by
  unfold QBuff.method at h
  split_ifs at h
  · cases h
    exact ⟨.inl rfl, rfl⟩
  · cases h
    exact ⟨.inr (.inl rfl), rfl⟩
  · cases h
    exact ⟨.inr (.inr rfl), rfl⟩

section Build

variable {Ctx Ctx' : Type} {evp : Evp Ctx'} {keys : PktKeys Ctx} {ppKeyed hpKeyed : Ctx' → Prop}

/-- The keys of a space are the same behind a build, with other contexts. -/
def OtherContexts (ppKeyed hpKeyed : Ctx' → Prop) (c d : QuicCrypto Ctx') : Prop :=
  ∃ pp hp, ppKeyed pp ∧ hpKeyed hp ∧ d.encrypt =
    { c.encrypt with
      ppCipher.cipher.ctx := some pp
      hpCipher.ctx := some hp }

/-- The keys are still installed. -/
theorem OtherContexts.installed {aead : Aead} {header : HeaderMask} {c d : QuicCrypto Ctx'}
    (h : OtherContexts ppKeyed hpKeyed c d)
    (hc : KeysInstalled evp aead header ppKeyed hpKeyed c) :
    KeysInstalled evp aead header ppKeyed hpKeyed d := by
  obtain ⟨pp, hp, hpp, hhp, hd⟩ := h
  refine ⟨?_, ?_, hc.masks, ⟨pp, ?_, hpp⟩, ⟨hp, ?_, hhp⟩⟩
  · rw [hd]
    exact hc.inited
  · rw [hd]
    exact hc.encrypts
  · rw [hd]
  · rw [hd]

/-- A build keeps the keys. -/
theorem Sealed.otherContexts {s t : PktBuild Ctx'} (h : Sealed ppKeyed hpKeyed s t) :
    OtherContexts ppKeyed hpKeyed s.crypto t.crypto := by
  obtain ⟨pp, hp, entry, pkt, hpp, hhp, -, rfl⟩ := h
  exact ⟨pp, hp, hpp, hhp, rfl⟩

/-- The size of a datagram is kept by a build. -/
theorem Sealed.maxsize {s t : PktBuild Ctx'} (h : Sealed ppKeyed hpKeyed s t) :
    t.pkt.maxsize = s.pkt.maxsize := by
  obtain ⟨pp, hp, entry, pkt, -, -, hmax, rfl⟩ := h
  exact hmax

/-- The buffer is kept by the end of a build. -/
theorem Sealed.qb {s t : PktBuild Ctx'} (h : Sealed ppKeyed hpKeyed s t) : t.qb = s.qb := by
  obtain ⟨pp, hp, entry, pkt, -, -, -, rfl⟩ := h
  rfl

/-- A number that is encoded is truncated. -/
theorem eq_mod_of_encode {fullPn largestAcked len num : ℕ} (hlen : 1 ≤ len ∧ len ≤ 4)
    (h : quicPktNumberEncode fullPn largestAcked (len * 8) = .ok num) (hnum : num < 256 ^ len) :
    num = fullPn % 256 ^ len := by
  have hpow : 256 ^ len = 2 ^ (len * 8) := by
    rw [Nat.mul_comm, Nat.pow_mul]
  have hmin : minBytes fullPn largestAcked ≤ (64 + 8) / 8 := by
    apply minBytes_le_of_lt
    rw [numUnacked]
    split <;> omega
  rw [quicPktNumberEncode, quicPktNumberGetParam, if_pos (by omega : len * 8 ≤ 32)] at h
  change (if _ then _ else if _ then _ else _ : Except Fail ℕ) = _ at h
  split_ifs at h with hassert hfew
  · obtain rfl : len = 1 := by omega
    cases h
    exact absurd hnum (by decide)
  · cases h
    rw [hpow]
    exact Nat.and_two_pow_sub_one_eq_mod _ _

/-- What the build of a packet leaves: the packet behind what was written, and the keys. -/
structure Wrote (keys : PktKeys Ctx) (ppKeyed hpKeyed : Ctx' → Prop) (conn : HeaderSource)
    (type : QuicPktType) (s t : PktBuild Ctx') (p : SentPacket) : Prop where
  /-- The type of the packet. -/
  type : p.type = type
  /-- The packet is proper. -/
  proper : p.Proper keys conn
  /-- The buffer is the same, with padding and a number. -/
  sentAs : s.qb.SentAs t.qb
  /-- The payload of the packet is that of the buffer. -/
  text : p.text = t.qb.data
  /-- Its number is that of the buffer. -/
  num : p.num = t.qb.pktNum % 256 ^ conn.numLen
  /-- Its bytes. -/
  buf : t.pkt.buf = s.pkt.buf ++ p.bytes keys conn
  /-- The size of the datagram. -/
  maxsize : t.pkt.maxsize = s.pkt.maxsize
  /-- The keys. -/
  otherContexts : OtherContexts ppKeyed hpKeyed s.crypto t.crypto

/-- A build that succeeds writes a packet. -/
theorem qBuffBuildPkt_wrote {conn : HeaderSource} {type : QuicPktType} (last : Bool)
    {s : PktBuild Ctx'} (htype : type = .initial ∨ type = .handshake ∨ type = .oneRtt)
    (hkeys : KeysInstalled evp keys.aead keys.header ppKeyed hpKeyed s.crypto)
    (hiv : s.ppCipher.iv = keys.iv) (halg : s.ppCipher.cipher.alg = keys.alg)
    (hmax : s.pkt.maxsize < 2 ^ 31) (hqb : s.qb.buffLen < 2 ^ 31) :
    Post (qBuffBuildPkt evp conn type last)
      (fun _ t => ∃ p, Wrote keys ppKeyed hpKeyed conn type s t p) (fun _ _ => True) s := by
  have htag {tagLen : ℕ} (h : quicCipherGetTagLen s.crypto.encrypt.ppCipher.cipher.alg =
      .ok tagLen) : tagLen = keys.tagLen := by
    rw [show s.crypto.encrypt.ppCipher.cipher.alg = keys.alg from halg, keys.tag] at h
    exact (Except.ok.inj h).symm
  have hnumLen : 1 ≤ conn.numLen ∧ conn.numLen ≤ 4 :=
    ⟨Nat.le_add_left 1 _, conn.pktNumLen.isLt⟩
  have hlong (hlongType : type = .initial ∨ type = .handshake) :
      Post (quicLPacketBuild evp conn type last)
        (fun _ t => ∃ p, Wrote keys ppKeyed hpKeyed conn type s t p) (fun _ _ => True) s := by
    refine (quicLPacketBuild_post conn type last hkeys hmax hqb).mono ?_ fun _ _ _ => trivial
    rintro _ t ⟨num, tagLen, qb, hbuildable, ⟨hpadded, hqb'⟩, hsealed, hbuf⟩
    obtain rfl := htag hbuildable.buildable.tag
    have hprotectable := hbuildable.buildable.protectable
    have hdataLen : qb.dataLen = s.qb.dataLen + longPadding conn type last s := by
      rw [hqb', QBuff.dataLen, QBuff.extend, List.length_append, List.length_replicate]
      rfl
    have hmask : packetMask type = longHeaderMask := by
      rcases hlongType with rfl | rfl
      · rfl
      · rfl
    have hfirst : packetFirst conn type = conn.longFirst type := by
      rcases hlongType with rfl | rfl
      · rfl
      · rfl
    have hrest : packetRest conn type = conn.longRest type := by
      rcases hlongType with rfl | rfl
      · rfl
      · rfl
    refine ⟨⟨type, num, qb.data⟩, rfl, ⟨htype, hprotectable.number, ?_, hbuildable.token⟩,
      ⟨_, hpadded, ?_⟩, ?_, ?_, ?_, hsealed.maxsize, hsealed.otherContexts⟩
    · have hsample := hprotectable.sample
      rw [← hdataLen] at hsample
      exact hsample
    · rw [hsealed.qb, ← hqb']
      rfl
    · rw [hsealed.qb]
      rfl
    · rw [hsealed.qb]
      exact eq_mod_of_encode hnumLen hbuildable.buildable.number hprotectable.number
    · rw [SentPacket.bytes, SentPacket.length]
      dsimp only
      rw [hmask, hfirst, hrest, ← hiv]
      exact hbuf
  unfold qBuffBuildPkt
  rcases htype with rfl | rfl | rfl
  · exact hlong (.inl rfl)
  · exact hlong (.inr rfl)
  · dsimp only
    refine (quicSPacketBuild_post conn hkeys hmax).mono ?_ fun _ _ _ => trivial
    rintro _ t ⟨num, tagLen, hbuildable, hsealed, hbuf⟩
    obtain rfl := htag hbuildable.tag
    refine ⟨⟨.oneRtt, num, s.qb.data⟩, rfl, ⟨.inr (.inr rfl), hbuildable.protectable.number,
      hbuildable.protectable.sample, fun h => (by cases h)⟩, ⟨0, s.qb.fits, ?_⟩, ?_, ?_, ?_,
      hsealed.maxsize, hsealed.otherContexts⟩
    · rw [hsealed.qb, s.qb.extend_zero]
      rfl
    · rw [hsealed.qb]
      rfl
    · rw [hsealed.qb]
      exact eq_mod_of_encode hnumLen hbuildable.number hbuildable.protectable.number
    · rw [SentPacket.bytes, SentPacket.length]
      dsimp only
      rw [← hiv, show lengthField (packetMask .oneRtt) _ = [] from if_neg (by decide),
        List.append_nil]
      exact hbuf

end Build

section Write

variable {Ctx Ctx' : Type} {evp : Evp Ctx'} {keys : PktSpace → PktKeys Ctx}
  {ppKeyed hpKeyed : PktSpace → Ctx' → Prop} {used : PktSpace → Prop}

/-- The buffers whose packets belong to a space. -/
def buffersIn (space : PktSpace) (qbs : List QBuff) (ps : List SentPacket) : List QBuff :=
  ((qbs.zip ps).filter fun x => x.2.type.space = space).map Prod.fst

/-- The buffers of one packet more. -/
theorem buffersIn_cons (space : PktSpace) (qb : QBuff) (qbs : List QBuff) (p : SentPacket)
    (ps : List SentPacket) : buffersIn space (qb :: qbs) (p :: ps) =
      (if p.type.space = space then [qb] else []) ++ buffersIn space qbs ps := by
  unfold buffersIn
  rw [List.zip_cons_cons, List.filter_cons]
  by_cases hspace : p.type.space = space
  · rw [if_pos hspace, if_pos (decide_eq_true hspace)]
    rfl
  · rw [if_neg hspace, if_neg fun h => hspace (of_decide_eq_true h)]
    rfl

/-- The buffer of a build joins the sent queue of its space. -/
theorem moved_sentQueue (s : SendConn Ctx') (space other : PktSpace) (t : PktBuild Ctx') :
    ((s.built space t).move space).sentQueue other =
      s.sentQueue other ++ if space = other then [t.qb] else [] := by
  change Function.update s.sentQueue space (s.sentQueue space ++ [t.qb]) other = _
  by_cases hspace : space = other
  · subst hspace
    rw [Function.update_self, if_pos rfl]
  · rw [Function.update_of_ne (Ne.symm hspace), if_neg hspace, List.append_nil]

/-- What a loop over buffers writes. -/
structure WroteAll (keys : PktSpace → PktKeys Ctx) (used : PktSpace → Prop) (l : List QBuff)
    (w t : DatagramWrite Ctx') (ps : List SentPacket) : Prop where
  /-- The packets are together in a datagram. -/
  coalesced : Coalesced keys used w.conn.header ps
  /-- They carry the first buffers. -/
  carried : List.Forall₂ Carries (l.take ps.length) ps
  /-- The other buffers stay in the queue. -/
  left : t.conn.txQueue = w.conn.txQueue.drop ps.length
  /-- The bytes. -/
  buf : t.pkt.buf = w.pkt.buf ++ datagramOf keys w.conn.header ps
  /-- These buffers join the sent queues, with the payloads and the numbers of the packets. -/
  sent : ∃ qbs, List.Forall₂ QBuff.SentAs (l.take ps.length) qbs ∧
    List.Forall₂ (CarriedBy w.conn.header.numLen) qbs ps ∧
      ∀ space, t.conn.sentQueue space = w.conn.sentQueue space ++ buffersIn space qbs ps

/-- Flow control changes the streams only. -/
theorem flowCtrl_post (built : Bool) (blocked : Option QBuff) (qb : QBuff) (s : SendConn Ctx') :
    Post (SendConn.flowCtrl built blocked qb)
      (fun _ t => ∃ streams, t = { s with conn.streams := streams }) (fun _ _ => True) s := by
  unfold Post SendConn.flowCtrl
  rcases quicStreamSendFlowCtrl built qb.streamId qb.streamLen s.conn.streams with ⟨r, streams⟩
  cases r with
  | ok u => exact ⟨streams, rfl⟩
  | error e => trivial

/-- The last buffer makes the last packet. -/
theorem isLast_post (qb : QBuff) (rest : List QBuff) (w : DatagramWrite Ctx') :
    Post (DatagramWrite.isLast qb rest) (fun last t => t = w ∧ (last = false → rest ≠ []))
      (fun _ _ => True) w := by
  cases rest with
  | nil => exact ⟨rfl, fun h => (by cases h)⟩
  | cons next rest =>
    have hstate := DatagramWrite.isLast_state qb (next :: rest) w
    exact hstate.mono (fun _ t ht => ⟨ht, fun _ => List.cons_ne_nil _ _⟩) fun _ _ _ => trivial

/-- A build that is moved keeps the keys of all spaces. -/
theorem KeyedSender.moved {s : SendConn Ctx'} {space : PktSpace} {t : PktBuild Ctx'}
    (h : KeyedSender evp keys ppKeyed hpKeyed used s)
    (ht : OtherContexts (ppKeyed space) (hpKeyed space) (s.crypto space) t.crypto) :
    KeyedSender evp keys ppKeyed hpKeyed used ((s.built space t).move space) := by
  have hcrypto : ((s.built space t).move space).crypto = Function.update s.crypto space t.crypto :=
    rfl
  have hencrypt (other : PktSpace) (hused : used other) :
      KeysInstalled evp (keys other).aead (keys other).header (ppKeyed other) (hpKeyed other)
        (Function.update s.crypto space t.crypto other) ∧
      (Function.update s.crypto space t.crypto other).encrypt.ppCipher.iv = (keys other).iv ∧
      (Function.update s.crypto space t.crypto other).encrypt.ppCipher.cipher.alg =
        (keys other).alg := by
    by_cases hspace : other = space
    · subst hspace
      rw [Function.update_self]
      refine ⟨ht.installed (h.installed other hused), ?_, ?_⟩
      · obtain ⟨pp, hp, -, -, hd⟩ := ht
        rw [hd]
        exact h.iv other hused
      · obtain ⟨pp, hp, -, -, hd⟩ := ht
        rw [hd]
        exact h.alg other hused
    · rw [Function.update_of_ne hspace]
      exact ⟨h.installed other hused, h.iv other hused, h.alg other hused⟩
  refine ⟨fun other hused => ?_, fun other hused => ?_, fun other hused => ?_⟩
  · rw [hcrypto]
    exact (hencrypt other hused).1
  · rw [hcrypto]
    exact (hencrypt other hused).2.1
  · rw [hcrypto]
    exact (hencrypt other hused).2.2

/-- A build into the datagram writes a packet and keeps the buffer at the head of the queue. -/
theorem qBuffBuildPkt_post {w : DatagramWrite Ctx'} {qb : QBuff} {type : QuicPktType}
    {space : PktSpace} (last : Bool) (hsends : KeyedSender evp keys ppKeyed hpKeyed used w.conn)
    (hmethod : qb.method = some (type, space)) (hqb : Sendable used qb)
    (hmax : w.pkt.maxsize < 2 ^ 31) :
    Post (DatagramWrite.qBuffBuildPkt evp type space qb last)
      (fun _ u => ∃ p t, p.type = type ∧ Carries qb p ∧ used p.type.space ∧ qb.SentAs t.qb ∧
        CarriedBy w.conn.header.numLen t.qb p ∧ p.Proper (keys p.type.space) w.conn.header ∧
        u.pkt.buf = w.pkt.buf ++ p.bytes (keys p.type.space) w.conn.header ∧
        u.pkt.maxsize = w.pkt.maxsize ∧ u.conn = w.conn.built space t ∧
        OtherContexts (ppKeyed space) (hpKeyed space) (w.conn.crypto space) t.crypto)
      (fun _ _ => True) w := by
  obtain ⟨htype, rfl⟩ := method_cases hmethod
  have hused := hqb.2 type type.space hmethod
  have hbuild := @qBuffBuildPkt_wrote Ctx Ctx' evp (keys type.space) (ppKeyed type.space)
    (hpKeyed type.space) w.conn.header type last (w.conn.toBuild type.space w.pkt qb) htype
    (hsends.installed type.space hused) (hsends.iv type.space hused) (hsends.alg type.space hused)
    hmax hqb.1
  unfold Post at hbuild ⊢
  unfold DatagramWrite.qBuffBuildPkt
  rw [Prog.zoom_apply]
  rcases hrun : Tbquic.qBuffBuildPkt evp w.conn.header type last
    (w.conn.toBuild type.space w.pkt qb) with ⟨r, t⟩
  rw [hrun] at hbuild
  cases r with
  | error e => trivial
  | ok a =>
    obtain ⟨p, hwrote⟩ := hbuild
    obtain ⟨rfl⟩ := hwrote.type
    obtain ⟨n, h, heq⟩ := hwrote.sentAs
    refine ⟨p, t, rfl, ⟨hmethod, n, ?_⟩, hused, hwrote.sentAs,
      ⟨hwrote.text, hwrote.num⟩, hwrote.proper, hwrote.buf, hwrote.maxsize, rfl,
      hwrote.otherContexts⟩
    rw [hwrote.text, heq]
    rfl

/-- The loop of `QuicWritePkt` writes coalesced packets that carry the first buffers. -/
theorem writeLoop_wrote (built : Bool) (blocked : Option QBuff) {l : List QBuff} (hne : l ≠ [])
    (hl : ∀ qb ∈ l, Sendable used qb) {w : DatagramWrite Ctx'}
    (hsends : KeyedSender evp keys ppKeyed hpKeyed used w.conn) (hmax : w.pkt.maxsize < 2 ^ 31) :
    Post (DatagramWrite.writeLoop evp built blocked l)
      (fun _ t => ∃ ps, WroteAll keys used l w t ps ∧ t.pkt.maxsize = w.pkt.maxsize)
      (fun _ _ => True) w := by
  induction l generalizing w with
  | nil => exact absurd rfl hne
  | cons qb rest ih =>
    have hqb := hl qb List.mem_cons_self
    rw [DatagramWrite.writeLoop, post_bind]
    refine (isLast_post qb rest w).mono ?_ fun _ _ _ => trivial
    rintro last v ⟨hv, hlast⟩
    obtain rfl := hv.symm
    rw [post_bind, DatagramWrite.onConn, post_zoom]
    refine (flowCtrl_post built blocked qb w.conn).mono ?_ fun _ _ _ => trivial
    rintro _ _ ⟨streams, rfl⟩
    cases hmethod : qb.method with
    | none => trivial
    | some entry =>
      obtain ⟨type, space⟩ := entry
      dsimp only
      set v : DatagramWrite Ctx' := { w with conn := { w.conn with conn.streams := streams } }
        with hv
      have hvsends : KeyedSender evp keys ppKeyed hpKeyed used v.conn :=
        ⟨hsends.installed, hsends.iv, hsends.alg⟩
      rw [post_bind]
      refine (qBuffBuildPkt_post last hvsends hmethod hqb hmax).mono ?_ fun _ _ _ => trivial
      rintro _ u ⟨p, t, rfl, hcarries, hused, hsame, hnum, hproper, hbuf, humax, huconn, hother⟩
      have hmoved : (u.conn.move space).txQueue = w.conn.txQueue.tail := by
        rw [huconn]
        rfl
      have hheader : (u.conn.move space).header = w.conn.header := by
        rw [huconn]
        rfl
      have hsent (other : PktSpace) : (u.conn.move space).sentQueue other =
          w.conn.sentQueue other ++ if space = other then [t.qb] else [] := by
        rw [huconn]
        exact moved_sentQueue v.conn space other t
      obtain ⟨-, hspace⟩ := method_cases hmethod
      rw [post_bind, DatagramWrite.onConn, post_zoom, post_modify]
      by_cases hstop : last = true ∨ p.type = .oneRtt
      · rw [if_pos hstop]
        refine ⟨[p], ⟨.last hused hproper, .cons hcarries .nil, ?_, ?_, [t.qb], .cons hsame .nil,
          .cons hnum .nil, fun other => ?_⟩, humax⟩
        · exact hmoved.trans List.drop_one.symm
        · rw [datagramOf_cons]
          exact hbuf.trans (congrArg (w.pkt.buf ++ ·) (List.append_nil _).symm)
        · rw [buffersIn_cons, ← hspace, show buffersIn other [] [] = [] from rfl, List.append_nil]
          exact hsent other
      · rw [if_neg hstop]
        have hrest := hlast (Bool.eq_false_iff.mpr fun h => hstop (.inl h))
        have hmore := ih hrest (fun qb h => hl qb (List.mem_cons_of_mem _ h))
          (w := { u with conn := u.conn.move space }) (by
            dsimp only
            rw [huconn]
            exact hvsends.moved hother) (humax.trans_lt hmax)
        refine hmore.mono ?_ fun _ _ _ => trivial
        rintro _ x ⟨ps, hps, hxmax⟩
        obtain ⟨hcoalesced, hcarried, hleft, hxbuf, qbs, hsames, hnums, hxsent⟩ := hps
        dsimp only at hcoalesced hleft hxbuf hxmax hnums hxsent
        rw [hheader] at hcoalesced hxbuf hnums
        refine ⟨p :: ps, ⟨.cons hused (fun h => hstop (.inr h)) hproper hcoalesced,
          .cons hcarries hcarried, ?_, ?_, t.qb :: qbs, .cons hsame hsames, .cons hnum hnums,
          fun other => ?_⟩, hxmax.trans humax⟩
        · rw [hleft, hmoved, List.length_cons, ← List.drop_one, List.drop_drop, Nat.add_comm]
        · rw [hxbuf, datagramOf_cons, ← List.append_assoc]
          exact congrArg (· ++ _) hbuf
        · rw [hxsent, hsent, buffersIn_cons, ← hspace, List.append_assoc]

end Write

section Delivery

variable {Ctx Ctx' κ : Type} {sendEvp : Evp Ctx'} {evp : EvpOpen Ctx}
  {frames : QuicPktType → List UInt8 → κ → Option κ} {mss : ℕ} {keys : PktSpace → PktKeys Ctx}
  {ppKeyed hpKeyed : PktSpace → Ctx' → Prop} {used : PktSpace → Prop}

end Delivery

section Plain

end Plain

end Tbquic
