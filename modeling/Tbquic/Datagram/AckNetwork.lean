import Tbquic.Datagram.Opening
import Tbquic.Datagram.SentQueue
import Tbquic.Frame.AckDelay
import Tbquic.Frame.Atomic

/-!
# Acknowledgements across a network

The packets of a sender cross a network that loses, repeats and reorders them, and so do the ACK
frames that come back. Numbers are truncated on the way there, and the decoder is not that of
RFC 9000, yet a packet leaves the sent queue only when the peer has opened it.
-/

namespace Tbquic

open Prog

section Number

/-- A decoded number that is above the largest one, as the code compares them, is the number that
was sent. -/
theorem quicPktNumberAdjust_larger {expectedPn half base low fullPn : ℕ}
    (hhalf : half ≤ 2 ^ 23 ∨ half = 2 ^ 31) (hpos : 0 < half) (hbase : base ≤ expectedPn)
    (hnext : expectedPn < base + 2 * half) (hlow : low < 2 * half)
    (hfull : fullPn = base + low ∨ fullPn = base + low + 2 * half ∨
      fullPn + 2 * half = base + low)
    (hnear : expectedPn < fullPn + half) (hhigh : fullPn ≤ expectedPn + half)
    (hexpected : expectedPn ≤ 2 ^ 30) (hsmall : fullPn < 2 ^ 30)
    (hlt : quicLt ((expectedPn : ℤ) - 1)
      (quicPktNumberAdjust expectedPn (2 * half) half (base + low) : ℕ)) :
    quicPktNumberAdjust expectedPn (2 * half) half (base + low) = fullPn := by
  rw [quicLt_iff_mod] at hlt
  simp only [quicPktNumberAdjust, quicLe_iff_mod, quicLt_iff_mod, quicGt_iff_mod,
    quicGe_iff_mod] at hlt ⊢
  rcases hhalf with hhalf | rfl
  · split_ifs at hlt ⊢ <;> omega
  · split_ifs at hlt ⊢ <;> omega

/-- A small number that is near the largest one is decoded to a number that raises it only when it
is the number itself. -/
theorem decodedNumber_larger {largestPn fullPn pnNbits n : ℕ} (hbits : pnNbits ∈ pktNumberWidths)
    (hlargest : largestPn < 2 ^ 30) (hfull : fullPn < 2 ^ 30)
    (hlow : largestPn + 1 < fullPn + 2 ^ (pnNbits - 1))
    (hhigh : fullPn ≤ largestPn + 1 + 2 ^ (pnNbits - 1))
    (hdecode : decodedNumber largestPn (fullPn % 2 ^ pnNbits) pnNbits = .ok n)
    (hlt : quicLt largestPn n) : n = fullPn := by
  obtain ⟨hwidth, hhalf⟩ := two_pow_width hbits
  have hpos : 0 < 2 ^ (pnNbits - 1) := Nat.two_pow_pos _
  have hmod := Nat.mod_lt fullPn (Nat.two_pow_pos pnNbits)
  have hblock := Window.block_cases hpos hlow hhigh
  have hfullsplit := Nat.div_add_mod' fullPn (2 ^ pnNbits)
  have hsplit := Nat.div_add_mod' (largestPn + 1) (2 ^ pnNbits)
  have hmod' := Nat.mod_lt (largestPn + 1) (Nat.two_pow_pos pnNbits)
  rw [← hwidth] at hblock
  have hcases : fullPn = (largestPn + 1) / 2 ^ pnNbits * 2 ^ pnNbits + fullPn % 2 ^ pnNbits ∨
      fullPn = (largestPn + 1) / 2 ^ pnNbits * 2 ^ pnNbits + fullPn % 2 ^ pnNbits +
        2 ^ pnNbits ∨
      fullPn + 2 ^ pnNbits =
        (largestPn + 1) / 2 ^ pnNbits * 2 ^ pnNbits + fullPn % 2 ^ pnNbits := by
    rcases hblock with h | h | h
    · rw [h] at hfullsplit
      exact .inl hfullsplit.symm
    · rw [h, Nat.add_mul, Nat.one_mul] at hfullsplit
      omega
    · rw [← h, Nat.add_mul, Nat.one_mul]
      omega
  rw [decodedNumber, quicPktNumberDecode_eq_adjust (by omega) hbits hmod] at hdecode
  dsimp only at hdecode
  split_ifs at hdecode
  cases hdecode
  refine quicPktNumberAdjust_larger ?_ hpos (by omega) (by omega) (by omega)
    (by rw [← hwidth]; exact hcases) hlow hhigh (by omega) hfull ?_
  · rcases hhalf with ⟨-, h⟩ | rfl
    · exact .inl h
    · exact .inr rfl
  · rwa [Nat.cast_add, Nat.cast_one, add_sub_cancel_right]

end Number

section Sender

variable {Ctx : Type} {mem : ℕ → Bool} {evp : Evp Ctx}

/-- Packets join the sent queues and none leaves. -/
def SendConn.Grows (s t : SendConn Ctx) : Prop :=
  ∀ space, s.sentQueue space <+: t.sentQueue space

/-- Sent queues that grow twice grow. -/
theorem SendConn.Grows.trans {s t u : SendConn Ctx} (h : s.Grows t) (h' : t.Grows u) :
    s.Grows u := fun space => (h space).trans (h' space)

/-- Sent queues that stay the same grow. -/
theorem SendConn.Grows.of_eq {s t : SendConn Ctx} (h : t.sentQueue = s.sentQueue) :
    s.Grows t := fun _ => h ▸ List.prefix_refl _

/-- The buffer at the head of `tx_queue` joins a sent queue. -/
theorem SendConn.grows_move (space : PktSpace) (s : SendConn Ctx) : s.Grows (s.move space) := by
  intro other
  unfold SendConn.move
  split
  · exact List.prefix_refl _
  · by_cases hother : other = space
    · subst hother
      dsimp only
      rw [Function.update_self]
      exact List.prefix_append _ _
    · dsimp only
      rw [Function.update_of_ne hother]

/-- The loop of `QuicWritePkt` only adds to the sent queues, also when it fails. -/
theorem DatagramWrite.writeLoop_grows (built : Bool) (blocked : Option QBuff) (l : List QBuff)
    (w : DatagramWrite Ctx) :
    Post (writeLoop evp built blocked l) (fun _ t => w.conn.Grows t.conn)
      (fun _ t => w.conn.Grows t.conn) w := by
  induction l generalizing w with
  | nil => exact .of_eq rfl
  | cons qb rest ih =>
    rw [writeLoop, post_bind]
    refine (isLast_state qb rest w).mono (fun last t ht => ?_) fun _ t ht => ?_
    · subst ht
      have hflow : Post (onConn (SendConn.flowCtrl built blocked qb))
          (fun _ u => u.conn.sentQueue = t.conn.sentQueue)
          (fun _ u => u.conn.sentQueue = t.conn.sentQueue) t := by
        rw [onConn, post_zoom]
        refine Post.of_state ?_
        unfold SendConn.flowCtrl
        split
        · rfl
        · rfl
      rw [post_bind]
      refine hflow.mono (fun _ u hu => ?_) fun _ u hu => .of_eq hu
      split
      · exact .of_eq hu
      rename_i type space _
      have hbuild : Post (qBuffBuildPkt evp type space qb last)
          (fun _ v => v.conn.sentQueue = u.conn.sentQueue)
          (fun _ v => v.conn.sentQueue = u.conn.sentQueue) u := by
        unfold Post qBuffBuildPkt
        rw [zoom_apply]
        rcases Tbquic.qBuffBuildPkt evp u.conn.header type last
          (u.conn.toBuild space u.pkt qb) with ⟨r, b⟩
        cases r with
        | ok a => rfl
        | error e => rfl
      rw [post_bind]
      refine hbuild.mono (fun _ v hv => ?_) fun _ v hv => .of_eq (hv.trans hu)
      have hmoved : t.conn.Grows (v.conn.move space) :=
        (SendConn.Grows.of_eq (hv.trans hu)).trans (SendConn.grows_move space v.conn)
      rw [post_bind, onConn, post_zoom, post_modify]
      split
      · exact hmoved
      · exact (ih _).mono (fun _ _ hrest => hmoved.trans hrest)
          fun _ _ hrest => hmoved.trans hrest
    · subst ht
      exact .of_eq rfl

/-- A frame of another type leaves the sent queue. -/
theorem FrameMoves.sentQueue_eq {type : ℕ} {frame : RPacket} {c d : FrameConn}
    (h : FrameMoves type frame c d) (htype : type ≠ quicFrameTypeAck) :
    d.sentQueue = c.sentQueue := by
  refine h.preserves (R := fun c d => d.sentQueue = c.sentQueue) (fun _ => rfl)
    (fun _ _ _ h h' => h'.trans h) fun c d hmove => ?_
  cases hmove with
  | acked _ ht => exact absurd ht htype
  | find | recvReset | stopSending | recvOpen | sendReady | recvFin | dataAdd | notify | limit
  | maxStreamData | raise | aside | draining | handshakeDone => rfl

/-- The parser of an ACK frame of a 1-RTT packet takes packets out of the sent queue. -/
def SendEvent.Acks : SendEvent Ctx → Prop
  | .frame space type _ => space = .application ∧ type = quicFrameTypeAck
  | _ => False

instance : ∀ e : SendEvent Ctx, Decidable e.Acks
  | .frame _ _ _ => inferInstanceAs (Decidable (_ ∧ _))
  | .add _ | .write _ _ | .keys _ _ | .setHeader _ _ => inferInstanceAs (Decidable False)

/-- Only ACK frames take packets out of the sent queue of 1-RTT packets. -/
theorem SendConn.step_application {s t : SendConn Ctx} {e : SendEvent Ctx} (hacks : ¬ e.Acks)
    (h : step mem evp s e = some t) : s.sentQueue .application <+: t.sentQueue .application := by
  cases e with
  | add qb =>
    cases h
    exact List.prefix_refl _
  | write built blocked =>
    obtain ⟨rfl, -⟩ := Endpoint.returned_eq_some h
    exact (DatagramWrite.writeLoop_grows built blocked s.txQueue
      { conn := s, pkt := wPacketStaticBufInit s.mss }).state .application
  | keys space encrypt =>
    cases h
    exact List.prefix_refl _
  | setHeader header mss =>
    cases h
    exact List.prefix_refl _
  | frame space type frame =>
    change recvFrame mem s space type frame = some t at h
    unfold recvFrame at h
    split at h
    · cases h
      exact List.prefix_refl _
    rename_i parser hparser
    obtain ⟨u, hu, rfl⟩ := Option.map_eq_some_iff.mp h
    obtain ⟨rfl, -⟩ := Endpoint.returned_eq_some hu
    have hmoves : FrameMoves type frame (s.frameConn space)
        (parser ⟨frame, s.frameConn space, false, false⟩).2.conn :=
      frameParser_moving hparser ⟨frame, s.frameConn space, false, false⟩
    have hframe : (s.setFrameConn space
        (parser ⟨frame, s.frameConn space, false, false⟩).2.conn).sentQueue .application =
          s.sentQueue .application := by
      unfold setFrameConn
      dsimp only
      by_cases hspace : space = .application
      · subst hspace
        rw [Function.update_self]
        exact hmoves.sentQueue_eq fun htype => hacks ⟨rfl, htype⟩
      · rw [Function.update_of_ne (Ne.symm hspace)]
    dsimp only
    split
    · unfold quicCryptoFree
      dsimp only
      rw [Function.update_of_ne (by decide), hframe]
    · rw [hframe]

end Sender

section Frame

/-- What happens to a packet with a range of one number. -/
theorem ackSweep_single {n : ℕ} (hn : n < 2 ^ 30) {qb : QBuff} (hqb : qb.pktNum < 2 ^ 30) :
    (ackSweep (n, n)).stops qb = decide (qb.pktNum < n) ∧
      (ackSweep (n, n)).takes qb = decide (qb.pktNum = n) := by
  have hpast : quicGt (qb.pktNum : ℤ) n ↔ n < qb.pktNum := by
    rw [quicGt_iff] <;> omega
  have hstop : quicGt (n : ℤ) qb.pktNum ↔ qb.pktNum < n := by
    rw [quicGt_iff] <;> omega
  constructor
  · rw [ackSweep]
    dsimp only
    rw [← Bool.decide_and, decide_eq_decide, hpast, hstop]
    omega
  · rw [ackSweep]
    dsimp only
    rw [← Bool.decide_and, decide_eq_decide, hpast, hstop]
    omega

/-- A range of one number takes out the packet with this number. -/
theorem ackSweep_single_left {n : ℕ} (hn : n < 2 ^ 30) {l : List QBuff}
    (hsorted : l.Pairwise fun a b => b.pktNum < a.pktNum) (hl : ∀ qb ∈ l, qb.pktNum < 2 ^ 30) :
    (ackSweep (n, n)).left l = l.filter fun qb => qb.pktNum ≠ n := by
  induction l with
  | nil => rfl
  | cons qb l ih =>
    obtain ⟨hbelow, hsorted⟩ := List.pairwise_cons.mp hsorted
    obtain ⟨hqb, hl⟩ := List.forall_mem_cons.mp hl
    obtain ⟨hstops, htakes⟩ := ackSweep_single hn hqb
    rw [Sweep.left_cons, hstops, htakes, ih hsorted hl]
    by_cases hlt : qb.pktNum < n
    · have hall : ∀ a ∈ qb :: l, decide (a.pktNum ≠ n) = true := by
        intro a ha
        rcases List.mem_cons.mp ha with rfl | ha
        · exact decide_eq_true hlt.ne
        · exact decide_eq_true ((hbelow a ha).trans hlt).ne
      rw [if_pos (decide_eq_true hlt), List.filter_eq_self.mpr hall]
    · rw [if_neg fun h => hlt (of_decide_eq_true h)]
      rw [List.filter_cons]
      by_cases heq : qb.pktNum = n
      · have hdrop : ¬ decide (qb.pktNum ≠ n) = true := fun h => absurd heq (of_decide_eq_true h)
        rw [if_pos (decide_eq_true heq), if_neg hdrop]
      · rw [if_neg fun h => heq (of_decide_eq_true h), if_pos (decide_eq_true heq)]

/-- An ACK frame of one packet takes this packet out of the queue, and nothing else. -/
theorem quicFrameAckParser_single {n delay : ℕ} (hn : n < 2 ^ 31) (hdelay : delay < 2 ^ 62)
    (past later : List UInt8) (c : FrameConn)
    (hlen : (varLengthBytes n ++ varLengthBytes delay ++ varLengthBytes 0 ++ varLengthBytes 0 ++
      later).length < 2 ^ 31) :
    ∃ t, FrameState.quicFrameAckParser ⟨⟨past, varLengthBytes n ++ varLengthBytes delay ++
        varLengthBytes 0 ++ varLengthBytes 0 ++ later⟩, c, false, false⟩ = (.ok (), t) ∧
      t.conn.sentQueue = ((ackSweep (n, n)).left c.sentQueue.reverse).reverse := by
  have hbytes : varLengthBytes n ++ varLengthBytes delay ++ varLengthBytes 0 ++ varLengthBytes 0 ++
      later = varLengthBytes n ++ (varLengthBytes delay ++ (varLengthBytes 0 ++
        (varLengthBytes 0 ++ later))) := by
    simp only [List.append_assoc]
  rw [hbytes] at hlen ⊢
  simp only [List.length_append] at hlen
  have hhead : readAckHead ⟨past ++ varLengthBytes n, varLengthBytes delay ++ (varLengthBytes 0 ++
      (varLengthBytes 0 ++ later))⟩ = (.ok (0, 0), ⟨past ++ varLengthBytes n ++
        varLengthBytes delay ++ varLengthBytes 0 ++ varLengthBytes 0, later⟩) := by
    rw [readAckHead, bind_of_ok (quicVariableLengthDecode_append _ hdelay
        (by simp only [List.length_append]; omega)),
      bind_of_ok (quicVariableLengthDecode_append _ (by decide)
        (by simp only [List.length_append]; omega)),
      bind_of_ok (quicVariableLengthDecode_append _ (by decide)
        (by simp only [List.length_append]; omega))]
    rfl
  have hsmallest : toUint64 ((n : ℤ) - (0 : ℕ)) = n := by
    unfold toUint64
    omega
  have hsign : ¬ quicLt (n : ℤ) 0 := by
    rw [quicLt_iff] <;> omega
  have hbody : readAckBody n ⟨past ++ varLengthBytes n, varLengthBytes delay ++
      (varLengthBytes 0 ++ (varLengthBytes 0 ++ later))⟩ =
        { calls := [(n, n)], result := .ok (), pkt := ⟨past ++ varLengthBytes n ++
          varLengthBytes delay ++ varLengthBytes 0 ++ varLengthBytes 0, later⟩ } := by
    rw [readAckBody, hhead]
    dsimp only
    rw [hsmallest, if_neg hsign]
    rfl
  have hrest : (varLengthBytes n ++ (varLengthBytes delay ++ (varLengthBytes 0 ++
      (varLengthBytes 0 ++ later)))).length < 2 ^ 31 := by
    simp only [List.length_append]
    omega
  have hread := quicVariableLengthDecode_append past (by omega : n < 2 ^ 62) hrest
  set frame : RPacket := ⟨past, varLengthBytes n ++ (varLengthBytes delay ++
    (varLengthBytes 0 ++ (varLengthBytes 0 ++ later)))⟩ with hframe
  have hpasses := FrameState.ackHandlers.parser_passes frame ⟨frame, c, false, false⟩
  rw [hread] at hpasses
  dsimp only at hpasses
  rw [hbody] at hpasses
  set s := FrameState.ackHandlers.raise n ⟨frame, c, false, false⟩ with hs
  have hqueue : s.conn.sent.sentQueue = c.sentQueue := by
    rw [hs]
    change (ite _ _ _ : FrameState).conn.sentQueue = c.sentQueue
    split_ifs <;> rfl
  have hrun := FrameState.passRanges_ackRun [(n, n)] false s
  have hnot : (FrameState.ackHandlers.passRanges [(n, n)] false s).1 ≠ .error .ub :=
    hrun.no_ub.mpr ⟨fun h => (by cases h), ⟨fun h => absurd rfl h, trivial⟩⟩
  have hleft := hrun.sentQueue hnot
  rw [hqueue] at hleft
  rcases hpass : FrameState.ackHandlers.passRanges [(n, n)] false s with ⟨r, t⟩
  rw [hpass] at hnot hleft
  cases r with
  | error e =>
    obtain ⟨rfl, -⟩ := (FrameState.passRanges_frame [(n, n)] false s).of_error hpass
    exact absurd rfl hnot
  | ok a => exact ⟨_, hpasses.of_ok t hpass, hleft⟩

end Frame

/-- A packet on the network. Its number is truncated. -/
structure FlyingPkt where
  /-- The number. -/
  pktNum : ℕ
  /-- How many bytes of the number are sent, less one. -/
  pktNumLen : Fin 4
  deriving DecidableEq, Repr

namespace FlyingPkt

/-- How many bits of the number are sent. -/
def nbits (p : FlyingPkt) : ℕ := (p.pktNumLen.val + 1) * 8

/-- What is sent of the number. -/
def truncated (p : FlyingPkt) : ℕ := p.pktNum % 2 ^ p.nbits

end FlyingPkt

/-- A sender of 1-RTT packets, and the peer that acknowledges them. -/
structure AckNet (Ctx Ctx' : Type) where
  /-- The sender. -/
  sender : SendConn Ctx
  /-- The 1-RTT packets that were sent. None is ever removed, so that a packet may arrive late, more
  than once, or never. -/
  flying : List FlyingPkt
  /-- The packet number space of the peer. -/
  receiver : QuicCrypto Ctx'
  /-- The numbers of the packets that the peer has opened. -/
  opened : List ℕ
  /-- The ACK frames that the peer has written, which may arrive late, more than once, or never. -/
  acks : List (List UInt8)

/-- What happens on the network. -/
inductive AckNetEvent (Ctx Ctx' : Type)
  /-- The sender does anything but parse an ACK frame of a 1-RTT packet. -/
  | send (e : SendEvent Ctx)
  /-- A packet arrives, and leaves contexts of the ciphers behind. -/
  | arrive (p : FlyingPkt) (now : ℕ) (pp hp : Ctx')
  /-- The frames of a buffer are built, which start with an ACK frame if one is due. -/
  | ack (now : ℕ) (b : FrameBuild Ctx')
  /-- An ACK frame arrives, with other frames behind it. -/
  | acked (frame later : List UInt8)

namespace AckNet

variable {Ctx Ctx' : Type} (mem : ℕ → Bool) (evp : Evp Ctx)

/-- A step of the sender. The packets that join the sent queue are on the network. -/
def send (s : AckNet Ctx Ctx') (e : SendEvent Ctx) : Option (AckNet Ctx Ctx') :=
  if e.Acks then none
  else (SendConn.step mem evp s.sender e).map fun t =>
    { s with
      sender := t
      flying := s.flying ++
        ((t.sentQueue .application).drop (s.sender.sentQueue .application).length).map fun qb =>
          ⟨qb.pktNum, s.sender.header.pktNumLen⟩ }

/-- A packet arrives. It is opened when its number is decoded, since the nonce is the truncated
number. -/
def arrive (s : AckNet Ctx Ctx') (p : FlyingPkt) (now : ℕ) (pp hp : Ctx') : AckNet Ctx Ctx' :=
  match decodedNumber s.receiver.largestPn p.truncated p.nbits with
  | .error _ =>
    { s with receiver := { s.receiver with
        arrivTime := now
        decrypt.hpCipher.ctx := some hp } }
  | .ok pktNum =>
    { s with
      receiver := s.receiver.opened now pktNum pp hp
      opened := s.opened ++ [p.pktNum] }

/-- The peer builds the frames of a buffer. -/
def ack (s : AckNet Ctx Ctx') (now : ℕ) (b : FrameBuild Ctx') : Option (AckNet Ctx Ctx') :=
  match quicStreamFrameAck now (b.withCrypto s.receiver) with
  | (.ok (), t) => some
    { s with
      receiver := t.quic.application
      acks := if quicFrameAckSendCheck s.receiver = true then
          s.acks ++ [t.pkt.buf.drop b.pkt.written]
        else s.acks }
  | (.error .ret, t) => some { s with receiver := t.quic.application }
  | (.error _, _) => none

/-- The sender parses an ACK frame. -/
def acked (s : AckNet Ctx Ctx') (frame later : List UInt8) : Option (AckNet Ctx Ctx') :=
  match quicVariableLengthDecode { past := [], rest := frame ++ later } with
  | (.ok type, pkt) => (SendConn.recvFrame mem s.sender .application type pkt).map fun t =>
    { s with sender := t }
  | (.error _, _) => some s

/-- The state behind an event. What arrives was sent. -/
def step (s : AckNet Ctx Ctx') : AckNetEvent Ctx Ctx' → Option (AckNet Ctx Ctx')
  | .send e => s.send mem evp e
  | .arrive p now pp hp => if p ∈ s.flying then some (s.arrive p now pp hp) else none
  | .ack now b => s.ack now b
  | .acked frame later => if frame ∈ s.acks then s.acked mem frame later else none

/-- A packet that arrives is in the window of RFC 9000 around the next number, and buffers and
packets have sizes that an `int` can hold. -/
def InWindow (s : AckNet Ctx Ctx') : AckNetEvent Ctx Ctx' → Prop
  | .send _ => True
  | .arrive p _ _ _ => s.receiver.largestPn + 1 < p.pktNum + 2 ^ (p.nbits - 1) ∧
    p.pktNum ≤ s.receiver.largestPn + 1 + 2 ^ (p.nbits - 1)
  | .ack _ b => b.pkt.maxsize < 2 ^ 31
  | .acked frame later => (frame ++ later).length < 2 ^ 31

instance (s : AckNet Ctx Ctx') : ∀ e, Decidable (s.InWindow e)
  | .send _ => inferInstanceAs (Decidable True)
  | .arrive _ _ _ _ => inferInstanceAs (Decidable (_ ∧ _))
  | .ack _ _ | .acked _ _ => inferInstanceAs (Decidable (_ < _))

/-- Nothing was sent. -/
structure Fresh (s : AckNet Ctx Ctx') : Prop where
  /-- The sender has sent nothing. -/
  unsent : s.sender.Unsent
  /-- The network is empty. -/
  network : s.flying = [] ∧ s.acks = []
  /-- The peer has opened nothing. -/
  opened : s.opened = []
  /-- The peer has stored no number. -/
  receiver : s.receiver.largestPn = 0 ∧ s.receiver.largestAck = 0 ∧ s.receiver.firstAckRange = 0

/-- What holds in every state, as long as the numbers are small. -/
structure Sound (s : AckNet Ctx Ctx') : Prop where
  /-- The packets of the sender are numbered. -/
  counted : (s.sender.numQueue .application).Counted QBuff.pktNum (2 ^ 64)
  /-- The numbers on the network were given. -/
  given : ∀ p ∈ s.flying, p.pktNum ≤ s.sender.numbered .application
  /-- A packet is in the sent queue or was opened. -/
  kept : ∀ p ∈ s.flying, (∃ qb ∈ s.sender.sentQueue .application, qb.pktNum = p.pktNum) ∨
    p.pktNum ∈ s.opened
  /-- A packet that was opened was sent. -/
  opened : ∀ n ∈ s.opened, ∃ p ∈ s.flying, p.pktNum = n
  /-- The largest number is that of a packet that was opened. -/
  largest : s.receiver.largestPn = 0 ∧ s.receiver.largestAck = 0 ∨
    s.receiver.largestPn ∈ s.opened
  /-- Only one packet is acknowledged at a time. -/
  range : s.receiver.firstAckRange = 0
  /-- A packet that is acknowledged was opened. -/
  acks : ∀ frame ∈ s.acks, ∃ n ∈ s.opened, ∃ delay < 2 ^ 62,
    frame = varLengthBytes quicFrameTypeAck ++
      (varLengthBytes n ++ varLengthBytes delay ++ varLengthBytes 0 ++ varLengthBytes 0)

section Runs

variable {mem evp} {s t : AckNet Ctx Ctx'} {now : ℕ}

/-- At first nothing is missing. -/
theorem Fresh.sound (h : s.Fresh) : s.Sound := by
  have hempty : s.sender.numQueue .application = .empty := by
    simp only [SendConn.numQueue, h.unsent.pktNum, h.unsent.numbered, h.unsent.sentQueue,
      NumQueue.empty]
  have hflying {p : FlyingPkt} (hp : p ∈ s.flying) : False := by
    rw [h.network.1] at hp
    cases hp
  refine ⟨hempty ▸ NumQueue.counted_empty, fun p hp => (hflying hp).elim,
    fun p hp => (hflying hp).elim, fun n hn => ?_, .inl ⟨h.receiver.1, h.receiver.2.1⟩,
    h.receiver.2.2, fun frame hframe => ?_⟩
  · rw [h.opened] at hn
    cases hn
  · rw [h.network.2] at hframe
    cases hframe

/-- The numbers that were opened are as small as those that were given. -/
theorem Sound.opened_le (hs : s.Sound) {n : ℕ} (hn : n ∈ s.opened) :
    n ≤ s.sender.numbered .application := by
  obtain ⟨p, hp, rfl⟩ := hs.opened n hn
  exact hs.given p hp

/-- The same for the largest of them. -/
theorem Sound.largest_le (hs : s.Sound) :
    s.receiver.largestPn ≤ s.sender.numbered .application := by
  rcases hs.largest with ⟨hzero, -⟩ | hmem
  · rw [hzero]
    exact Nat.zero_le _
  · exact hs.opened_le hmem

/-- Numbers that were given are not above their count. -/
theorem given_le {q : SendConn Ctx} (hq : (q.numQueue .application).Counted QBuff.pktNum (2 ^ 64))
    (hlt : q.numbered .application < 2 ^ 64) {qb : QBuff} (hqb : qb ∈ q.sentQueue .application) :
    qb.pktNum ≤ q.numbered .application := by
  have hle := (hq.ordered hlt).given qb hqb
  rwa [hq.last, show (q.numQueue .application).count = q.numbered .application from rfl,
    Nat.mod_eq_of_lt hlt] at hle

/-- The sender keeps what it sends. -/
theorem Sound.send {e : SendEvent Ctx} (hs : s.Sound) (h : s.send mem evp e = some t)
    (hlt : t.sender.numbered .application < 2 ^ 64) : t.Sound := by
  unfold AckNet.send at h
  split_ifs at h with hacks
  obtain ⟨q, hq, rfl⟩ := Option.map_eq_some_iff.mp h
  have hmoves := SendConn.step_sentMoves hq .application
  obtain ⟨joined, hjoined⟩ := SendConn.step_application hacks hq
  have hdrop : (q.sentQueue .application).drop (s.sender.sentQueue .application).length =
      joined := by
    rw [← hjoined, List.drop_left]
  have hcounted := hs.counted.moves hmoves
  have hmore : s.sender.numbered .application ≤ q.numbered .application :=
    NumQueue.Moves.count_le hmoves
  dsimp only at hlt
  refine ⟨hcounted, fun p hp => ?_, fun p hp => ?_, fun n hn => ?_, hs.largest, hs.range,
    hs.acks⟩
  · dsimp only at hp ⊢
    rw [hdrop] at hp
    rcases List.mem_append.mp hp with hp | hp
    · exact (hs.given p hp).trans hmore
    · obtain ⟨qb, hqb, rfl⟩ := List.mem_map.mp hp
      exact given_le hcounted hlt (hjoined ▸ List.mem_append_right _ hqb)
  · dsimp only at hp ⊢
    rw [hdrop] at hp
    rw [← hjoined]
    rcases List.mem_append.mp hp with hp | hp
    · rcases hs.kept p hp with ⟨qb, hqb, heq⟩ | hopened
      · exact .inl ⟨qb, List.mem_append_left _ hqb, heq⟩
      · exact .inr hopened
    · obtain ⟨qb, hqb, rfl⟩ := List.mem_map.mp hp
      exact .inl ⟨qb, List.mem_append_right _ hqb, rfl⟩
  · obtain ⟨p, hp, heq⟩ := hs.opened n hn
    exact ⟨p, List.mem_append_left _ hp, heq⟩

/-- A packet that arrives raises the largest number to its own, or not at all. -/
theorem Sound.arrive {p : FlyingPkt} (hs : s.Sound) (hp : p ∈ s.flying) (pp hp' : Ctx')
    (hwindow : InWindow s (.arrive p now pp hp' : AckNetEvent Ctx Ctx'))
    (hlt : s.sender.numbered .application < 2 ^ 30) : (s.arrive p now pp hp').Sound := by
  have hbits : p.nbits ∈ pktNumberWidths := by
    have hlen := p.pktNumLen.isLt
    simp only [pktNumberWidths, FlyingPkt.nbits, List.mem_cons, List.not_mem_nil, or_false]
    omega
  have hfull := (hs.given p hp).trans_lt hlt
  have hlargest := hs.largest_le.trans_lt hlt
  unfold AckNet.arrive
  split
  · exact ⟨hs.counted, hs.given, hs.kept, hs.opened, hs.largest, hs.range, hs.acks⟩
  rename_i n hdecode
  refine ⟨hs.counted, hs.given, fun q hq => (hs.kept q hq).imp id (List.mem_append_left _),
    fun m hm => ?_, ?_, hs.range, fun frame hframe => ?_⟩
  · rcases List.mem_append.mp hm with hm | hm
    · exact hs.opened m hm
    · exact ⟨p, hp, (List.mem_singleton.mp hm).symm⟩
  · unfold QuicCrypto.opened
    dsimp only
    by_cases hraise : quicLt s.receiver.largestPn n
    · rw [if_pos hraise]
      have heq := decodedNumber_larger hbits hlargest hfull hwindow.1 hwindow.2 hdecode hraise
      exact .inr (heq ▸ List.mem_append_right _ (List.mem_singleton_self _))
    · rw [if_neg hraise]
      exact hs.largest.imp id (List.mem_append_left _)
  · obtain ⟨m, hm, rest⟩ := hs.acks frame hframe
    exact ⟨m, List.mem_append_left _ hm, rest⟩

/-- An ACK frame is written for the largest number alone. -/
theorem Sound.ack {b : FrameBuild Ctx'} (hs : s.Sound) (hmax : b.pkt.maxsize < 2 ^ 31)
    (h : s.ack now b = some t) : t.Sound := by
  have hcrypto := @quicStreamFrameAck_crypto Ctx' (b.withCrypto s.receiver) s.receiver now rfl
  have hfields {c : QuicCrypto Ctx'}
      (hc : c = s.receiver ∨ c = { s.receiver with largestAck := s.receiver.largestPn }) :
      (c.largestPn = 0 ∧ c.largestAck = 0 ∨ c.largestPn ∈ s.opened) ∧ c.firstAckRange = 0 := by
    rcases hc with rfl | rfl
    · exact ⟨hs.largest, hs.range⟩
    · exact ⟨hs.largest.imp (fun hzero => ⟨hzero.1, hzero.1⟩) id, hs.range⟩
  unfold AckNet.ack at h
  rcases hrun : quicStreamFrameAck now (b.withCrypto s.receiver) with ⟨r, u⟩
  rw [hrun] at h
  cases r with
  | error e =>
    have hsame := hcrypto.of_error hrun
    cases e with
    | ret =>
      cases h
      obtain ⟨hlargest, hrange⟩ := hfields (.inl hsame)
      exact ⟨hs.counted, hs.given, hs.kept, hs.opened, hlargest, hrange, hs.acks⟩
    | assert | ub | fuel => cases h
  | ok a =>
    cases h
    obtain ⟨hlargest, hrange⟩ := hfields (hcrypto.of_ok hrun)
    refine ⟨hs.counted, hs.given, hs.kept, hs.opened, hlargest, hrange, fun frame hframe => ?_⟩
    dsimp only at hframe
    split_ifs at hframe with hcheck
    swap
    · exact hs.acks frame hframe
    rcases List.mem_append.mp hframe with hframe | hframe
    · exact hs.acks frame hframe
    obtain ⟨-, hdelay, hextends, -⟩ := (@quicStreamFrameAck_post Ctx' (b.withCrypto s.receiver)
      s.receiver now hmax rfl hcheck).of_ok hrun
    have hmem : s.receiver.largestPn ∈ s.opened := by
      refine hs.largest.resolve_left ?_
      rintro ⟨hpn, hack⟩
      rw [quicFrameAckSendCheck, hpn, hack, Bool.and_eq_true] at hcheck
      exact of_decide_eq_true hcheck.2 rfl
    refine ⟨_, hmem, _, hdelay, ?_⟩
    rw [List.mem_singleton.mp hframe, hextends.1]
    change (b.pkt.buf ++ _).drop b.pkt.buf.length = _
    rw [List.drop_left, ackBytes, hs.range]
    simp only [List.append_assoc]

/-- An ACK frame takes out of the sent queue the packet that it acknowledges. -/
theorem Sound.acked_exact {frame later : List UInt8} (hs : s.Sound) (hframe : frame ∈ s.acks)
    (hlen : (frame ++ later).length < 2 ^ 31)
    (hlt : s.sender.numbered .application < 2 ^ 30) :
    ∃ n ∈ s.opened, ∃ u, s.acked mem frame later = some { s with sender := u } ∧
      s.sender.SentMoves u ∧ u.sentQueue .application =
        (s.sender.sentQueue .application).filter fun qb => qb.pktNum ≠ n := by
  obtain ⟨n, hn, delay, hdelay, rfl⟩ := hs.acks frame hframe
  have hsmall := (hs.opened_le hn).trans_lt hlt
  rw [List.append_assoc] at hlen
  have hread := quicVariableLengthDecode_append [] (by decide : quicFrameTypeAck < 2 ^ 62) hlen
  have hlen' := hlen
  rw [List.length_append] at hlen'
  obtain ⟨u, hrun, hqueue⟩ := quicFrameAckParser_single (hsmall.trans (by decide)) hdelay
    ([] ++ varLengthBytes quicFrameTypeAck) later (s.sender.frameConn .application) (by omega)
  have hrecv : SendConn.recvFrame mem s.sender .application quicFrameTypeAck
      ⟨[] ++ varLengthBytes quicFrameTypeAck, varLengthBytes n ++ varLengthBytes delay ++
        varLengthBytes 0 ++ varLengthBytes 0 ++ later⟩ =
      some (s.sender.setFrameConn .application u.conn) := by
    unfold SendConn.recvFrame
    rw [show FrameState.frameParser mem quicFrameTypeAck =
      some FrameState.quicFrameAckParser from rfl]
    dsimp only
    rw [hrun]
    exact congrArg some (if_neg fun h => absurd h.1 (by decide))
  refine ⟨n, hn, _, ?_, SendConn.recvFrame_sentMoves hrecv, ?_⟩
  · unfold AckNet.acked
    rw [List.append_assoc, hread]
    dsimp only
    rw [hrecv]
    rfl
  · have hordered := hs.counted.ordered (hlt.trans (by decide))
    have hsorted : (s.sender.sentQueue .application).reverse.Pairwise
        fun a b => b.pktNum < a.pktNum :=
      List.pairwise_reverse.mpr hordered.sorted
    have hl : ∀ qb ∈ (s.sender.sentQueue .application).reverse, qb.pktNum < 2 ^ 30 :=
      fun qb hqb => (given_le hs.counted (hlt.trans (by decide))
        (List.mem_reverse.mp hqb)).trans_lt hlt
    unfold SendConn.setFrameConn
    dsimp only
    rw [Function.update_self, hqueue, show (s.sender.frameConn .application).sentQueue =
      s.sender.sentQueue .application from rfl, ackSweep_single_left hsmall hsorted hl,
      List.filter_reverse, List.reverse_reverse]

/-- An ACK frame leaves what was not opened. -/
theorem Sound.acked {frame later : List UInt8} (hs : s.Sound) (hframe : frame ∈ s.acks)
    (hlen : (frame ++ later).length < 2 ^ 31) (hlt : s.sender.numbered .application < 2 ^ 30)
    (h : s.acked mem frame later = some t) :
    t.Sound ∧ s.sender.numbered .application ≤ t.sender.numbered .application := by
  obtain ⟨n, hn, u, hu, hmoves, hqueue⟩ :=
    @Sound.acked_exact Ctx Ctx' mem s frame later hs hframe hlen hlt
  rw [hu] at h
  cases h
  have hmore : s.sender.numbered .application ≤ u.numbered .application :=
    NumQueue.Moves.count_le (hmoves .application)
  refine ⟨⟨hs.counted.moves (hmoves .application), fun p hp => (hs.given p hp).trans hmore,
    fun p hp => ?_, hs.opened, hs.largest, hs.range, hs.acks⟩, hmore⟩
  rcases hs.kept p hp with ⟨qb, hqb, heq⟩ | hopened
  · by_cases hne : qb.pktNum = n
    · exact .inr (heq ▸ hne ▸ hn)
    · refine .inl ⟨qb, ?_, heq⟩
      dsimp only
      rw [hqueue]
      exact List.mem_filter.mpr ⟨hqb, decide_eq_true hne⟩
  · exact .inr hopened

/-- No number is taken back. -/
theorem numbered_le {e : AckNetEvent Ctx Ctx'} (h : s.step mem evp e = some t) :
    s.sender.numbered .application ≤ t.sender.numbered .application := by
  cases e with
  | send e =>
    change s.send mem evp e = some t at h
    unfold AckNet.send at h
    split_ifs at h
    obtain ⟨q, hq, rfl⟩ := Option.map_eq_some_iff.mp h
    exact NumQueue.Moves.count_le (SendConn.step_sentMoves hq .application)
  | arrive p now pp hp =>
    change (if _ then _ else _) = _ at h
    split_ifs at h
    cases h
    unfold AckNet.arrive
    split <;> exact le_refl _
  | ack now b =>
    change s.ack now b = some t at h
    unfold AckNet.ack at h
    split at h
    · cases h
      exact le_refl _
    · cases h
      exact le_refl _
    · cases h
  | acked frame later =>
    change (if _ then _ else _) = _ at h
    split_ifs at h
    unfold AckNet.acked at h
    split at h
    · obtain ⟨q, hq, rfl⟩ := Option.map_eq_some_iff.mp h
      exact NumQueue.Moves.count_le (SendConn.recvFrame_sentMoves hq .application)
    · cases h
      exact le_refl _

/-- Every event keeps what holds, as long as the numbers are small. -/
theorem Sound.step {e : AckNetEvent Ctx Ctx'} (hs : s.Sound) (hwindow : s.InWindow e)
    (h : AckNet.step mem evp s e = some t) (hlt : t.sender.numbered .application < 2 ^ 30) :
    t.Sound := by
  have hlt' := (numbered_le h).trans_lt hlt
  cases e with
  | send e => exact hs.send h (hlt.trans (by decide))
  | arrive p now pp hp =>
    change (if _ then _ else _) = _ at h
    split_ifs at h with hmem
    cases h
    exact hs.arrive hmem pp hp hwindow hlt'
  | ack now b => exact hs.ack hwindow h
  | acked frame later =>
    change (if _ then _ else _) = _ at h
    split_ifs at h with hmem
    exact (hs.acked hmem hwindow hlt' h).1

/-- A network that loses, repeats and reorders packets and ACK frames, in whatever order the
endpoints take their steps: a packet is in the sent queue until the peer has opened it, and an ACK
frame takes the packet with its number, which the peer has opened, out of the queue if it is still
there, and nothing else. The packets arrive in the window of RFC 9000, and fewer than `2 ^ 30` are
sent. -/
theorem sent_or_opened {es : List (AckNetEvent Ctx Ctx')} (hs : s.Fresh)
    (hwindow : Trace.Along (AckNet.step mem evp) InWindow s es)
    (hrun : Trace.run (AckNet.step mem evp) s es = some t)
    (hlt : t.sender.numbered .application < 2 ^ 30) :
    (∀ p ∈ t.flying, (∃ qb ∈ t.sender.sentQueue .application, qb.pktNum = p.pktNum) ∨
      p.pktNum ∈ t.opened) ∧
    ∀ frame ∈ t.acks, ∀ later, (frame ++ later).length < 2 ^ 31 →
      ∃ n ∈ t.opened, ∃ u, t.acked mem frame later = some { t with sender := u } ∧
        u.sentQueue .application =
          (t.sender.sentQueue .application).filter fun qb => qb.pktNum ≠ n := by
  have hsound := Trace.run_invariant_along
    (fun u => u.sender.numbered .application < 2 ^ 30 → u.Sound)
    (fun u e v hu (hok : InWindow u e) hstep hlt =>
      (hu ((numbered_le hstep).trans_lt hlt)).step hok hstep hlt)
    (fun _ => hs.sound) hwindow hrun hlt
  refine ⟨hsound.kept, fun frame hframe later hlen => ?_⟩
  obtain ⟨n, hn, u, hu, -, hqueue⟩ :=
    @Sound.acked_exact Ctx Ctx' mem t frame later hsound hframe hlen hlt
  exact ⟨n, hn, u, hu, hqueue⟩

end Runs

/-- A client that sends PING frames, and a peer with the keys of 1-RTT packets. -/
def pingNet : AckNet Unit Unit where
  sender := SendConn.pingConn
  flying := []
  receiver := plainCrypto 0 0
  opened := []
  acks := []

/-- The packet of a PING frame. -/
def pingPkt : FlyingPkt := ⟨1, Fin.last 3⟩

theorem zero_le_1157 : 0 ≤ 1157 := Nat.zero_le _

/-- A packet is sent and arrives twice, and its ACK frame comes back. -/
def pingAcked : List (AckNetEvent Unit Unit) :=
  [.send (.add pingQb), .send (.write false none), .arrive pingPkt 5 () (), .arrive pingPkt 7 () (),
    .ack 10 (sendFrom 0 0 zero_le_1157), .acked [2, 1, 3, 0, 0] [1]]

theorem pingNet_fresh : pingNet.Fresh :=
  ⟨SendConn.pingConn_unsent, ⟨rfl, rfl⟩, rfl, ⟨rfl, rfl, rfl⟩⟩

/-- The packet was opened, and it has left the sent queue. -/
theorem sent_or_opened_ping : ∃ t,
    Trace.run (AckNet.step (fun _ => true) plainEvp) pingNet pingAcked = some t ∧
      t.flying = [pingPkt] ∧ 1 ∈ t.opened := by
  have hrun : (Trace.run (AckNet.step (fun _ => true) plainEvp) pingNet pingAcked).any
      (fun t => decide (t.sender.numbered .application < 2 ^ 30 ∧ t.flying = [pingPkt] ∧
        ∀ qb ∈ t.sender.sentQueue .application, qb.pktNum ≠ 1)) = true := by
    decide +kernel
  obtain ⟨t, ht, hend⟩ := (Option.any_eq_true _ _).mp hrun
  obtain ⟨hlt, hflying, hqueue⟩ := of_decide_eq_true hend
  refine ⟨t, ht, hflying, ?_⟩
  obtain ⟨hkept, -⟩ := sent_or_opened pingNet_fresh (by decide +kernel) ht hlt
  rcases hkept pingPkt (hflying ▸ List.mem_singleton_self _) with ⟨qb, hqb, heq⟩ | hopened
  · exact absurd heq (hqueue qb hqb)
  · exact hopened

end AckNet

end Tbquic
