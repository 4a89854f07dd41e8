import Tbquic.Datagram.Build
import Tbquic.Frame.Endpoint
import Tbquic.Frame.LargestAcked
import Tbquic.Frame.Queue
import Tbquic.Lib.NumQueue

/-!
# The packets that were sent

`QuicWritePkt` takes buffers from one queue for all packet number spaces, builds their packets and
moves them to the sent queues of their spaces. A packet is numbered while it is built, also when the
build fails. Acknowledgements remove packets.
-/

namespace Tbquic

/-- The packet number spaces. -/
inductive PktSpace
  /-- `initial`. -/
  | initial
  /-- `handshake`. -/
  | handshake
  /-- `application`. -/
  | application
  deriving DecidableEq, Repr

/-- The entry of `QuicBuffPktMethod` for a buffer: the packet that is built and the space that
`get_crypto` returns. -/
def QBuff.method (qb : QBuff) : Option (QuicPktType × PktSpace) :=
  if qb.pktType = quicPktTypeInitial then some (.initial, .initial)
  else if qb.pktType = quicPktTypeHandshake then some (.handshake, .handshake)
  else if qb.pktType = quicPktType1Rtt then some (.oneRtt, .application)
  else none

/-- A connection that sends packets. -/
structure SendConn (Ctx : Type) where
  /-- The keys and the number of the last packet of each space. -/
  crypto : PktSpace → QuicCrypto Ctx
  /-- The sent queue of each space, the oldest buffer first. -/
  sentQueue : PktSpace → List QBuff
  /-- How often a packet of each space was numbered. -/
  numbered : PktSpace → ℕ
  /-- `tx_queue`, the oldest buffer first. -/
  txQueue : List QBuff
  /-- What is written into the headers. -/
  header : HeaderSource
  /-- `mss`. -/
  mss : ℕ
  /-- The rest of the connection. -/
  conn : FrameConn

/-- A datagram that is written. -/
structure DatagramWrite (Ctx : Type) where
  /-- The connection. -/
  conn : SendConn Ctx
  /-- The datagram. -/
  pkt : WPacket

section Write

variable {Ctx : Type} (evp : Evp Ctx)

namespace SendConn

/-- `QBufPktComputeTotalLen`. -/
def qBufPktComputeTotalLen (s : SendConn Ctx) (qb : QBuff) : Except Fail ℕ :=
  match qb.method with
  | none => .error .ub
  | some (type, space) =>
    let alg := (s.crypto space).encrypt.ppCipher.cipher.alg
    if type = .oneRtt then
      quicSPacketLen s.header.dcid.length s.header.pktNumLen.val alg qb.dataLen
    else s.header.quicLPacketGetTotalLen alg type qb.dataLen

/-- `QuicStreamSendFlowCtrl`. When a limit is reached, the buffer `blocked` of a frame that says so
may be queued. -/
def flowCtrl (built : Bool) (blocked : Option QBuff) (qb : QBuff) :
    Prog Fail (SendConn Ctx) Unit := fun s =>
  match quicStreamSendFlowCtrl built qb.streamId qb.streamLen s.conn.streams with
  | (.ok (), streams) => (.ok (), { s with conn.streams := streams })
  | (.error e, streams) =>
    (.error e, { s with conn.streams := streams, txQueue := s.txQueue ++ blocked.toList })

/-- The objects of a build. -/
def toBuild (s : SendConn Ctx) (space : PktSpace) (pkt : WPacket) (qb : QBuff) : PktBuild Ctx where
  crypto := s.crypto space
  pkt := pkt
  qb := qb
  sealed := []

/-- The connection behind a build, whose buffer stays at the head of its queue. -/
def built (s : SendConn Ctx) (space : PktSpace) (t : PktBuild Ctx) : SendConn Ctx :=
  { s with
    crypto := Function.update s.crypto space t.crypto
    numbered := Function.update s.numbered space
      (if t.crypto.pktNum = (s.crypto space).pktNum then s.numbered space
        else s.numbered space + 1)
    txQueue := t.qb :: s.txQueue.tail }

/-- `QBuffQueueUnlink` and `QBuffQueueAdd` on the buffer at the head. -/
def move (space : PktSpace) (s : SendConn Ctx) : SendConn Ctx :=
  match s.txQueue with
  | [] => s
  | qb :: rest => { s with
      sentQueue := Function.update s.sentQueue space (s.sentQueue space ++ [qb])
      txQueue := rest }

end SendConn

namespace DatagramWrite

/-- Whether a packet is the last of its datagram. -/
def isLast (qb : QBuff) (rest : List QBuff) : Prog Fail (DatagramWrite Ctx) Bool :=
  match rest with
  | [] => pure true
  | next :: _ => do
    let w ← Prog.get
    let len ← Prog.ofExcept (w.conn.qBufPktComputeTotalLen qb)
    let nextLen ← Prog.ofExcept (w.conn.qBufPktComputeTotalLen next)
    pure (decide (quicGt ((len + nextLen : ℕ) : ℤ) w.pkt.space))

/-- `QBuffBuildPkt` into the datagram. -/
def qBuffBuildPkt (type : QuicPktType) (space : PktSpace) (qb : QBuff) (last : Bool) :
    Prog Fail (DatagramWrite Ctx) Unit := fun w =>
  Prog.zoom (fun w => w.conn.toBuild space w.pkt qb)
    (fun t w => { conn := w.conn.built space t, pkt := t.pkt })
    (Tbquic.qBuffBuildPkt evp w.conn.header type last) w

/-- Change the connection. -/
def onConn (m : Prog Fail (SendConn Ctx) Unit) : Prog Fail (DatagramWrite Ctx) Unit :=
  Prog.zoom DatagramWrite.conn (fun conn w => { w with conn }) m

/-- The loop of `QuicWritePkt` over the buffers. -/
def writeLoop (built : Bool) (blocked : Option QBuff) :
    List QBuff → Prog Fail (DatagramWrite Ctx) Unit
  | [] => pure ()
  | qb :: rest => do
    let last ← isLast qb rest
    onConn (SendConn.flowCtrl built blocked qb)
    match qb.method with
    | none => Prog.fail .ub
    | some (type, space) => do
      qBuffBuildPkt evp type space qb last
      onConn (Prog.modify (SendConn.move space))
      if last = true ∨ type = .oneRtt then pure () else writeLoop built blocked rest

end DatagramWrite

namespace SendConn

/-- `QuicWritePkt`. -/
def quicWritePkt (built : Bool) (blocked : Option QBuff) : Prog Fail (SendConn Ctx) Unit := fun s =>
  let run := DatagramWrite.writeLoop evp built blocked s.txQueue
    { conn := s, pkt := wPacketStaticBufInit s.mss }
  (run.1, run.2.conn)

/-- The connection as the frames of a space see it. -/
def frameConn (s : SendConn Ctx) (space : PktSpace) : FrameConn :=
  { s.conn with
    largestAcked := (s.crypto space).largestAcked
    sentQueue := s.sentQueue space }

/-- The connection behind a frame of a space. -/
def setFrameConn (s : SendConn Ctx) (space : PktSpace) (conn : FrameConn) : SendConn Ctx :=
  { s with
    conn
    crypto := Function.update s.crypto space
      { s.crypto space with largestAcked := conn.largestAcked }
    sentQueue := Function.update s.sentQueue space conn.sentQueue }

/-- `QuicCryptoFree` on a space. -/
def quicCryptoFree (space : PktSpace) (s : SendConn Ctx) : SendConn Ctx :=
  { s with
    crypto := Function.update s.crypto space
      { s.crypto space with
        encrypt.ppCipher.cipher.ctx := none, encrypt.hpCipher.ctx := none
        decrypt.ppCipher.cipher.ctx := none, decrypt.hpCipher.ctx := none }
    sentQueue := Function.update s.sentQueue space [] }

/-- The parser of a frame in a packet of a space. A client frees the Handshake space when the
handshake is done. -/
def recvFrame (mem : ℕ → Bool) (s : SendConn Ctx) (space : PktSpace) (type : ℕ) (frame : RPacket) :
    Option (SendConn Ctx) :=
  match FrameState.frameParser mem type with
  | none => some s
  | some parser =>
    (returned (parser ⟨frame, s.frameConn space, false, false⟩)).map fun t =>
      let s := s.setFrameConn space t.conn
      if type = quicFrameTypeHandshakeDone ∧ s.conn.streams.server = false then
        s.quicCryptoFree .handshake
      else s

end SendConn

end Write

/-- What happens to a connection that sends packets. -/
inductive SendEvent (Ctx : Type)
  /-- `QuicAddQueue`. -/
  | add (qb : QBuff)
  /-- `QuicWritePkt`. -/
  | write (built : Bool) (blocked : Option QBuff)
  /-- A frame is parsed in a packet of a space. -/
  | frame (space : PktSpace) (type : ℕ) (frame : RPacket)
  /-- Keys are installed in a space. -/
  | keys (space : PktSpace) (encrypt : QuicCipherSpace Ctx)
  /-- The fields of the headers or the size of a datagram change. -/
  | setHeader (header : HeaderSource) (mss : ℕ)

namespace SendConn

variable {Ctx : Type} (mem : ℕ → Bool) (evp : Evp Ctx)

/-- The state behind an event. -/
def step (s : SendConn Ctx) : SendEvent Ctx → Option (SendConn Ctx)
  | .add qb => some { s with txQueue := s.txQueue ++ [qb] }
  | .write built blocked => returned (quicWritePkt evp built blocked s)
  | .frame space type frame => recvFrame mem s space type frame
  | .keys space encrypt => some { s with
      crypto := Function.update s.crypto space { s.crypto space with encrypt } }
  | .setHeader header mss => some { s with header, mss }

/-- Nothing was sent. -/
structure Unsent (s : SendConn Ctx) : Prop where
  /-- No number was used. -/
  pktNum (space : PktSpace) : (s.crypto space).pktNum = 0
  /-- No packet was numbered. -/
  numbered (space : PktSpace) : s.numbered space = 0
  /-- No packet was sent. -/
  sentQueue (space : PktSpace) : s.sentQueue space = []

/-- The sent queue of a space is ordered by number, and no number is above the last one. -/
structure SentOrdered (s : SendConn Ctx) (space : PktSpace) : Prop where
  /-- The numbers increase. -/
  ordered : (s.sentQueue space).Pairwise fun a b => a.pktNum < b.pktNum
  /-- They were given. -/
  given : ∀ qb ∈ s.sentQueue space, qb.pktNum ≤ (s.crypto space).pktNum

end SendConn

section Build

variable {Ctx : Type} {evp : Evp Ctx}

namespace PktBuild

@[simp] theorem setPpCtx_qb (ctx : Ctx) (s : PktBuild Ctx) : (s.setPpCtx ctx).qb = s.qb := rfl

@[simp] theorem setHpCtx_qb (ctx : Ctx) (s : PktBuild Ctx) : (s.setHpCtx ctx).qb = s.qb := rfl

@[simp] theorem setPkt_qb (pkt : WPacket) (s : PktBuild Ctx) : (s.setPkt pkt).qb = s.qb := rfl

@[simp] theorem record_qb (entry : Seal) (s : PktBuild Ctx) : (s.record entry).qb = s.qb := rfl

/-- The last number of the space and the number of the packet. -/
def Numbered (n : ℕ) (s : PktBuild Ctx) : Prop := s.crypto.pktNum = n ∧ s.qb.pktNum = n

/-- The space has the number of another build, or the one behind it. -/
def NumberedFrom (r s : PktBuild Ctx) : Prop :=
  s.crypto.pktNum = r.crypto.pktNum ∨ s.crypto.pktNum = (r.crypto.pktNum + 1) % 2 ^ 64

end PktBuild

open PktBuild

/-- Encrypting a payload keeps the numbers. -/
theorem quicEncryptPayload_keepsNumbers {n : ℕ} (head : List UInt8) (outLen pktNum pktNumLen : ℕ)
    {s : PktBuild Ctx} (h : Numbered n s) :
    Prog.Post (quicEncryptPayload evp head outLen pktNum pktNumLen) (fun _ t => Numbered n t)
      (fun _ t => Numbered n t) s := by
  obtain ⟨hcrypto, hqb⟩ := h
  simp [quicEncryptPayload, quicEncryptMessage, quicCryptoSetIV, ppCtx, Prog.post_ite, Numbered,
    hcrypto, hqb]

/-- Masking the header keeps the numbers. -/
theorem quicEncryptHeader_keepsNumbers {n : ℕ} (firstByte pktNumStart dataLen bitsMask : ℕ)
    {s : PktBuild Ctx} (h : Numbered n s) :
    Prog.Post (quicEncryptHeader evp firstByte pktNumStart dataLen bitsMask)
      (fun _ t => Numbered n t) (fun _ t => Numbered n t) s := by
  obtain ⟨hcrypto, hqb⟩ := h
  simp [quicEncryptHeader, quicHPMaskGen, Numbered, hcrypto, hqb]

/-- The end of a build keeps the numbers. -/
theorem quicPacketSeal_keepsNumbers {n firstByte pktNum pktNumLen cipherLen mask : ℕ}
    {s : PktBuild Ctx} (h : Numbered n s) :
    Prog.Post (quicPacketSeal evp firstByte pktNum pktNumLen cipherLen mask)
      (fun _ t => Numbered n t) (fun _ t => Numbered n t) s := by
  have hkeep (pkt : WPacket) {t : PktBuild Ctx} (ht : Numbered n t) : Numbered n (t.setPkt pkt) :=
    ht
  rw [quicPacketSeal, Prog.post_bind, Prog.post_get, Prog.post_bind, PktBuild.onPkt, Prog.post_zoom]
  refine Prog.Post.of_forall (fun _ pkt => ?_) fun _ pkt => hkeep pkt h
  rw [Prog.post_bind, PktBuild.onPkt, Prog.post_zoom]
  refine Prog.Post.of_forall (fun dest pkt' => ?_) fun _ pkt' => hkeep pkt' h
  rw [Prog.post_bind, Prog.post_ensure]
  refine ⟨fun _ => ?_, fun _ => hkeep pkt' h⟩
  rw [Prog.post_bind, Prog.post_get, Prog.post_bind]
  refine (quicEncryptPayload_keepsNumbers _ _ _ _ (hkeep pkt' h)).mono (fun out t ht => ?_)
    fun _ t ht => ht
  rw [Prog.post_bind, Prog.post_modify]
  exact quicEncryptHeader_keepsNumbers _ _ _ _ (hkeep _ ht)

/-- A build that succeeds gives the next number to its packet, and one that fails may lose it. -/
theorem quicPacketBuild_numbers (firstByte mask pktNumLen : ℕ) {r s : PktBuild Ctx}
    (hs : s.crypto.pktNum = r.crypto.pktNum) :
    Prog.Post (quicPacketBuild evp firstByte pktNumLen mask)
      (fun _ t => Numbered ((r.crypto.pktNum + 1) % 2 ^ 64) t) (fun _ t => NumberedFrom r t) s := by
  rw [← hs]
  have hnumber : Numbered ((s.crypto.pktNum + 1) % 2 ^ 64) s.number := ⟨rfl, rfl⟩
  have hlost {t : PktBuild Ctx} (ht : Numbered ((s.crypto.pktNum + 1) % 2 ^ 64) t) :
      NumberedFrom r t := by
    rw [NumberedFrom, ← hs]
    exact .inr ht.1
  have hseal (pktNum cipherLen : ℕ) (pkt : WPacket) :
      Prog.Post (quicPacketSeal evp firstByte pktNum pktNumLen cipherLen mask)
        (fun _ t => Numbered ((s.crypto.pktNum + 1) % 2 ^ 64) t) (fun _ t => NumberedFrom r t)
        (s.number.setPkt pkt) := by
    have hpkt : Numbered ((s.crypto.pktNum + 1) % 2 ^ 64) (s.number.setPkt pkt) := hnumber
    exact (quicPacketSeal_keepsNumbers hpkt).mono (fun _ _ h => h) fun _ _ h => hlost h
  simp only [quicPacketBuild, Prog.post_bind, Prog.post_get, Prog.post_ensure, Prog.post_modify,
    Prog.post_ofExcept]
  refine ⟨fun _ => ⟨fun pktNum _ => ⟨fun cipherLen _ => ⟨fun _ => ?_, fun _ => hlost hnumber⟩,
    fun _ _ => hlost hnumber⟩, fun _ _ => hlost hnumber⟩, fun _ => .inl hs⟩
  rw [quicPacketLength]
  split
  · rw [PktBuild.onPkt, Prog.post_zoom]
    exact Prog.Post.of_forall (fun _ pkt => hseal pktNum cipherLen pkt) fun _ pkt => hlost hnumber
  · exact hseal pktNum cipherLen s.pkt

/-- Padding keeps the space. -/
theorem quicLastPacketPad_crypto (totalLen : ℕ) (last : Bool) (s : PktBuild Ctx) :
    Prog.Post (quicLastPacketPad totalLen last) (fun _ t => t.crypto = s.crypto)
      (fun _ t => t.crypto = s.crypto) s := by
  refine Prog.Post.of_state ?_
  unfold quicLastPacketPad
  split
  · unfold quicFrameBufferAddPadding
    split
    · rfl
    · split_ifs <;> rfl
  · rfl

/-- A packet that is built has the next number. -/
theorem qBuffBuildPkt_numbers (conn : HeaderSource) (type : QuicPktType) (last : Bool)
    (s : PktBuild Ctx) :
    Prog.Post (qBuffBuildPkt evp conn type last)
      (fun _ t => Numbered ((s.crypto.pktNum + 1) % 2 ^ 64) t) (fun _ t => NumberedFrom s t) s := by
  have hkeep (pkt : WPacket) : NumberedFrom s (s.setPkt pkt) := .inl rfl
  have hlong : Prog.Post (quicLPacketBuild evp conn type last)
      (fun _ t => Numbered ((s.crypto.pktNum + 1) % 2 ^ 64) t) (fun _ t => NumberedFrom s t) s := by
    rw [quicLPacketBuild, Prog.post_bind, Prog.post_get, Prog.post_bind, Prog.post_ofExcept]
    refine ⟨fun totalLen _ => ?_, fun _ _ => .inl rfl⟩
    rw [Prog.post_bind, PktBuild.onPkt, Prog.post_zoom]
    refine Prog.Post.of_forall (fun _ pkt => ?_) fun _ pkt => hkeep pkt
    rw [Prog.post_bind, PktBuild.onPkt, Prog.post_zoom]
    refine Prog.Post.of_forall (fun _ pkt' => ?_) fun _ pkt' => hkeep pkt'
    rw [Prog.post_bind]
    have hpad := quicLastPacketPad_crypto (totalLen + s.pkt.written) last
      ((s.setPkt pkt).setPkt pkt')
    refine hpad.mono (fun _ t ht => ?_) fun _ t ht => .inl (congrArg QuicCrypto.pktNum ht)
    exact quicPacketBuild_numbers _ _ _ (congrArg QuicCrypto.pktNum ht)
  have hshort : Prog.Post (quicSPacketBuild evp conn)
      (fun _ t => Numbered ((s.crypto.pktNum + 1) % 2 ^ 64) t) (fun _ t => NumberedFrom s t) s := by
    rw [quicSPacketBuild, Prog.post_bind, Prog.post_get, Prog.post_bind, PktBuild.onPkt,
      Prog.post_zoom]
    refine Prog.Post.of_forall (fun _ pkt => ?_) fun _ pkt => hkeep pkt
    exact quicPacketBuild_numbers _ _ _ rfl
  unfold qBuffBuildPkt
  split
  · exact hlong
  · exact hlong
  · exact hshort
  · exact .inl rfl
  · exact .inl rfl

end Build

namespace SendConn

variable {Ctx : Type} {mem : ℕ → Bool} {evp : Evp Ctx} {s t u : SendConn Ctx}

/-- The sent queue of a space and the count of its numbers. -/
def numQueue (s : SendConn Ctx) (space : PktSpace) : NumQueue QBuff where
  count := s.numbered space
  last := (s.crypto space).pktNum
  entries := s.sentQueue space

/-- Every space makes moves of a queue of numbered entries. -/
def SentMoves (s t : SendConn Ctx) : Prop :=
  ∀ space, NumQueue.Moves QBuff.pktNum (2 ^ 64) (s.numQueue space) (t.numQueue space)

/-- Nothing changes in the queues. -/
theorem SentMoves.of_eq (h : ∀ space, t.numQueue space = s.numQueue space) : SentMoves s t :=
  fun space => h space ▸ .refl

/-- Moves are made in a row. -/
theorem SentMoves.trans (h : SentMoves s t) (h' : SentMoves t u) : SentMoves s u :=
  fun space => (h space).trans (h' space)

/-- One space makes a move and the others none. -/
theorem SentMoves.of_move (space : PktSpace)
    (h : NumQueue.Moves QBuff.pktNum (2 ^ 64) (s.numQueue space) (t.numQueue space))
    (hother : ∀ other, other ≠ space → t.numQueue other = s.numQueue other) : SentMoves s t := by
  intro other
  by_cases heq : other = space
  · rw [heq]
    exact h
  · rw [hother other heq]
    exact .refl

/-- The flow control of streams touches no queue of packets that were sent. -/
theorem flowCtrl_sentMoves (built : Bool) (blocked : Option QBuff) (qb : QBuff)
    (s : SendConn Ctx) :
    Prog.Post (flowCtrl built blocked qb) (fun _ t => s.SentMoves t)
      (fun _ t => s.SentMoves t) s := by
  refine Prog.Post.of_state ?_
  unfold flowCtrl
  split
  · exact .of_eq fun _ => rfl
  · exact .of_eq fun _ => rfl

/-- A packet that is built and moved joins its queue. -/
theorem sentMoves_move {space : PktSpace} {pkt : WPacket} {qb : QBuff} {b : PktBuild Ctx}
    (h : PktBuild.Numbered (((s.toBuild space pkt qb).crypto.pktNum + 1) % 2 ^ 64) b) :
    SentMoves s ((s.built space b).move space) := by
  obtain ⟨hcrypto, hqb⟩ := h
  have hne : b.crypto.pktNum ≠ (s.crypto space).pktNum := by
    rw [hcrypto]
    change ((s.crypto space).pktNum + 1) % 2 ^ 64 ≠ (s.crypto space).pktNum
    omega
  refine .of_move space (.single ?_) fun other hother => ?_
  · have hqueue : ((s.built space b).move space).numQueue space =
        { count := (s.numQueue space).count + 1, last := (s.numQueue space).next (2 ^ 64),
          entries := (s.numQueue space).entries ++ [b.qb] } := by
      simp only [numQueue, move, built, Function.update_self, if_neg hne]
      rw [hcrypto]
      rfl
    rw [hqueue]
    exact .join b.qb hqb
  · simp only [numQueue, move, built, Function.update_of_ne hother]

/-- A build that fails may lose a number. -/
theorem sentMoves_built {space : PktSpace} {pkt : WPacket} {qb : QBuff} {b : PktBuild Ctx}
    (h : PktBuild.NumberedFrom (s.toBuild space pkt qb) b) : SentMoves s (s.built space b) := by
  refine .of_move space ?_ fun other hother => ?_
  · rcases h with hsame | hnext
    · have hsame : b.crypto.pktNum = (s.crypto space).pktNum := hsame
      have hqueue : (s.built space b).numQueue space = s.numQueue space := by
        simp only [numQueue, built, Function.update_self, if_pos hsame]
        rw [hsame]
      rw [hqueue]
      exact .refl
    · have hnext : b.crypto.pktNum = ((s.crypto space).pktNum + 1) % 2 ^ 64 := hnext
      have hne : b.crypto.pktNum ≠ (s.crypto space).pktNum := by omega
      have hqueue : (s.built space b).numQueue space =
          { s.numQueue space with
            count := (s.numQueue space).count + 1, last := (s.numQueue space).next (2 ^ 64) } := by
        simp only [numQueue, built, Function.update_self, if_neg hne]
        rw [hnext]
        rfl
      rw [hqueue]
      exact .single .lose
  · simp only [numQueue, built, Function.update_of_ne hother]

end SendConn

namespace DatagramWrite

variable {Ctx : Type} {evp : Evp Ctx}

/-- Asking whether a packet is the last changes nothing. -/
theorem isLast_state (qb : QBuff) (rest : List QBuff) (w : DatagramWrite Ctx) :
    Prog.Post (isLast qb rest) (fun _ t => t = w) (fun _ t => t = w) w := by
  cases rest with
  | nil => exact rfl
  | cons next rest => simp [isLast]

/-- A packet joins its queue when it is built, and a number may be lost when it is not. -/
theorem qBuffBuildPkt_sentMoves (type : QuicPktType) (space : PktSpace) (qb : QBuff) (last : Bool)
    (w : DatagramWrite Ctx) :
    Prog.Post (qBuffBuildPkt evp type space qb last)
      (fun _ t => w.conn.SentMoves (t.conn.move space)) (fun _ t => w.conn.SentMoves t.conn) w := by
  have hbuild := @qBuffBuildPkt_numbers Ctx evp w.conn.header type last
    (w.conn.toBuild space w.pkt qb)
  have hmoves := hbuild.mono (fun _ _ hb => SendConn.sentMoves_move hb)
    fun _ _ hb => SendConn.sentMoves_built hb
  unfold Prog.Post at hmoves ⊢
  unfold qBuffBuildPkt
  rw [Prog.zoom_apply]
  rcases hrun : Tbquic.qBuffBuildPkt evp w.conn.header type last
    (w.conn.toBuild space w.pkt qb) with ⟨r, b⟩
  rw [hrun] at hmoves
  cases r with
  | ok a => exact hmoves
  | error e => exact hmoves

/-- The loop makes moves of the queues, also when it fails. -/
theorem writeLoop_sentMoves (built : Bool) (blocked : Option QBuff) (l : List QBuff)
    (w : DatagramWrite Ctx) :
    Prog.Post (writeLoop evp built blocked l) (fun _ t => w.conn.SentMoves t.conn)
      (fun _ t => w.conn.SentMoves t.conn) w := by
  induction l generalizing w with
  | nil => exact .of_eq fun _ => rfl
  | cons qb rest ih =>
    rw [writeLoop, Prog.post_bind]
    refine (isLast_state qb rest w).mono (fun last t ht => ?_) fun _ t ht => ?_
    · subst ht
      rw [Prog.post_bind, onConn, Prog.post_zoom]
      refine (SendConn.flowCtrl_sentMoves built blocked qb t.conn).mono (fun _ c hflow => ?_)
        fun _ c hflow => hflow
      split
      · exact hflow
      · rename_i type space _
        rw [Prog.post_bind]
        refine (qBuffBuildPkt_sentMoves type space qb last _).mono (fun _ u hbuild => ?_)
          fun _ u hbuild => hflow.trans hbuild
        rw [Prog.post_bind, onConn, Prog.post_zoom, Prog.post_modify]
        have hmoved := hflow.trans hbuild
        split
        · exact hmoved
        · exact (ih _).mono (fun _ _ hrest => hmoved.trans hrest)
            fun _ _ hrest => hmoved.trans hrest
    · subst ht
      exact .of_eq fun _ => rfl

end DatagramWrite

/-- A frame takes packets out of the queue of its space. -/
theorem FrameMoves.sentQueue {type : ℕ} {frame : RPacket} {c d : FrameConn}
    (h : FrameMoves type frame c d) : d.sentQueue.Sublist c.sentQueue := by
  refine h.preserves (R := fun c d => d.sentQueue.Sublist c.sentQueue) (fun c => .refl _)
    (fun _ _ _ h h' => h'.trans h) fun c d hmove => ?_
  cases hmove with
  | acked p =>
    have hsub := ((ackSweep p).left_sublist c.sentQueue.reverse).reverse
    rwa [List.reverse_reverse] at hsub
  | find | recvReset | stopSending | recvOpen | sendReady | recvFin | dataAdd | notify | limit
  | maxStreamData | raise | aside | draining | handshakeDone => exact .refl _

namespace SendConn

variable {Ctx : Type} {mem : ℕ → Bool} {evp : Evp Ctx} {s t : SendConn Ctx}

/-- The connection behind a frame makes moves of the queue of its space. -/
theorem sentMoves_setFrameConn {space : PktSpace} {conn : FrameConn}
    (h : conn.sentQueue.Sublist (s.sentQueue space)) : SentMoves s (s.setFrameConn space conn) := by
  refine .of_move space ?_ fun other hother => ?_
  · have hqueue : (s.setFrameConn space conn).numQueue space =
        { s.numQueue space with entries := conn.sentQueue } := by
      simp only [numQueue, setFrameConn, Function.update_self]
    rw [hqueue]
    exact .single (.drop _ h)
  · simp only [numQueue, setFrameConn, Function.update_of_ne hother]

/-- Freeing a space empties its queue. -/
theorem sentMoves_quicCryptoFree (space : PktSpace) : SentMoves s (s.quicCryptoFree space) := by
  refine .of_move space ?_ fun other hother => ?_
  · have hqueue : (s.quicCryptoFree space).numQueue space =
        { s.numQueue space with entries := [] } := by
      simp only [numQueue, quicCryptoFree, Function.update_self]
    rw [hqueue]
    exact .single (.drop _ (List.nil_sublist _))
  · simp only [numQueue, quicCryptoFree, Function.update_of_ne hother]

/-- A frame makes moves of the queues. -/
theorem recvFrame_sentMoves {space : PktSpace} {type : ℕ} {frame : RPacket}
    (h : recvFrame mem s space type frame = some t) : SentMoves s t := by
  unfold recvFrame at h
  split at h
  · cases h
    exact .of_eq fun _ => rfl
  · rename_i parser hparser
    obtain ⟨u, hu, rfl⟩ := Option.map_eq_some_iff.mp h
    obtain ⟨rfl, -⟩ := Endpoint.returned_eq_some hu
    have hmoves : FrameMoves type frame (s.frameConn space)
        (parser ⟨frame, s.frameConn space, false, false⟩).2.conn :=
      frameParser_moving hparser ⟨frame, s.frameConn space, false, false⟩
    have hframe := @sentMoves_setFrameConn Ctx s space _ hmoves.sentQueue
    dsimp only
    split
    · exact hframe.trans (sentMoves_quicCryptoFree _)
    · exact hframe

/-- Every event makes moves of the queues. -/
theorem step_sentMoves {e : SendEvent Ctx} (h : step mem evp s e = some t) : SentMoves s t := by
  cases e with
  | add qb =>
    cases h
    exact .of_eq fun _ => rfl
  | write built blocked =>
    obtain ⟨rfl, -⟩ := Endpoint.returned_eq_some h
    exact (DatagramWrite.writeLoop_sentMoves built blocked s.txQueue
      { conn := s, pkt := wPacketStaticBufInit s.mss }).state
  | frame space type frame => exact recvFrame_sentMoves h
  | keys space encrypt =>
    cases h
    refine .of_eq fun other => ?_
    by_cases hother : other = space
    · subst hother
      simp only [numQueue, Function.update_self]
    · simp only [numQueue, Function.update_of_ne hother]
  | setHeader header mss =>
    cases h
    exact .of_eq fun _ => rfl

/-- A run makes moves of the queues. -/
theorem run_sentMoves {es : List (SendEvent Ctx)} (h : Trace.run (step mem evp) s es = some t) :
    SentMoves s t := by
  refine Trace.run_invariant (fun u => SentMoves s u) (fun u e v hu hv => ?_)
    (.of_eq fun _ => rfl) h
  exact hu.trans (step_sentMoves hv)

/-- In every run the sent queue of a space is ordered by number, and no number in it is above the
last one, as long as fewer packets of the space were numbered than there are numbers. -/
theorem sentOrdered_of_numbered_lt (es : List (SendEvent Ctx)) (hs : Unsent s)
    (hrun : Trace.run (step mem evp) s es = some t) (space : PktSpace)
    (hlt : t.numbered space < 2 ^ 64) : SentOrdered t space := by
  have hempty : s.numQueue space = .empty := by
    simp only [numQueue, hs.pktNum, hs.numbered, hs.sentQueue, NumQueue.empty]
  have hcounted := (@NumQueue.counted_empty QBuff QBuff.pktNum (2 ^ 64)).moves
    (hempty ▸ run_sentMoves hrun space)
  have hordered := hcounted.ordered hlt
  exact ⟨hordered.sorted, hordered.given⟩

end SendConn

/-- With a field of four bytes every number is encoded before any is acknowledged. -/
theorem quicPktNumberEncode_unacked (n : ℕ) :
    quicPktNumberEncode n 0 (4 * 8) = .ok (n % 2 ^ 32) := by
  have hmin := minBytes_le n 0
  have hassert : ¬ (0 ≠ 0 ∧ ¬ quicGe n (0 : ℕ)) := fun h => h.1 rfl
  have hbits : ¬ 4 * 8 < minBytes n 0 := by omega
  simp only [quicPktNumberEncode, quicPktNumberGetParam, if_pos (by decide : 4 * 8 ≤ 32), bind,
    Except.bind, if_neg hassert, if_neg hbits]
  exact congrArg Except.ok (Nat.and_two_pow_sub_one_eq_mod n 32)

/-- What a connection writes into short headers without a connection ID. -/
def pingHeader : HeaderSource where
  version := 1
  dcid := []
  scid := []
  token := []
  pktNumLen := Fin.last 3

/-- A packet of PING frames is built whatever the last number is. -/
theorem qBuffBuildPkt_ping (n : ℕ) :
    ∃ b, qBuffBuildPkt plainEvp pingHeader .oneRtt true
        { crypto := plainCrypto n 0, pkt := wPacketStaticBufInit 64, qb := pingQb, sealed := [] } =
      (.ok (), b) ∧ b.crypto = plainCrypto ((n + 1) % 2 ^ 64) 0 := by
  let s : PktBuild Unit :=
    { crypto := plainCrypto n 0, pkt := wPacketStaticBufInit 64, qb := pingQb, sealed := [] }
  have hheader : PktBuild.onPkt (quicSHeaderGen pingHeader pingHeader.numLen) s =
      (.ok (), s.setPkt (pingPkt 0x43)) := by
    refine Prog.zoom_of_ok ?_
    change quicSHeaderGen pingHeader pingHeader.numLen (wPacketStaticBufInit 64) = _
    rw [quicSHeaderGen, Prog.bind_of_ok
      (wPacketPutBytes_of_fits (wPacketStaticBufInit 64) _ 1 (by decide) (by decide) (by decide))]
    rfl
  have hfits : (n + 1) % 2 ^ 64 % 2 ^ 32 / 256 ^ 4 = 0 := by omega
  obtain ⟨_, b, hb, hcrypto, -⟩ := (quicPacketBuild_ping (by decide : 1 ≤ 4 ∧ 4 ≤ 4)
    (quicPktNumberEncode_unacked _) hfits [] 0x43).exists_ok
  have hrun : qBuffBuildPkt plainEvp pingHeader .oneRtt true s = (.ok (), b) := by
    rw [qBuffBuildPkt, quicSPacketBuild, Prog.get_bind, Prog.bind_of_ok hheader]
    exact hb
  exact ⟨b, hrun, hcrypto⟩

namespace SendConn

/-- A connection that sends PING frames and sent nothing yet. -/
def pingConn : SendConn Unit where
  crypto _ := plainCrypto 0 0
  sentQueue _ := []
  numbered _ := 0
  txQueue := []
  header := pingHeader
  mss := 64
  conn := openedConn

/-- A PING packet is queued and sent. -/
def pingRound : List (SendEvent Unit) := [.add pingQb, .write false none]

/-- A number of PING packets. -/
def pingRounds : ℕ → List (SendEvent Unit)
  | 0 => []
  | n + 1 => pingRounds n ++ pingRound

/-- The connection behind a number of PING packets. -/
structure Pinged (n : ℕ) (s : SendConn Unit) : Prop where
  /-- The keys, and the number of the last packet. -/
  crypto : s.crypto .application = plainCrypto (n % 2 ^ 64) 0
  /-- How many packets were numbered. -/
  numbered : s.numbered .application = n
  /-- All packets were sent. -/
  txQueue : s.txQueue = []
  /-- What is written into the headers. -/
  header : s.header = pingHeader
  /-- The size of a datagram. -/
  mss : s.mss = 64

variable (mem : ℕ → Bool) {n : ℕ} {s : SendConn Unit}

/-- One more PING packet is sent under the next number. -/
theorem Pinged.next (h : Pinged n s) :
    ∃ t, Trace.run (step mem plainEvp) s pingRound = some t ∧ Pinged (n + 1) t := by
  obtain ⟨b, hb, hcrypto⟩ := qBuffBuildPkt_ping (n % 2 ^ 64)
  rw [Nat.mod_add_mod] at hcrypto
  let r : SendConn Unit := { s with txQueue := [pingQb] }
  let t := (r.built .application b).move .application
  have hadd : step mem plainEvp s (.add pingQb) = some r := by
    simp only [step, h.txQueue, List.nil_append, r]
  have hsource : r.toBuild .application (wPacketStaticBufInit r.mss) pingQb =
      { crypto := plainCrypto (n % 2 ^ 64) 0, pkt := wPacketStaticBufInit 64, qb := pingQb,
        sealed := [] } := by
    rw [← h.crypto, ← h.mss]
    rfl
  have hbuild : DatagramWrite.qBuffBuildPkt plainEvp .oneRtt .application pingQb true
      { conn := r, pkt := wPacketStaticBufInit r.mss } =
        (.ok (), { conn := r.built .application b, pkt := b.pkt }) := by
    refine Prog.zoom_of_ok ?_
    change Tbquic.qBuffBuildPkt plainEvp s.header .oneRtt true
      (r.toBuild .application (wPacketStaticBufInit r.mss) pingQb) = _
    rw [hsource, h.header, hb]
  have hflow : DatagramWrite.onConn (flowCtrl false none pingQb)
      ({ conn := r, pkt := wPacketStaticBufInit r.mss } : DatagramWrite Unit) =
        (.ok (), { conn := r, pkt := wPacketStaticBufInit r.mss }) := by
    refine Prog.zoom_of_ok (t := r) ?_
    rfl
  have hmove : DatagramWrite.onConn (Prog.modify (move .application))
      ({ conn := r.built .application b, pkt := b.pkt } : DatagramWrite Unit) =
        (.ok (), { conn := t, pkt := b.pkt }) := rfl
  have hwrite : step mem plainEvp r (.write false none) = some t := by
    have hloop : DatagramWrite.writeLoop plainEvp false none r.txQueue
        { conn := r, pkt := wPacketStaticBufInit r.mss } =
          (.ok (), { conn := t, pkt := b.pkt }) := by
      change DatagramWrite.writeLoop plainEvp false none [pingQb] _ = _
      rw [DatagramWrite.writeLoop, DatagramWrite.isLast, Prog.pure_bind, Prog.bind_of_ok hflow]
      change (DatagramWrite.qBuffBuildPkt plainEvp .oneRtt .application pingQb true >>= _) _ = _
      rw [Prog.bind_of_ok hbuild, Prog.bind_of_ok hmove, if_pos (.inl rfl)]
      rfl
    change returned (quicWritePkt plainEvp false none r) = some t
    rw [quicWritePkt, hloop]
    rfl
  have hnumbered : t.numbered .application = n + 1 := by
    have hne : b.crypto.pktNum ≠ (s.crypto .application).pktNum := by
      rw [hcrypto, h.crypto]
      change (n + 1) % 2 ^ 64 ≠ n % 2 ^ 64
      omega
    simp only [t, r, move, built, Function.update_self, if_neg hne, h.numbered]
  refine ⟨t, ?_, ⟨?_, hnumbered, rfl, h.header, h.mss⟩⟩
  · exact Trace.run_cons_eq_some.mpr ⟨r, hadd, Trace.run_cons_eq_some.mpr ⟨t, hwrite, rfl⟩⟩
  · simp only [t, r, move, built, Function.update_self, hcrypto]

/-- No PING packet was sent yet. -/
theorem pingConn_pinged : Pinged 0 pingConn := ⟨rfl, rfl, rfl, rfl, rfl⟩

/-- Any number of PING packets is sent. -/
theorem pinged_pingRounds (n : ℕ) :
    ∃ s, Trace.run (step mem plainEvp) pingConn (pingRounds n) = some s ∧ Pinged n s := by
  induction n with
  | zero => exact ⟨pingConn, rfl, pingConn_pinged⟩
  | succ n ih =>
    obtain ⟨s, hrun, hs⟩ := ih
    obtain ⟨t, hround, ht⟩ := hs.next mem
    refine ⟨t, ?_, ht⟩
    rw [pingRounds, Trace.run_append, hrun]
    exact hround

/-- Nothing was sent on the connection. -/
theorem pingConn_unsent : Unsent pingConn := ⟨fun _ => rfl, fun _ => rfl, fun _ => rfl⟩

/-- A thousand packets are sent under the numbers from 1 on. -/
theorem sentOrdered_ping : ∃ t,
    Trace.run (step (fun _ => true) plainEvp) pingConn (pingRounds 1000) = some t ∧
      SentOrdered t .application := by
  obtain ⟨t, hrun, ht⟩ := pinged_pingRounds (fun _ => true) 1000
  have hlt : t.numbered .application < 2 ^ 64 := by
    rw [ht.numbered]
    decide
  exact ⟨t, hrun,
    sentOrdered_of_numbered_lt (pingRounds 1000) pingConn_unsent hrun .application hlt⟩

end SendConn

end Tbquic
