import Tbquic.VarInt

/-!
# The frame loop

`QuicFrameDoParser` reads the frames of a packet one after the other. It looks each type up in
a table of handlers, which are parameters here: the modules that use the loop fill them with
the handlers they model.
-/

namespace Tbquic

/-- `QUIC_FRAME_TYPE_PADDING`. -/
def quicFrameTypePadding : ℕ := 0x00

/-- `QUIC_FRAME_TYPE_ACK`. -/
def quicFrameTypeAck : ℕ := 0x02

/-- `QUIC_FRAME_TYPE_CRYPTO`. -/
def quicFrameTypeCrypto : ℕ := 0x06

/-- `QUIC_FRAME_TYPE_STREAM`. -/
def quicFrameTypeStream : ℕ := 0x08

/-- `QUIC_FRAME_TYPE_CONNECTION_CLOSE`. -/
def quicFrameTypeConnectionClose : ℕ := 0x1c

/-- `QUIC_FRAME_TYPE_HANDSHAKE_DONE`. -/
def quicFrameTypeHandshakeDone : ℕ := 0x1e

/-- `QUIC_FRAME_TYPE_MAX`. -/
def quicFrameTypeMax : ℕ := 0x1f

/-- `QUIC_FRAM_IS_ACK_ELICITING`. -/
def isAckEliciting (type : ℕ) : Bool :=
  type ≠ quicFrameTypePadding && type ≠ quicFrameTypeAck && type ≠ quicFrameTypeConnectionClose

/-- What `QuicFrameDoParser` calls, on a state that contains the packet. -/
structure FrameHandlers (σ : Type) where
  /-- The packet. -/
  pkt : σ → RPacket
  /-- Replace the packet. -/
  setPkt : RPacket → σ → σ
  /-- A packet replaced by itself changes nothing. -/
  setPkt_pkt (s : σ) : setPkt (pkt s) s = s
  /-- The parser of a frame type in `frame_handler`, or `NULL`. -/
  parser : ℕ → Option (Prog Fail σ Unit)
  /-- `QuicAckFrameBuild`, whose error code is ignored. -/
  ackFrameBuild : Prog Fail σ Unit
  /-- What follows a packet with a CRYPTO frame. -/
  cryptoFound : Prog Fail σ Unit

/-- What the loop finds out about the frames of a packet. -/
structure FrameFlags where
  /-- Whether a frame asks for an acknowledgement. -/
  ackEliciting : Bool
  /-- Whether there is a CRYPTO frame. -/
  cryptoFound : Bool
  deriving DecidableEq, Repr

/-- The flags after one more frame. -/
def FrameFlags.add (flags : FrameFlags) (type : ℕ) : FrameFlags where
  ackEliciting := flags.ackEliciting || isAckEliciting type
  cryptoFound := flags.cryptoFound || type = quicFrameTypeCrypto

section Loop

variable {σ : Type} (h : FrameHandlers σ)

/-- The loop of `QuicFrameDoParser`. It ends when no further type can be read. -/
def quicFrameLoop : ℕ → FrameFlags → Prog Fail σ FrameFlags
  | 0, _ => Prog.fail .fuel
  | fuel + 1, flags => do
    match ← Prog.attempt (Prog.zoom h.pkt h.setPkt quicVariableLengthDecode) with
    | .error .ret => pure flags
    | .error e => Prog.fail e
    | .ok type => do
      Prog.ensure .ret (type < quicFrameTypeMax)
      if type = quicFrameTypePadding then quicFrameLoop fuel flags
      else do
        let parser ← Prog.ofOption .ret (h.parser type)
        parser
        quicFrameLoop fuel (flags.add type)

/-- A round of the loop behind the type of a frame. -/
def quicFrameRound (fuel : ℕ) (flags : FrameFlags) (type : ℕ) : Prog Fail σ FrameFlags := do
  Prog.ensure .ret (type < quicFrameTypeMax)
  if type = quicFrameTypePadding then quicFrameLoop h fuel flags
  else do
    let parser ← Prog.ofOption .ret (h.parser type)
    parser
    quicFrameLoop h fuel (flags.add type)

/-- A round of the loop starts with a type. -/
theorem quicFrameLoop_of_type {fuel type : ℕ} {flags : FrameFlags} {s : σ} {pkt : RPacket}
    (hdecode : quicVariableLengthDecode (h.pkt s) = (.ok type, pkt)) :
    quicFrameLoop h (fuel + 1) flags s = quicFrameRound h fuel flags type (h.setPkt pkt s) := by
  rw [quicFrameLoop, Prog.attempt_bind, Prog.zoom_apply, hdecode]
  rfl

/-- The loop ends when no type can be read. -/
theorem quicFrameLoop_of_no_type {fuel : ℕ} {flags : FrameFlags} {s : σ} {pkt : RPacket}
    (hdecode : quicVariableLengthDecode (h.pkt s) = (.error .ret, pkt)) :
    quicFrameLoop h (fuel + 1) flags s = (.ok flags, h.setPkt pkt s) := by
  rw [quicFrameLoop, Prog.attempt_bind, Prog.zoom_apply, hdecode]
  rfl

/-- Go on after a routine whose error code is ignored. -/
def ignoreRet (m : Prog Fail σ Unit) : Prog Fail σ Unit := do
  match ← Prog.attempt m with
  | .error .ret => pure ()
  | .error e => Prog.fail e
  | .ok () => pure ()

/-- Acknowledge a packet with a frame that asks for it. -/
def acknowledge (flags : FrameFlags) : Prog Fail σ Unit :=
  if flags.ackEliciting then ignoreRet h.ackFrameBuild else pure ()

/-- Go on with the handshake after a packet with a CRYPTO frame. -/
def continueHandshake (flags : FrameFlags) : Prog Fail σ Unit :=
  if flags.cryptoFound then h.cryptoFound else pure ()

/-- `QuicFrameDoParser`. Every round of the loop reads a byte, so the bytes of the packet
bound the rounds. -/
def quicFrameDoParser : Prog Fail σ Unit := do
  let s ← Prog.get
  let flags ← quicFrameLoop h ((h.pkt s).remaining + 1) ⟨false, false⟩
  acknowledge h flags
  continueHandshake h flags

/-- Acknowledging changes nothing where nothing is written. -/
theorem acknowledge_of_pure (hack : h.ackFrameBuild = pure ()) (flags : FrameFlags) (s : σ) :
    acknowledge h flags s = (.ok (), s) := by
  rw [acknowledge, hack, ignoreRet]
  split
  · rw [Prog.attempt_bind]
    rfl
  · rfl

/-- The loop ends with the packet. -/
theorem quicFrameLoop_nil {fuel : ℕ} {flags : FrameFlags} {s : σ} (hs : (h.pkt s).rest = []) :
    quicFrameLoop h (fuel + 1) flags s = (.ok flags, s) := by
  have hpkt : h.pkt s = { past := (h.pkt s).past, rest := [] } := by rw [← hs]
  have hdecode : quicVariableLengthDecode (h.pkt s) = (.error .ret, h.pkt s) := by
    rw [quicVariableLengthDecode, hpkt, Prog.bind_of_error rPacketGet1_nil]
  rw [quicFrameLoop, Prog.attempt_bind, Prog.zoom_apply, hdecode]
  dsimp only
  rw [h.setPkt_pkt]
  rfl

/-- A round of the loop reads a type and runs its parser. -/
theorem quicFrameLoop_type {fuel type : ℕ} {flags : FrameFlags} {s : σ} {rest : List UInt8}
    {parser : Prog Fail σ Unit} (hs : (h.pkt s).rest = varLengthBytes type ++ rest)
    (hlen : (varLengthBytes type ++ rest).length < 2 ^ 31) (hmax : type < quicFrameTypeMax)
    (hpadding : type ≠ quicFrameTypePadding) (hparser : h.parser type = some parser) :
    quicFrameLoop h (fuel + 1) flags s =
      (parser >>= fun _ => quicFrameLoop h fuel (flags.add type))
        (h.setPkt { past := (h.pkt s).past ++ varLengthBytes type, rest } s) := by
  have hpkt : h.pkt s = { past := (h.pkt s).past, rest := varLengthBytes type ++ rest } := by
    rw [← hs]
  have htype : type < 2 ^ 62 := hmax.trans (by decide)
  have hdecode := quicVariableLengthDecode_append (h.pkt s).past htype hlen
  rw [← hpkt] at hdecode
  rw [quicFrameLoop, Prog.attempt_bind, Prog.zoom_apply, hdecode]
  dsimp only
  rw [Prog.ensure_of_pos hmax, Prog.pure_bind, if_neg hpadding, hparser, Prog.ofOption_some,
    Prog.pure_bind]

end Loop

end Tbquic
