import Tbquic.Common
import Tbquic.Lib.Bytes

/-!
# The buffer of the handshake

`QUIC_BUFFER` holds the bytes of the peer's handshake messages and those that the endpoint
writes itself. Messages are received behind the first `reserved` bytes, and the bytes before
`offset` were read by earlier calls.
-/

namespace Tbquic

/-- `TLS_MESSAGE_MAX_LEN`. -/
def tlsMessageMaxLen : ℕ := 16384

/-- `LIMIT_BEFORE_EXPANSION` of the buffers of the crypto library. -/
def bufMemLimit : ℕ := 0x5ffffffc

/-- `QUIC_BUFFER`. -/
structure QuicBuffer where
  /-- The bytes of the memory. -/
  mem : List UInt8
  /-- The number of bytes read of the messages received. -/
  offset : ℕ
  /-- The number of bytes in front of the messages received. -/
  reserved : ℕ
  /-- The number of bytes of the messages received or written. -/
  dataLen : ℕ
  deriving DecidableEq, Repr

/-- `QuicBufInit`. -/
def quicBufInit (len : ℕ) : QuicBuffer where
  mem := List.replicate len 0
  offset := 0
  reserved := 0
  dataLen := 0

namespace QuicBuffer

/-- `QuicBufLength`. -/
def length (b : QuicBuffer) : ℕ := b.mem.length

/-- `QuicBufMemGrow`: a longer memory is filled with zeros if `BUF_MEM_grow` finds one. A length
above the limit of the library is refused, and a shorter one cuts the memory. -/
def memGrow (b : QuicBuffer) (grown : Bool) (len : ℕ) : Option QuicBuffer :=
  if len ≤ b.length then some { b with mem := b.mem.take len }
  else if grown = false ∨ bufMemLimit < len then none
  else some { b with mem := b.mem ++ List.replicate (len - b.length) 0 }

/-- `QuicBufData`, as all bytes from there on. -/
def data (b : QuicBuffer) : List UInt8 := b.mem.drop b.reserved

/-- `QuicBufMsg`, as all bytes from there on. -/
def msg (b : QuicBuffer) : List UInt8 := b.data.drop b.offset

/-- `QuicBufAddOffset`. -/
def addOffset (b : QuicBuffer) (offset : ℕ) : Option QuicBuffer :=
  if quicLt b.length ((b.offset + offset : ℕ) : ℤ) then none
  else some { b with offset := b.offset + offset }

/-- `QuicBufResetOffset`. -/
def resetOffset (b : QuicBuffer) : QuicBuffer := { b with offset := 0 }

/-- `QuicBufSetDataLength`. -/
def setDataLength (b : QuicBuffer) (len : ℕ) : QuicBuffer := { b with dataLen := len }

/-- `QuicBufReserve`. -/
def reserve (b : QuicBuffer) : QuicBuffer := { b with reserved := b.dataLen, dataLen := 0 }

/-- `QuicBufClear`. -/
def clear (b : QuicBuffer) : QuicBuffer := { b with reserved := 0, dataLen := 0 }

/-- A copy of bytes to an offset of `QuicBufData`. -/
def store (b : QuicBuffer) (offset : ℕ) (bytes : List UInt8) : QuicBuffer :=
  { b with mem := Bytes.overwrite b.mem (b.reserved + offset) bytes }

/-- Bytes written to the start of the memory, which grows when they need more. -/
def writeHead (b : QuicBuffer) (bytes : List UInt8) : QuicBuffer :=
  { b with mem := bytes ++ b.mem.drop bytes.length }

end QuicBuffer

end Tbquic
