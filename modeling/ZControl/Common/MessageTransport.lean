import ZControl.Common.Codec
import ZControl.Common.Message
import ZControl.Lib.Transition

/-!
# `TcpSocket` and `MessageTransport`

The kernel's part in a transfer is an oracle: what the `n`-th `poll` reports, how many bytes the
`n`-th `recv` hands over, how many bytes a `send` accepts. Everything else is the source's: the
frame layout, the loop of `_read_exactly`, the single call in `send`.
-/

namespace ZControl

/-- The library goes on after `what` with a colon and the text of the error number, which is left
out: no result depends on it. -/
def systemError (what : String) : Fault := .exception .systemError (ascii what)

def transportClosed : Fault := .exception .transportClosed (ascii "Transport Closed")

/-! ## Receiving -/

/-- What `::poll` on the socket and the cancellation pipe returns with. -/
inductive PollResult where
  | failed
  | pipeReadable
  | socketReadable
  deriving DecidableEq, Repr

/-- The receiving side of a socket: the bytes that arrive before end-of-file, and what the
kernel does at the `calls`-th turn of a read loop. `recv n = none` is a failing `::recv`; `some k`
offers up to `k` bytes. -/
structure Incoming where
  bytes : Bytes
  poll : Nat → PollResult
  recv : Nat → Option Nat
  calls : Nat

/-- A computation on the receiving side. The position in the stream survives an exception. -/
abbrev Receive (α : Type) := ExceptT Fault (StateM Incoming) α

namespace TcpSocket

/-- `poll(cancellation_pipe)`: false if the pipe has become readable. -/
def poll : Receive Bool := do
  let s ← get
  match s.poll s.calls with
  | .failed         => throw (systemError "Failed to poll")
  | .pipeReadable   => return false
  | .socketReadable => return true

/-- `recv(bytes, size)`: at least one byte unless the stream has ended, never more than `size`. -/
def recv (size : Nat) : Receive Bytes := do
  let s ← get
  match s.recv s.calls with
  | none   => throw (systemError "Failed to recv")
  | some k =>
      let piece := s.bytes.take (max 1 (min k size))
      set { s with bytes := s.bytes.drop (max 1 (min k size)), calls := s.calls + 1 }
      return piece

/-- `send(bytes)`: one `::send`. `accepted = none` is a failing call; `some n` puts the first `n`
bytes on the stream. The count is compared with -1 only. -/
def send (stream : Bytes) (bytes : Bytes) (accepted : Option Nat) : Except Fault Bytes :=
  match accepted with
  | none   => .error (systemError "Failed to send")
  | some n => .ok (stream ++ bytes.take n)

end TcpSocket

namespace MessageTransport

/-- The loop of `_read_exactly`; `buffer` holds the `total_bytes_read` bytes so far. -/
def readLoop (count : Nat) (buffer : Bytes) : Receive Bytes :=
  if _hlt : buffer.length < count then do
    if !(← TcpSocket.poll) then
      throw (.exception .cancellation (ascii "Poll was cancelled"))
    let piece ← TcpSocket.recv (count - buffer.length)
    if _hpiece : piece.length = 0 then
      throw transportClosed
    else
      readLoop count (buffer ++ piece)
  else return buffer
termination_by count - buffer.length
decreasing_by rw [List.length_append]; omega

def readExactly (count : Nat) : Receive Bytes := readLoop count []

/-- The three header fields of a frame. -/
def readHeader : BinaryDeserializer.Read (UInt32 × UInt8 × UInt32) := do
  let id ← BinaryDeserializer.deserializeUint32
  let type ← BinaryDeserializer.deserializeUint8
  let dataSize ← BinaryDeserializer.deserializeUint32
  return (id, type, dataSize)

def read : Receive Message := do
  let headerBuffer ← readExactly 9
  let (id, type, dataSize) ←
    (BinaryDeserializer.deserialize headerBuffer readHeader : Except Fault _)
  let msgBuffer ← readExactly dataSize.toNat
  let data ← (BinaryDeserializer.deserialize msgBuffer
    (BinaryDeserializer.deserializeByteVectorOf dataSize) : Except Fault _)
  return ⟨id, type, data⟩

/-! ## Sending -/

/-- The bytes `write` hands to `send`. -/
def frame (message : Message) : Except Fault Bytes := do
  let s ← BinarySerializer.new.serializeUint32 message.id
  let s ← s.serializeUint8 message.type
  let s ← s.serializeByteVector message.data
  return s.data.1

/-- `write(message)`, for what the one `::send` accepts. -/
def write (stream : Bytes) (message : Message) (accepted : Option Nat) : Except Fault Bytes := do
  let bytes ← frame message
  TcpSocket.send stream bytes accepted

end MessageTransport
end ZControl
