import ZControl.Common.Codec
import ZControl.Worker.System

/-!
# `FileCommandsHandler`

One program for each member function that handles a command. All of them decode their whole
argument list first and serialize their reply last.
-/

namespace ZControl

open Interaction

/-- The arguments of a command: one `deserialize_*` call for each kind. -/
def arguments (message : Message) (kinds : List FieldKind) : WorkerProg (Values kinds) :=
  Prog.lift (BinaryDeserializer.deserialize message.data (readFields kinds))

/-- The reply to a command: one `serialize_*` call for each field. -/
def commandResult (message : Message) (fields : List Field) : WorkerProg Message :=
  Prog.lift do
    let serializer ← writeFields fields BinarySerializer.new
    return ⟨message.id, WorkerMessageType.commandResult.toUint8, serializer.data.1⟩

/-- What is sent, as long as it fits a message. -/
theorem commandResult_eq {fs : List Field} (message : Message)
    (hfs : (encodingOf fs).length < 2 ^ 32) :
    commandResult message fs =
      .pure ⟨message.id, WorkerMessageType.commandResult.toUint8, encodingOf fs⟩ := by
  rw [commandResult, writeFields_new hfs]
  rfl

/-- `serialize_uint8(value == 0 ? 1 : 0)`. -/
def successField {α : Type} : Except Int32 α → Field
  | .ok _    => .uint8 1
  | .error _ => .uint8 0

/-- The reply of the commands that only report success. -/
def statusReply {α : Type} (message : Message) (value : Except Int32 α) : WorkerProg Message := do
  let errno ← getErrno
  commandResult message [successField value, .int32 errno]

namespace FileCommandsHandler

/-- `_get_fd(fd_id)`: -1 for an id that is not in the table. -/
def getFd (fdId : Int32) : WorkerProg Int32 := fileOp (.getFd fdId)

/-- The fields of a successful `getattr`. -/
def statFields (info : Stat) : List Field :=
  [.uint32 info.stMode, .uint32 info.stUid, .uint32 info.stGid, .int64 info.stSize,
    .int64 info.stAtimSec, .int64 info.stMtimSec, .int64 info.stCtimSec]

def getattr (message : Message) : WorkerProg Message := do
  let (filePath, _) ← arguments message [.str]
  let statResult ← sys (.stat (cStr filePath))
  let errno ← getErrno
  match statResult with
  | .ok info => commandResult message (.uint8 1 :: .int32 errno :: statFields info)
  | .error _ => commandResult message [.uint8 0, .int32 errno]

def access (message : Message) : WorkerProg Message := do
  let (filePath, mode, _) ← arguments message [.str, .int32]
  let result ← sys (.access (cStr filePath) mode)
  statusReply message result

def renameNoreplace : UInt8 := 1

def renameExchange : UInt8 := 2

def EEXIST : Int32 := 17

def EINVAL : Int32 := 22

def rename (message : Message) : WorkerProg Message := do
  let (oldPath, newPath, flags, _) ← arguments message [.str, .str, .uint8]
  let exists? ←
    if flags &&& renameNoreplace ≠ 0 then do
      let statResult ← sys (.stat (cStr newPath))
      match statResult with
      | .ok _ => do
          setErrno EEXIST
          pure true
      | .error _ => pure false
    else pure false
  if flags &&& renameExchange ≠ 0 then
    setErrno EINVAL
    statusReply message (.error EINVAL : Except Int32 Unit)
  else if exists? then statusReply message (.error EEXIST : Except Int32 Unit)
  else
    let value ← sys (.rename (cStr oldPath) (cStr newPath))
    statusReply message value

def truncate (message : Message) : WorkerProg Message := do
  let (filePath, size, _) ← arguments message [.str, .int64]
  let value ← sys (.truncate (cStr filePath) size)
  statusReply message value

def unlink (message : Message) : WorkerProg Message := do
  let (filePath, _) ← arguments message [.str]
  let value ← sys (.unlink (cStr filePath))
  statusReply message value

def chmod (message : Message) : WorkerProg Message := do
  let (filePath, mode, _) ← arguments message [.str, .int32]
  let value ← sys (.chmod (cStr filePath) mode.toUInt32)
  statusReply message value

def chown (message : Message) : WorkerProg Message := do
  let (filePath, owner, group, _) ← arguments message [.str, .int32, .int32]
  let value ← sys (.chown (cStr filePath) owner.toUInt32 group.toUInt32)
  statusReply message value

def utimens (message : Message) : WorkerProg Message := do
  let (filePath, atime, mtime, _) ← arguments message [.str, .int64, .int64]
  let value ← sys (.utimensat (cStr filePath) ⟨atime, 0⟩ ⟨mtime, 0⟩)
  statusReply message value

/-- The fields of `statvfs`, each cut to 32 bits. -/
def statvfsFields (stbuf : Statvfs) : List Field :=
  [.uint32 stbuf.fBsize.toUInt32, .uint32 stbuf.fFrsize.toUInt32, .uint32 stbuf.fBlocks.toUInt32,
    .uint32 stbuf.fBfree.toUInt32, .uint32 stbuf.fBavail.toUInt32, .uint32 stbuf.fFiles.toUInt32,
    .uint32 stbuf.fFfree.toUInt32, .uint32 stbuf.fFavail.toUInt32, .uint32 stbuf.fFsid.toUInt32,
    .uint32 stbuf.fFlag.toUInt32, .uint32 stbuf.fNamemax.toUInt32]

def statvfs (message : Message) : WorkerProg Message := do
  let (filePath, _) ← arguments message [.str]
  let value ← sys (.statvfs (cStr filePath))
  -- a failing call leaves `stbuf` as it was, uninitialised
  let stbuf ←
    match value with
    | .ok stbuf => pure stbuf
    | .error _  => uninitStatvfs
  let errno ← getErrno
  commandResult message (successField value :: .int32 errno :: statvfsFields stbuf)

def «open» (message : Message) : WorkerProg Message := do
  let (filePath, flags, mode, _) ← arguments message [.str, .int32, .int32]
  let fd ← sys (.open (cStr filePath) flags mode)
  let fdId ←
    match fd with
    | .ok fd => do
        let fdId ← fileOp .nextFdId
        fileOp (.emplace fdId fd)
        pure fdId
    | .error _ => pure (-1)
  let errno ← getErrno
  commandResult message [.int32 fdId, .int32 errno]

def close (message : Message) : WorkerProg Message := do
  let (fdId, _) ← arguments message [.int32]
  let fd ← getFd fdId
  let value ← sys (.close fd)
  fileOp (.erase fdId)
  statusReply message value

/-- `const int32_t value = ::read(...)`: the count the system returned, cut to 32 bits. -/
def readValue : Except Int32 Bytes → Int32
  | .ok bytes => Int32.ofNat bytes.length
  | .error _  => -1

/-- The buffer of `size` zero bytes after the call, and after the `resize` when the call did not
fail. -/
def readBuffer (size : UInt32) (result : Except Int32 Bytes) : Bytes :=
  let buffer :=
    match result with
    | .ok bytes => bytes ++ List.replicate (size.toNat - bytes.length) 0
    | .error _  => List.replicate size.toNat 0
  let value := readValue result
  if value ≥ 0 then BinarySerializer.resize buffer value.toInt.toNat else buffer

/-- The reply of `read` and `pread`. -/
def readReply (message : Message) (size : UInt32) (result : Except Int32 Bytes) :
    WorkerProg Message := do
  let errno ← getErrno
  commandResult message
    [.int32 (readValue result), .int32 errno, .byteVector (readBuffer size result)]

def read (message : Message) : WorkerProg Message := do
  let (fdId, size, _) ← arguments message [.int32, .uint32]
  let fd ← getFd fdId
  let result ← sys (.read fd size)
  readReply message size result

def pread (message : Message) : WorkerProg Message := do
  let (fdId, size, offset, _) ← arguments message [.int32, .uint32, .int64]
  let fd ← getFd fdId
  let result ← sys (.pread64 fd size offset)
  readReply message size result

/-- `const int32_t value = ::write(...)`. -/
def writeValue : Except Int32 Int64 → Int32
  | .ok count => count.toInt32
  | .error _  => -1

/-- The reply of `write` and `pwrite`. -/
def writeReply (message : Message) (result : Except Int32 Int64) : WorkerProg Message := do
  let errno ← getErrno
  commandResult message [.int32 (writeValue result), .int32 errno]

def write (message : Message) : WorkerProg Message := do
  let (fdId, bytes, _) ← arguments message [.int32, .byteVector]
  let fd ← getFd fdId
  let result ← sys (.write fd bytes)
  writeReply message result

def pwrite (message : Message) : WorkerProg Message := do
  let (fdId, offset, bytes, _) ← arguments message [.int32, .int64, .byteVector]
  let fd ← getFd fdId
  let result ← sys (.pwrite64 fd bytes offset)
  writeReply message result

/-- The destructor closes what is left in the table. -/
def destroy : List (Int32 × Int32) → WorkerProg Unit
  | []           => pure ()
  | (_, fd) :: fds => do
      let _ ← sys (.close fd)
      destroy fds

end FileCommandsHandler
end ZControl
