import ZControl.Common.Codec
import ZControl.Common.Message
import ZControl.Worker.System

/-!
# The command methods of `Commander`

Each serializes its arguments, takes the next id, sends the command and deserializes the answer.
The two operations are the counter and `_send_command`; a reference parameter the method writes
to is an argument and part of the result.
-/

namespace ZControl

open Interaction BinaryDeserializer

inductive CommanderOp where
  | nextCommandId                   -- `_next_command_id++`
  | sendCommand (commanderMsg : Message)
  deriving DecidableEq

@[reducible] def CommanderOp.Ans : CommanderOp → Type
  | .nextCommandId => UInt32
  | .sendCommand _ => Except Fault Message

abbrev CommanderProg (α : Type) := Prog CommanderOp CommanderOp.Ans Fault α

namespace Commander

/-- The part the methods share: serialize, number, send. -/
def request (type : CommanderMessageType) (fields : List Field) : CommanderProg Message := do
  let serializer ← Prog.lift (writeFields fields BinarySerializer.new)
  let id ← Prog.call CommanderOp.nextCommandId
  let workerMsg ← Prog.call (CommanderOp.sendCommand ⟨id, type.toUint8, serializer.data.1⟩)
  Prog.lift workerMsg

/-- Deserialize the answer. -/
def response {α : Type} (workerMsg : Message) (read : Read α) : CommanderProg α :=
  Prog.lift (deserialize workerMsg.data read)

/-- The commands whose answer is a success flag and an error number. -/
def statusCommand (type : CommanderMessageType) (fields : List Field) :
    CommanderProg (Bool × Int32) := do
  let workerMsg ← request type fields
  let (value, workerErrno, _) ← response workerMsg (readFields [.uint8, .int32])
  pure (value != 0, workerErrno)

/-- The commands whose answer is a value and an error number. -/
def valueCommand (type : CommanderMessageType) (fields : List Field) :
    CommanderProg (Int32 × Int32) := do
  let workerMsg ← request type fields
  let (value, workerErrno, _) ← response workerMsg (readFields [.int32, .int32])
  pure (value, workerErrno)

def readStat : Read Stat := do
  let (mode, uid, gid, size, atime, mtime, ctime, _) ←
    readFields [.uint32, .uint32, .uint32, .int64, .int64, .int64, .int64]
  pure ⟨mode, uid, gid, size, atime, mtime, ctime⟩

def getattr (filePath : Bytes) (fileInfo : Stat) : CommanderProg ((Bool × Int32) × Stat) := do
  let workerMsg ← request .getAttr [.str filePath]
  response workerMsg do
    let (value, workerErrno, _) ← readFields [.uint8, .int32]
    if value ≠ 0 then
      let info ← readStat
      pure ((true, workerErrno), info)
    else pure ((false, workerErrno), fileInfo)

def access (filePath : Bytes) (mode : Int32) : CommanderProg (Bool × Int32) :=
  statusCommand .access [.str filePath, .int32 mode]

def rename (oldPath newPath : Bytes) (flags : UInt8) : CommanderProg (Bool × Int32) :=
  statusCommand .rename [.str oldPath, .str newPath, .uint8 flags]

def truncate (filePath : Bytes) (size : Int64) : CommanderProg (Bool × Int32) :=
  statusCommand .truncate [.str filePath, .int64 size]

def unlink (filePath : Bytes) : CommanderProg (Bool × Int32) :=
  statusCommand .unlink [.str filePath]

def chmod (filePath : Bytes) (mode : Int32) : CommanderProg (Bool × Int32) :=
  statusCommand .changeMode [.str filePath, .int32 mode]

def chown (filePath : Bytes) (owner group : Int32) : CommanderProg (Bool × Int32) :=
  statusCommand .changeOwner [.str filePath, .int32 owner, .int32 group]

/-- Of the two times the seconds are sent. -/
def utimens (filePath : Bytes) (atime mtime : Timespec) : CommanderProg (Bool × Int32) :=
  statusCommand .setTimes [.str filePath, .int64 atime.tvSec, .int64 mtime.tvSec]

/-- The structure is assigned whatever the success flag is. -/
def statvfs (filePath : Bytes) : CommanderProg ((Bool × Int32) × Statvfs) := do
  let workerMsg ← request .statFileSystem [.str filePath]
  let (value, workerErrno, bsize, frsize, blocks, bfree, bavail, files, ffree, favail, fsid, flag,
      namemax, _) ← response workerMsg (readFields [.uint8, .int32, .uint32, .uint32, .uint32,
        .uint32, .uint32, .uint32, .uint32, .uint32, .uint32, .uint32, .uint32])
  pure ((value != 0, workerErrno), ⟨bsize.toUInt64, frsize.toUInt64, blocks.toUInt64,
    bfree.toUInt64, bavail.toUInt64, files.toUInt64, ffree.toUInt64, favail.toUInt64,
    fsid.toUInt64, flag.toUInt64, namemax.toUInt64⟩)

def «open» (filePath : Bytes) (flags mode : Int32) : CommanderProg (Int32 × Int32) :=
  valueCommand .open [.str filePath, .int32 flags, .int32 mode]

/-- `DEFFILEMODE`, the default for the mode of `open`. -/
def DEFFILEMODE : Int32 := 0o666

def close (fd : Int32) : CommanderProg (Bool × Int32) := statusCommand .close [.int32 fd]

/-- `::memcpy`; copying past the end of either buffer is undefined. -/
def memcpy (dest src : Bytes) (n : Nat) : Except Fault Bytes :=
  if n ≤ src.length ∧ n ≤ dest.length then .ok (src.take n ++ dest.drop n)
  else .error (.undefined "memcpy past the end")

/-- What `read` and `pread` do with the answer; `what` is the text of their exception. -/
def readAnswer (workerMsg : Message) (bytes : Bytes) (size : UInt32) (what : Bytes) :
    CommanderProg ((Int32 × Int32) × Bytes) :=
  response workerMsg do
    let (value, workerErrno, _) ← readFields [.int32, .int32]
    if value > 0 then
      let bytesVector ← deserializeByteVector
      if bytesVector.length > size.toNat then
        throw (.exception .runtimeError what)
      let bytes ← (memcpy bytes bytesVector value.toInt.toNat : Except Fault Bytes)
      pure ((value, workerErrno), bytes)
    else pure ((value, workerErrno), bytes)

def read (fd : Int32) (bytes : Bytes) (size : UInt32) :
    CommanderProg ((Int32 × Int32) × Bytes) := do
  let workerMsg ← request .read [.int32 fd, .uint32 size]
  readAnswer workerMsg bytes size (ascii "read returned more bytes than requested")

def pread (fd : Int32) (bytes : Bytes) (size : UInt32) (offset : Int64) :
    CommanderProg ((Int32 × Int32) × Bytes) := do
  let workerMsg ← request .pRead [.int32 fd, .uint32 size, .int64 offset]
  readAnswer workerMsg bytes size (ascii "pread returned more bytes than requested")

/-- `bytes` is the caller's buffer, at least `size` long. -/
def write (fd : Int32) (bytes : Bytes) (size : UInt32) (hsize : size.toNat ≤ bytes.length) :
    CommanderProg (Int32 × Int32) :=
  valueCommand .write [.int32 fd, .bytes bytes size hsize]

def pwrite (fd : Int32) (bytes : Bytes) (size : UInt32) (offset : Int64)
    (hsize : size.toNat ≤ bytes.length) : CommanderProg (Int32 × Int32) :=
  valueCommand .pWrite [.int32 fd, .int64 offset, .bytes bytes size hsize]

def opendir (dirPath : Bytes) : CommanderProg (Int32 × Int32) :=
  valueCommand .openDir [.str dirPath]

def closedir (fd : Int32) : CommanderProg (Bool × Int32) := statusCommand .closeDir [.int32 fd]

def mkdir (dirPath : Bytes) (mode : Int32) : CommanderProg (Bool × Int32) :=
  statusCommand .makeDir [.str dirPath, .int32 mode]

def rmdir (dirPath : Bytes) : CommanderProg (Bool × Int32) :=
  statusCommand .removeDir [.str dirPath]

end Commander
end ZControl
