import ZControl.Worker.FileCommandsHandler

/-!
# `DirCommandsHandler`

The directories of the table `DirsToOverride` are listed from the table and never opened; which
table it is depends on the platform the worker is built for.
-/

namespace ZControl

open Interaction

abbrev DirsToOverride := List (Bytes × List Dirent)

namespace DirCommandsHandler

def DT_DIR : UInt8 := 4

/-- The table of an Android build. -/
def androidDirsToOverride : DirsToOverride :=
  [(ascii "/", [⟨0, DT_DIR, ascii "sdcard"⟩, ⟨0, DT_DIR, ascii "storage"⟩]),
    (ascii "/storage", [⟨0, DT_DIR, ascii "emulated"⟩]),
    (ascii "/storage/emulated", [⟨0, DT_DIR, ascii "0"⟩])]

/-- `_get_fd(fd_id)`: null for an id that is not in the table. -/
def getFd (fdId : Int32) : WorkerProg DirPtr := dirOp (.getFd fdId)

def opendir (dirsToOverride : DirsToOverride) (message : Message) : WorkerProg Message := do
  let (dirPath, _) ← arguments message [.str]
  match dirsToOverride.lookup dirPath with
  | some entries => do
      let fdId ← dirOp .nextFdId
      overriddenOp (.emplace fdId entries)
      commandResult message [.int32 fdId, .int32 0]
  | none => do
      let fd ← sys (.opendir (cStr dirPath))
      let fdId ←
        match fd with
        | .ok fd => do
            let fdId ← dirOp .nextFdId
            dirOp (.emplace fdId (some fd))
            pure fdId
        | .error _ => pure (-1)
      let errno ← getErrno
      commandResult message [.int32 fdId, .int32 errno]

def closedir (message : Message) : WorkerProg Message := do
  let (fdId, _) ← arguments message [.int32]
  let overridden ← overriddenOp (.find fdId)
  match overridden with
  | some _ => do
      overriddenOp (.erase fdId)
      commandResult message [.uint8 1, .int32 0]
  | none => do
      let fd ← getFd fdId
      let value ← sys (.closedir fd)
      dirOp (.erase fdId)
      statusReply message value

def EBADF : Int32 := 9

/-- What the loop writes for one entry. -/
def direntFields (dir : Dirent) (s : BinarySerializer) : Except Fault BinarySerializer := do
  let s ← s.serializeUint32 dir.dIno.toUInt32
  let s ← s.serializeUint8 dir.dType
  s.serializeCStr (some (dir.dName ++ [0]))

/-- The loop over `::readdir`, for at most `n` entries. -/
def readdirLoop (fd : DirPtr) : Nat → BinarySerializer → WorkerProg BinarySerializer
  | 0,     serializer => pure serializer
  | n + 1, serializer => do
      setErrno 0
      let dir ← sys (.readdir fd)
      match dir with
      | .ok (some dir) => do
          let serializer ← Prog.lift (direntFields dir serializer)
          readdirLoop fd n serializer
      | _ => pure serializer

/-- The same loop over an overridden directory, which has no position: it starts at the first
entry every time. -/
def overriddenLoop : List Dirent → Nat → BinarySerializer → Except Fault BinarySerializer
  | dir :: entries, n + 1, serializer => do
      let serializer ← direntFields dir serializer
      overriddenLoop entries n serializer
  | _, _, serializer => .ok serializer

/-- The reply of `readdir`: what the loop wrote, then an error number. -/
def readdirReply (message : Message) (serializer : BinarySerializer) (errno : Int32) :
    WorkerProg Message :=
  Prog.lift do
    let serializer ← serializer.serializeInt32 errno
    return ⟨message.id, WorkerMessageType.commandResult.toUint8, serializer.data.1⟩

def readdir (message : Message) : WorkerProg Message := do
  let (fdId, entries, _) ← arguments message [.int32, .uint32]
  let overridden ← overriddenOp (.find fdId)
  match overridden with
  | some dirents => do
      let serializer ← Prog.lift (overriddenLoop dirents entries.toNat BinarySerializer.new)
      readdirReply message serializer 0
  | none => do
      let fd ← getFd fdId
      match fd with
      | none   => readdirReply message BinarySerializer.new EBADF
      | some _ => do
          let serializer ← readdirLoop fd entries.toNat BinarySerializer.new
          let errno ← getErrno
          readdirReply message serializer errno

def mkdir (message : Message) : WorkerProg Message := do
  let (dirPath, mode, _) ← arguments message [.str, .int32]
  let value ← sys (.mkdir (cStr dirPath) mode.toUInt32)
  statusReply message value

def rmdir (message : Message) : WorkerProg Message := do
  let (dirPath, _) ← arguments message [.str]
  let value ← sys (.rmdir (cStr dirPath))
  statusReply message value

/-- The destructor closes what is left in `_fds`. -/
def destroy : List (Int32 × DirPtr) → WorkerProg Unit
  | []           => pure ()
  | (_, fd) :: fds => do
      let _ ← sys (.closedir fd)
      destroy fds

end DirCommandsHandler

/-- The error number goes behind what the loop wrote. -/
theorem readdirReply_append (message : Message) {s : BinarySerializer} (hs : s.Synced)
    (hfits : s.serialized.length + 4 < 2 ^ 32) (errno : Int32) :
    DirCommandsHandler.readdirReply message s errno =
      .pure ⟨message.id, WorkerMessageType.commandResult.toUint8,
        s.serialized ++ encodeInt32 errno⟩ := by
  have hwrite : s.serializeInt32 errno = .ok (s.append (Field.int32 errno).encoded) :=
    Field.write_append (.int32 errno) hs (by rw [length_encoded_int32]; exact hfits)
  rw [DirCommandsHandler.readdirReply, hwrite]
  rfl

end ZControl
