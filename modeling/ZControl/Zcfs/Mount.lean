import ZControl.Commander.DirEntries
import ZControl.Commander.Server
import ZControl.Rpc

/-!
# The mounted file system

The FUSE operations of `zcfs` on open files and directories. Each looks the worker up by the first
component of the path, every time anew, and calls a method of its `Commander` with the number in
`fi->fh`. They are programs over the registry of the server, the operations of a `Commander`, and
the `filler` callback.
-/

namespace ZControl

open Interaction

/-- The fields of `struct stat` that are set for `filler`; the others are zero. -/
structure FillStat where
  stMode : UInt32
  stNlink : UInt32
  deriving DecidableEq, Repr

inductive ZcfsOp where
  | getCommander (client : Bytes)              -- `server->get_commander(client)`
  | getClients                                 -- `server->get_clients()`
  | commander (conn : ConnId) (op : CommanderOp)
  | filler (name : Bytes) (st : FillStat)

@[reducible] def ZcfsOp.Ans : ZcfsOp → Type
  | .getCommander _ => Option ConnId
  | .getClients     => List Bytes
  | .commander _ op => op.Ans
  | .filler _ _     => Bool

abbrev ZcfsProg (α : Type) := Prog ZcfsOp ZcfsOp.Ans Fault α

namespace Zcfs

def ENOENT : Int32 := 2

def EIO : Int32 := 5

def EISDIR : Int32 := 21

/-- `VirtualRootDirFd`, as it is kept in `fi->fh`. -/
def VirtualRootDirFd : UInt64 := 0xFFFFFFFFFFFFFFFF

def MaxDirsReadPerCall : UInt32 := 2048

def slash : UInt8 := 47

/-- `split_path(path)`, for a path that begins with a slash. -/
def splitPath (path : Bytes) : Bytes × Bytes :=
  let name := path.tail
  let rest := name.dropWhile (· ≠ slash)
  if rest = [] ∨ rest = [slash] then (name, [slash])
  else (name.takeWhile (· ≠ slash), rest)

/-- `fi->fh = result`: the sign is extended. -/
def fhOf (result : Int32) : UInt64 := result.toInt64.toUInt64

/-- `fi->fh`, passed for a parameter `int32_t fd`. -/
def fdOf (fh : UInt64) : Int32 := fh.toUInt32.toInt32

/-- A method of the `Commander` at `conn`. -/
def onCommander {α : Type} (conn : ConnId) (p : CommanderProg α) : ZcfsProg α :=
  p.translate fun op => Prog.call (.commander conn op)

/-- The handlers around every operation: an exception is logged and returned as `-EIO`. -/
def onError {α : Type} (result : α) : Fault → ZcfsProg α
  | .exception _ _  => pure result
  | .undefined what => .throw (.undefined what)

/-- Look the worker up; `missing` is returned where there is none. -/
def withCommander {α : Type} (path : Bytes) (missing : α)
    (body : ConnId → Bytes → ZcfsProg α) : ZcfsProg α := do
  let (client, remotePath) := splitPath path
  let commander ← Prog.call (ZcfsOp.getCommander client)
  match commander with
  | none      => pure missing
  | some conn => body conn remotePath

/-! ## Files -/

/-- `zcfs_open` and `zcfs_create` differ in the mode they pass. The result is what is returned
and what `fi->fh` holds then. -/
def openWith (path : Bytes) (flags mode : Int32) (fh : UInt64) : ZcfsProg (Int32 × UInt64) :=
  Prog.tryCatch
    (if path = [slash] then pure (-EISDIR, fh)
    else withCommander path (-ENOENT, fh) fun conn remotePath => do
      let (result, workerErrno) ← onCommander conn (Commander.open remotePath flags mode)
      if result = -1 then pure (-workerErrno, fh)
      else pure (0, fhOf result))
    (onError (- EIO, fh))

def «open» (path : Bytes) (flags : Int32) (fh : UInt64) : ZcfsProg (Int32 × UInt64) :=
  openWith path flags Commander.DEFFILEMODE fh

def create (path : Bytes) (mode : UInt32) (flags : Int32) (fh : UInt64) :
    ZcfsProg (Int32 × UInt64) :=
  openWith path flags mode.toInt32 fh

/-- The result is what is returned and the buffer. -/
def read (path : Bytes) (buf : Bytes) (size : UInt64) (offset : Int64) (fh : UInt64) :
    ZcfsProg (Int32 × Bytes) :=
  Prog.tryCatch
    (withCommander path (- EIO, buf) fun conn _ => do
      let ((result, workerErrno), buf) ←
        onCommander conn (Commander.pread (fdOf fh) buf size.toUInt32 offset)
      if result = -1 then pure (-workerErrno, buf)
      else pure (result, buf))
    (onError (- EIO, buf))

def write (path : Bytes) (buf : Bytes) (size : UInt64) (offset : Int64) (fh : UInt64)
    (hsize : size.toUInt32.toNat ≤ buf.length) : ZcfsProg Int32 :=
  Prog.tryCatch
    (withCommander path (- EIO) fun conn _ => do
      let (result, workerErrno) ←
        onCommander conn (Commander.pwrite (fdOf fh) buf size.toUInt32 offset hsize)
      if result = -1 then pure (-workerErrno)
      else pure result)
    (onError (- EIO))

def release (path : Bytes) (fh : UInt64) : ZcfsProg Int32 :=
  Prog.tryCatch
    (withCommander path (-ENOENT) fun conn _ => do
      let (result, workerErrno) ← onCommander conn (Commander.close (fdOf fh))
      if result then pure 0
      else pure (-workerErrno))
    (onError (- EIO))

/-! ## Directories -/

def opendir (path : Bytes) (fh : UInt64) : ZcfsProg (Int32 × UInt64) :=
  Prog.tryCatch
    (if path = [slash] then pure (0, VirtualRootDirFd)
    else withCommander path (-ENOENT, fh) fun conn remotePath => do
      let (result, workerErrno) ← onCommander conn (Commander.opendir remotePath)
      if result = -1 then pure (-workerErrno, fh)
      else pure (0, fhOf result))
    (onError (- EIO, fh))

/-- `S_IFDIR | 0755`. -/
def dirMode : UInt32 := 0o40755

/-- The loop over the clients; what `filler` returns is not looked at. -/
def fillClients : List Bytes → ZcfsProg Unit
  | []      => pure ()
  | c :: cs => do
      let _ ← Prog.call (ZcfsOp.filler (cStr c) ⟨dirMode, 2⟩)
      fillClients cs

/-- The loop over the entries of one answer, left when the buffer is full. -/
def fillEntries : List DirEntry → ZcfsProg Unit
  | []      => pure ()
  | e :: es => do
      let full ← Prog.call (ZcfsOp.filler (cStr e.name) ⟨e.type.toUInt32 <<< 12, 0⟩)
      if full then pure () else fillEntries es

/-- The loop over the requests, for at most `n` turns; `none` if it has not ended by then. -/
def readdirLoop (conn : ConnId) (fh : UInt64) : Nat → ZcfsProg (Option Int32)
  | 0     => pure none
  | n + 1 => do
      let (dirs, workerErrno) ←
        onCommander conn (Commander.readdir (fdOf fh) MaxDirsReadPerCall)
      if workerErrno ≠ 0 then pure (some (-workerErrno))
      else
        fillEntries dirs
        if dirs.length = MaxDirsReadPerCall.toNat then readdirLoop conn fh n
        else pure (some 0)

def readdir (n : Nat) (path : Bytes) (fh : UInt64) : ZcfsProg (Option Int32) :=
  Prog.tryCatch
    (if fh = VirtualRootDirFd then do
      let _ ← Prog.call (ZcfsOp.filler (ascii ".") ⟨dirMode, 2⟩)
      let _ ← Prog.call (ZcfsOp.filler (ascii "..") ⟨dirMode, 2⟩)
      let clients ← Prog.call ZcfsOp.getClients
      fillClients clients
      pure (some 0)
    else withCommander path (some (- EIO)) fun conn _ => readdirLoop conn fh n)
    (onError (some (- EIO)))

def releasedir (path : Bytes) (fh : UInt64) : ZcfsProg Int32 :=
  Prog.tryCatch
    (if fh = VirtualRootDirFd then pure 0
    else withCommander path (-ENOENT) fun conn _ => do
      let (result, workerErrno) ← onCommander conn (Commander.closedir (fdOf fh))
      if result then pure 0
      else pure (-workerErrno))
    (onError (- EIO))

/-! ## Handles -/

theorem fdOf_fhOf (fd : Int32) : fdOf (fhOf fd) = fd := by
  apply Int32.toBitVec_inj.mp
  show (fd.toBitVec.signExtend 64).setWidth 32 = fd.toBitVec
  rw [← BitVec.signExtend_eq_setWidth_of_le _ (by decide)]
  exact congrArg Int32.toBitVec (Int32.toInt32_toInt64 fd)

/-- The number of an open directory is not that of the root. -/
theorem fhOf_ne {fd : Int32} (hfd : fd ≠ -1) : fhOf fd ≠ VirtualRootDirFd := by
  intro h
  have hback := congrArg fdOf h
  rw [fdOf_fhOf] at hback
  exact hfd (hback.trans (by decide))

end Zcfs

end ZControl
