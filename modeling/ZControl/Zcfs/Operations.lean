import ZControl.Zcfs.Paths

/-!
# The operations on paths

The remaining FUSE operations of `zcfs`. Most of them return 0 or a negative error number and
differ only in the method of the `Commander` they call; `zcfs_getattr` and `zcfs_statfs` fill a
structure as well, and answer for the root themselves.
-/

namespace ZControl

open Interaction

namespace Zcfs

/-- What an operation returns for a success flag and an error number. -/
def returnOf (result : Bool × Int32) : Int32 := if result.1 then 0 else -result.2

/-- An operation that calls a method on the remote path and returns what became of it. -/
def statusOf (path : Bytes) (method : Bytes → CommanderProg (Bool × Int32)) : ZcfsProg Int32 :=
  Prog.tryCatch
    (withCommander path (-ENOENT) fun conn remotePath => do
      let result ← onCommander conn (method remotePath)
      pure (returnOf result))
    (onError (- EIO))

def mkdir (path : Bytes) (mode : UInt32) : ZcfsProg Int32 :=
  statusOf path fun remotePath => Commander.mkdir remotePath mode.toInt32

def unlink (path : Bytes) : ZcfsProg Int32 := statusOf path Commander.unlink

def rmdir (path : Bytes) : ZcfsProg Int32 := statusOf path Commander.rmdir

def chmod (path : Bytes) (mode : UInt32) : ZcfsProg Int32 :=
  statusOf path fun remotePath => Commander.chmod remotePath mode.toInt32

def chown (path : Bytes) (owner group : UInt32) : ZcfsProg Int32 :=
  statusOf path fun remotePath => Commander.chown remotePath owner.toInt32 group.toInt32

def truncate (path : Bytes) (size : Int64) : ZcfsProg Int32 :=
  statusOf path fun remotePath => Commander.truncate remotePath size

def utimens (path : Bytes) (atime mtime : Timespec) : ZcfsProg Int32 :=
  statusOf path fun remotePath => Commander.utimens remotePath atime mtime

/-- The root may always be accessed. -/
def access (path : Bytes) (mode : Int32) : ZcfsProg Int32 :=
  if path = [slash] then pure 0
  else statusOf path fun remotePath => Commander.access remotePath mode

/-! ## Attributes -/

/-- The `struct stat` that `zcfs_getattr` fills. The number of links is set for the root only; the
fields that are left out stay zero. -/
structure StatBuf where
  stat : Stat
  stNlink : UInt64
  deriving DecidableEq, Repr

/-- `memset`. -/
def StatBuf.zero : StatBuf := ⟨⟨0, 0, 0, 0, 0, 0, 0⟩, 0⟩

def StatBuf.root : StatBuf := ⟨{ StatBuf.zero.stat with stMode := dirMode }, 2⟩

/-- The result is what is returned and what `stbuf` holds then; after an exception nothing looks at
it. -/
def getattr (path : Bytes) : ZcfsProg (Int32 × StatBuf) :=
  Prog.tryCatch
    (if path = [slash] then pure (0, StatBuf.root)
    else withCommander path (-ENOENT, StatBuf.zero) fun conn remotePath => do
      let (result, stat) ← onCommander conn (Commander.getattr remotePath StatBuf.zero.stat)
      pure (returnOf result, { StatBuf.zero with stat := stat }))
    (onError (- EIO, StatBuf.zero))

/-! ## The file system -/

/-- `ST_NOATIME | ST_NODIRATIME | ST_NOSUID`. -/
def mountFlags : UInt64 := 1024 ||| 2048 ||| 2

def zeroStatvfs : Statvfs := ⟨0, 0, 0, 0, 0, 0, 0, 0, 0, 0, 0⟩

def statfs (path : Bytes) : ZcfsProg (Int32 × Statvfs) :=
  Prog.tryCatch
    (if path = [slash] then pure (0, { zeroStatvfs with fFlag := mountFlags })
    else withCommander path (-ENOENT, zeroStatvfs) fun conn remotePath => do
      let ((result, workerErrno), stbuf) ← onCommander conn (Commander.statvfs remotePath)
      if result then pure (0, { stbuf with fFlag := stbuf.fFlag ||| mountFlags })
      else pure (-workerErrno, stbuf))
    (onError (- EIO, zeroStatvfs))

end Zcfs

end ZControl
