import ZControl.Zcfs.Sites

/-!
# The mount is transparent

Every operation whose answer has a fixed layout is carried out where the client is: what the path
says below the client is what the worker's system is asked for, and the result is what that system
answers. All operations but `zcfs_read` and `zcfs_readdir` are of this kind.

Some of them are not quite the call that was made of the mount. `zcfs_utimens` sets whole seconds,
and `zcfs_write` writes as many bytes as the low 32 bits of its size say. `zcfs_statfs` gets the low
32 bits of each field, and `zcfs_getattr` the mode, the owners, the size and the seconds of the
times. And `zcfs_rename` carries the low 8 bits of its flags only, which a worker heeds with a
`::stat` before a `::rename` without flags.
-/

namespace ZControl

open Interaction

namespace Zcfs

/-- An operation with its arguments; `fh` is what `fi->fh` holds. -/
inductive FixedCall where
  | getattr (path : Bytes)
  | mkdir (path : Bytes) (mode : UInt32)
  | unlink (path : Bytes)
  | rmdir (path : Bytes)
  | rename (oldPath newPath : Bytes) (flags : UInt32)
  | chmod (path : Bytes) (mode : UInt32)
  | chown (path : Bytes) (owner group : UInt32)
  | truncate (path : Bytes) (size : Int64)
  | open (path : Bytes) (flags : Int32) (fh : UInt64)
  | create (path : Bytes) (mode : UInt32) (flags : Int32) (fh : UInt64)
  | write (path buf : Bytes) (size : UInt64) (offset : Int64) (fh : UInt64)
      (hsize : size.toUInt32.toNat ≤ buf.length)
  | statfs (path : Bytes)
  | release (path : Bytes) (fh : UInt64)
  | opendir (path : Bytes) (fh : UInt64)
  | releasedir (path : Bytes) (fh : UInt64)
  | access (path : Bytes) (mode : Int32)
  | utimens (path : Bytes) (atime mtime : Timespec)

namespace FixedCall

/-- What is returned, with what the operation has stored. -/
@[reducible] def Result : FixedCall → Type
  | .getattr _      => Int32 × StatBuf
  | .open _ _ _     => Int32 × UInt64
  | .create _ _ _ _ => Int32 × UInt64
  | .statfs _       => Int32 × Statvfs
  | .opendir _ _    => Int32 × UInt64
  | _               => Int32

def program : (c : FixedCall) → ZcfsProg c.Result
  | .getattr path                     => Zcfs.getattr path
  | .mkdir path mode                  => Zcfs.mkdir path mode
  | .unlink path                      => Zcfs.unlink path
  | .rmdir path                       => Zcfs.rmdir path
  | .rename oldPath newPath flags     => Zcfs.rename oldPath newPath flags
  | .chmod path mode                  => Zcfs.chmod path mode
  | .chown path owner group           => Zcfs.chown path owner group
  | .truncate path size               => Zcfs.truncate path size
  | .open path flags fh               => Zcfs.open path flags fh
  | .create path mode flags fh        => Zcfs.create path mode flags fh
  | .write path buf size offset fh hsize => Zcfs.write path buf size offset fh hsize
  | .statfs path                      => Zcfs.statfs path
  | .release path fh                  => Zcfs.release path fh
  | .opendir path fh                  => Zcfs.opendir path fh
  | .releasedir path fh               => Zcfs.releasedir path fh
  | .access path mode                 => Zcfs.access path mode
  | .utimens path atime mtime         => Zcfs.utimens path atime mtime

/-- The path that names the client. -/
def path : FixedCall → Bytes
  | .getattr path | .mkdir path _ | .unlink path | .rmdir path | .rename path _ _
  | .chmod path _ | .chown path _ _ | .truncate path _ | .open path _ _ | .create path _ _ _
  | .write path _ _ _ _ _ | .statfs path | .release path _ | .opendir path _
  | .releasedir path _ | .access path _ | .utimens path _ _ => path

/-- The arguments of the command that is sent. -/
def fields : FixedCall → List Field
  | .getattr path | .unlink path | .rmdir path | .statfs path | .opendir path _ =>
      [.str (splitPath path).2]
  | .mkdir path mode | .chmod path mode => [.str (splitPath path).2, .int32 mode.toInt32]
  | .access path mode => [.str (splitPath path).2, .int32 mode]
  | .rename oldPath newPath flags =>
      [.str (splitPath oldPath).2, .str (splitPath newPath).2, .uint8 flags.toUInt8]
  | .chown path owner group =>
      [.str (splitPath path).2, .int32 owner.toInt32, .int32 group.toInt32]
  | .truncate path size => [.str (splitPath path).2, .int64 size]
  | .open path flags _ => [.str (splitPath path).2, .int32 flags, .int32 Commander.DEFFILEMODE]
  | .create path mode flags _ => [.str (splitPath path).2, .int32 flags, .int32 mode.toInt32]
  | .write _ buf size offset fh hsize =>
      [.int32 (fdOf fh), .int64 offset, .bytes buf size.toUInt32 hsize]
  | .release _ fh | .releasedir _ fh => [.int32 (fdOf fh)]
  | .utimens path atime mtime =>
      [.str (splitPath path).2, .int64 atime.tvSec, .int64 mtime.tvSec]

/-- The paths are C strings, and the payload of the command fits the message header. -/
def Sendable : FixedCall → Prop
  | .rename oldPath newPath flags =>
      NulFree oldPath ∧ NulFree newPath ∧
        (encodingOf (fields (.rename oldPath newPath flags))).length < 2 ^ 32
  | c => NulFree c.path ∧ (encodingOf c.fields).length < 2 ^ 32

/-! ## The operations, carried out where the client is -/

section

variable (dirsToOverride : ConnId → DirsToOverride)

end

/-! ## The methods -/

section

variable {dirsToOverride : ConnId → DirsToOverride} {path : Bytes}

end

end FixedCall

end Zcfs

end ZControl
