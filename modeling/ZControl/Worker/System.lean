import ZControl.Common.Message
import ZControl.Lib.HandleSpace
import ZControl.Lib.Interaction
import Mathlib.Data.List.AList

/-!
# What a worker handler works on

The handlers are programs over `WorkerOp`: the system calls, the handler thread's `errno`, and
the sections that are atomic in the source, each access under `_fds_mx` among them. `World` is
what the operations act on, the members of the two handlers and the open files and directory
streams of the process; `World.step` says which answers the system may give and what follows.
-/

namespace ZControl

open Interaction

/-! ## System calls -/

/-- The fields of `struct stat` that are used. -/
structure Stat where
  stMode : UInt32
  stUid : UInt32
  stGid : UInt32
  stSize : Int64
  stAtimSec : Int64
  stMtimSec : Int64
  stCtimSec : Int64
  deriving DecidableEq, Repr

structure Statvfs where
  fBsize : UInt64
  fFrsize : UInt64
  fBlocks : UInt64
  fBfree : UInt64
  fBavail : UInt64
  fFiles : UInt64
  fFfree : UInt64
  fFavail : UInt64
  fFsid : UInt64
  fFlag : UInt64
  fNamemax : UInt64
  deriving DecidableEq, Repr

structure Timespec where
  tvSec : Int64
  tvNsec : Int64
  deriving DecidableEq, Repr

/-- The fields of `struct dirent` that are used; `dName` is the text before the NUL. -/
structure Dirent where
  dIno : UInt64
  dType : UInt8
  dName : Bytes
  deriving DecidableEq, Repr

/-- A `DIR *`; `none` is the null pointer. -/
abbrev DirPtr := Option Nat

inductive SysCall where
  | stat (path : Bytes)
  | access (path : Bytes) (mode : Int32)
  | rename (oldPath newPath : Bytes)
  | truncate (path : Bytes) (length : Int64)
  | unlink (path : Bytes)
  | chmod (path : Bytes) (mode : UInt32)
  | chown (path : Bytes) (owner group : UInt32)
  | utimensat (path : Bytes) (atime mtime : Timespec)
  | statvfs (path : Bytes)
  | open (path : Bytes) (flags : Int32) (mode : Int32)
  | close (fd : Int32)
  | read (fd : Int32) (count : UInt32)
  | pread64 (fd : Int32) (count : UInt32) (offset : Int64)
  | write (fd : Int32) (bytes : Bytes)
  | pwrite64 (fd : Int32) (bytes : Bytes) (offset : Int64)
  | opendir (path : Bytes)
  | closedir (dir : DirPtr)
  | readdir (dir : DirPtr)
  | mkdir (path : Bytes) (mode : UInt32)
  | rmdir (path : Bytes)
  deriving DecidableEq, Repr

namespace SysCall

/-- What a successful call returns. -/
@[reducible] def Val : SysCall → Type
  | .stat _         => Stat
  | .statvfs _      => Statvfs
  | .open _ _ _     => Int32
  | .read _ _       => Bytes
  | .pread64 _ _ _  => Bytes
  | .write _ _      => Int64
  | .pwrite64 _ _ _ => Int64
  | .opendir _      => Nat
  | .readdir _      => Option Dirent
  | _               => Unit

/-- The descriptor the call acts on. -/
def fd? : SysCall → Option Int32
  | .close fd        => some fd
  | .read fd _       => some fd
  | .pread64 fd _ _  => some fd
  | .write fd _      => some fd
  | .pwrite64 fd _ _ => some fd
  | _                => none

/-- The directory stream the call acts on. -/
def dir? : SysCall → Option DirPtr
  | .closedir dir => some dir
  | .readdir dir  => some dir
  | _             => none

end SysCall

/-! ## Operations -/

/-- The accesses to `_next_fd_id` and `_fds`, the latter each under `_fds_mx`. -/
inductive TableOp (H : Type) where
  | nextFdId                        -- `_next_fd_id++`
  | emplace (fdId : Int32) (fd : H)
  | getFd (fdId : Int32)            -- `_get_fd(fd_id)`
  | erase (fdId : Int32)
  deriving DecidableEq

@[reducible] def TableOp.Ans {H : Type} : TableOp H → Type
  | .nextFdId    => Int32
  | .emplace _ _ => Unit
  | .getFd _     => H
  | .erase _     => Unit

/-- The accesses to `_overridden_fds`. -/
inductive OverriddenOp where
  | emplace (fdId : Int32) (entries : List Dirent)
  | find (fdId : Int32)
  | erase (fdId : Int32)
  deriving DecidableEq

@[reducible] def OverriddenOp.Ans : OverriddenOp → Type
  | .emplace _ _ => Unit
  | .find _      => Option (List Dirent)
  | .erase _     => Unit

inductive WorkerOp where
  | sys (call : SysCall)
  | errno
  | setErrno (value : Int32)
  | uninitStatvfs                   -- what an uninitialised `struct statvfs` holds
  | file (op : TableOp Int32)       -- of the `FileCommandsHandler`
  | dir (op : TableOp DirPtr)       -- of the `DirCommandsHandler`
  | overridden (op : OverriddenOp)
  | setShouldStop
  deriving DecidableEq

/-- A system call fails with the value it leaves in `errno`. -/
@[reducible] def WorkerOp.Ans : WorkerOp → Type
  | .sys call       => Except Int32 call.Val
  | .errno          => Int32
  | .setErrno _     => Unit
  | .uninitStatvfs  => Statvfs
  | .file op        => op.Ans
  | .dir op         => op.Ans
  | .overridden op  => op.Ans
  | .setShouldStop  => Unit

abbrev WorkerProg (α : Type) := Prog WorkerOp WorkerOp.Ans Fault α

abbrev sys (call : SysCall) : WorkerProg (Except Int32 call.Val) := Prog.call (WorkerOp.sys call)

abbrev getErrno : WorkerProg Int32 := Prog.call WorkerOp.errno

abbrev setErrno (value : Int32) : WorkerProg Unit := Prog.call (WorkerOp.setErrno value)

abbrev uninitStatvfs : WorkerProg Statvfs := Prog.call WorkerOp.uninitStatvfs

abbrev fileOp (op : TableOp Int32) : WorkerProg op.Ans := Prog.call (WorkerOp.file op)

abbrev dirOp (op : TableOp DirPtr) : WorkerProg op.Ans := Prog.call (WorkerOp.dir op)

abbrev setShouldStop : WorkerProg Unit := Prog.call WorkerOp.setShouldStop

abbrev overriddenOp (op : OverriddenOp) : WorkerProg op.Ans := Prog.call (WorkerOp.overridden op)

/-! ## The state -/

/-- `_next_fd_id` and `_fds` of a handler. -/
structure Table (H : Type) where
  nextFdId : Int32
  fds : AList (fun _ : Int32 => H)

namespace Table

variable {H : Type} [DecidableEq H]

def empty : Table H := ⟨0, ∅⟩

/-- `emplace` keeps an entry that is there already. -/
def emplace (t : Table H) (fdId : Int32) (fd : H) : Table H :=
  match t.fds.lookup fdId with
  | some _ => t
  | none   => { t with fds := t.fds.insert fdId fd }

/-- `null` is what `_get_fd` returns for an id that is not in the table. -/
def getFd (t : Table H) (null : H) (fdId : Int32) : H := (t.fds.lookup fdId).getD null

def step (t : Table H) (null : H) : (op : TableOp H) → op.Ans → Option (Table H)
  | .nextFdId,        id => if id = t.nextFdId then some { t with nextFdId := id + 1 } else none
  | .emplace fdId fd, _  => some (t.emplace fdId fd)
  | .getFd fdId,      fd => if fd = t.getFd null fdId then some t else none
  | .erase fdId,      _  => some { t with fds := t.fds.erase fdId }

end Table

/-- The thread whose `errno` an operation sees. -/
abbrev ThreadId := Nat

structure World where
  file : Table Int32
  dir : Table DirPtr
  overriddenFds : AList (fun _ : Int32 => List Dirent)
  shouldStop : Bool
  errno : ThreadId → Int32
  files : HandleSpace Int32 (-1)
  dirs : HandleSpace DirPtr none

namespace World

def new : World where
  file := .empty
  dir := .empty
  overriddenFds := ∅
  shouldStop := false
  errno := fun _ => 0
  files := .empty
  dirs := .empty

def setErrno (w : World) (t : ThreadId) (value : Int32) : World :=
  { w with errno := Function.update w.errno t value }

/-- Whether the system may answer `call` so: a call on a handle that is not open fails, and an
opened handle is one that was not open. -/
def allows (w : World) : (call : SysCall) → Except Int32 call.Val → Bool
  | .open _ _ _,     .ok fd    => w.files.serial fd = none ∧ 0 ≤ fd
  | .opendir _,      .ok dir   => w.dirs.serial (some dir) = none
  | .close fd,       .ok _     => (w.files.serial fd).isSome
  | .read fd n,      .ok bytes => (w.files.serial fd).isSome ∧ bytes.length ≤ n.toNat
  | .pread64 fd n _, .ok bytes => (w.files.serial fd).isSome ∧ bytes.length ≤ n.toNat
  | .write fd _,     .ok _     => (w.files.serial fd).isSome
  | .pwrite64 fd _ _, .ok _    => (w.files.serial fd).isSome
  | .closedir dir,   .ok _     => (w.dirs.serial dir).isSome
  | .readdir dir,    .ok _     => (w.dirs.serial dir).isSome
  | _, _ => true

/-- The open files and streams after a call; `close` and `closedir` release an open handle
whatever they return. -/
def handlesAfter (w : World) : (call : SysCall) → Except Int32 call.Val → World
  | .open _ _ _, .ok fd =>
      if h : w.files.serial fd = none ∧ fd ≠ -1 then { w with files := w.files.acquire fd h } else w
  | .opendir _, .ok dir =>
      if h : w.dirs.serial (some dir) = none ∧ some dir ≠ none then
        { w with dirs := w.dirs.acquire (some dir) h }
      else w
  | .close fd,     _ => { w with files := w.files.release fd }
  | .closedir dir, _ => { w with dirs := w.dirs.release dir }
  | _, _ => w

def sysStep (w : World) (t : ThreadId) (call : SysCall) (r : Except Int32 call.Val) :
    Option World :=
  if w.allows call r then
    match r with
    | .ok _    => some (w.handlesAfter call r)
    | .error e => some ((w.handlesAfter call r).setErrno t e)
  else none

def overriddenStep (w : World) : (op : OverriddenOp) → op.Ans → Option World
  | .emplace fdId entries, _ =>
      match w.overriddenFds.lookup fdId with
      | some _ => some w
      | none   => some { w with overriddenFds := w.overriddenFds.insert fdId entries }
  | .find fdId, entries => if entries = w.overriddenFds.lookup fdId then some w else none
  | .erase fdId, _ => some { w with overriddenFds := w.overriddenFds.erase fdId }

/-- The world after thread `t` has performed an operation and got this answer. -/
def step (t : ThreadId) (w : World) : (op : WorkerOp) → op.Ans → Option World
  | .sys call,       r     => w.sysStep t call r
  | .errno,          value => if value = w.errno t then some w else none
  | .setErrno value, _     => some (w.setErrno t value)
  | .uninitStatvfs,  _     => some w
  | .file op,        a     => (w.file.step (-1) op a).map fun file => { w with file := file }
  | .dir op,         a     => (w.dir.step none op a).map fun dir => { w with dir := dir }
  | .overridden op,  a     => w.overriddenStep op a
  | .setShouldStop,  _     => some { w with shouldStop := true }

end World

end ZControl
