import ZControl.Basic

/-!
# Messages

The type byte of a message is a plain `uint8_t`; the two enumerations name some of its values,
one for each direction.
-/

namespace ZControl

structure Message where
  id : UInt32
  type : UInt8
  data : Bytes
  deriving DecidableEq, Repr

inductive CommanderMessageType where
  | disconnect
  | getAttr
  | access
  | rename
  | truncate
  | unlink
  | changeMode
  | changeOwner
  | setTimes
  | statFileSystem
  | open
  | close
  | read
  | pRead
  | write
  | pWrite
  | openDir
  | closeDir
  | readDir
  | makeDir
  | removeDir
  | getXAttr
  | setXAttr
  | listXAttr
  | removeXAttr
  deriving DecidableEq, Repr

/-- The enumerators are numbered from 0 in order. -/
def CommanderMessageType.toUint8 : CommanderMessageType → UInt8
  | .disconnect     => 0
  | .getAttr        => 1
  | .access         => 2
  | .rename         => 3
  | .truncate       => 4
  | .unlink         => 5
  | .changeMode     => 6
  | .changeOwner    => 7
  | .setTimes       => 8
  | .statFileSystem => 9
  | .open           => 10
  | .close          => 11
  | .read           => 12
  | .pRead          => 13
  | .write          => 14
  | .pWrite         => 15
  | .openDir        => 16
  | .closeDir       => 17
  | .readDir        => 18
  | .makeDir        => 19
  | .removeDir      => 20
  | .getXAttr       => 21
  | .setXAttr       => 22
  | .listXAttr      => 23
  | .removeXAttr    => 24

inductive WorkerMessageType where
  | commandResult
  | commandError
  | commandUnknown
  deriving DecidableEq, Repr

def WorkerMessageType.toUint8 : WorkerMessageType → UInt8
  | .commandResult  => 0
  | .commandError   => 1
  | .commandUnknown => 2

end ZControl
