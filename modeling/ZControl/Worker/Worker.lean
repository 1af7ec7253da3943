import ZControl.Worker.DirCommandsHandler

/-!
# `Worker::_do_command`

The `switch` over the message type, with its `default`, inside the `try` that turns an exception
into a `CommandError`.
-/

namespace ZControl

open Interaction

/-- The enumerator with this value. -/
def CommanderMessageType.ofUint8 (type : UInt8) : Option CommanderMessageType :=
  [.disconnect, .getAttr, .access, .rename, .truncate, .unlink, .changeMode, .changeOwner,
    .setTimes, .statFileSystem, .open, .close, .read, .pRead, .write, .pWrite, .openDir,
    .closeDir, .readDir, .makeDir, .removeDir, .getXAttr, .setXAttr, .listXAttr,
    .removeXAttr].find? fun t => t.toUint8 = type

namespace Worker

def disconnect (message : Message) : WorkerProg Message := do
  setShouldStop
  pure ⟨message.id, WorkerMessageType.commandResult.toUint8, []⟩

/-- The `switch`. -/
def dispatch (dirsToOverride : DirsToOverride) (commanderMsg : Message) : WorkerProg Message :=
  match CommanderMessageType.ofUint8 commanderMsg.type with
  | some .disconnect     => disconnect commanderMsg
  | some .getAttr        => FileCommandsHandler.getattr commanderMsg
  | some .access         => FileCommandsHandler.access commanderMsg
  | some .rename         => FileCommandsHandler.rename commanderMsg
  | some .truncate       => FileCommandsHandler.truncate commanderMsg
  | some .unlink         => FileCommandsHandler.unlink commanderMsg
  | some .changeMode     => FileCommandsHandler.chmod commanderMsg
  | some .changeOwner    => FileCommandsHandler.chown commanderMsg
  | some .setTimes       => FileCommandsHandler.utimens commanderMsg
  | some .statFileSystem => FileCommandsHandler.statvfs commanderMsg
  | some .open           => FileCommandsHandler.open commanderMsg
  | some .close          => FileCommandsHandler.close commanderMsg
  | some .read           => FileCommandsHandler.read commanderMsg
  | some .pRead          => FileCommandsHandler.pread commanderMsg
  | some .write          => FileCommandsHandler.write commanderMsg
  | some .pWrite         => FileCommandsHandler.pwrite commanderMsg
  | some .openDir        => DirCommandsHandler.opendir dirsToOverride commanderMsg
  | some .closeDir       => DirCommandsHandler.closedir commanderMsg
  | some .readDir        => DirCommandsHandler.readdir commanderMsg
  | some .makeDir        => DirCommandsHandler.mkdir commanderMsg
  | some .removeDir      => DirCommandsHandler.rmdir commanderMsg
  | _ => pure ⟨commanderMsg.id, WorkerMessageType.commandUnknown.toUint8, []⟩

/-- The `catch` clauses. Every exception class of the program derives from `std::exception`, so
the clause for others is never taken; undefined behaviour is not caught. -/
def onException (commanderMsg : Message) : Fault → WorkerProg Message
  | .exception _ what =>
      Prog.lift do
        let serializer ← BinarySerializer.new.serializeCStr (some (what ++ [0]))
        return ⟨commanderMsg.id, WorkerMessageType.commandError.toUint8, serializer.data.1⟩
  | .undefined what => .throw (.undefined what)

def doCommand (dirsToOverride : DirsToOverride) (commanderMsg : Message) : WorkerProg Message :=
  (dispatch dirsToOverride commanderMsg).tryCatch (onException commanderMsg)

end Worker
end ZControl
