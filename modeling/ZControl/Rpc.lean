import ZControl.Commander.Commands
import ZControl.Commander.Machine
import ZControl.Worker.Worker

/-!
# Remote calls

A command method of the `Commander`, its operations carried out by the worker's `_do_command`, is
the same program as the call made locally: the same system calls with the same arguments in the
same order, and the same result for every answer they may get.
-/

namespace ZControl

open Interaction BinaryDeserializer

/-- Carry out the operations of a command method: `id` is the command's number, the worker
handles the message, and its answer is turned into a value or an exception. -/
def remote (dirsToOverride : DirsToOverride) (id : UInt32) :
    (op : CommanderOp) → WorkerProg op.Ans
  | .nextCommandId => .pure id
  | .sendCommand commanderMsg => do
      let workerMsg ← Worker.doCommand dirsToOverride commanderMsg
      pure (Commander.responseOf workerMsg)

/-- The method, run on a worker. -/
def Remote {α : Type} (dirsToOverride : DirsToOverride) (id : UInt32) (p : CommanderProg α) :
    WorkerProg α :=
  p.translate (remote dirsToOverride id)

/-! ## The calls, made locally

What each handler computes: the system calls it makes, the accesses to its table, and the success
flag or id with the error number it replies with. -/

namespace Local

/-- A system call of which only the success is reported. -/
def status (call : SysCall) : WorkerProg (Bool × Int32) := do
  let value ← sys call
  let errno ← getErrno
  pure (value.isOk, errno)

def getattr (filePath : Bytes) (fileInfo : Stat) : WorkerProg ((Bool × Int32) × Stat) := do
  let statResult ← sys (.stat filePath)
  let errno ← getErrno
  match statResult with
  | .ok info => pure ((true, errno), info)
  | .error _ => pure ((false, errno), fileInfo)

def failure : WorkerProg (Bool × Int32) := do
  let errno ← getErrno
  pure (false, errno)

def rename (oldPath newPath : Bytes) (flags : UInt8) : WorkerProg (Bool × Int32) := do
  let exists? ←
    if flags &&& FileCommandsHandler.renameNoreplace ≠ 0 then do
      let statResult ← sys (.stat newPath)
      match statResult with
      | .ok _ => do
          setErrno FileCommandsHandler.EEXIST
          pure true
      | .error _ => pure false
    else pure false
  if flags &&& FileCommandsHandler.renameExchange ≠ 0 then
    setErrno FileCommandsHandler.EINVAL
    failure
  else if exists? then failure
  else status (.rename oldPath newPath)

/-- Enter a successful open into the table. -/
def enter {H : Type} (op : (o : TableOp H) → WorkerProg o.Ans) (fd : H) : WorkerProg Int32 := do
  let fdId ← op .nextFdId
  op (.emplace fdId fd)
  pure fdId

def «open» (filePath : Bytes) (flags mode : Int32) : WorkerProg (Int32 × Int32) := do
  let fd ← sys (.open filePath flags mode)
  let fdId ←
    match fd with
    | .ok fd   => enter fileOp fd
    | .error _ => pure (-1)
  let errno ← getErrno
  pure (fdId, errno)

def close (fdId : Int32) : WorkerProg (Bool × Int32) := do
  let fd ← fileOp (.getFd fdId)
  let value ← sys (.close fd)
  fileOp (.erase fdId)
  let errno ← getErrno
  pure (value.isOk, errno)

def opendir (dirsToOverride : DirsToOverride) (dirPath : Bytes) :
    WorkerProg (Int32 × Int32) :=
  match dirsToOverride.lookup dirPath with
  | some entries => do
      let fdId ← dirOp .nextFdId
      overriddenOp (.emplace fdId entries)
      pure (fdId, 0)
  | none => do
      let fd ← sys (.opendir dirPath)
      let fdId ←
        match fd with
        | .ok fd   => enter dirOp (some fd)
        | .error _ => pure (-1)
      let errno ← getErrno
      pure (fdId, errno)

def closedir (fdId : Int32) : WorkerProg (Bool × Int32) := do
  let overridden ← overriddenOp (.find fdId)
  match overridden with
  | some _ => do
      overriddenOp (.erase fdId)
      pure (true, 0)
  | none => do
      let fd ← dirOp (.getFd fdId)
      let value ← sys (.closedir fd)
      dirOp (.erase fdId)
      let errno ← getErrno
      pure (value.isOk, errno)

end Local

/-! ## The two ends of a message -/

/-- Reading back a sequence of fields and going on from there. -/
theorem readFields_bind (fs : List Field) (tail : Bytes) {d : BinaryDeserializer} (hd : d.Ok)
    (hrest : d.rest = encodingOf fs ++ tail) :
    ∃ d', d'.rest = tail ∧ d'.Ok ∧ ∀ {β : Type} (f : Values (fs.map Field.kind) → Read β),
      (readFields (fs.map Field.kind) >>= f) d = f (valuesOf fs) d' := by
  obtain ⟨d', hread, hrest', hd'⟩ := readFields_append fs tail hd hrest
  refine ⟨d', hrest', hd', fun f => ?_⟩
  show (readFields (fs.map Field.kind) d).bind _ = _
  rw [hread]
  rfl

/-- A command's arguments arrive as they were sent. -/
theorem arguments_bind {β : Type} {fs : List Field} {id : UInt32} {type : UInt8}
    {f : Values (fs.map Field.kind) → WorkerProg β} (hfs : (encodingOf fs).length < 2 ^ 32) :
    arguments ⟨id, type, encodingOf fs⟩ (fs.map Field.kind) >>= f = f (valuesOf fs) := by
  simp [arguments, deserialize_encodingOf fs hfs]

/-- What a command sends. -/
theorem request_eq {type : CommanderMessageType} {fields : List Field}
    (hfields : (encodingOf fields).length < 2 ^ 32) :
    Commander.request type fields =
      .perform .nextCommandId fun id =>
        .perform (.sendCommand ⟨id, type.toUint8, encodingOf fields⟩) Prog.lift := by
  rw [Commander.request, writeFields_new hfields]
  rfl

/-- A command which the worker answers with the data `data x`, `x` computed by `p`: the method goes
on with that answer. -/
theorem remote_handled {χ α : Type} {dirsToOverride : DirsToOverride} {id : UInt32}
    {type : CommanderMessageType} {fields : List Field} {p : WorkerProg χ} {data : χ → Bytes}
    (hfields : (encodingOf fields).length < 2 ^ 32)
    (hanswer : Worker.doCommand dirsToOverride ⟨id, type.toUint8, encodingOf fields⟩ =
      p >>= fun x => .pure ⟨id, WorkerMessageType.commandResult.toUint8, data x⟩)
    (f : Message → CommanderProg α) :
    Remote dirsToOverride id (Commander.request type fields >>= f) =
      p >>= fun x =>
        Remote dirsToOverride id (f ⟨id, WorkerMessageType.commandResult.toUint8, data x⟩) := by
  have hresponse : ∀ x, Commander.responseOf
      ⟨id, WorkerMessageType.commandResult.toUint8, data x⟩ =
        .ok ⟨id, WorkerMessageType.commandResult.toUint8, data x⟩ := fun _ => rfl
  simp [Remote, request_eq hfields, remote, hanswer, Prog.bind_assoc, hresponse]

/-- A command whose handler computes `x` by `p` and replies with `reply x`. -/
theorem doCommand_handled {χ : Type} {dirsToOverride : DirsToOverride} {message : Message}
    {p : WorkerProg χ} {reply : χ → List Field} (hp : p.NoThrow)
    (hdispatch : Worker.dispatch dirsToOverride message =
      p >>= fun x => commandResult message (reply x))
    (hreply : ∀ x, (encodingOf (reply x)).length < 2 ^ 32) :
    Worker.doCommand dirsToOverride message =
      p >>= fun x => .pure
        ⟨message.id, WorkerMessageType.commandResult.toUint8, encodingOf (reply x)⟩ := by
  rw [Worker.doCommand, hdispatch, hp.tryCatch_bind]
  simp only [commandResult_eq _ (hreply _), Prog.tryCatch_pure]

/-- If the reply is read back as `out x`, that is what the method returns. -/
theorem remote_request {χ α : Type} {dirsToOverride : DirsToOverride} {id : UInt32}
    {type : CommanderMessageType} {fields : List Field} {read : Read α} (p : WorkerProg χ)
    (reply : χ → List Field) (out : χ → α) (hfields : (encodingOf fields).length < 2 ^ 32)
    (hp : p.NoThrow)
    (hdispatch : Worker.dispatch dirsToOverride ⟨id, type.toUint8, encodingOf fields⟩ =
      p >>= fun x => commandResult ⟨id, type.toUint8, encodingOf fields⟩ (reply x))
    (hreply : ∀ x, (encodingOf (reply x)).length < 2 ^ 32)
    (hread : ∀ x, deserialize (encodingOf (reply x)) read = .ok (out x)) :
    Remote dirsToOverride id
        (Commander.request type fields >>= fun m => Commander.response m read) =
      p >>= fun x => .pure (out x) := by
  rw [remote_handled hfields (doCommand_handled hp hdispatch hreply)]
  simp [Remote, Commander.response, hread]

/-- Reading the two fields of a status reply. -/
theorem deserialize_status (value : Bool) (errno : Int32) :
    deserialize (encodingOf [.uint8 (if value then 1 else 0), .int32 errno])
      (readFields [.uint8, .int32]) = .ok (if value then 1 else 0, errno, ()) :=
  deserialize_encodingOf _ (by simp)

theorem deserialize_value (value errno : Int32) :
    deserialize (encodingOf [.int32 value, .int32 errno]) (readFields [.int32, .int32]) =
      .ok (value, errno, ()) :=
  deserialize_encodingOf _ (by simp)

section

variable {dirsToOverride : DirsToOverride} {id : UInt32} {type : CommanderMessageType}
  {fields : List Field}

/-- A command of which the handler computes a success flag and an error number. -/
theorem remote_statusCommand {p : WorkerProg (Bool × Int32)}
    (hfields : (encodingOf fields).length < 2 ^ 32) (hp : p.NoThrow)
    (hdispatch : Worker.dispatch dirsToOverride ⟨id, type.toUint8, encodingOf fields⟩ =
      p >>= fun x => commandResult ⟨id, type.toUint8, encodingOf fields⟩
        [.uint8 (if x.1 then 1 else 0), .int32 x.2]) :
    Remote dirsToOverride id (Commander.statusCommand type fields) = p := by
  have hrequest : Remote dirsToOverride id (Commander.request type fields >>= fun m =>
      Commander.response m (readFields [.uint8, .int32])) = _ :=
    remote_request p _ (fun x => (if x.1 then 1 else 0, x.2, ())) hfields hp hdispatch
      (fun x => by simp)
      (fun x => deserialize_status x.1 x.2)
  have hvalue : ∀ value : Bool, ((if value then 1 else 0 : UInt8) != 0) = value := by decide
  rw [Commander.statusCommand, ← Prog.bind_assoc, Remote, Prog.translate_bind]
  rw [Remote] at hrequest
  rw [hrequest, Prog.bind_assoc]
  simp [hvalue]

/-- A command of which the handler computes a value and an error number. -/
theorem remote_valueCommand {p : WorkerProg (Int32 × Int32)}
    (hfields : (encodingOf fields).length < 2 ^ 32) (hp : p.NoThrow)
    (hdispatch : Worker.dispatch dirsToOverride ⟨id, type.toUint8, encodingOf fields⟩ =
      p >>= fun x => commandResult ⟨id, type.toUint8, encodingOf fields⟩
        [.int32 x.1, .int32 x.2]) :
    Remote dirsToOverride id (Commander.valueCommand type fields) = p := by
  have hrequest : Remote dirsToOverride id (Commander.request type fields >>= fun m =>
      Commander.response m (readFields [.int32, .int32])) = _ :=
    remote_request p _ (fun x => (x.1, x.2, ())) hfields hp hdispatch
      (fun x => by simp)
      (fun x => deserialize_value x.1 x.2)
  rw [Commander.valueCommand, ← Prog.bind_assoc, Remote, Prog.translate_bind]
  rw [Remote] at hrequest
  rw [hrequest, Prog.bind_assoc]
  simp

/-- What a handler replies with is what is computed locally. -/
theorem sys_statusReply (call : SysCall) (message : Message) :
    (sys call >>= fun value => statusReply message value) =
      Local.status call >>= fun x =>
        commandResult message [.uint8 (if x.1 then 1 else 0), .int32 x.2] := by
  refine congrArg (Prog.perform _) (funext fun value => ?_)
  cases value <;> rfl

theorem statusReply_error (e : Int32) (message : Message) :
    statusReply message (.error e : Except Int32 Unit) =
      Local.failure >>= fun x =>
        commandResult message [.uint8 (if x.1 then 1 else 0), .int32 x.2] := rfl

/-- A handler that makes one system call and replies with its success. -/
theorem remote_status {call : SysCall} (hfields : (encodingOf fields).length < 2 ^ 32)
    (hdispatch : Worker.dispatch dirsToOverride ⟨id, type.toUint8, encodingOf fields⟩ =
      sys call >>= fun value => statusReply ⟨id, type.toUint8, encodingOf fields⟩ value) :
    Remote dirsToOverride id (Commander.statusCommand type fields) = Local.status call := by
  exact remote_statusCommand hfields (fun _ _ => trivial) (hdispatch.trans (sys_statusReply _ _))

end

/-! ## The commands -/

section Commands

variable {dirsToOverride : DirsToOverride} {id : UInt32}

/-- The fields of a `struct stat` are read back in their order. -/
theorem readStat_statFields {info : Stat} {d : BinaryDeserializer} (hd : d.Ok)
    (hrest : d.rest = encodingOf (FileCommandsHandler.statFields info)) :
    ∃ d', Commander.readStat d = .ok (info, d') := by
  obtain ⟨d', -, -, hread⟩ := readFields_bind (FileCommandsHandler.statFields info) []
    hd (by simpa using hrest)
  exact ⟨d', hread _⟩

theorem remote_getattr {filePath : Bytes} (fileInfo : Stat) (hpath : NulFree filePath)
    (hfits : (encodingOf [.str filePath]).length < 2 ^ 32) :
    Remote dirsToOverride id (Commander.getattr filePath fileInfo) =
      Local.getattr filePath fileInfo := by
  have hrequest : Remote dirsToOverride id (Commander.getattr filePath fileInfo) = _ :=
    remote_request (sys (.stat filePath) >>= fun r => getErrno >>= fun e => .pure (r, e))
      (fun x => match x.1 with
        | .ok info => .uint8 1 :: .int32 x.2 :: FileCommandsHandler.statFields info
        | .error _ => [.uint8 0, .int32 x.2])
      (fun x => match x.1 with
        | .ok info => ((true, x.2), info)
        | .error _ => ((false, x.2), fileInfo))
      hfits (fun _ _ => trivial) ?_ (fun x => ?_) (fun x => ?_)
  · rw [hrequest, Local.getattr]
    refine congrArg (Prog.perform _) (funext fun r => ?_)
    cases r <;> rfl
  · show FileCommandsHandler.getattr _ = _
    refine (arguments_bind hfits).trans ?_
    show sys (.stat (cStr filePath)) >>= _ = _
    rw [cStr_eq_self hpath]
    refine congrArg (Prog.perform _) (funext fun r => ?_)
    cases r <;> rfl
  · cases x.1 <;> simp [FileCommandsHandler.statFields]
  · obtain ⟨r, errno⟩ := x
    cases r with
    | error e =>
        have hfits' : (encodingOf [.uint8 0, .int32 errno]).length < 2 ^ 32 := by simp
        obtain ⟨d, -, -, hread⟩ :=
          readFields_bind [.uint8 0, .int32 errno] [] (ok_new hfits') (by simp)
        exact congrArg (Except.map Prod.fst) (hread _)
    | ok info =>
        have hfits' : (encodingOf (.uint8 1 :: .int32 errno ::
            FileCommandsHandler.statFields info)).length < 2 ^ 32 := by
          simp [FileCommandsHandler.statFields]
        obtain ⟨d, hrest, hd, hread⟩ := readFields_bind [.uint8 1, .int32 errno]
          (encodingOf (FileCommandsHandler.statFields info)) (ok_new hfits') (by simp)
        obtain ⟨d', hstat⟩ := readStat_statFields hd hrest
        refine (congrArg (Except.map Prod.fst) (hread _)).trans ?_
        show Except.map Prod.fst ((Commander.readStat d).bind _) = _
        rw [hstat]
        rfl

theorem remote_access {filePath : Bytes} {mode : Int32} (hpath : NulFree filePath)
    (hfits : (encodingOf [.str filePath, .int32 mode]).length < 2 ^ 32) :
    Remote dirsToOverride id (Commander.access filePath mode) =
      Local.status (.access filePath mode) := by
  refine remote_status hfits ?_
  show FileCommandsHandler.access _ = _
  refine (arguments_bind hfits).trans ?_
  show sys (.access (cStr filePath) mode) >>= _ = _
  rw [cStr_eq_self hpath]

theorem noThrow_rename {oldPath newPath : Bytes} {flags : UInt8} :
    (Local.rename oldPath newPath flags).NoThrow := by
  unfold Local.rename
  by_cases hnoreplace : flags &&& FileCommandsHandler.renameNoreplace = 0 <;>
    by_cases hexchange : flags &&& FileCommandsHandler.renameExchange = 0 <;>
    simp [hnoreplace, hexchange, Local.failure, Local.status] <;>
    rintro (e | info) <;> simp

theorem remote_rename {oldPath newPath : Bytes} {flags : UInt8} (hold : NulFree oldPath)
    (hnew : NulFree newPath)
    (hfits : (encodingOf [.str oldPath, .str newPath, .uint8 flags]).length < 2 ^ 32) :
    Remote dirsToOverride id (Commander.rename oldPath newPath flags) =
      Local.rename oldPath newPath flags := by
  refine remote_statusCommand hfits ?_ ?_
  · exact noThrow_rename
  · show FileCommandsHandler.rename _ = _
    refine (arguments_bind hfits).trans ?_
    show (do
      let exists? ←
        if flags &&& FileCommandsHandler.renameNoreplace ≠ 0 then do
          let statResult ← sys (.stat (cStr newPath))
          match statResult with
          | .ok _ => do
              setErrno FileCommandsHandler.EEXIST
              pure true
          | .error _ => pure false
        else pure false
      if flags &&& FileCommandsHandler.renameExchange ≠ 0 then
        setErrno FileCommandsHandler.EINVAL
        statusReply _ (.error FileCommandsHandler.EINVAL : Except Int32 Unit)
      else if exists? then
        statusReply _ (.error FileCommandsHandler.EEXIST : Except Int32 Unit)
      else
        let value ← sys (.rename (cStr oldPath) (cStr newPath))
        statusReply _ value) = _
    rw [cStr_eq_self hold, cStr_eq_self hnew, Local.rename]
    by_cases hnoreplace : flags &&& FileCommandsHandler.renameNoreplace = 0 <;>
      by_cases hexchange : flags &&& FileCommandsHandler.renameExchange = 0 <;>
      simp only [hnoreplace, hexchange, statusReply_error, ne_eq, not_true_eq_false,
        not_false_eq_true, if_true, if_false, Prog.pure_eq, Prog.pure_bind, Prog.call_bind,
        Prog.perform_bind]
    · exact sys_statusReply _ _
    all_goals refine congrArg (Prog.perform _) (funext ?_)
    · rintro (e | info)
      · exact sys_statusReply _ _
      · rfl
    · rintro (e | info) <;> rfl

theorem remote_truncate {filePath : Bytes} {size : Int64} (hpath : NulFree filePath)
    (hfits : (encodingOf [.str filePath, .int64 size]).length < 2 ^ 32) :
    Remote dirsToOverride id (Commander.truncate filePath size) =
      Local.status (.truncate filePath size) := by
  refine remote_status hfits ?_
  show FileCommandsHandler.truncate _ = _
  refine (arguments_bind hfits).trans ?_
  show sys (.truncate (cStr filePath) size) >>= _ = _
  rw [cStr_eq_self hpath]

theorem remote_unlink {filePath : Bytes} (hpath : NulFree filePath)
    (hfits : (encodingOf [.str filePath]).length < 2 ^ 32) :
    Remote dirsToOverride id (Commander.unlink filePath) = Local.status (.unlink filePath) := by
  refine remote_status hfits ?_
  show FileCommandsHandler.unlink _ = _
  refine (arguments_bind hfits).trans ?_
  show sys (.unlink (cStr filePath)) >>= _ = _
  rw [cStr_eq_self hpath]

theorem remote_chmod {filePath : Bytes} {mode : Int32} (hpath : NulFree filePath)
    (hfits : (encodingOf [.str filePath, .int32 mode]).length < 2 ^ 32) :
    Remote dirsToOverride id (Commander.chmod filePath mode) =
      Local.status (.chmod filePath mode.toUInt32) := by
  refine remote_status hfits ?_
  show FileCommandsHandler.chmod _ = _
  refine (arguments_bind hfits).trans ?_
  show sys (.chmod (cStr filePath) mode.toUInt32) >>= _ = _
  rw [cStr_eq_self hpath]

theorem remote_chown {filePath : Bytes} {owner group : Int32} (hpath : NulFree filePath)
    (hfits : (encodingOf [.str filePath, .int32 owner, .int32 group]).length < 2 ^ 32) :
    Remote dirsToOverride id (Commander.chown filePath owner group) =
      Local.status (.chown filePath owner.toUInt32 group.toUInt32) := by
  refine remote_status hfits ?_
  show FileCommandsHandler.chown _ = _
  refine (arguments_bind hfits).trans ?_
  show sys (.chown (cStr filePath) owner.toUInt32 group.toUInt32) >>= _ = _
  rw [cStr_eq_self hpath]

theorem noThrow_open {filePath : Bytes} {flags mode : Int32} :
    (Local.open filePath flags mode).NoThrow := by
  rintro (e | fd)
  · exact fun _ => trivial
  · exact fun _ _ _ => trivial

theorem dispatch_open {filePath : Bytes} {flags mode : Int32}
    (hfits : (encodingOf [.str filePath, .int32 flags, .int32 mode]).length < 2 ^ 32) :
    Worker.dispatch dirsToOverride ⟨id, CommanderMessageType.open.toUint8,
        encodingOf [.str filePath, .int32 flags, .int32 mode]⟩ =
      Local.open (cStr filePath) flags mode >>= fun x =>
        commandResult ⟨id, CommanderMessageType.open.toUint8,
          encodingOf [.str filePath, .int32 flags, .int32 mode]⟩ [.int32 x.1, .int32 x.2] := by
  show FileCommandsHandler.open _ = _
  refine (arguments_bind hfits).trans ?_
  refine congrArg (Prog.perform _) (funext fun fd => ?_)
  cases fd <;> rfl

theorem remote_open {filePath : Bytes} {flags mode : Int32} (hpath : NulFree filePath)
    (hfits : (encodingOf [.str filePath, .int32 flags, .int32 mode]).length < 2 ^ 32) :
    Remote dirsToOverride id (Commander.open filePath flags mode) =
      Local.open filePath flags mode := by
  refine remote_valueCommand hfits noThrow_open ((dispatch_open hfits).trans ?_)
  rw [cStr_eq_self hpath]

theorem noThrow_close (fd : Int32) : (Local.close fd).NoThrow := fun _ _ _ _ => trivial

theorem dispatch_close (fd : Int32) :
    Worker.dispatch dirsToOverride ⟨id, CommanderMessageType.close.toUint8,
        encodingOf [.int32 fd]⟩ =
      Local.close fd >>= fun x =>
        commandResult ⟨id, CommanderMessageType.close.toUint8, encodingOf [.int32 fd]⟩
          [.uint8 (if x.1 then 1 else 0), .int32 x.2] := by
  have hfits : (encodingOf [.int32 fd]).length < 2 ^ 32 := by simp
  show FileCommandsHandler.close _ = _
  refine (arguments_bind hfits).trans (congrArg (Prog.perform _) (funext fun h => ?_))
  refine congrArg (Prog.perform _) (funext fun value => ?_)
  cases value <;> rfl

theorem remote_close (fd : Int32) :
    Remote dirsToOverride id (Commander.close fd) = Local.close fd :=
  remote_statusCommand (by simp) (noThrow_close fd) (dispatch_close fd)

theorem remote_opendir {dirPath : Bytes} (hpath : NulFree dirPath)
    (hfits : (encodingOf [.str dirPath]).length < 2 ^ 32) :
    Remote dirsToOverride id (Commander.opendir dirPath) =
      Local.opendir dirsToOverride dirPath := by
  refine remote_valueCommand hfits ?_ ?_
  · rw [Local.opendir]
    split
    · exact fun _ _ => trivial
    · rintro (e | fd)
      · exact fun _ => trivial
      · exact fun _ _ _ => trivial
  · show DirCommandsHandler.opendir _ _ = _
    refine (arguments_bind hfits).trans ?_
    show (match dirsToOverride.lookup dirPath with
      | some entries => _
      | none => sys (.opendir (cStr dirPath)) >>= _) = _
    rw [cStr_eq_self hpath, Local.opendir]
    cases dirsToOverride.lookup dirPath with
    | some entries => rfl
    | none =>
        refine congrArg (Prog.perform _) (funext fun fd => ?_)
        cases fd <;> rfl

theorem remote_closedir (fd : Int32) :
    Remote dirsToOverride id (Commander.closedir fd) = Local.closedir fd := by
  have hfits : (encodingOf [.int32 fd]).length < 2 ^ 32 := by simp
  refine remote_statusCommand hfits ?_ ?_
  · rintro (_ | entries)
    · exact fun _ _ _ _ => trivial
    · exact fun _ => trivial
  · show DirCommandsHandler.closedir _ = _
    refine (arguments_bind hfits).trans (congrArg (Prog.perform _) (funext fun overridden => ?_))
    cases overridden with
    | some entries => rfl
    | none =>
        refine congrArg (Prog.perform _) (funext fun h => ?_)
        refine congrArg (Prog.perform _) (funext fun value => ?_)
        cases value <;> rfl

theorem remote_mkdir {dirPath : Bytes} {mode : Int32} (hpath : NulFree dirPath)
    (hfits : (encodingOf [.str dirPath, .int32 mode]).length < 2 ^ 32) :
    Remote dirsToOverride id (Commander.mkdir dirPath mode) =
      Local.status (.mkdir dirPath mode.toUInt32) := by
  refine remote_status hfits ?_
  show DirCommandsHandler.mkdir _ = _
  refine (arguments_bind hfits).trans ?_
  show sys (.mkdir (cStr dirPath) mode.toUInt32) >>= _ = _
  rw [cStr_eq_self hpath]

theorem remote_rmdir {dirPath : Bytes} (hpath : NulFree dirPath)
    (hfits : (encodingOf [.str dirPath]).length < 2 ^ 32) :
    Remote dirsToOverride id (Commander.rmdir dirPath) = Local.status (.rmdir dirPath) := by
  refine remote_status hfits ?_
  show DirCommandsHandler.rmdir _ = _
  refine (arguments_bind hfits).trans ?_
  show sys (.rmdir (cStr dirPath)) >>= _ = _
  rw [cStr_eq_self hpath]

end Commands

/-! ## Every command of a fixed layout -/

/-- A command with the arguments of its method. -/
inductive FixedCommand where
  | getattr (filePath : Bytes) (fileInfo : Stat)
  | access (filePath : Bytes) (mode : Int32)
  | rename (oldPath newPath : Bytes) (flags : UInt8)
  | truncate (filePath : Bytes) (size : Int64)
  | unlink (filePath : Bytes)
  | chmod (filePath : Bytes) (mode : Int32)
  | chown (filePath : Bytes) (owner group : Int32)
  | open (filePath : Bytes) (flags mode : Int32)
  | close (fd : Int32)
  | opendir (dirPath : Bytes)
  | closedir (fd : Int32)
  | mkdir (dirPath : Bytes) (mode : Int32)
  | rmdir (dirPath : Bytes)
  deriving DecidableEq, Repr

namespace FixedCommand

/-- What the method returns, with the `struct stat` it may have written. -/
@[reducible] def Result : FixedCommand → Type
  | .getattr _ _ => (Bool × Int32) × Stat
  | .open _ _ _  => Int32 × Int32
  | .opendir _   => Int32 × Int32
  | _            => Bool × Int32

/-- The method of the `Commander`. -/
def method : (c : FixedCommand) → CommanderProg c.Result
  | .getattr filePath fileInfo     => Commander.getattr filePath fileInfo
  | .access filePath mode          => Commander.access filePath mode
  | .rename oldPath newPath flags  => Commander.rename oldPath newPath flags
  | .truncate filePath size        => Commander.truncate filePath size
  | .unlink filePath               => Commander.unlink filePath
  | .chmod filePath mode           => Commander.chmod filePath mode
  | .chown filePath owner group    => Commander.chown filePath owner group
  | .open filePath flags mode      => Commander.open filePath flags mode
  | .close fd                      => Commander.close fd
  | .opendir dirPath               => Commander.opendir dirPath
  | .closedir fd                   => Commander.closedir fd
  | .mkdir dirPath mode            => Commander.mkdir dirPath mode
  | .rmdir dirPath                 => Commander.rmdir dirPath

/-- The same call, made locally: each argument as it was given to the method. -/
def locally (dirsToOverride : DirsToOverride) : (c : FixedCommand) → WorkerProg c.Result
  | .getattr filePath fileInfo     => Local.getattr filePath fileInfo
  | .access filePath mode          => Local.status (.access filePath mode)
  | .rename oldPath newPath flags  => Local.rename oldPath newPath flags
  | .truncate filePath size        => Local.status (.truncate filePath size)
  | .unlink filePath               => Local.status (.unlink filePath)
  | .chmod filePath mode           => Local.status (.chmod filePath mode.toUInt32)
  | .chown filePath owner group    => Local.status (.chown filePath owner.toUInt32 group.toUInt32)
  | .open filePath flags mode      => Local.open filePath flags mode
  | .close fd                      => Local.close fd
  | .opendir dirPath               => Local.opendir dirsToOverride dirPath
  | .closedir fd                   => Local.closedir fd
  | .mkdir dirPath mode            => Local.status (.mkdir dirPath mode.toUInt32)
  | .rmdir dirPath                 => Local.status (.rmdir dirPath)

/-- The arguments a command can be sent with: paths without NUL bytes, and a payload whose length
fits the message header. -/
def Sendable : FixedCommand → Prop
  | .getattr filePath _ | .unlink filePath | .opendir filePath | .rmdir filePath =>
      NulFree filePath ∧ (encodingOf [.str filePath]).length < 2 ^ 32
  | .access filePath mode | .chmod filePath mode | .mkdir filePath mode =>
      NulFree filePath ∧ (encodingOf [.str filePath, .int32 mode]).length < 2 ^ 32
  | .rename oldPath newPath flags =>
      NulFree oldPath ∧ NulFree newPath ∧
        (encodingOf [.str oldPath, .str newPath, .uint8 flags]).length < 2 ^ 32
  | .truncate filePath size =>
      NulFree filePath ∧ (encodingOf [.str filePath, .int64 size]).length < 2 ^ 32
  | .chown filePath owner group =>
      NulFree filePath ∧ (encodingOf [.str filePath, .int32 owner, .int32 group]).length < 2 ^ 32
  | .open filePath flags mode =>
      NulFree filePath ∧ (encodingOf [.str filePath, .int32 flags, .int32 mode]).length < 2 ^ 32
  | .close _ | .closedir _ => True

/-- **Remote calls are transparent**: a method run on a worker is the call made locally. The
handler gets the arguments the method was given, and whatever the system answers, the method
returns the success flag or id and the error number the handler computed. -/
theorem rpc_transparent (dirsToOverride : DirsToOverride) (id : UInt32) (c : FixedCommand)
    (hc : c.Sendable) : Remote dirsToOverride id c.method = c.locally dirsToOverride := by
  cases c with
  | getattr filePath fileInfo     => exact remote_getattr fileInfo hc.1 hc.2
  | access filePath mode          => exact remote_access hc.1 hc.2
  | rename oldPath newPath flags  => exact remote_rename hc.1 hc.2.1 hc.2.2
  | truncate filePath size        => exact remote_truncate hc.1 hc.2
  | unlink filePath               => exact remote_unlink hc.1 hc.2
  | chmod filePath mode           => exact remote_chmod hc.1 hc.2
  | chown filePath owner group    => exact remote_chown hc.1 hc.2
  | «open» filePath flags mode    => exact remote_open hc.1 hc.2
  | close fd                      => exact remote_close fd
  | opendir dirPath               => exact remote_opendir hc.1 hc.2
  | closedir fd                   => exact remote_closedir fd
  | mkdir dirPath mode            => exact remote_mkdir hc.1 hc.2
  | rmdir dirPath                 => exact remote_rmdir hc.1 hc.2

theorem rpc_transparent_two :
    Remote [] 0 (Commander.rename (ascii "/a") (ascii "/b") 1) =
        Local.rename (ascii "/a") (ascii "/b") 1 ∧
      Remote [] 1 (Commander.chown (ascii "/a") (-1) 1000) =
        Local.status (.chown (ascii "/a") 4294967295 1000) :=
  ⟨rpc_transparent [] 0 (.rename (ascii "/a") (ascii "/b") 1)
      ⟨by decide, by decide, by decide⟩,
    rpc_transparent [] 1 (.chown (ascii "/a") (-1) 1000) ⟨by decide, by decide⟩⟩

end FixedCommand

end ZControl
