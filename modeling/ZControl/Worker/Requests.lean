import ZControl.Worker.Worker

/-!
# What one request does

The effect of a whole request on the tables and on the open files and streams, when no other
request runs meanwhile. Every handler is inverted once: a request that was handled is one of a few
kinds (`Served`), and what holds across requests follows from these.
-/

namespace ZControl

open Interaction BinaryDeserializer

/-! ## Operations on handles -/

namespace WorkerOp

/-- The descriptor an operation acts on. -/
def fd? : WorkerOp → Option Int32
  | .sys call => call.fd?
  | _         => none

/-- The directory stream an operation acts on. -/
def dir? : WorkerOp → Option DirPtr
  | .sys call => call.dir?
  | _         => none

/-- The operation does not concern tables or handles. -/
def Neutral : WorkerOp → Bool
  | .sys (.open _ _ _)  => false
  | .sys (.opendir _)   => false
  | .sys call           => call.fd?.isNone && call.dir?.isNone
  | .file _             => false
  | .dir _              => false
  | .overridden _       => false
  | _                   => true

/-- The operation is a system call that fails. -/
def Fails : (op : WorkerOp) → op.Ans → Prop
  | .sys _, r => ∃ e, r = .error e
  | _,      _ => False

end WorkerOp

abbrev WorkerEvent := Event WorkerOp WorkerOp.Ans

namespace WorkerEvent

/-- A successful `::open`. -/
def opensFile : WorkerEvent → Bool
  | ⟨.sys (.open _ _ _), .ok _⟩ => true
  | _ => false

/-- A successful `::opendir`. -/
def opensStream : WorkerEvent → Bool
  | ⟨.sys (.opendir _), .ok _⟩ => true
  | _ => false

/-- The opening of an overridden directory. -/
def opensOverridden : WorkerEvent → Bool
  | ⟨.overridden (.emplace _ _), _⟩ => true
  | _ => false

/-- Nothing is opened. -/
def quiet (e : WorkerEvent) : Bool := !e.opensFile && !e.opensStream && !e.opensOverridden

end WorkerEvent

/-- The tables with the open files and streams. -/
structure Handles where
  file : Table Int32
  dir : Table DirPtr
  overriddenFds : AList (fun _ : Int32 => List Dirent)
  files : HandleSpace Int32 (-1)
  dirs : HandleSpace DirPtr none

def World.handles (w : World) : Handles := ⟨w.file, w.dir, w.overriddenFds, w.files, w.dirs⟩

/-- The tables of two workers hold the same. -/
structure SameTables (w w₂ : World) : Prop where
  file : w.file = w₂.file
  dir : w.dir = w₂.dir
  overriddenFds : w.overriddenFds = w₂.overriddenFds

namespace World

variable {w w' : World} {t : ThreadId}

theorem step_errno_iff {a : Int32} : w.step t .errno a = some w' ↔ a = w.errno t ∧ w' = w := by
  show (if a = w.errno t then some w else none) = some w' ↔ _
  rw [Option.ite_none_right_eq_some, Option.some.injEq, eq_comm (a := w)]

theorem step_errno {a : Int32} (h : w.step t .errno a = some w') : w' = w :=
  (step_errno_iff.mp h).2

theorem step_sys {call : SysCall} {r : Except Int32 call.Val}
    (h : w.step t (.sys call) r = some w') :
    w.allows call r = true ∧ w'.handles = (w.handlesAfter call r).handles := by
  have hif : w.sysStep t call r = some w' := h
  unfold sysStep at hif
  split at hif
  case isFalse => cases hif
  case isTrue hallows =>
    refine ⟨hallows, ?_⟩
    cases r <;> cases hif <;> rfl

theorem setErrno_errno (value : Int32) : (w.setErrno t value).errno t = value :=
  Function.update_self ..

/-- A call changes no table, and `errno` only where it fails. -/
theorem step_call {call : SysCall} {r : Except Int32 call.Val}
    (h : w.step t (.sys call) r = some w') :
    SameTables w w' ∧ w'.errno t = match r with
      | .ok _    => w.errno t
      | .error e => e := by
  have hafter : SameTables w (w.handlesAfter call r) ∧
      (w.handlesAfter call r).errno = w.errno := by
    unfold handlesAfter
    split
    · split <;> exact ⟨⟨rfl, rfl, rfl⟩, rfl⟩
    · split <;> exact ⟨⟨rfl, rfl, rfl⟩, rfl⟩
    all_goals exact ⟨⟨rfl, rfl, rfl⟩, rfl⟩
  have hif : w.sysStep t call r = some w' := h
  unfold sysStep at hif
  split at hif
  case isFalse => cases hif
  case isTrue hallows =>
    cases r with
    | ok x =>
        cases hif
        exact ⟨hafter.1, congrFun hafter.2 t⟩
    | error e =>
        cases hif
        exact ⟨⟨hafter.1.file, hafter.1.dir, hafter.1.overriddenFds⟩, setErrno_errno e⟩

/-- A read returns at most as much as was asked for. -/
theorem step_read {fd : Int32} {n : UInt32} {bytes : Bytes}
    (h : w.step t (.sys (.read fd n)) (.ok bytes) = some w') : bytes.length ≤ n.toNat := by
  have hallows := (step_sys h).1
  simp only [allows, decide_eq_true_eq] at hallows
  exact hallows.2

theorem step_pread64 {fd : Int32} {n : UInt32} {offset : Int64} {bytes : Bytes}
    (h : w.step t (.sys (.pread64 fd n offset)) (.ok bytes) = some w') :
    bytes.length ≤ n.toNat := by
  have hallows := (step_sys h).1
  simp only [allows, decide_eq_true_eq] at hallows
  exact hallows.2

theorem step_getFd {id fd : Int32} (h : w.step t (.file (.getFd id)) fd = some w') :
    fd = w.file.getFd (-1) id ∧ w' = w := by
  obtain ⟨file, hfile, rfl⟩ := Option.map_eq_some_iff.mp h
  simp only [Table.step, Option.ite_none_right_eq_some, Option.some.injEq] at hfile
  obtain ⟨hfd, rfl⟩ := hfile
  exact ⟨hfd, rfl⟩

theorem step_dirGetFd {id : Int32} {fd : DirPtr} (h : w.step t (.dir (.getFd id)) fd = some w') :
    fd = w.dir.getFd none id ∧ w' = w := by
  obtain ⟨dir, hdir, rfl⟩ := Option.map_eq_some_iff.mp h
  simp only [Table.step, Option.ite_none_right_eq_some, Option.some.injEq] at hdir
  obtain ⟨hfd, rfl⟩ := hdir
  exact ⟨hfd, rfl⟩

theorem step_nextFdId {id : Int32} (h : w.step t (.file .nextFdId) id = some w') :
    id = w.file.nextFdId ∧ w' = { w with file := { w.file with nextFdId := id + 1 } } := by
  obtain ⟨file, hfile, rfl⟩ := Option.map_eq_some_iff.mp h
  simp only [Table.step, Option.ite_none_right_eq_some, Option.some.injEq] at hfile
  obtain ⟨hid, rfl⟩ := hfile
  exact ⟨hid, rfl⟩

theorem step_dirNextFdId {id : Int32} (h : w.step t (.dir .nextFdId) id = some w') :
    id = w.dir.nextFdId ∧ w' = { w with dir := { w.dir with nextFdId := id + 1 } } := by
  obtain ⟨dir, hdir, rfl⟩ := Option.map_eq_some_iff.mp h
  simp only [Table.step, Option.ite_none_right_eq_some, Option.some.injEq] at hdir
  obtain ⟨hid, rfl⟩ := hdir
  exact ⟨hid, rfl⟩

theorem step_find {id : Int32} {entries : Option (List Dirent)}
    (h : w.step t (.overridden (.find id)) entries = some w') :
    entries = w.overriddenFds.lookup id ∧ w' = w := by
  have hif : (if entries = w.overriddenFds.lookup id then some w else none) = some w' := h
  simp only [Option.ite_none_right_eq_some, Option.some.injEq] at hif
  exact ⟨hif.1, hif.2.symm⟩

theorem step_emplace {id : Int32} {entries : List Dirent} {a : Unit}
    (h : w.step t (.overridden (.emplace id entries)) a = some w') :
    w' =
      { w with
        overriddenFds :=
          match w.overriddenFds.lookup id with
          | some _ => w.overriddenFds
          | none   => w.overriddenFds.insert id entries } := by
  have hmatch : (match w.overriddenFds.lookup id with
      | some _ => some w
      | none   => some { w with overriddenFds := w.overriddenFds.insert id entries }) =
        some w' := h
  split at hmatch <;> exact (Option.some.inj hmatch).symm

theorem step_neutral {op : WorkerOp} {a : op.Ans} (hop : op.Neutral = true)
    (h : w.step t op a = some w') : w'.handles = w.handles := by
  cases op with
  | sys call =>
      obtain ⟨-, hhandles⟩ := step_sys h
      rw [hhandles]
      cases call <;> first | rfl | simp [WorkerOp.Neutral, SysCall.fd?, SysCall.dir?] at hop
  | errno => rw [step_errno h]
  | setErrno value => cases h; rfl
  | uninitStatvfs => cases h; rfl
  | setShouldStop => cases h; rfl
  | _ => simp [WorkerOp.Neutral] at hop

/-- The system has an answer to every operation, if only a failure. -/
theorem step_total (t : ThreadId) (w : World) (op : WorkerOp) :
    ∃ a w', w.step t op a = some w' := by
  cases op with
  | sys call => exact ⟨.error 0, _, if_pos (by cases call <;> rfl)⟩
  | errno => exact ⟨w.errno t, w, if_pos rfl⟩
  | setErrno value => exact ⟨(), _, rfl⟩
  | uninitStatvfs => exact ⟨⟨0, 0, 0, 0, 0, 0, 0, 0, 0, 0, 0⟩, w, rfl⟩
  | file op =>
      cases op with
      | nextFdId => exact ⟨w.file.nextFdId, by simp [step, Table.step]⟩
      | emplace fdId fd => exact ⟨(), _, rfl⟩
      | getFd fdId => exact ⟨w.file.getFd (-1) fdId, by simp [step, Table.step]⟩
      | erase fdId => exact ⟨(), _, rfl⟩
  | dir op =>
      cases op with
      | nextFdId => exact ⟨w.dir.nextFdId, by simp [step, Table.step]⟩
      | emplace fdId fd => exact ⟨(), _, rfl⟩
      | getFd fdId => exact ⟨w.dir.getFd none fdId, by simp [step, Table.step]⟩
      | erase fdId => exact ⟨(), _, rfl⟩
  | overridden op =>
      cases op with
      | emplace fdId entries =>
          refine ⟨(), ?_⟩
          simp only [step, overriddenStep]
          split <;> exact ⟨_, rfl⟩
      | find fdId => exact ⟨w.overriddenFds.lookup fdId, w, if_pos rfl⟩
      | erase fdId => exact ⟨(), _, rfl⟩
  | setShouldStop => exact ⟨(), _, rfl⟩

/-- A call on a descriptor that is not open fails. -/
theorem error_of_allows {call : SysCall} {r : Except Int32 call.Val} {fd : Int32}
    (hallows : w.allows call r = true) (hfd : call.fd? = some fd)
    (hclosed : w.files.serial fd = none) : ∃ e, r = .error e := by
  cases r with
  | error e => exact ⟨e, rfl⟩
  | ok value => cases call <;> cases hfd <;> simp [allows, hclosed] at hallows

/-- A call on a stream that is not open fails. -/
theorem error_of_allows_dir {call : SysCall} {r : Except Int32 call.Val} {dir : DirPtr}
    (hallows : w.allows call r = true) (hdir : call.dir? = some dir)
    (hclosed : w.dirs.serial dir = none) : ∃ e, r = .error e := by
  cases r with
  | error e => exact ⟨e, rfl⟩
  | ok value => cases call <;> cases hdir <;> simp [allows, hclosed] at hallows

end World

/-! ## The id of a request -/

/-- The first argument, where it is an id and all arguments can be decoded. -/
def idArgument (message : Message) (kinds : List FieldKind) : Option Int32 :=
  match deserialize message.data (readFields (.int32 :: kinds)) with
  | .ok (fdId, _) => some fdId
  | .error _      => none

/-- The id that a request on open files names. -/
def fileId? (message : Message) : Option Int32 :=
  match CommanderMessageType.ofUint8 message.type with
  | some .close  => idArgument message []
  | some .read   => idArgument message [.uint32]
  | some .pRead  => idArgument message [.uint32, .int64]
  | some .write  => idArgument message [.byteVector]
  | some .pWrite => idArgument message [.int64, .byteVector]
  | _ => none

/-- The id that a request on open directories names. -/
def dirId? (message : Message) : Option Int32 :=
  match CommanderMessageType.ofUint8 message.type with
  | some .closeDir => idArgument message []
  | some .readDir  => idArgument message [.uint32]
  | _ => none

/-- How many entries a `ReadDir` asks for. -/
def dirEntries? (message : Message) : Option UInt32 :=
  match deserialize message.data (readFields [.int32, .uint32]) with
  | .ok (_, entries, _) => some entries
  | .error _            => none

theorem dirEntries?_of_arguments {message : Message} {args : Values [.int32, .uint32]}
    (h : arguments message [.int32, .uint32] = .pure args) :
    dirEntries? message = some args.2.1 := by
  unfold arguments at h
  unfold dirEntries?
  cases hread : deserialize message.data (readFields [.int32, .uint32]) with
  | ok values =>
      rw [hread] at h
      cases h
      rfl
  | error e =>
      rw [hread] at h
      cases h

/-- The arguments of a request on an id are decoded, or the handler does nothing. -/
theorem arguments_cases (message : Message) (kinds : List FieldKind) :
    (∃ fdId args, idArgument message kinds = some fdId ∧
        arguments message (.int32 :: kinds) = .pure (fdId, args)) ∨
      ∃ e, idArgument message kinds = none ∧ arguments message (.int32 :: kinds) = .throw e := by
  unfold idArgument arguments
  cases deserialize message.data (readFields (.int32 :: kinds)) with
  | ok args => exact .inl ⟨args.1, args.2, rfl, rfl⟩
  | error e => exact .inr ⟨e, rfl, rfl⟩

theorem arguments_pure_or_throw (message : Message) (kinds : List FieldKind) :
    (∃ args, arguments message kinds = .pure args) ∨ ∃ e, arguments message kinds = .throw e := by
  unfold arguments
  cases deserialize message.data (readFields kinds) with
  | ok args => exact .inl ⟨args, rfl⟩
  | error e => exact .inr ⟨e, rfl⟩

/-! ## Replies -/

/-- The reply of a command that was carried out. -/
def reply (message : Message) (fields : List Field) : Message :=
  ⟨message.id, WorkerMessageType.commandResult.toUint8, encodingOf fields⟩

/-- The replies that report a failure: no success, the value -1, or a listing of nothing but
`EBADF`. -/
inductive FailureFields : CommanderMessageType → List Field → Prop where
  | close (errno : Int32) : FailureFields .close [.uint8 0, .int32 errno]
  | read (errno : Int32) (bytes : Bytes) :
      FailureFields .read [.int32 (-1), .int32 errno, .byteVector bytes]
  | pRead (errno : Int32) (bytes : Bytes) :
      FailureFields .pRead [.int32 (-1), .int32 errno, .byteVector bytes]
  | write (errno : Int32) : FailureFields .write [.int32 (-1), .int32 errno]
  | pWrite (errno : Int32) : FailureFields .pWrite [.int32 (-1), .int32 errno]
  | closeDir (errno : Int32) : FailureFields .closeDir [.uint8 0, .int32 errno]
  | readDir : FailureFields .readDir [.int32 DirCommandsHandler.EBADF]

/-- The result of a request that was carried out and failed. -/
def IsFailure (message : Message) (res : Except Fault Message) : Prop :=
  ∃ type fs, CommanderMessageType.ofUint8 message.type = some type ∧ FailureFields type fs ∧
    res = .ok (reply message fs)

theorem commandResult_status (message : Message) {α : Type} (r : Except Int32 α) (errno : Int32) :
    commandResult message [successField r, .int32 errno] =
      .pure (reply message [successField r, .int32 errno]) :=
  commandResult_eq message (by cases r <;> simp [successField])

theorem commandResult_value (message : Message) (value errno : Int32) :
    commandResult message [.int32 value, .int32 errno] =
      .pure (reply message [.int32 value, .int32 errno]) :=
  commandResult_eq message (by simp)

theorem commandResult_bytes (message : Message) (value errno : Int32) {bytes : Bytes}
    (hlen : bytes.length < 2 ^ 32) :
    commandResult message [.int32 value, .int32 errno, .byteVector bytes] =
      .pure (reply message [.int32 value, .int32 errno, .byteVector bytes]) := by
  have hwrite := writeFields_byteVector [.int32 value, .int32 errno] hlen (by simp)
  rw [commandResult]
  exact congrArg Prog.lift (congrArg (Except.bind · _) hwrite)

/-! ## The kinds of requests -/

/-- Nothing is opened and no handle is used. -/
def UsesNone (es : List WorkerEvent) : Prop :=
  ∀ e ∈ es, e.quiet = true ∧ e.1.fd? = none ∧ e.1.dir? = none

/-- Nothing is opened and `fd` is the only handle used; every call on it fails if it is not
open. -/
def UsesFile (w : World) (fd : Int32) (es : List WorkerEvent) : Prop :=
  ∀ e ∈ es, e.quiet = true ∧ e.1.dir? = none ∧
    ∀ fd', e.1.fd? = some fd' → fd' = fd ∧ (w.files.serial fd = none → e.1.Fails e.2)

def UsesDir (w : World) (dir : DirPtr) (es : List WorkerEvent) : Prop :=
  ∀ e ∈ es, e.quiet = true ∧ e.1.fd? = none ∧
    ∀ dir', e.1.dir? = some dir' → dir' = dir ∧ (w.dirs.serial dir = none → e.1.Fails e.2)

section

variable {w : World} {fd : Int32} {dir : DirPtr} {e : WorkerEvent} {es : List WorkerEvent}

theorem UsesNone.nil : UsesNone [] := by simp [UsesNone]

theorem UsesNone.cons (he : e.quiet = true ∧ e.1.fd? = none ∧ e.1.dir? = none)
    (hes : UsesNone es) : UsesNone (e :: es) := List.forall_mem_cons.mpr ⟨he, hes⟩

theorem UsesNone.usesFile (hes : UsesNone es) : UsesFile w fd es := by
  intro e he
  obtain ⟨hquiet, hfd, hdir⟩ := hes e he
  exact ⟨hquiet, hdir, fun fd' hfd' => nomatch hfd.symm.trans hfd'⟩

theorem UsesNone.usesDir (hes : UsesNone es) : UsesDir w dir es := by
  intro e he
  obtain ⟨hquiet, hfd, hdir⟩ := hes e he
  exact ⟨hquiet, hfd, fun dir' hdir' => nomatch hdir.symm.trans hdir'⟩

theorem UsesFile.append {es' : List WorkerEvent} (hes : UsesFile w fd es)
    (hes' : UsesFile w fd es') : UsesFile w fd (es ++ es') :=
  List.forall_mem_append.mpr ⟨hes, hes'⟩

theorem UsesDir.append {es' : List WorkerEvent} (hes : UsesDir w dir es)
    (hes' : UsesDir w dir es') : UsesDir w dir (es ++ es') :=
  List.forall_mem_append.mpr ⟨hes, hes'⟩

/-- One call on a descriptor, which the system has answered. -/
theorem usesFile_call {call : SysCall} {r : Except Int32 call.Val} (hfd : call.fd? = some fd)
    (hallows : w.allows call r = true) : UsesFile w fd [⟨.sys call, r⟩] := by
  intro e he
  obtain rfl := List.mem_singleton.mp he
  refine ⟨?_, ?_, fun fd' hfd' => ?_⟩
  · cases call <;> first | rfl | cases hfd
  · cases call <;> first | rfl | cases hfd
  · obtain rfl := Option.some.inj (hfd.symm.trans hfd')
    exact ⟨rfl, World.error_of_allows hallows hfd⟩

/-- One call on a stream. -/
theorem usesDir_call {call : SysCall} {r : Except Int32 call.Val} (hdir : call.dir? = some dir)
    (hallows : w.allows call r = true) : UsesDir w dir [⟨.sys call, r⟩] := by
  intro e he
  obtain rfl := List.mem_singleton.mp he
  refine ⟨?_, ?_, fun dir' hdir' => ?_⟩
  · cases call <;> first | rfl | cases hdir
  · cases call <;> first | rfl | cases hdir
  · obtain rfl := Option.some.inj (hdir.symm.trans hdir')
    exact ⟨rfl, World.error_of_allows_dir hallows hdir⟩

end

/-- How the worlds before and after a request, its events and its result are related. -/
inductive Served (w : World) (message : Message) (w' : World) :
    List WorkerEvent → Except Fault Message → Prop where
  | idle {es : List WorkerEvent} {res : Except Fault Message}
      (hfile : fileId? message = none) (hdir : dirId? message = none) (hes : UsesNone es)
      (hw : w'.handles = w.handles) : Served w message w' es res
  | openFile {path : Bytes} {flags mode fd errno : Int32}
      (hfile : fileId? message = none) (hdir : dirId? message = none)
      (hfree : w.files.serial fd = none ∧ fd ≠ -1)
      (hw : w'.handles =
        { w.handles with
          file := { w.file with nextFdId := w.file.nextFdId + 1 }.emplace w.file.nextFdId fd
          files := w.files.acquire fd hfree }) :
      Served w message w'
        [⟨.sys (.open path flags mode), .ok fd⟩, ⟨.file .nextFdId, w.file.nextFdId⟩,
          ⟨.file (.emplace w.file.nextFdId fd), ()⟩, ⟨.errno, errno⟩]
        (.ok (reply message [.int32 w.file.nextFdId, .int32 errno]))
  | closeFile {es : List WorkerEvent} {fdId errno : Int32} {r : Except Int32 Unit}
      (htype : CommanderMessageType.ofUint8 message.type = some .close)
      (hfile : fileId? message = some fdId) (hdir : dirId? message = none)
      (hes : UsesFile w (w.file.getFd (-1) fdId) es)
      (hacts : ∃ e ∈ es, e.1.fd? = some (w.file.getFd (-1) fdId))
      (hfail : w.files.serial (w.file.getFd (-1) fdId) = none → ∃ e, r = .error e)
      (hw : w'.handles =
        { w.handles with
          file := { w.file with fds := w.file.fds.erase fdId }
          files := w.files.release (w.file.getFd (-1) fdId) }) :
      Served w message w' es (.ok (reply message [successField r, .int32 errno]))
  | useFile {es : List WorkerEvent} {fdId : Int32} {res : Except Fault Message}
      (htype : CommanderMessageType.ofUint8 message.type ≠ some .close)
      (hfile : fileId? message = some fdId) (hdir : dirId? message = none)
      (hes : UsesFile w (w.file.getFd (-1) fdId) es)
      (hacts : ∃ e ∈ es, e.1.fd? = some (w.file.getFd (-1) fdId))
      (hfail : w.files.serial (w.file.getFd (-1) fdId) = none → IsFailure message res)
      (hw : w'.handles = w.handles) : Served w message w' es res
  | openDir {path : Bytes} {dir : Nat} {errno : Int32}
      (hfile : fileId? message = none) (hdir : dirId? message = none)
      (hfree : w.dirs.serial (some dir) = none ∧ some dir ≠ none)
      (hw : w'.handles =
        { w.handles with
          dir := { w.dir with nextFdId := w.dir.nextFdId + 1 }.emplace w.dir.nextFdId (some dir)
          dirs := w.dirs.acquire (some dir) hfree }) :
      Served w message w'
        [⟨.sys (.opendir path), .ok dir⟩, ⟨.dir .nextFdId, w.dir.nextFdId⟩,
          ⟨.dir (.emplace w.dir.nextFdId (some dir)), ()⟩, ⟨.errno, errno⟩]
        (.ok (reply message [.int32 w.dir.nextFdId, .int32 errno]))
  | openOverridden {entries : List Dirent}
      (hfile : fileId? message = none) (hdir : dirId? message = none)
      (hw : w'.handles =
        { w.handles with
          dir := { w.dir with nextFdId := w.dir.nextFdId + 1 }
          overriddenFds :=
            match w.overriddenFds.lookup w.dir.nextFdId with
            | some _ => w.overriddenFds
            | none   => w.overriddenFds.insert w.dir.nextFdId entries }) :
      Served w message w'
        [⟨.dir .nextFdId, w.dir.nextFdId⟩, ⟨.overridden (.emplace w.dir.nextFdId entries), ()⟩]
        (.ok (reply message [.int32 w.dir.nextFdId, .int32 0]))
  | closeDir {es : List WorkerEvent} {fdId errno : Int32} {r : Except Int32 Unit}
      (htype : CommanderMessageType.ofUint8 message.type = some .closeDir)
      (hfile : fileId? message = none) (hdir : dirId? message = some fdId)
      (hover : w.overriddenFds.lookup fdId = none)
      (hes : UsesDir w (w.dir.getFd none fdId) es)
      (hacts : ∃ e ∈ es, e.1 = .sys (.closedir (w.dir.getFd none fdId)))
      (hfail : w.dirs.serial (w.dir.getFd none fdId) = none → ∃ e, r = .error e)
      (hw : w'.handles =
        { w.handles with
          dir := { w.dir with fds := w.dir.fds.erase fdId }
          dirs := w.dirs.release (w.dir.getFd none fdId) }) :
      Served w message w' es (.ok (reply message [successField r, .int32 errno]))
  | closeOverridden {es : List WorkerEvent} {fdId : Int32} {entries : List Dirent}
      (htype : CommanderMessageType.ofUint8 message.type = some .closeDir)
      (hfile : fileId? message = none) (hdir : dirId? message = some fdId)
      (hover : w.overriddenFds.lookup fdId = some entries) (hes : UsesNone es)
      (hw : w'.handles = { w.handles with overriddenFds := w.overriddenFds.erase fdId }) :
      Served w message w' es (.ok (reply message [.uint8 1, .int32 0]))
  | useDir {es : List WorkerEvent} {fdId : Int32} {res : Except Fault Message}
      (htype : CommanderMessageType.ofUint8 message.type = some .readDir)
      (hfile : fileId? message = none) (hdir : dirId? message = some fdId)
      (hover : w.overriddenFds.lookup fdId = none)
      (hes : UsesDir w (w.dir.getFd none fdId) es)
      (hacts : ∀ entries dir, dirEntries? message = some entries → entries ≠ 0 →
        w.dir.getFd none fdId = some dir → ∃ e ∈ es, e.1 = .sys (.readdir (some dir)))
      (hfail : w.dir.getFd none fdId = none → IsFailure message res)
      (hw : w'.handles = w.handles) : Served w message w' es res
  | useOverridden {es : List WorkerEvent} {fdId : Int32} {entries : List Dirent}
      {res : Except Fault Message}
      (htype : CommanderMessageType.ofUint8 message.type = some .readDir)
      (hfile : fileId? message = none) (hdir : dirId? message = some fdId)
      (hover : w.overriddenFds.lookup fdId = some entries) (hes : UsesNone es)
      (hw : w'.handles = w.handles) : Served w message w' es res

theorem WorkerEvent.usesNone_of_neutral {e : WorkerEvent} (he : e.1.Neutral = true) :
    e.quiet = true ∧ e.1.fd? = none ∧ e.1.dir? = none := by
  obtain ⟨op, a⟩ := e
  cases op with
  | sys call => cases call <;> first | exact ⟨rfl, rfl, rfl⟩ | cases he
  | file op => cases he
  | dir op => cases he
  | overridden op => cases he
  | _ => exact ⟨rfl, rfl, rfl⟩

section

variable {dirsToOverride : DirsToOverride} {w w' : World} {t : ThreadId} {message : Message}
  {es : List WorkerEvent} {res : Except Fault Message}

/-- Where a handler throws, what it throws does not matter. -/
theorem Served.of_error {e : Fault} (h : Served w message w' es (.error e)) :
    Served w message w' es res := by
  cases h with
  | idle hfile hdir hes hw => exact .idle hfile hdir hes hw
  | useFile htype hfile hdir hes hacts hfail hw =>
      refine .useFile htype hfile hdir hes hacts (fun hclosed => ?_) hw
      obtain ⟨_, _, -, -, hres⟩ := hfail hclosed
      cases hres
  | useDir htype hfile hdir hover hes hacts hfail hw =>
      refine .useDir htype hfile hdir hover hes hacts (fun hnull => ?_) hw
      obtain ⟨_, _, -, -, hres⟩ := hfail hnull
      cases hres
  | useOverridden htype hfile hdir hover hes hw =>
      exact .useOverridden htype hfile hdir hover hes hw

theorem Served.throw {e : Fault} (hfile : fileId? message = none) (hdir : dirId? message = none)
    (h : exec (World.step t) w (.throw e) es = some (res, w')) : Served w message w' es res := by
  obtain ⟨rfl, heq⟩ := exec_throw_iff.mp h
  cases heq
  exact .idle hfile hdir (by simp [UsesNone]) rfl

/-- A handler that does nothing to tables and handles. -/
theorem Served.neutral {p : WorkerProg Message} (hp : p.Only fun op => op.Neutral = true)
    (hfile : fileId? message = none) (hdir : dirId? message = none)
    (h : exec (World.step t) w p es = some (res, w')) : Served w message w' es res := by
  obtain ⟨hes, hw⟩ := hp.exec (I := fun s => s.handles = w.handles)
    (fun _ _ _ _ hop hs hstep => (World.step_neutral hop hstep).trans hs) rfl h
  exact .idle hfile hdir (fun e he => e.usesNone_of_neutral (hes e he)) hw

/-- The requests that use an open file: look the id up, make one call, reply. -/
theorem Served.use {type : CommanderMessageType} {fdId : Int32} (call : Int32 → SysCall)
    (fields : (fd : Int32) → Except Int32 (call fd).Val → Int32 → List Field)
    (htype : CommanderMessageType.ofUint8 message.type = some type) (hclose : type ≠ .close)
    (hfile : fileId? message = some fdId) (hdir : dirId? message = none)
    (hcall : ∀ fd, (call fd).fd? = some fd)
    (hkeeps : ∀ fd r, w.handlesAfter (call fd) r = w)
    (hfailure : ∀ fd e errno, FailureFields type (fields fd (.error e) errno) ∧
      commandResult message (fields fd (.error e) errno) =
        .pure (reply message (fields fd (.error e) errno)))
    (h : exec (World.step t) w (do
      let fd ← FileCommandsHandler.getFd fdId
      let r ← sys (call fd)
      let errno ← getErrno
      commandResult message (fields fd r errno)) es = some (res, w')) :
    Served w message w' es res := by
  obtain ⟨fd, es₁, w₁, rfl, hgetFd, h₁⟩ := exec_perform_iff.mp h
  obtain ⟨r, es₂, w₂, rfl, hsys, h₂⟩ := exec_perform_iff.mp h₁
  obtain ⟨errno, es₃, w₃, rfl, herrno, h₃⟩ := exec_perform_iff.mp h₂
  obtain ⟨rfl, heq⟩ := exec_lift_iff.mp h₃
  cases heq
  obtain ⟨rfl, rfl⟩ := World.step_getFd hgetFd
  obtain rfl := World.step_errno herrno
  obtain ⟨hallows, hw⟩ := World.step_sys hsys
  refine .useFile (by simp [htype, hclose]) hfile hdir ?_ ⟨_, .tail _ (.head _), hcall _⟩ ?_
    (hw.trans (by rw [hkeeps]))
  · have hbefore : UsesNone [⟨.file (.getFd fdId), w₁.file.getFd (-1) fdId⟩] :=
      .cons ⟨rfl, rfl, rfl⟩ .nil
    have hafter : UsesNone [⟨.errno, errno⟩] := .cons ⟨rfl, rfl, rfl⟩ .nil
    exact hbefore.usesFile.append ((usesFile_call (hcall _) hallows).append hafter.usesFile)
  · intro hclosed
    obtain ⟨e, rfl⟩ := World.error_of_allows hallows (hcall _) hclosed
    obtain ⟨hfields, hresult⟩ := hfailure (w₁.file.getFd (-1) fdId) e errno
    exact ⟨type, _, htype, hfields, Prog.lift_eq_pure_iff.mp hresult⟩

theorem Served.close (htype : CommanderMessageType.ofUint8 message.type = some .close)
    (h : exec (World.step t) w (FileCommandsHandler.close message) es = some (res, w')) :
    Served w message w' es res := by
  have hdir : dirId? message = none := by simp [dirId?, htype]
  rcases arguments_cases message [] with ⟨fdId, args, hid, hargs⟩ | ⟨e, hid, hargs⟩ <;>
    simp only [FileCommandsHandler.close, hargs] at h
  · have hfile : fileId? message = some fdId := by simp [fileId?, htype, hid]
    obtain ⟨fd, es₁, w₁, rfl, hgetFd, h₁⟩ := exec_perform_iff.mp h
    obtain ⟨r, es₂, w₂, rfl, hsys, h₂⟩ := exec_perform_iff.mp h₁
    obtain ⟨_, es₃, w₃, rfl, herase, h₃⟩ := exec_perform_iff.mp h₂
    obtain ⟨errno, es₄, w₄, rfl, herrno, h₄⟩ := exec_perform_iff.mp h₃
    replace h₄ : exec _ w₄ (commandResult message [successField r, .int32 errno]) es₄ = _ := h₄
    rw [commandResult_status] at h₄
    obtain ⟨rfl, heq⟩ := exec_pure_iff.mp h₄
    cases heq
    obtain ⟨rfl, rfl⟩ := World.step_getFd hgetFd
    obtain rfl := World.step_errno herrno
    obtain ⟨hallows, hw⟩ := World.step_sys hsys
    cases herase
    refine .closeFile htype hfile hdir ?_ ⟨_, .tail _ (.head _), rfl⟩
      (World.error_of_allows hallows rfl) ?_
    · have hbefore : UsesNone [⟨.file (.getFd fdId), w₁.file.getFd (-1) fdId⟩] :=
        .cons ⟨rfl, rfl, rfl⟩ .nil
      have hafter : UsesNone [⟨.file (.erase fdId), ()⟩, ⟨.errno, errno⟩] :=
        .cons ⟨rfl, rfl, rfl⟩ (.cons ⟨rfl, rfl, rfl⟩ .nil)
      exact hbefore.usesFile.append ((usesFile_call rfl hallows).append hafter.usesFile)
    · obtain ⟨hw₁, hw₂, hw₃, hw₄, hw₅⟩ := Handles.mk.inj hw
      simp [World.handles, World.handlesAfter, hw₁, hw₂, hw₃, hw₄, hw₅]
  · have hfile : fileId? message = none := by simp [fileId?, htype, hid]
    exact .throw hfile hdir h

section

open FileCommandsHandler

/-- The reply to a failed `read` or `pread`: the buffer goes back as it was made. -/
theorem commandResult_failedRead (message : Message) (size : UInt32) (errno : Int32) :
    commandResult message [.int32 (-1), .int32 errno,
        .byteVector (List.replicate size.toNat 0)] =
      .pure (reply message [.int32 (-1), .int32 errno,
        .byteVector (List.replicate size.toNat 0)]) :=
  commandResult_bytes message (-1) errno (by simpa using size.toNat_lt)

theorem Served.read (htype : CommanderMessageType.ofUint8 message.type = some .read)
    (h : exec (World.step t) w (FileCommandsHandler.read message) es = some (res, w')) :
    Served w message w' es res := by
  have hdir : dirId? message = none := by simp [dirId?, htype]
  rcases arguments_cases message [.uint32] with ⟨fdId, args, hid, hargs⟩ | ⟨e, hid, hargs⟩ <;>
    simp only [FileCommandsHandler.read, hargs] at h
  · apply Served.use (fun fd => .read fd args.1)
      (fun _ r errno => [.int32 (readValue r), .int32 errno, .byteVector (readBuffer args.1 r)])
      htype (by decide) (by simp [fileId?, htype, hid]) hdir (fun _ => rfl) (fun _ _ => rfl) _ h
    exact fun _ _ errno => ⟨.read errno _, commandResult_failedRead message args.1 errno⟩
  · exact .throw (by simp [fileId?, htype, hid]) hdir h

theorem Served.pread (htype : CommanderMessageType.ofUint8 message.type = some .pRead)
    (h : exec (World.step t) w (FileCommandsHandler.pread message) es = some (res, w')) :
    Served w message w' es res := by
  have hdir : dirId? message = none := by simp [dirId?, htype]
  rcases arguments_cases message [.uint32, .int64] with
    ⟨fdId, args, hid, hargs⟩ | ⟨e, hid, hargs⟩ <;>
    simp only [FileCommandsHandler.pread, hargs] at h
  · apply Served.use (fun fd => .pread64 fd args.1 args.2.1)
      (fun _ r errno => [.int32 (readValue r), .int32 errno, .byteVector (readBuffer args.1 r)])
      htype (by decide) (by simp [fileId?, htype, hid]) hdir (fun _ => rfl) (fun _ _ => rfl) _ h
    exact fun _ _ errno => ⟨.pRead errno _, commandResult_failedRead message args.1 errno⟩
  · exact .throw (by simp [fileId?, htype, hid]) hdir h

theorem Served.write (htype : CommanderMessageType.ofUint8 message.type = some .write)
    (h : exec (World.step t) w (FileCommandsHandler.write message) es = some (res, w')) :
    Served w message w' es res := by
  have hdir : dirId? message = none := by simp [dirId?, htype]
  rcases arguments_cases message [.byteVector] with
    ⟨fdId, args, hid, hargs⟩ | ⟨e, hid, hargs⟩ <;>
    simp only [FileCommandsHandler.write, hargs] at h
  · apply Served.use (fun fd => .write fd args.1)
      (fun _ r errno => [.int32 (writeValue r), .int32 errno])
      htype (by decide) (by simp [fileId?, htype, hid]) hdir (fun _ => rfl) (fun _ _ => rfl) _ h
    exact fun _ _ errno => ⟨.write errno, commandResult_value message (-1) errno⟩
  · exact .throw (by simp [fileId?, htype, hid]) hdir h

theorem Served.pwrite (htype : CommanderMessageType.ofUint8 message.type = some .pWrite)
    (h : exec (World.step t) w (FileCommandsHandler.pwrite message) es = some (res, w')) :
    Served w message w' es res := by
  have hdir : dirId? message = none := by simp [dirId?, htype]
  rcases arguments_cases message [.int64, .byteVector] with
    ⟨fdId, args, hid, hargs⟩ | ⟨e, hid, hargs⟩ <;>
    simp only [FileCommandsHandler.pwrite, hargs] at h
  · apply Served.use (fun fd => .pwrite64 fd args.2.1 args.1)
      (fun _ r errno => [.int32 (writeValue r), .int32 errno])
      htype (by decide) (by simp [fileId?, htype, hid]) hdir (fun _ => rfl) (fun _ _ => rfl) _ h
    exact fun _ _ errno => ⟨.pWrite errno, commandResult_value message (-1) errno⟩
  · exact .throw (by simp [fileId?, htype, hid]) hdir h

end

theorem Served.open (htype : CommanderMessageType.ofUint8 message.type = some .open)
    (h : exec (World.step t) w (FileCommandsHandler.open message) es = some (res, w')) :
    Served w message w' es res := by
  have hfile : fileId? message = none := by simp [fileId?, htype]
  have hdir : dirId? message = none := by simp [dirId?, htype]
  rcases arguments_pure_or_throw message [.str, .int32, .int32] with ⟨args, hargs⟩ | ⟨e, hargs⟩ <;>
    simp only [FileCommandsHandler.open, hargs, Prog.pure_bind, Prog.throw_bind, Prog.call_bind,
      exec_perform_iff] at h
  case inr => exact .throw hfile hdir h
  obtain ⟨r, es₁, w₁, rfl, hsys, h₁⟩ := h
  obtain ⟨hallows, hw⟩ := World.step_sys hsys
  cases r with
  | error e =>
      simp only [Prog.pure_eq, Prog.pure_bind, exec_perform_iff, commandResult_value] at h₁
      obtain ⟨errno, es₂, w₂, rfl, herrno, h₂⟩ := h₁
      obtain rfl := World.step_errno herrno
      obtain ⟨rfl, heq⟩ := exec_pure_iff.mp h₂
      cases heq
      exact .idle hfile hdir (.cons ⟨rfl, rfl, rfl⟩ (.cons ⟨rfl, rfl, rfl⟩ .nil)) hw
  | ok fd =>
      simp only [Prog.pure_eq, Prog.pure_bind, exec_perform_iff, commandResult_value] at h₁
      obtain ⟨fdId, es₂, w₂, rfl, hnext, _, es₃, w₃, rfl, hemplace, errno, es₄, w₄, rfl, herrno,
        h₂⟩ := h₁
      obtain ⟨rfl, heq⟩ := exec_pure_iff.mp h₂
      cases heq
      obtain rfl := World.step_errno herrno
      obtain ⟨rfl, rfl⟩ := World.step_nextFdId hnext
      cases hemplace
      have hfree : w.files.serial fd = none ∧ fd ≠ -1 := by
        have hfree : w.files.serial fd = none ∧ 0 ≤ fd := by simpa [World.allows] using hallows
        refine ⟨hfree.1, ?_⟩
        rintro rfl
        exact (by decide : ¬ (0 : Int32) ≤ -1) hfree.2
      obtain ⟨hw₁, hw₂, hw₃, hw₄, hw₅⟩ := Handles.mk.inj hw
      simp only [World.handlesAfter, hfree, ne_eq, not_false_eq_true, and_self, dite_true]
        at hw₁ hw₂ hw₃ hw₄ hw₅
      rw [hw₁]
      refine .openFile hfile hdir hfree ?_
      simp [World.handles, hw₂, hw₃, hw₄, hw₅]

theorem Served.opendir (htype : CommanderMessageType.ofUint8 message.type = some .openDir)
    (h : exec (World.step t) w (DirCommandsHandler.opendir dirsToOverride message) es =
      some (res, w')) : Served w message w' es res := by
  have hfile : fileId? message = none := by simp [fileId?, htype]
  have hdir : dirId? message = none := by simp [dirId?, htype]
  rcases arguments_pure_or_throw message [.str] with ⟨args, hargs⟩ | ⟨e, hargs⟩ <;>
    simp only [DirCommandsHandler.opendir, hargs, Prog.pure_bind, Prog.throw_bind] at h
  case inr => exact .throw hfile hdir h
  cases hoverride : dirsToOverride.lookup args.1 with
  | some entries =>
      simp only [hoverride, Prog.call_bind, exec_perform_iff, commandResult_value] at h
      obtain ⟨fdId, es₁, w₁, rfl, hnext, _, es₂, w₂, rfl, hemplace, h₁⟩ := h
      obtain ⟨rfl, heq⟩ := exec_pure_iff.mp h₁
      cases heq
      obtain ⟨rfl, rfl⟩ := World.step_dirNextFdId hnext
      obtain rfl := World.step_emplace hemplace
      exact .openOverridden hfile hdir rfl
  | none =>
      simp only [hoverride, Prog.call_bind, exec_perform_iff] at h
      obtain ⟨r, es₁, w₁, rfl, hsys, h₁⟩ := h
      obtain ⟨hallows, hw⟩ := World.step_sys hsys
      cases r with
      | error e =>
          simp only [Prog.pure_eq, Prog.pure_bind, exec_perform_iff, commandResult_value] at h₁
          obtain ⟨errno, es₂, w₂, rfl, herrno, h₂⟩ := h₁
          obtain rfl := World.step_errno herrno
          obtain ⟨rfl, heq⟩ := exec_pure_iff.mp h₂
          cases heq
          exact .idle hfile hdir (.cons ⟨rfl, rfl, rfl⟩ (.cons ⟨rfl, rfl, rfl⟩ .nil)) hw
      | ok dir =>
          simp only [Prog.pure_eq, Prog.pure_bind, exec_perform_iff, commandResult_value] at h₁
          obtain ⟨fdId, es₂, w₂, rfl, hnext, _, es₃, w₃, rfl, hemplace, errno, es₄, w₄, rfl,
            herrno, h₂⟩ := h₁
          obtain ⟨rfl, heq⟩ := exec_pure_iff.mp h₂
          cases heq
          obtain rfl := World.step_errno herrno
          obtain ⟨rfl, rfl⟩ := World.step_dirNextFdId hnext
          cases hemplace
          have hfree : w.dirs.serial (some dir) = none ∧ some dir ≠ none :=
            ⟨by simpa [World.allows] using hallows, by simp⟩
          obtain ⟨hw₁, hw₂, hw₃, hw₄, hw₅⟩ := Handles.mk.inj hw
          simp only [World.handlesAfter, hfree, ne_eq, not_false_eq_true, and_self, dite_true]
            at hw₁ hw₂ hw₃ hw₄ hw₅
          rw [hw₂]
          refine .openDir hfile hdir hfree ?_
          simp [World.handles, hw₁, hw₃, hw₄, hw₅]

theorem Served.closedir (htype : CommanderMessageType.ofUint8 message.type = some .closeDir)
    (h : exec (World.step t) w (DirCommandsHandler.closedir message) es = some (res, w')) :
    Served w message w' es res := by
  have hfile : fileId? message = none := by simp [fileId?, htype]
  rcases arguments_cases message [] with ⟨fdId, args, hid, hargs⟩ | ⟨e, hid, hargs⟩ <;>
    simp only [DirCommandsHandler.closedir, DirCommandsHandler.getFd, hargs, Prog.pure_bind,
      Prog.throw_bind, Prog.call_bind, exec_perform_iff] at h
  case inr => exact .throw hfile (by simp [dirId?, htype, hid]) h
  have hdir : dirId? message = some fdId := by simp [dirId?, htype, hid]
  obtain ⟨overridden, es₁, w₁, rfl, hfind, h₁⟩ := h
  obtain ⟨hover, rfl⟩ := World.step_find hfind
  cases overridden with
  | some entries =>
      simp only [exec_perform_iff] at h₁
      obtain ⟨_, es₂, w₂, rfl, herase, h₂⟩ := h₁
      rw [commandResult_eq _ (by simp)] at h₂
      obtain ⟨rfl, heq⟩ := exec_pure_iff.mp h₂
      cases heq
      cases herase
      exact .closeOverridden htype hfile hdir hover.symm
        (.cons ⟨rfl, rfl, rfl⟩ (.cons ⟨rfl, rfl, rfl⟩ .nil)) rfl
  | none =>
      simp only [exec_perform_iff, statusReply, Prog.call_bind, commandResult_status] at h₁
      obtain ⟨dir, es₂, w₂, rfl, hgetFd, r, es₃, w₃, rfl, hsys, _, es₄, w₄, rfl, herase, errno, es₅,
        w₅, rfl, herrno, h₅⟩ := h₁
      obtain ⟨rfl, heq⟩ := exec_pure_iff.mp h₅
      cases heq
      obtain ⟨rfl, rfl⟩ := World.step_dirGetFd hgetFd
      obtain rfl := World.step_errno herrno
      obtain ⟨hallows, hw⟩ := World.step_sys hsys
      cases herase
      refine .closeDir htype hfile hdir hover.symm ?_ ⟨_, .tail _ (.tail _ (.head _)), rfl⟩
        (World.error_of_allows_dir hallows rfl) ?_
      · have hbefore : UsesNone [⟨.overridden (.find fdId), none⟩,
            ⟨.dir (.getFd fdId), w₂.dir.getFd none fdId⟩] :=
          .cons ⟨rfl, rfl, rfl⟩ (.cons ⟨rfl, rfl, rfl⟩ .nil)
        have hafter : UsesNone [⟨.dir (.erase fdId), ()⟩, ⟨.errno, errno⟩] :=
          .cons ⟨rfl, rfl, rfl⟩ (.cons ⟨rfl, rfl, rfl⟩ .nil)
        exact hbefore.usesDir.append ((usesDir_call rfl hallows).append hafter.usesDir)
      · obtain ⟨hw₁, hw₂, hw₃, hw₄, hw₅⟩ := Handles.mk.inj hw
        simp [World.handles, World.handlesAfter, hw₁, hw₂, hw₃, hw₄, hw₅]

/-- A listing of nothing but an error number. -/
theorem readdirReply_new (message : Message) (errno : Int32) :
    DirCommandsHandler.readdirReply message BinarySerializer.new errno =
      .pure (reply message [.int32 errno]) := by
  rw [readdirReply_append message BinarySerializer.synced_new (by simp [BinarySerializer.new])]
  simp [reply, BinarySerializer.new]
  rfl

/-- The loop reads the one stream, at least once if it is to read anything, and changes nothing. -/
theorem readdirLoop_exec {dir : DirPtr} :
    ∀ {n : Nat} {s : BinarySerializer} {w : World} {es : List WorkerEvent}
      {r : Except Fault BinarySerializer},
      exec (World.step t) w (DirCommandsHandler.readdirLoop dir n s) es = some (r, w') →
        UsesDir w dir es ∧ (n ≠ 0 → ∃ e ∈ es, e.1 = .sys (.readdir dir)) ∧
          w'.handles = w.handles
  | 0, s, w, es, r, h => by
      obtain ⟨rfl, heq⟩ := exec_pure_iff.mp h
      cases heq
      exact ⟨UsesNone.nil.usesDir, fun hn => absurd rfl hn, rfl⟩
  | n + 1, s, w, es, r, h => by
      simp only [DirCommandsHandler.readdirLoop, Prog.call_bind, exec_perform_iff] at h
      obtain ⟨_, es₁, w₁, rfl, hsetErrno, entry, es₂, w₂, rfl, hsys, h₂⟩ := h
      cases hsetErrno
      obtain ⟨hallows, hw⟩ := World.step_sys hsys
      have hthis : UsesDir w dir [⟨.setErrno 0, ()⟩, ⟨.sys (.readdir dir), entry⟩] :=
        (UsesNone.cons ⟨rfl, rfl, rfl⟩ .nil).usesDir.append (usesDir_call rfl hallows)
      -- whether the loop goes on or not, the rest of it does as much
      have hrest : UsesDir w₂ dir es₂ ∧ w'.handles = w₂.handles := by
        have hstop : ∀ {x : Except Fault BinarySerializer}, es₂ = [] ∧ (r, w') = (x, w₂) →
            UsesDir w₂ dir es₂ ∧ w'.handles = w₂.handles := by
          rintro x ⟨rfl, heq⟩
          cases heq
          exact ⟨UsesNone.nil.usesDir, rfl⟩
        rcases entry with e | _ | d
        · exact hstop (exec_pure_iff.mp h₂)
        · exact hstop (exec_pure_iff.mp h₂)
        · cases hfields : DirCommandsHandler.direntFields d s with
          | error e =>
              simp only [hfields, Prog.lift_error, Prog.throw_bind] at h₂
              exact hstop (exec_throw_iff.mp h₂)
          | ok s' =>
              simp only [hfields, Prog.lift_ok, Prog.pure_bind] at h₂
              have hloop := readdirLoop_exec h₂
              exact ⟨hloop.1, hloop.2.2⟩
      have hdirs : w₂.dirs = w.dirs := congrArg Handles.dirs hw
      refine ⟨hthis.append ?_, fun _ => ⟨_, .tail _ (.head _), rfl⟩, hrest.2.trans hw⟩
      simpa only [UsesDir, hdirs] using hrest.1

theorem Served.readdir (htype : CommanderMessageType.ofUint8 message.type = some .readDir)
    (h : exec (World.step t) w (DirCommandsHandler.readdir message) es = some (res, w')) :
    Served w message w' es res := by
  have hfile : fileId? message = none := by simp [fileId?, htype]
  rcases arguments_cases message [.uint32] with ⟨fdId, args, hid, hargs⟩ | ⟨e, hid, hargs⟩ <;>
    simp only [DirCommandsHandler.readdir, DirCommandsHandler.getFd, hargs, Prog.pure_bind,
      Prog.throw_bind, Prog.call_bind, exec_perform_iff] at h
  case inr => exact .throw hfile (by simp [dirId?, htype, hid]) h
  have hdir : dirId? message = some fdId := by simp [dirId?, htype, hid]
  obtain ⟨overridden, es₁, w₁, rfl, hfind, h₁⟩ := h
  obtain ⟨hover, rfl⟩ := World.step_find hfind
  cases overridden with
  | some entries =>
      -- the listing comes from the table, whether or not it fits a message
      have hpure : ∃ r : Except Fault Message, exec (World.step t) w₁ (Prog.lift r) es₁ =
          some (res, w') := by
        cases hloop : DirCommandsHandler.overriddenLoop entries args.1.toNat
            BinarySerializer.new with
        | error e =>
            simp only [hloop, Prog.lift_error, Prog.throw_bind] at h₁
            exact ⟨.error e, h₁⟩
        | ok s =>
            simp only [hloop, Prog.lift_ok, Prog.pure_bind, DirCommandsHandler.readdirReply] at h₁
            exact ⟨_, h₁⟩
      obtain ⟨r, hr⟩ := hpure
      obtain ⟨rfl, heq⟩ := exec_lift_iff.mp hr
      cases heq
      exact .useOverridden htype hfile hdir hover.symm (.cons ⟨rfl, rfl, rfl⟩ .nil) rfl
  | none =>
      simp only [exec_perform_iff] at h₁
      obtain ⟨dir, es₂, w₂, rfl, hgetFd, h₂⟩ := h₁
      obtain ⟨hdirPtr, rfl⟩ := World.step_dirGetFd hgetFd
      have hbefore : UsesNone [⟨.overridden (.find fdId), none⟩, ⟨.dir (.getFd fdId), dir⟩] :=
        .cons ⟨rfl, rfl, rfl⟩ (.cons ⟨rfl, rfl, rfl⟩ .nil)
      cases dir with
      | none =>
          simp only [readdirReply_new] at h₂
          obtain ⟨rfl, heq⟩ := exec_pure_iff.mp h₂
          cases heq
          refine .useDir htype hfile hdir hover.symm hbefore.usesDir ?_
            (fun _ => ⟨.readDir, _, htype, .readDir, rfl⟩) rfl
          intro entries dir _ _ hopen
          rw [← hdirPtr] at hopen
          cases hopen
      | some dir =>
          obtain ⟨r, w₃, es₃, es₄, rfl, hloop, h₄⟩ := exec_bind h₂
          obtain ⟨hes₃, hread, hw₃⟩ := readdirLoop_exec hloop
          have hopen : w₂.dir.getFd none fdId ≠ none := by simp [← hdirPtr]
          have hafter : UsesNone es₄ ∧ w'.handles = w₃.handles := by
            cases r with
            | error e =>
                obtain ⟨rfl, heq⟩ := h₄
                cases heq
                exact ⟨.nil, rfl⟩
            | ok s =>
                simp only [exec_perform_iff] at h₄
                obtain ⟨errno, es₅, w₅, rfl, herrno, h₅⟩ := h₄
                obtain rfl := World.step_errno herrno
                obtain ⟨rfl, heq⟩ := exec_lift_iff.mp h₅
                cases heq
                exact ⟨.cons ⟨rfl, rfl, rfl⟩ .nil, rfl⟩
          refine .useDir htype hfile hdir hover.symm ?_ ?_ (fun hnull => absurd hnull hopen)
            (hafter.2.trans hw₃)
          · rw [← hdirPtr]
            exact hbefore.usesDir.append (hes₃.append hafter.1.usesDir)
          · intro entries dir' hentries hne hdir'
            rw [← hdirPtr] at hdir'
            cases hdir'
            obtain rfl : args.1 = entries :=
              Option.some.inj ((dirEntries?_of_arguments hargs).symm.trans hentries)
            have hpos : args.1.toNat ≠ 0 := fun hzero => hne (UInt32.toNat_inj.mp hzero)
            obtain ⟨e, he, hop⟩ := hread hpos
            exact ⟨e, .tail _ (.tail _ (List.mem_append_left _ he)), hop⟩

/-! ## Requests on no handle -/

section

variable {α : Type} {P : WorkerOp → Prop}

theorem only_arguments {kinds : List FieldKind} {f : Values kinds → WorkerProg α}
    (hf : ∀ args, (f args).Only P) : (arguments message kinds >>= f).Only P :=
  (Prog.only_lift _).bind hf

theorem only_commandResult {fields : List Field} : (commandResult message fields).Only P :=
  Prog.only_lift _

theorem only_statusReply (r : Except Int32 α) :
    (statusReply message r).Only fun op => op.Neutral = true :=
  ⟨rfl, fun _ => only_commandResult⟩

/-- A call that concerns no handle, and a reply with its success. -/
theorem only_status {call : SysCall} (hcall : (WorkerOp.sys call).Neutral = true) :
    (sys call >>= fun r => statusReply message r).Only fun op => op.Neutral = true :=
  ⟨hcall, only_statusReply⟩

end

theorem only_getattr :
    (FileCommandsHandler.getattr message).Only fun op => op.Neutral = true := by
  apply only_arguments
  intro args
  simp only [Prog.call_bind, Prog.only_perform]
  refine ⟨rfl, fun r => ⟨rfl, fun errno => ?_⟩⟩
  cases r <;> exact (only_commandResult :)

theorem only_statvfs :
    (FileCommandsHandler.statvfs message).Only fun op => op.Neutral = true := by
  apply only_arguments
  intro args
  simp only [Prog.call_bind, Prog.only_perform]
  refine ⟨rfl, fun r => ?_⟩
  cases r with
  | ok stbuf =>
      simp only [Prog.pure_eq, Prog.pure_bind, Prog.only_perform]
      exact ⟨rfl, fun _ => (only_commandResult :)⟩
  | error e =>
      simp only [Prog.only_perform]
      exact ⟨rfl, fun _ => ⟨rfl, fun _ => (only_commandResult :)⟩⟩

theorem only_rename :
    (FileCommandsHandler.rename message).Only fun op => op.Neutral = true := by
  apply only_arguments
  intro args
  by_cases hnoreplace : args.2.2.1 &&& FileCommandsHandler.renameNoreplace = 0 <;>
    by_cases hexchange : args.2.2.1 &&& FileCommandsHandler.renameExchange = 0 <;>
    simp only [hnoreplace, hexchange, ne_eq, not_true_eq_false, not_false_eq_true, if_true,
      if_false, Prog.pure_eq, Prog.pure_bind, Prog.call_bind, Prog.only_perform]
  · exact only_status rfl
  · exact ⟨rfl, fun _ => only_statusReply _⟩
  · refine ⟨rfl, fun r => ?_⟩
    cases r with
    | ok info => exact ⟨rfl, fun _ => only_statusReply _⟩
    | error e => exact only_status rfl
  · refine ⟨rfl, fun r => ?_⟩
    cases r with
    | ok info => exact ⟨rfl, fun _ => ⟨rfl, fun _ => only_statusReply _⟩⟩
    | error e => exact ⟨rfl, fun _ => only_statusReply _⟩

/-- What the `switch` dispatches to is of one of the kinds. -/
theorem served_dispatch
    (h : exec (World.step t) w (Worker.dispatch dirsToOverride message) es = some (res, w')) :
    Served w message w' es res := by
  cases htype : CommanderMessageType.ofUint8 message.type with
  | none =>
      simp only [Worker.dispatch, htype] at h
      exact .neutral (Prog.only_pure _) (by simp [fileId?, htype]) (by simp [dirId?, htype]) h
  | some type =>
      -- the requests on handles
      cases type
      case close => simp only [Worker.dispatch, htype] at h; exact .close htype h
      case read => simp only [Worker.dispatch, htype] at h; exact .read htype h
      case pRead => simp only [Worker.dispatch, htype] at h; exact .pread htype h
      case write => simp only [Worker.dispatch, htype] at h; exact .write htype h
      case pWrite => simp only [Worker.dispatch, htype] at h; exact .pwrite htype h
      case «open» => simp only [Worker.dispatch, htype] at h; exact .open htype h
      case openDir => simp only [Worker.dispatch, htype] at h; exact .opendir htype h
      case closeDir => simp only [Worker.dispatch, htype] at h; exact .closedir htype h
      case readDir => simp only [Worker.dispatch, htype] at h; exact .readdir htype h
      all_goals
        have hfile : fileId? message = none := by simp [fileId?, htype]
        have hdir : dirId? message = none := by simp [dirId?, htype]
        simp only [Worker.dispatch, htype] at h
        refine Served.neutral ?_ hfile hdir h
      case disconnect => exact ⟨rfl, fun _ => Prog.only_pure _⟩
      case getAttr => exact only_getattr
      case rename => exact only_rename
      case statFileSystem => exact only_statvfs
      case access | truncate | unlink | changeMode | changeOwner | setTimes | makeDir | removeDir =>
        exact only_arguments fun _ => only_status rfl
      all_goals exact Prog.only_pure _

/-- What `_do_command` did is of one of the kinds. -/
theorem served (h : exec (World.step t) w (Worker.doCommand dirsToOverride message) es =
    some (res, w')) : Served w message w' es res := by
  obtain ⟨r, s, es₁, es₂, rfl, h₁, h₂⟩ := exec_tryCatch h
  cases r with
  | ok m =>
      obtain ⟨rfl, heq⟩ := h₂
      cases heq
      simpa using served_dispatch h₁
  | error e =>
      have hcatch : es₂ = [] ∧ w' = s := by
        cases e with
        | exception kind what =>
            simp only [Worker.onException] at h₂
            obtain ⟨rfl, heq⟩ := exec_lift_iff.mp h₂
            exact ⟨rfl, congrArg Prod.snd heq⟩
        | undefined what =>
            simp only [Worker.onException] at h₂
            obtain ⟨rfl, heq⟩ := exec_throw_iff.mp h₂
            exact ⟨rfl, congrArg Prod.snd heq⟩
      obtain ⟨rfl, rfl⟩ := hcatch
      simpa using (served_dispatch h₁).of_error

end

end ZControl
