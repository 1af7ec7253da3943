import ZControl.Worker.Overlap

/-!
# What the requests do with the tables

Whatever its operations are answered, a request opens a handle and puts it into the table, or looks
the id that it names up and then makes calls on what it has found or closes it and takes the id
out. What it does with one table leaves the other alone.
-/

namespace ZControl

open Interaction SharedTable

namespace Worker

namespace Overlap

/-! ## Keeping to the protocol -/

section

variable {H : Type} {null : H} {X : Handler H null} {message : Message} {x : Phase Int32 H}

/-- An operation that does not concern the table, whatever it is answered. -/
def Handler.Ignores (X : Handler H null) (op : WorkerOp) : Prop := ∀ a, X.access ⟨op, a⟩ = none

theorem ignores : (X.protocol message).Ignores x X.Ignores := by
  intro op hop a
  dsimp only [Handler.protocol]
  rw [hop a]
  exact ⟨trivial, rfl⟩

theorem follows_of_only {α : Type} {p : WorkerProg α} (hp : p.Only X.Ignores) (hx : x.Ends) :
    p.Follows (X.protocol message) x :=
  hp.follows ignores hx

theorem follows_arguments {α : Type} {kinds : List FieldKind} {f : Values kinds → WorkerProg α}
    (hx : x.Ends) (hf : ∀ args, (f args).Follows (X.protocol message) x) :
    (arguments message kinds >>= f).Follows (X.protocol message) x :=
  (Prog.only_lift _).bind_follows ignores hx hf

/-- A request that names an id knows it once its arguments are decoded. -/
theorem follows_named {α : Type} {kinds : List FieldKind}
    {f : Values (.int32 :: kinds) → WorkerProg α} (hx : x.Ends)
    (hnamed : X.named message = idArgument message kinds)
    (hf : ∀ fdId args, X.named message = some fdId →
      (f (fdId, args)).Follows (X.protocol message) x) :
    (arguments message (.int32 :: kinds) >>= f).Follows (X.protocol message) x := by
  rcases arguments_cases message kinds with ⟨fdId, args, hid, hargs⟩ | ⟨e, -, hargs⟩
  · rw [hargs]
    exact hf fdId args (hnamed.trans hid)
  · rw [hargs]
    exact Prog.follows_throw.mpr hx

/-- One operation, with what it does to the table. -/
theorem follows_perform {α : Type} {op : WorkerOp} {k : op.Ans → WorkerProg α}
    (hk : ∀ a,
      match X.access ⟨op, a⟩ with
      | some access =>
          x.Allows (fun fdId => X.named message = some fdId) access ∧
            (k a).Follows (X.protocol message) (x.next access)
      | none => (k a).Follows (X.protocol message) x) :
    (Prog.perform op k).Follows (X.protocol message) x := by
  refine Prog.follows_perform.mpr fun a => ?_
  have ha := hk a
  show (match X.access ⟨op, a⟩ with
      | some a => x.Allows (fun fdId => X.named message = some fdId) a
      | none   => True) ∧
    (k a).Follows (X.protocol message) (match X.access ⟨op, a⟩ with
      | some a => x.next a
      | none   => x)
  cases haccess : X.access ⟨op, a⟩ with
  | none =>
      rw [haccess] at ha
      exact ⟨trivial, ha⟩
  | some access =>
      rw [haccess] at ha
      exact ha

theorem follows_skip {α : Type} {op : WorkerOp} {k : op.Ans → WorkerProg α} (hop : X.Ignores op)
    (hk : ∀ a, (k a).Follows (X.protocol message) x) :
    (Prog.perform op k).Follows (X.protocol message) x := by
  refine follows_perform fun a => ?_
  rw [hop a]
  exact hk a

theorem follows_commandResult {fields : List Field} (hx : x.Ends) :
    (commandResult message fields).Follows (X.protocol message) x :=
  follows_of_only only_commandResult hx

end

theorem file_ignores {op : WorkerOp} (hop : op.Neutral = true) : fileHandler.Ignores op := by
  intro a
  cases op with
  | sys call => cases call <;> first | rfl | cases hop
  | file op => cases hop
  | _ => rfl

theorem dir_ignores {op : WorkerOp} (hop : op.Neutral = true) : dirHandler.Ignores op := by
  intro a
  cases op with
  | sys call => cases call <;> first | rfl | cases hop
  | dir op => cases hop
  | _ => rfl

/-! ## Requests on files -/

section

variable {message : Message}

theorem file_statusReply {α : Type} {r : Except Int32 α} :
    (statusReply message r).Follows (fileHandler.protocol message) .idle :=
  follows_of_only ((only_statusReply r).mono fun _ => file_ignores) trivial

theorem file_open :
    (FileCommandsHandler.open message).Follows (fileHandler.protocol message) .idle := by
  refine follows_arguments (x := .idle) trivial ?_
  rintro ⟨path, flags, mode, -⟩
  simp only [Prog.call_bind]
  refine follows_perform fun r => ?_
  cases r with
  | ok fd =>
      refine ⟨trivial, ?_⟩
      simp only [Prog.pure_eq, Prog.pure_bind]
      refine follows_skip (fun _ => rfl) fun fdId => ?_
      refine follows_perform fun _ => ⟨rfl, ?_⟩
      refine follows_skip (fun _ => rfl) fun errno => follows_commandResult ?_
      trivial
  | error e =>
      refine follows_skip (fun _ => rfl) fun errno => follows_commandResult ?_
      trivial

theorem file_close (hnamed : fileId? message = idArgument message []) :
    (FileCommandsHandler.close message).Follows (fileHandler.protocol message) .idle := by
  refine follows_named (x := .idle) trivial hnamed ?_
  rintro fdId ⟨⟩ hid
  refine follows_perform fun fd => ⟨hid, ?_⟩
  refine follows_perform fun r => ⟨rfl, ?_⟩
  exact follows_perform fun _ => ⟨rfl, file_statusReply⟩

/-- A call on a descriptor that has been looked up, and a reply. -/
theorem file_use {call : Int32 → SysCall} {fdId : Int32}
    {f : (fd : Int32) → Except Int32 (call fd).Val → WorkerProg Message}
    (hid : fileId? message = some fdId)
    (hcall : ∀ fd r, fileAccess ⟨.sys (call fd), r⟩ = some (.use fd))
    (hf : ∀ fd r, (f fd r).Only fun op => op.Neutral = true) :
    (FileCommandsHandler.getFd fdId >>= fun fd => sys (call fd) >>= f fd).Follows
      (fileHandler.protocol message) .idle := by
  refine follows_perform fun fd => ⟨hid, ?_⟩
  refine follows_perform fun r => ?_
  have haccess : fileHandler.access ⟨.sys (call fd), r⟩ = some (.use fd) := hcall fd r
  rw [haccess]
  exact ⟨rfl, follows_of_only ((hf fd r).mono fun _ => file_ignores) trivial⟩

theorem only_readReply (size : UInt32) (r : Except Int32 Bytes) :
    (FileCommandsHandler.readReply message size r).Only fun op => op.Neutral = true := by
  simp only [FileCommandsHandler.readReply, Prog.call_bind, Prog.only_perform]
  exact ⟨rfl, fun _ => (only_commandResult :)⟩

theorem only_writeReply (r : Except Int32 Int64) :
    (FileCommandsHandler.writeReply message r).Only fun op => op.Neutral = true := by
  simp only [FileCommandsHandler.writeReply, Prog.call_bind, Prog.only_perform]
  exact ⟨rfl, fun _ => (only_commandResult :)⟩

theorem file_read (hnamed : fileId? message = idArgument message [.uint32]) :
    (FileCommandsHandler.read message).Follows (fileHandler.protocol message) .idle := by
  refine follows_named (x := .idle) trivial hnamed ?_
  rintro fdId ⟨size, -⟩ hid
  exact file_use hid (fun _ _ => rfl) fun _ => only_readReply size

theorem file_pread (hnamed : fileId? message = idArgument message [.uint32, .int64]) :
    (FileCommandsHandler.pread message).Follows (fileHandler.protocol message) .idle := by
  refine follows_named (x := .idle) trivial hnamed ?_
  rintro fdId ⟨size, offset, -⟩ hid
  exact file_use hid (fun _ _ => rfl) fun _ => only_readReply size

theorem file_write (hnamed : fileId? message = idArgument message [.byteVector]) :
    (FileCommandsHandler.write message).Follows (fileHandler.protocol message) .idle := by
  refine follows_named (x := .idle) trivial hnamed ?_
  rintro fdId ⟨bytes, -⟩ hid
  exact file_use hid (fun _ _ => rfl) fun _ => only_writeReply

theorem file_pwrite (hnamed : fileId? message = idArgument message [.int64, .byteVector]) :
    (FileCommandsHandler.pwrite message).Follows (fileHandler.protocol message) .idle := by
  refine follows_named (x := .idle) trivial hnamed ?_
  rintro fdId ⟨offset, bytes, -⟩ hid
  exact file_use hid (fun _ _ => rfl) fun _ => only_writeReply

/-! ## Requests on directories -/

theorem dir_statusReply {α : Type} {r : Except Int32 α} :
    (statusReply message r).Follows (dirHandler.protocol message) .idle :=
  follows_of_only ((only_statusReply r).mono fun _ => dir_ignores) trivial

theorem dir_opendir (dirsToOverride : DirsToOverride) :
    (DirCommandsHandler.opendir dirsToOverride message).Follows (dirHandler.protocol message)
      .idle := by
  refine follows_arguments (x := .idle) trivial ?_
  rintro ⟨path, -⟩
  dsimp only
  cases dirsToOverride.lookup path with
  | some entries =>
      simp only [Prog.call_bind]
      refine follows_skip (fun _ => rfl) fun fdId => ?_
      refine follows_skip (fun _ => rfl) fun _ => follows_commandResult ?_
      trivial
  | none =>
      simp only [Prog.call_bind]
      refine follows_perform fun r => ?_
      cases r with
      | ok dir =>
          refine ⟨trivial, ?_⟩
          simp only [Prog.pure_eq, Prog.pure_bind]
          refine follows_skip (fun _ => rfl) fun fdId => ?_
          refine follows_perform fun _ => ⟨rfl, ?_⟩
          refine follows_skip (fun _ => rfl) fun errno => follows_commandResult ?_
          trivial
      | error e =>
          refine follows_skip (fun _ => rfl) fun errno => follows_commandResult ?_
          trivial

theorem dir_closedir (hnamed : dirId? message = idArgument message []) :
    (DirCommandsHandler.closedir message).Follows (dirHandler.protocol message) .idle := by
  refine follows_named (x := .idle) trivial hnamed ?_
  rintro fdId ⟨⟩ hid
  simp only [Prog.call_bind]
  refine follows_skip (fun _ => rfl) fun overridden => ?_
  cases overridden with
  | some entries =>
      refine follows_skip (fun _ => rfl) fun _ => follows_commandResult ?_
      trivial
  | none =>
      refine follows_perform fun dir => ⟨hid, ?_⟩
      refine follows_perform fun r => ⟨rfl, ?_⟩
      exact follows_perform fun _ => ⟨rfl, dir_statusReply⟩

/-- The loop of `readdir` calls nothing but `::readdir` on what has been found. -/
theorem only_readdirLoop (dir : DirPtr) (n : Nat) (s : BinarySerializer) :
    (DirCommandsHandler.readdirLoop dir n s).Only fun op =>
      op = .setErrno 0 ∨ op = .sys (.readdir dir) := by
  induction n generalizing s with
  | zero => exact Prog.only_pure s
  | succ n ih =>
      simp only [DirCommandsHandler.readdirLoop, Prog.call_bind]
      refine ⟨.inl rfl, fun _ => ⟨.inr rfl, fun r => ?_⟩⟩
      rcases r with e | (- | entry)
      · exact Prog.only_pure s
      · exact Prog.only_pure s
      · exact (Prog.only_lift _).bind ih

theorem dir_readdir (hnamed : dirId? message = idArgument message [.uint32]) :
    (DirCommandsHandler.readdir message).Follows (dirHandler.protocol message) .idle := by
  refine follows_named (x := .idle) trivial hnamed ?_
  rintro fdId ⟨entries, -⟩ hid
  simp only [Prog.call_bind]
  refine follows_skip (fun _ => rfl) fun overridden => ?_
  cases overridden with
  | some dirents =>
      refine follows_of_only ?_ trivial
      exact (Prog.only_lift _).bind fun _ => Prog.only_lift _
  | none =>
      simp only [DirCommandsHandler.getFd, Prog.call_bind]
      refine follows_perform fun dir => ⟨hid, ?_⟩
      cases dir with
      | none => exact follows_of_only (Prog.only_lift _) trivial
      | some dir =>
          refine (only_readdirLoop (some dir) entries.toNat BinarySerializer.new).bind_follows ?_
            trivial fun s => ?_
          · rintro op (rfl | rfl) a
            · exact ⟨trivial, rfl⟩
            · exact ⟨rfl, rfl⟩
          · refine follows_skip (fun _ => rfl) fun errno => ?_
            exact follows_of_only (Prog.only_lift _) trivial

/-! ## All requests -/

theorem only_onException {P : WorkerOp → Prop} (e : Fault) :
    (onException message e).Only P := by
  cases e with
  | exception kind what =>
      unfold onException
      exact Prog.only_lift _
  | undefined what => trivial

/-- What a request on directories does to files, and the other way round. -/
theorem only_opendir (dirsToOverride : DirsToOverride) :
    (DirCommandsHandler.opendir dirsToOverride message).Only fileHandler.Ignores := by
  apply only_arguments
  rintro ⟨path, -⟩
  dsimp only
  cases dirsToOverride.lookup path with
  | some entries =>
      simp only [Prog.call_bind, Prog.only_perform]
      exact ⟨fun _ => rfl, fun _ => ⟨fun _ => rfl, fun _ => (only_commandResult :)⟩⟩
  | none =>
      simp only [Prog.call_bind, Prog.only_perform]
      refine ⟨fun _ => rfl, fun r => ?_⟩
      cases r with
      | ok dir =>
          simp only [Prog.pure_eq, Prog.pure_bind, Prog.only_perform]
          exact ⟨fun _ => rfl, fun _ => ⟨fun _ => rfl, fun _ => ⟨fun _ => rfl, fun _ =>
            (only_commandResult :)⟩⟩⟩
      | error e => exact ⟨fun _ => rfl, fun _ => (only_commandResult :)⟩

theorem only_closedir :
    (DirCommandsHandler.closedir message).Only fileHandler.Ignores := by
  apply only_arguments
  rintro ⟨fdId, -⟩
  simp only [Prog.call_bind, Prog.only_perform]
  refine ⟨fun _ => rfl, fun overridden => ?_⟩
  cases overridden with
  | some entries => exact ⟨fun _ => rfl, fun _ => (only_commandResult :)⟩
  | none =>
      refine ⟨fun _ => rfl, fun dir => ⟨fun _ => rfl, fun r => ⟨fun _ => rfl, fun _ => ?_⟩⟩⟩
      exact (only_statusReply r).mono fun _ => file_ignores

theorem only_readdir :
    (DirCommandsHandler.readdir message).Only fileHandler.Ignores := by
  apply only_arguments
  rintro ⟨fdId, entries, -⟩
  simp only [DirCommandsHandler.getFd, Prog.call_bind, Prog.only_perform]
  refine ⟨fun _ => rfl, fun overridden => ?_⟩
  cases overridden with
  | some dirents => exact (Prog.only_lift _).bind fun _ => Prog.only_lift _
  | none =>
      simp only [Prog.only_perform]
      refine ⟨fun _ => rfl, fun dir => ?_⟩
      cases dir with
      | none => exact Prog.only_lift _
      | some dir =>
          refine Prog.Only.bind ?_ fun s => ⟨fun _ => rfl, fun _ => Prog.only_lift _⟩
          refine (only_readdirLoop (some dir) entries.toNat BinarySerializer.new).mono ?_
          rintro op (rfl | rfl) a
          · rfl
          · rfl

theorem only_open :
    (FileCommandsHandler.open message).Only dirHandler.Ignores := by
  apply only_arguments
  rintro ⟨path, flags, mode, -⟩
  simp only [Prog.call_bind, Prog.only_perform]
  refine ⟨fun _ => rfl, fun r => ?_⟩
  cases r with
  | ok fd =>
      simp only [Prog.pure_eq, Prog.pure_bind, Prog.only_perform]
      exact ⟨fun _ => rfl, fun _ => ⟨fun _ => rfl, fun _ => ⟨fun _ => rfl, fun _ =>
        (only_commandResult :)⟩⟩⟩
  | error e => exact ⟨fun _ => rfl, fun _ => (only_commandResult :)⟩

theorem only_close : (FileCommandsHandler.close message).Only dirHandler.Ignores := by
  apply only_arguments
  rintro ⟨fdId, -⟩
  refine ⟨fun _ => rfl, fun fd => ⟨fun _ => rfl, fun r => ⟨fun _ => rfl, fun _ => ?_⟩⟩⟩
  exact (only_statusReply r).mono fun _ => dir_ignores

theorem only_read : (FileCommandsHandler.read message).Only dirHandler.Ignores := by
  apply only_arguments
  rintro ⟨fdId, size, -⟩
  refine ⟨fun _ => rfl, fun fd => ⟨fun _ => rfl, fun r => ?_⟩⟩
  exact (only_readReply size r).mono fun _ => dir_ignores

theorem only_pread : (FileCommandsHandler.pread message).Only dirHandler.Ignores := by
  apply only_arguments
  rintro ⟨fdId, size, offset, -⟩
  refine ⟨fun _ => rfl, fun fd => ⟨fun _ => rfl, fun r => ?_⟩⟩
  exact (only_readReply size r).mono fun _ => dir_ignores

theorem only_write : (FileCommandsHandler.write message).Only dirHandler.Ignores := by
  apply only_arguments
  rintro ⟨fdId, bytes, -⟩
  refine ⟨fun _ => rfl, fun fd => ⟨fun _ => rfl, fun r => ?_⟩⟩
  exact (only_writeReply r).mono fun _ => dir_ignores

theorem only_pwrite : (FileCommandsHandler.pwrite message).Only dirHandler.Ignores := by
  apply only_arguments
  rintro ⟨fdId, offset, bytes, -⟩
  refine ⟨fun _ => rfl, fun fd => ⟨fun _ => rfl, fun r => ?_⟩⟩
  exact (only_writeReply r).mono fun _ => dir_ignores

/-- A request of a type that names no handle does nothing with either table. -/
theorem dispatch_cases (dirsToOverride : DirsToOverride) :
    (dispatch dirsToOverride message).Only (fun op => op.Neutral = true) ∨
      CommanderMessageType.ofUint8 message.type ∈ [some .open, some .close, some .read, some .pRead,
        some .write, some .pWrite, some .openDir, some .closeDir, some .readDir] := by
  unfold dispatch
  cases CommanderMessageType.ofUint8 message.type with
  | none => exact .inl (Prog.only_pure _)
  | some type =>
      cases type
      case «open» | close | read | pRead | write | pWrite | openDir | closeDir | readDir =>
        exact .inr (by decide)
      case disconnect => exact .inl ⟨rfl, fun _ => Prog.only_pure _⟩
      case getAttr => exact .inl only_getattr
      case rename => exact .inl only_rename
      case statFileSystem => exact .inl only_statvfs
      case access | truncate | unlink | changeMode | changeOwner | setTimes | makeDir | removeDir =>
        exact .inl (only_arguments fun _ => only_status rfl)
      all_goals exact .inl (Prog.only_pure _)

theorem file_dispatch (dirsToOverride : DirsToOverride) :
    (dispatch dirsToOverride message).Follows (fileHandler.protocol message) .idle := by
  rcases @dispatch_cases message dirsToOverride with honly | hmem
  · exact follows_of_only (honly.mono fun _ => file_ignores) trivial
  · simp only [List.mem_cons, List.not_mem_nil, or_false] at hmem
    rcases hmem with h | h | h | h | h | h | h | h | h <;> simp only [dispatch, h]
    · exact file_open
    · exact file_close (by rw [fileId?, h])
    · exact file_read (by rw [fileId?, h])
    · exact file_pread (by rw [fileId?, h])
    · exact file_write (by rw [fileId?, h])
    · exact file_pwrite (by rw [fileId?, h])
    · exact follows_of_only (only_opendir dirsToOverride) trivial
    · exact follows_of_only only_closedir trivial
    · exact follows_of_only only_readdir trivial

theorem dir_dispatch (dirsToOverride : DirsToOverride) :
    (dispatch dirsToOverride message).Follows (dirHandler.protocol message) .idle := by
  rcases @dispatch_cases message dirsToOverride with honly | hmem
  · exact follows_of_only (honly.mono fun _ => dir_ignores) trivial
  · simp only [List.mem_cons, List.not_mem_nil, or_false] at hmem
    rcases hmem with h | h | h | h | h | h | h | h | h <;> simp only [dispatch, h]
    · exact follows_of_only only_open trivial
    · exact follows_of_only only_close trivial
    · exact follows_of_only only_read trivial
    · exact follows_of_only only_pread trivial
    · exact follows_of_only only_write trivial
    · exact follows_of_only only_pwrite trivial
    · exact dir_opendir dirsToOverride
    · exact dir_closedir (by rw [dirId?, h])
    · exact dir_readdir (by rw [dirId?, h])

end

theorem fileHandler_lawful : fileHandler.Lawful where
  effect := file_effect
  use := by
    intro op a h haccess
    cases op with
    | sys call => cases call <;> cases a <;> cases haccess <;> rfl
    | file op => cases op <;> cases haccess
    | _ => cases haccess
  release := by
    intro op a h haccess
    cases op with
    | sys call => cases call <;> cases a <;> cases haccess <;> rfl
    | file op => cases op <;> cases haccess
    | _ => cases haccess
  follows := by
    intro dirsToOverride message
    refine (file_dispatch dirsToOverride).tryCatch ?_
    intro x e hx
    exact follows_of_only (only_onException e) hx

theorem dirHandler_lawful : dirHandler.Lawful where
  effect := dir_effect
  use := by
    intro op a h haccess
    cases op with
    | sys call => cases call <;> cases a <;> cases haccess <;> rfl
    | dir op => cases op <;> cases haccess
    | _ => cases haccess
  release := by
    intro op a h haccess
    cases op with
    | sys call => cases call <;> cases a <;> cases haccess <;> rfl
    | dir op => cases op <;> cases haccess
    | _ => cases haccess
  follows := by
    intro dirsToOverride message
    refine (dir_dispatch dirsToOverride).tryCatch ?_
    intro x e hx
    exact follows_of_only (only_onException e) hx

end Overlap

end Worker

end ZControl
