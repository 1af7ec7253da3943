import ZControl.Worker.Requests

/-!
# How long a command takes

Every command ends after a bounded number of operations, whatever they are answered: the one loop
among them, that of `readdir`, runs at most as often as the message says. No command but
`Disconnect` touches `_should_stop`.
-/

namespace ZControl

open Interaction

/-- Not the store to `_should_stop`. -/
def WorkerOp.LeavesFlag : WorkerOp → Bool
  | .setShouldStop => false
  | _              => true

/-- At most `n` operations, none of them the store to `_should_stop`. -/
abbrev Within {α : Type} (n : Nat) (p : WorkerProg α) : Prop :=
  p.AtMost (fun op => op.LeavesFlag = true) n

section

variable {message : Message} {α : Type} {n : Nat}

theorem within_arguments {kinds : List FieldKind} {f : Values kinds → WorkerProg α}
    (hf : ∀ args, Within n (f args)) : Within n (arguments message kinds >>= f) := by
  rcases arguments_pure_or_throw message kinds with ⟨args, hargs⟩ | ⟨e, hargs⟩
  · rw [hargs, Prog.pure_bind]
    exact hf args
  · rw [hargs, Prog.throw_bind]
    exact .throw e

theorem within_commandResult {fields : List Field} : Within n (commandResult message fields) :=
  Prog.atMost_lift _

theorem within_statusReply (r : Except Int32 α) : Within (n + 1) (statusReply message r) :=
  .call rfl fun _ => within_commandResult

theorem within_status {call : SysCall} :
    Within (n + 2) (sys call >>= fun r => statusReply message r) :=
  .call rfl fun r => within_statusReply r

namespace FileCommandsHandler

theorem within_getattr : Within 2 (getattr message) := by
  apply within_arguments
  intro args
  refine .call rfl fun r => .call rfl fun errno => ?_
  cases r <;> exact within_commandResult

theorem within_rename : Within 4 (rename message) := by
  apply within_arguments
  intro args
  -- what the check of `newPath` found does not matter for the rest
  have hrest : ∀ exists? : Bool, Within 2
      (if args.2.2.1 &&& renameExchange ≠ 0 then
        setErrno EINVAL >>= fun _ => statusReply message (.error EINVAL : Except Int32 Unit)
      else if exists? then statusReply message (.error EEXIST : Except Int32 Unit)
      else sys (.rename (cStr args.1) (cStr args.2.1)) >>= fun value =>
        statusReply message value) := by
    intro exists?
    split
    · exact .call rfl fun _ => within_statusReply _
    · split
      · exact within_statusReply _
      · exact within_status
  by_cases hnoreplace : args.2.2.1 &&& renameNoreplace = 0 <;>
    simp only [hnoreplace, ne_eq, not_true_eq_false, not_false_eq_true, if_true, if_false,
      Prog.pure_eq, Prog.pure_bind, Prog.call_bind]
  · exact (hrest false).mono (by omega)
  · refine .call rfl fun r => ?_
    cases r with
    | ok info => exact .call rfl fun _ => hrest true
    | error e => exact (hrest false).mono (by omega)

theorem within_statvfs : Within 3 (statvfs message) := by
  apply within_arguments
  intro args
  refine .call rfl fun r => ?_
  cases r with
  | ok stbuf => exact .call rfl fun _ => within_commandResult
  | error e => exact .call rfl fun _ => .call rfl fun _ => within_commandResult

theorem within_open : Within 4 («open» message) := by
  apply within_arguments
  intro args
  refine .call rfl fun fd => ?_
  cases fd with
  | ok fd => exact .call rfl fun _ => .call rfl fun _ => .call rfl fun _ => within_commandResult
  | error e => exact .call rfl fun _ => within_commandResult

theorem within_close : Within 4 (close message) := by
  apply within_arguments
  intro args
  exact .call rfl fun fd => .call rfl fun r => .call rfl fun _ => within_statusReply r

/-- The commands that make one call on the file of an id. -/
theorem within_call {fdId : Int32} {call : Int32 → SysCall}
    {f : (fd : Int32) → Except Int32 (call fd).Val → WorkerProg Message}
    (hf : ∀ fd r, Within 1 (f fd r)) :
    Within 3 (getFd fdId >>= fun fd => sys (call fd) >>= f fd) :=
  .call rfl fun fd => .call rfl fun r => hf fd r

theorem within_read : Within 3 (read message) := by
  apply within_arguments
  intro args
  exact within_call fun fd r => .call rfl fun _ => within_commandResult

theorem within_pread : Within 3 (pread message) := by
  apply within_arguments
  intro args
  exact within_call fun fd r => .call rfl fun _ => within_commandResult

theorem within_write : Within 3 (write message) := by
  apply within_arguments
  intro args
  exact within_call fun fd r => .call rfl fun _ => within_commandResult

theorem within_pwrite : Within 3 (pwrite message) := by
  apply within_arguments
  intro args
  exact within_call fun fd r => .call rfl fun _ => within_commandResult

end FileCommandsHandler

namespace DirCommandsHandler

theorem within_opendir (dirsToOverride : DirsToOverride) :
    Within 4 (opendir dirsToOverride message) := by
  apply within_arguments
  intro args
  cases hlookup : dirsToOverride.lookup args.1 with
  | some entries =>
      simp only [hlookup]
      exact .call rfl fun fdId => .call rfl fun _ => within_commandResult
  | none =>
      simp only [hlookup]
      refine .call rfl fun fd => ?_
      cases fd with
      | ok fd => exact .call rfl fun _ => .call rfl fun _ => .call rfl fun _ => within_commandResult
      | error e => exact .call rfl fun _ => within_commandResult

theorem within_closedir : Within 5 (closedir message) := by
  apply within_arguments
  intro args
  refine .call rfl fun overridden => ?_
  cases overridden with
  | some entries => exact .call rfl fun _ => within_commandResult
  | none => exact .call rfl fun fd => .call rfl fun r => .call rfl fun _ => within_statusReply r

/-- Two operations in each turn of the loop. -/
theorem within_readdirLoop (fd : DirPtr) :
    ∀ (n : Nat) (s : BinarySerializer), Within (2 * n) (readdirLoop fd n s)
  | 0, s => .pure s
  | n + 1, s => by
      refine .call rfl fun _ => .call rfl fun r => ?_
      rcases r with e | _ | dir
      · exact .pure s
      · exact .pure s
      · show Within (2 * n) (Prog.lift (direntFields dir s) >>= readdirLoop fd n)
        cases direntFields dir s with
        | ok s' => exact within_readdirLoop fd n s'
        | error e => exact .throw e

/-- The number of entries asked for is a `uint32_t`. -/
theorem within_readdir : Within (2 ^ 33 + 3) (readdir message) := by
  apply within_arguments
  intro args
  refine .call rfl fun overridden => ?_
  cases overridden with
  | some entries =>
      show Within _ (Prog.lift (overriddenLoop entries args.2.1.toNat BinarySerializer.new) >>=
        fun s => readdirReply message s 0)
      cases overriddenLoop entries args.2.1.toNat BinarySerializer.new with
      | ok s => exact Prog.atMost_lift _
      | error e => exact .throw e
  | none =>
      refine .call rfl fun fd => ?_
      cases fd with
      | none => exact Prog.atMost_lift _
      | some fd =>
          have hlt : args.2.1.toNat < 2 ^ 32 := args.2.1.toNat_lt
          have hloop := within_readdirLoop (some fd) args.2.1.toNat BinarySerializer.new
          have hentries : Within (2 * args.2.1.toNat + 1)
              (readdirLoop (some fd) args.2.1.toNat BinarySerializer.new >>= fun serializer => do
                let errno ← getErrno
                readdirReply message serializer errno) :=
            hloop.bind fun s => .call rfl fun errno => Prog.atMost_lift _
          exact hentries.mono (by omega)

end DirCommandsHandler

/-! ## `_do_command` -/

namespace Worker

variable {dirsToOverride : DirsToOverride}

/-- The operations a command performs at most. -/
def maxOps : Nat := 2 ^ 33 + 3

/-- Every command but `Disconnect` is bounded and leaves the flag alone. -/
theorem within_dispatch
    (htype : CommanderMessageType.ofUint8 message.type ≠ some .disconnect) :
    Within maxOps (dispatch dirsToOverride message) := by
  have hfew : ∀ {m : Nat} {p : WorkerProg Message}, Within m p → m ≤ 5 → Within maxOps p := by
    intro m p hp hm
    exact hp.mono (by simp only [maxOps]; omega)
  cases hkind : CommanderMessageType.ofUint8 message.type with
  | none =>
      simp only [dispatch, hkind]
      exact .pure _
  | some type =>
      cases type <;> simp only [dispatch, hkind]
      case disconnect => exact absurd hkind htype
      case getAttr => exact hfew FileCommandsHandler.within_getattr (by omega)
      case rename => exact hfew FileCommandsHandler.within_rename (by omega)
      case statFileSystem => exact hfew FileCommandsHandler.within_statvfs (by omega)
      case «open» => exact hfew FileCommandsHandler.within_open (by omega)
      case close => exact hfew FileCommandsHandler.within_close (by omega)
      case read => exact hfew FileCommandsHandler.within_read (by omega)
      case pRead => exact hfew FileCommandsHandler.within_pread (by omega)
      case write => exact hfew FileCommandsHandler.within_write (by omega)
      case pWrite => exact hfew FileCommandsHandler.within_pwrite (by omega)
      case openDir => exact hfew (DirCommandsHandler.within_opendir dirsToOverride) (by omega)
      case closeDir => exact hfew DirCommandsHandler.within_closedir (by omega)
      case readDir => exact DirCommandsHandler.within_readdir
      case access | truncate | unlink | changeMode | changeOwner | setTimes | makeDir | removeDir =>
        exact hfew (m := 2) (within_arguments fun _ => within_status) (by omega)
      all_goals exact .pure _

theorem atMost_onException {P : WorkerOp → Prop} (e : Fault) :
    (onException message e).AtMost P n := by
  cases e with
  | exception kind what =>
      rw [onException]
      exact Prog.atMost_lift _
  | undefined what => exact .throw _

/-- No message makes a command longer than `maxOps`; only a `Disconnect` stores to the flag. -/
theorem doCommand_atMost_maxOps (dirsToOverride : DirsToOverride) (message : Message) :
    (doCommand dirsToOverride message).AtMost (fun op =>
      op.LeavesFlag = true ∨
        CommanderMessageType.ofUint8 message.type = some .disconnect) maxOps := by
  by_cases htype : CommanderMessageType.ofUint8 message.type = some .disconnect
  · have hdo : doCommand dirsToOverride message = disconnect message := by
      rw [doCommand, dispatch]
      simp only [htype]
      rfl
    rw [hdo]
    exact .perform (.inr htype) fun _ => .pure _
  · have hn := @within_dispatch message dirsToOverride htype
    have hflag := hn.imp (Q := fun op => op.LeavesFlag = true ∨
      CommanderMessageType.ofUint8 message.type = some .disconnect) fun op hop => .inl hop
    exact hflag.tryCatch (n := 0) fun e => atMost_onException e

/-- Whatever the message is, the command is bounded; only a `Disconnect` stores to the flag. -/
theorem doCommand_atMost (dirsToOverride : DirsToOverride) (message : Message) :
    ∃ n, (doCommand dirsToOverride message).AtMost (fun op =>
      op.LeavesFlag = true ∨
        CommanderMessageType.ofUint8 message.type = some .disconnect) n :=
  ⟨maxOps, doCommand_atMost_maxOps dirsToOverride message⟩

end Worker

end

end ZControl
