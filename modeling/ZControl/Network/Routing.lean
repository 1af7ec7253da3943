import ZControl.Network.Steps

/-!
# Whom a call speaks to

A call of the mount looks up the name in its path, and sends its commands to the worker that it has
found there and to no other.
-/

namespace ZControl

open Interaction Zcfs

namespace Network

/-- A call looks up the name in its path only, and sends commands only to what it has found. -/
def routing (client : Bytes) : Protocol ZcfsOp ZcfsOp.Ans (Option ConnId) where
  allowed found e :=
    match e.1 with
    | .getCommander name => name = client
    | .commander conn _  => found = some conn
    | _                  => True
  next found e :=
    match e with
    | ⟨.getCommander _, conn⟩ => conn
    | _                       => found
  ends _ := True

/-- The operations of a call that has found its worker. -/
def OnSite (conn : ConnId) : ZcfsOp → Prop
  | .commander conn' _ => conn' = conn
  | .filler _ _        => True
  | _                  => False

/-- The operations that look nobody up. -/
def Homely : ZcfsOp → Prop
  | .getClients  => True
  | .filler _ _  => True
  | _            => False

section

variable {α β : Type} {client : Bytes} {conn : ConnId} {found : Option ConnId}

theorem ignores_onSite : (routing client).Ignores (some conn) (OnSite conn) := by
  intro op hop a
  cases op with
  | commander conn' op => exact ⟨congrArg some hop.symm, rfl⟩
  | filler name st     => exact ⟨trivial, rfl⟩
  | _                  => exact hop.elim

theorem ignores_homely : (routing client).Ignores found Homely := by
  intro op hop a
  cases op with
  | getClients     => exact ⟨trivial, rfl⟩
  | filler name st => exact ⟨trivial, rfl⟩
  | _              => exact hop.elim

theorem follows_return (x : α) : (pure x : ZcfsProg α).Follows (routing client) found :=
  Prog.follows_pure.mpr trivial

theorem follows_ite {p : Prop} [Decidable p] {x y : ZcfsProg α}
    (hx : x.Follows (routing client) found) (hy : y.Follows (routing client) found) :
    (if p then x else y).Follows (routing client) found := by
  split
  · exact hx
  · exact hy

theorem follows_onError (result : α) (e : Fault) :
    (onError result e).Follows (routing client) found := by
  cases e with
  | exception kind what => exact Prog.follows_pure.mpr trivial
  | undefined what      => exact Prog.follows_throw.mpr trivial

/-- A command goes to the worker that was found. -/
theorem follows_command {p : CommanderProg β} {f : β → ZcfsProg α}
    (hf : ∀ x, (f x).Follows (routing client) (some conn)) :
    (onCommander conn p >>= f).Follows (routing client) (some conn) := by
  have honly : (onCommander conn p).Only (OnSite conn) :=
    (Prog.only_true p).translate fun _ _ => ⟨rfl, fun _ => trivial⟩
  exact honly.bind_follows ignores_onSite trivial hf

/-- Every operation on a path below a client. -/
theorem follows_withCommander {path : Bytes} {missing failed : α}
    {body : ConnId → Bytes → ZcfsProg α}
    (hbody : ∀ conn rest, (body conn rest).Follows (routing (splitPath path).1) (some conn)) :
    (Prog.tryCatch (withCommander path missing body) (onError failed)).Follows
      (routing (splitPath path).1) none := by
  refine Prog.Follows.tryCatch ?_ fun found e _ => follows_onError failed e
  refine Prog.follows_perform.mpr fun commander => ⟨rfl, ?_⟩
  cases commander with
  | none      => exact follows_return missing
  | some conn => exact hbody conn _

/-- The same where the mount may answer for itself. -/
theorem follows_unless {p : Prop} [Decidable p] {path : Bytes} {value missing failed : α}
    {body : ConnId → Bytes → ZcfsProg α}
    (hbody : ∀ conn rest, (body conn rest).Follows (routing (splitPath path).1) (some conn)) :
    (Prog.tryCatch (if p then pure value else withCommander path missing body)
      (onError failed)).Follows (routing (splitPath path).1) none := by
  split
  · exact follows_return value
  · exact follows_withCommander hbody

theorem follows_statusOf (path : Bytes) (method : Bytes → CommanderProg (Bool × Int32)) :
    (statusOf path method).Follows (routing (splitPath path).1) none := by
  unfold statusOf
  apply follows_withCommander
  intro conn rest
  apply follows_command
  intro result
  exact follows_return _

end

/-! ## The operations -/

theorem only_fillEntries {conn : ConnId} (es : List DirEntry) :
    (fillEntries es).Only (OnSite conn) := by
  induction es with
  | nil => trivial
  | cons e es ih =>
      refine ⟨trivial, fun full => ?_⟩
      cases full with
      | true  => trivial
      | false => exact ih

theorem follows_readdirLoop {client : Bytes} {conn : ConnId} (fh : UInt64) (n : Nat) :
    (readdirLoop conn fh n).Follows (routing client) (some conn) := by
  induction n with
  | zero => exact follows_return none
  | succ n ih =>
      unfold readdirLoop
      apply follows_command
      rintro ⟨dirs, workerErrno⟩
      apply follows_ite
      · exact follows_return _
      · apply (only_fillEntries dirs).bind_follows ignores_onSite trivial
        intro _
        exact follows_ite ih (follows_return _)

theorem only_fillClients (clients : List Bytes) : (fillClients clients).Only Homely := by
  induction clients with
  | nil => trivial
  | cons c cs ih => exact ⟨trivial, fun _ => ih⟩

theorem follows_readdir (n : Nat) (path : Bytes) (fh : UInt64) :
    (Zcfs.readdir n path fh).Follows (routing (splitPath path).1) none := by
  unfold Zcfs.readdir
  split
  · have hroot : ∀ clients, (fillClients clients >>= fun _ =>
        (pure (some 0) : ZcfsProg (Option Int32))).Only Homely :=
      fun clients => (only_fillClients clients).bind fun _ => trivial
    refine Prog.Follows.tryCatch ?_ fun found e _ => follows_onError _ e
    refine Prog.Only.follows (R := Homely) ?_ ignores_homely trivial
    exact ⟨trivial, fun _ => ⟨trivial, fun _ => ⟨trivial, hroot⟩⟩⟩
  · exact follows_withCommander fun conn _ => follows_readdirLoop fh n

theorem follows_getattr (path : Bytes) :
    (Zcfs.getattr path).Follows (routing (splitPath path).1) none := by
  unfold Zcfs.getattr
  apply follows_unless
  intro conn rest
  apply follows_command
  intro x
  exact follows_return _

theorem follows_rename (oldPath newPath : Bytes) (flags : UInt32) :
    (Zcfs.rename oldPath newPath flags).Follows (routing (splitPath oldPath).1) none := by
  unfold Zcfs.rename
  apply follows_unless
  intro conn rest
  apply follows_command
  rintro ⟨result, workerErrno⟩
  exact follows_ite (follows_return _) (follows_return _)

theorem follows_openWith (path : Bytes) (flags mode : Int32) (fh : UInt64) :
    (openWith path flags mode fh).Follows (routing (splitPath path).1) none := by
  unfold openWith
  apply follows_unless
  intro conn rest
  apply follows_command
  rintro ⟨result, workerErrno⟩
  exact follows_ite (follows_return _) (follows_return _)

theorem follows_read (path buf : Bytes) (size : UInt64) (offset : Int64) (fh : UInt64) :
    (Zcfs.read path buf size offset fh).Follows (routing (splitPath path).1) none := by
  unfold Zcfs.read
  apply follows_withCommander
  intro conn rest
  apply follows_command
  rintro ⟨⟨result, workerErrno⟩, stored⟩
  exact follows_ite (follows_return _) (follows_return _)

theorem follows_write (path buf : Bytes) (size : UInt64) (offset : Int64) (fh : UInt64)
    (hsize : size.toUInt32.toNat ≤ buf.length) :
    (Zcfs.write path buf size offset fh hsize).Follows (routing (splitPath path).1) none := by
  unfold Zcfs.write
  apply follows_withCommander
  intro conn rest
  apply follows_command
  rintro ⟨result, workerErrno⟩
  exact follows_ite (follows_return _) (follows_return _)

theorem follows_statfs (path : Bytes) :
    (Zcfs.statfs path).Follows (routing (splitPath path).1) none := by
  unfold Zcfs.statfs
  apply follows_unless
  intro conn rest
  apply follows_command
  rintro ⟨⟨result, workerErrno⟩, stored⟩
  exact follows_ite (follows_return _) (follows_return _)

theorem follows_release (path : Bytes) (fh : UInt64) :
    (Zcfs.release path fh).Follows (routing (splitPath path).1) none := by
  unfold Zcfs.release
  apply follows_withCommander
  intro conn rest
  apply follows_command
  rintro ⟨result, workerErrno⟩
  exact follows_ite (follows_return _) (follows_return _)

theorem follows_opendir (path : Bytes) (fh : UInt64) :
    (Zcfs.opendir path fh).Follows (routing (splitPath path).1) none := by
  unfold Zcfs.opendir
  apply follows_unless
  intro conn rest
  apply follows_command
  rintro ⟨result, workerErrno⟩
  exact follows_ite (follows_return _) (follows_return _)

theorem follows_releasedir (path : Bytes) (fh : UInt64) :
    (Zcfs.releasedir path fh).Follows (routing (splitPath path).1) none := by
  unfold Zcfs.releasedir
  apply follows_unless
  intro conn rest
  apply follows_command
  rintro ⟨result, workerErrno⟩
  exact follows_ite (follows_return _) (follows_return _)

theorem follows_access (path : Bytes) (mode : Int32) :
    (Zcfs.access path mode).Follows (routing (splitPath path).1) none := by
  unfold Zcfs.access
  split
  · exact follows_return _
  · exact follows_statusOf path _

/-- A call speaks to the worker that it has found under the name in its path. -/
theorem Call.follows (c : Call) : c.program.Follows (routing c.client) none := by
  cases c with
  | fixed c =>
      cases c with
      | getattr path                        => exact follows_getattr path
      | mkdir path mode                     =>
          exact follows_statusOf path fun remotePath => Commander.mkdir remotePath mode.toInt32
      | unlink path                         => exact follows_statusOf path Commander.unlink
      | rmdir path                          => exact follows_statusOf path Commander.rmdir
      | rename oldPath newPath flags        => exact follows_rename oldPath newPath flags
      | chmod path mode                     =>
          exact follows_statusOf path fun remotePath => Commander.chmod remotePath mode.toInt32
      | chown path owner group              =>
          exact follows_statusOf path fun remotePath =>
            Commander.chown remotePath owner.toInt32 group.toInt32
      | truncate path size                  =>
          exact follows_statusOf path fun remotePath => Commander.truncate remotePath size
      | «open» path flags fh                => exact follows_openWith path flags _ fh
      | create path mode flags fh           => exact follows_openWith path flags _ fh
      | write path buf size offset fh hsize => exact follows_write path buf size offset fh hsize
      | statfs path                         => exact follows_statfs path
      | release path fh                     => exact follows_release path fh
      | opendir path fh                     => exact follows_opendir path fh
      | releasedir path fh                  => exact follows_releasedir path fh
      | access path mode                    => exact follows_access path mode
      | utimens path atime mtime            =>
          exact follows_statusOf path fun remotePath => Commander.utimens remotePath atime mtime
  | read path buf size offset fh => exact follows_read path buf size offset fh
  | readdir n path fh            => exact follows_readdir n path fh

end Network

end ZControl
