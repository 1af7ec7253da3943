import ZControl.ReadWrite
import ZControl.Worker.Handles
import ZControl.Zcfs.Mount

/-!
# The shape of the file operations

`zcfs_open`, `zcfs_create`, `zcfs_read`, `zcfs_write` and `zcfs_release` have one shape: the worker
is looked up by the name of the client, the command is numbered and sent there, and the answer is
all that is left to look at.
-/

namespace ZControl

open Interaction

namespace Zcfs

/-- A program that performs no operation any more. -/
abbrev Ended {α : Type} (p : ZcfsProg α) : Prop := p.Only fun _ => False

/-- A call of one of the operations. -/
inductive FileCall where
  | open (path : Bytes) (flags : Int32)
  | create (path : Bytes) (mode : UInt32) (flags : Int32)
  | read (path buf : Bytes) (size : UInt64) (offset : Int64)
  | write (path buf : Bytes) (size : UInt64) (offset : Int64)
      (hsize : size.toUInt32.toNat ≤ buf.length)
  | release (path : Bytes)
  deriving DecidableEq

namespace FileCall

def path : FileCall → Bytes
  | .open path _         => path
  | .create path _ _     => path
  | .read path _ _ _     => path
  | .write path _ _ _ _  => path
  | .release path        => path

/-- The worker's name in the path. -/
def client (c : FileCall) : Bytes := (splitPath c.path).1

/-- The calls that store `fi->fh`; the others are given it. -/
def opens : FileCall → Bool
  | .open _ _     => true
  | .create _ _ _ => true
  | _             => false

/-- The result is what is returned and what `fi->fh` holds then. -/
def program (fh : UInt64) : FileCall → ZcfsProg (Int32 × UInt64)
  | .open path flags        => Zcfs.open path flags fh
  | .create path mode flags => Zcfs.create path mode flags fh
  | .read path buf size offset => do
      let (result, _) ← Zcfs.read path buf size offset fh
      pure (result, fh)
  | .write path buf size offset hsize => do
      let result ← Zcfs.write path buf size offset fh hsize
      pure (result, fh)
  | .release path => do
      let result ← Zcfs.release path fh
      pure (result, fh)

end FileCall

/-! ## Asking a worker -/

/-- Whom a call asks, what it returns where there is nobody, what it sends, and what it makes of
the answer. -/
structure Asking where
  client : Bytes
  missing : Int32 × UInt64
  message : UInt32 → Message
  rest : ConnId → Except Fault Message → ZcfsProg (Int32 × UInt64)

namespace Asking

variable (a : Asking)

def sending (conn : ConnId) (id : UInt32) : ZcfsProg (Int32 × UInt64) :=
  .perform (.commander conn (.sendCommand (a.message id))) (a.rest conn)

def numbering (conn : ConnId) : ZcfsProg (Int32 × UInt64) :=
  .perform (.commander conn .nextCommandId) (a.sending conn)

def looking : ZcfsProg (Int32 × UInt64) :=
  .perform (.getCommander a.client) fun
    | none      => .pure a.missing
    | some conn => a.numbering conn

end Asking

/-- An operation that sends one command, made an `Asking`. -/
theorem withCommander_request {β γ : Type} {path : Bytes} {missing : β}
    {type : CommanderMessageType} {fields : Bytes → List Field} {f : Message → CommanderProg γ}
    {g : γ → ZcfsProg β} {handler : Fault → ZcfsProg β} {out : β → Int32 × UInt64} :
    (Prog.tryCatch
        (withCommander path missing fun conn remotePath =>
          onCommander conn (Commander.request type (fields remotePath) >>= f) >>= g)
        handler >>= fun b => pure (out b)) =
      Asking.looking
        { client := (splitPath path).1
          missing := out missing
          message := fun id => ⟨id, type.toUint8, written (fields (splitPath path).2)⟩
          rest := fun conn answer =>
            Prog.tryCatch (onCommander conn (Prog.lift answer >>= f) >>= g) handler >>= fun b =>
              pure (out b) } := by
  obtain ⟨s, hs⟩ := writeFields_total (fields (splitPath path).2) BinarySerializer.new
  have hwritten : written (fields (splitPath path).2) = s.data.1 := by
    rw [written, hs]
    rfl
  simp only [withCommander, Commander.request, hs, hwritten, Asking.looking, Prog.lift_ok,
    Prog.pure_bind, Prog.call_bind, Prog.perform_bind, Prog.tryCatch_perform]
  refine congrArg (Prog.perform _) (funext fun commander => ?_)
  cases commander <;> rfl

/-! ## What the operations ask -/

namespace FileCall

def type : FileCall → CommanderMessageType
  | .open _ _        => .open
  | .create _ _ _    => .open
  | .read _ _ _ _    => .pRead
  | .write _ _ _ _ _ => .pWrite
  | .release _       => .close

/-- The arguments of the command. -/
def fields (fh : UInt64) : FileCall → List Field
  | .open path flags => [.str (splitPath path).2, .int32 flags, .int32 Commander.DEFFILEMODE]
  | .create path mode flags => [.str (splitPath path).2, .int32 flags, .int32 mode.toInt32]
  | .read _ _ size offset => [.int32 (fdOf fh), .uint32 size.toUInt32, .int64 offset]
  | .write _ buf size offset hsize =>
      [.int32 (fdOf fh), .int64 offset, .bytes buf size.toUInt32 hsize]
  | .release _ => [.int32 (fdOf fh)]

/-- The command, numbered. -/
def message (c : FileCall) (fh : UInt64) (id : UInt32) : Message :=
  ⟨id, c.type.toUint8, written (c.fields fh)⟩

/-- What a worker answers that has tried and failed. -/
def failure (c : FileCall) (id : UInt32) (errno : Int32) : Message :=
  ⟨id, WorkerMessageType.commandResult.toUint8,
    match c with
    | .read _ _ size _ =>
        written (FileCommandsHandler.readReplyFields size.toUInt32 (.error errno) errno)
    | .release _ => encodingOf [.uint8 0, .int32 errno]
    | _ => encodingOf [.int32 (-1), .int32 errno]⟩

/-- What a worker answers that has opened a file. -/
def opened (id : UInt32) (fdId errno : Int32) : Message :=
  ⟨id, WorkerMessageType.commandResult.toUint8, encodingOf [.int32 fdId, .int32 errno]⟩

/-- The payloads of the request and of a failure stay below `2 ^ 32` bytes. -/
def Fits (fh : UInt64) : FileCall → Prop
  | .open path flags        => (encodingOf (fields fh (.open path flags))).length < 2 ^ 32
  | .create path mode flags => (encodingOf (fields fh (.create path mode flags))).length < 2 ^ 32
  | .read _ _ size _        => 12 + size.toUInt32.toNat < 2 ^ 32
  | .write _ _ size _ _     => 16 + size.toUInt32.toNat < 2 ^ 32
  | .release _              => True

instance decidableFits (fh : UInt64) : (c : FileCall) → Decidable (c.Fits fh)
  | .open path flags =>
      inferInstanceAs (Decidable ((encodingOf (fields fh (.open path flags))).length < 2 ^ 32))
  | .create path mode flags =>
      inferInstanceAs
        (Decidable ((encodingOf (fields fh (.create path mode flags))).length < 2 ^ 32))
  | .read _ _ size _    => inferInstanceAs (Decidable (12 + size.toUInt32.toNat < 2 ^ 32))
  | .write _ _ size _ _ => inferInstanceAs (Decidable (16 + size.toUInt32.toNat < 2 ^ 32))
  | .release _          => isTrue trivial

/-- The call asks so. An answer that reports a failure makes it return an error, and so does an
exception. -/
structure Asks (c : FileCall) (fh : UInt64) (a : Asking) : Prop where
  client : a.client = c.client
  missing : ∃ e, a.missing = (e, fh) ∧ e < 0
  message : a.message = c.message fh
  ended : ∀ conn answer, Ended (a.rest conn answer)
  threw : ∀ conn kind what, a.rest conn (.error (.exception kind what)) = .pure (- EIO, fh)
  failed : ∀ conn id errno, c.Fits fh →
    a.rest conn (.ok (c.failure id errno)) = .pure (-errno, fh)
  stored : ∀ conn id fdId errno, c.opens = true → fdId ≠ -1 →
    a.rest conn (.ok (opened id fdId errno)) = .pure (0, fhOf fdId)

/-! ### The answers -/

/-- What `valueCommand` makes of an answer. -/
def valueAnswer (workerMsg : Message) : CommanderProg (Int32 × Int32) := do
  let (value, workerErrno, _) ← Commander.response workerMsg
    (readFields [.int32, .int32])
  pure (value, workerErrno)

/-- What `statusCommand` makes of one. -/
def statusAnswer (workerMsg : Message) : CommanderProg (Bool × Int32) := do
  let (value, workerErrno, _) ← Commander.response workerMsg
    (readFields [.uint8, .int32])
  pure (value != 0, workerErrno)

theorem valueAnswer_eq (id : UInt32) (type : UInt8) (value errno : Int32) :
    valueAnswer ⟨id, type, encodingOf [.int32 value, .int32 errno]⟩ = .pure (value, errno) := by
  have hread : Commander.response (α := Values [.int32, .int32])
      ⟨id, type, encodingOf [.int32 value, .int32 errno]⟩
      (readFields [.int32, .int32]) = .pure (value, errno, ()) :=
    Prog.lift_eq_pure_iff.mpr (deserialize_value value errno)
  rw [valueAnswer, hread]
  rfl

theorem statusAnswer_failure (id : UInt32) (type : UInt8) (errno : Int32) :
    statusAnswer ⟨id, type, encodingOf [.uint8 0, .int32 errno]⟩ = .pure (false, errno) := by
  have hread : Commander.response (α := Values [.uint8, .int32])
      ⟨id, type, encodingOf [.uint8 0, .int32 errno]⟩
      (readFields [.uint8, .int32]) = .pure (0, errno, ()) :=
    Prog.lift_eq_pure_iff.mpr (deserialize_status false errno)
  rw [statusAnswer, hread]
  rfl

theorem only_valueAnswer {P : CommanderOp → Prop} (m : Message) : (valueAnswer m).Only P :=
  (Prog.only_lift _).bind fun _ => trivial

theorem only_statusAnswer {P : CommanderOp → Prop} (m : Message) : (statusAnswer m).Only P :=
  (Prog.only_lift _).bind fun _ => trivial

section Rest

variable {β γ : Type} {f : Message → CommanderProg γ} {g : γ → ZcfsProg β}
  {handler : Fault → ZcfsProg β} {out : β → Int32 × UInt64} {conn : ConnId}

theorem ended_rest (answer : Except Fault Message) (hf : ∀ m, (f m).Only fun _ => False)
    (hg : ∀ x, Ended (g x)) (hhandler : ∀ e, Ended (handler e)) :
    Ended (Prog.tryCatch (onCommander conn (Prog.lift answer >>= f) >>= g) handler >>= fun b =>
      pure (out b)) := by
  have hanswer : (Prog.lift answer >>= f).Only fun _ => False := (Prog.only_lift answer).bind hf
  have hconn : Ended (onCommander conn (Prog.lift answer >>= f)) :=
    hanswer.translate fun _ h => h.elim
  exact ((hconn.bind hg).tryCatch hhandler).bind fun _ => trivial

/-- The answer is decoded and handed on. -/
theorem rest_of_response {m : Message} {x : γ} {b : β} (hf : f m = .pure x)
    (hg : g x = .pure b) :
    (Prog.tryCatch (onCommander conn (Prog.lift (.ok m) >>= f) >>= g) handler >>= fun b =>
      pure (out b)) = .pure (out b) := by
  simp only [Prog.lift_ok, Prog.pure_bind, hf, onCommander, Prog.translate_pure, hg,
    Prog.tryCatch_pure, Prog.pure_eq]

theorem ended_onError (result : β) (e : Fault) : Ended (onError result e) := by
  cases e <;> trivial

theorem ended_ite {p : Prop} [Decidable p] (x y : β) :
    Ended (if p then pure x else pure y) := by
  split <;> trivial

end Rest

/-- `zcfs_open` and `zcfs_create` of a path below the root. -/
theorem openWith_eq {path : Bytes} (hpath : path ≠ [slash]) (flags mode : Int32) (fh : UInt64) :
    openWith path flags mode fh =
      (Prog.tryCatch
        (withCommander path (-ENOENT, fh) fun conn remotePath =>
          onCommander conn (Commander.request .open [.str remotePath, .int32 flags, .int32 mode] >>=
            valueAnswer) >>= fun x =>
              if x.1 = -1 then pure (-x.2, fh) else pure (0, fhOf x.1))
        (onError (- EIO, fh)) >>= fun b => pure (id b)) := by
  rw [openWith, if_neg hpath]
  exact (Prog.bind_pure _).symm

theorem openWith_asks {c : FileCall} {path : Bytes} {flags mode : Int32} {fh : UInt64}
    (hpath : path ≠ [slash]) (hclient : c.client = (splitPath path).1)
    (hmessage : c.message fh = fun id => ⟨id, CommanderMessageType.open.toUint8,
      written [.str (splitPath path).2, .int32 flags, .int32 mode]⟩)
    (hfailure : c.failure = fun id errno => opened id (-1) errno) :
    ∃ a, c.Asks fh a ∧ openWith path flags mode fh = a.looking := by
  refine ⟨_, ?_, (openWith_eq hpath flags mode fh).trans withCommander_request⟩
  constructor
  · exact hclient.symm
  · exact ⟨-ENOENT, rfl, by decide⟩
  · exact hmessage.symm
  · intro conn answer
    exact ended_rest answer only_valueAnswer (fun x => ended_ite _ _) (ended_onError _)
  · intro conn kind what
    rfl
  · intro conn id errno _
    rw [hfailure]
    exact rest_of_response (valueAnswer_eq id _ (-1) errno) rfl
  · intro conn id fdId errno _ hfdId
    exact rest_of_response (valueAnswer_eq id _ fdId errno) (if_neg hfdId)

/-- The operations ask a worker, except that `zcfs_open` and `zcfs_create` refuse the root. -/
theorem asks (c : FileCall) (fh : UInt64) (hroot : c.opens = true → c.path ≠ [slash]) :
    ∃ a, c.Asks fh a ∧ c.program fh = a.looking := by
  cases c with
  | «open» path flags => exact openWith_asks (hroot rfl) rfl rfl rfl
  | create path mode flags => exact openWith_asks (hroot rfl) rfl rfl rfl
  | read path buf size offset =>
      refine ⟨_, ?_, withCommander_request⟩
      constructor
      · rfl
      · exact ⟨- EIO, rfl, by decide⟩
      · rfl
      · intro conn answer
        exact ended_rest answer (fun m => Prog.only_lift _) (fun x => ended_ite _ _)
          (ended_onError _)
      · intro conn kind what
        rfl
      · intro conn id errno hfits
        have hfits : 12 + size.toUInt32.toNat < 2 ^ 32 := hfits
        have hread : Commander.readAnswer (failure (.read path buf size offset) id errno) buf
            size.toUInt32 (ascii "pread returned more bytes than requested") =
              .pure ((-1, errno), buf) := by
          rw [failure]
          exact Commander.readAnswer_error hfits
        exact rest_of_response (b := (-errno, buf)) hread rfl
      · intro conn id fdId errno hopens
        cases hopens
  | write path buf size offset hsize =>
      refine ⟨_, ?_, withCommander_request⟩
      constructor
      · rfl
      · exact ⟨- EIO, rfl, by decide⟩
      · rfl
      · intro conn answer
        exact ended_rest answer only_valueAnswer (fun x => ended_ite _ _) (ended_onError _)
      · intro conn kind what
        rfl
      · intro conn id errno _
        exact rest_of_response (valueAnswer_eq id _ (-1) errno) rfl
      · intro conn id fdId errno hopens
        cases hopens
  | release path =>
      refine ⟨_, ?_, withCommander_request⟩
      constructor
      · rfl
      · exact ⟨-ENOENT, rfl, by decide⟩
      · rfl
      · intro conn answer
        refine ended_rest answer only_statusAnswer (fun x => ?_) (ended_onError _)
        exact ended_ite (p := x.1 = true) _ _
      · intro conn kind what
        rfl
      · intro conn id errno _
        exact rest_of_response (statusAnswer_failure id _ errno) rfl
      · intro conn id fdId errno hopens
        cases hopens

/-! ## What a worker does with them -/

/-- A system call that fails leaves a positive error number. -/
def positiveErrno : WorkerEvent → Bool
  | ⟨.sys _, .error e⟩ => 0 < e
  | _ => true

/-- The request of a call on `fh`, handled in `w`: it calls on what the id stands for there and on
nothing else, and if the id stands for nothing the answer is a failure. -/
structure Uses (c : FileCall) (fh : UInt64) (id : UInt32) (w : World) (es : List WorkerEvent)
    (res : Except Fault Message) : Prop where
  only : ∀ e ∈ es, ∀ fd, e.1.fd? = some fd → fd = w.file.getFd (-1) (fdOf fh)
  called : ∃ e ∈ es, e.1.fd? = some (w.file.getFd (-1) (fdOf fh))
  failed : w.file.fds.lookup (fdOf fh) = none → ∃ errno, 0 < errno ∧ res = .ok (c.failure id errno)

section Handled

variable {c : FileCall} {fh : UInt64} {dirsToOverride : DirsToOverride} {t : ThreadId}
  {w w' : World} {id : UInt32} {es : List WorkerEvent} {res : Except Fault Message}

/-- A request that looks an id up, makes one call and then no other. -/
theorem uses_of_exec {call : Int32 → SysCall}
    {k : (fd : Int32) → Except Int32 (call fd).Val → WorkerProg Message}
    (hcall : ∀ fd, (call fd).fd? = some fd) (hk : ∀ fd r, (k fd r).Only fun op => op.fd? = none)
    (hfailed : ∀ fd e w₁ es, exec (World.step t) w₁ (k fd (.error e)) es = some (res, w') →
      w₁.errno t = e → res = .ok (c.failure id e))
    (hpos : es.all positiveErrno = true)
    (h : exec (World.step t) w
      (fileOp (.getFd (fdOf fh)) >>= fun fd => sys (call fd) >>= fun r => k fd r) es =
        some (res, w')) : Uses c fh id w es res := by
  simp only [Prog.call_bind, exec_perform_iff] at h
  obtain ⟨fd, es₁, w₁, rfl, hgetFd, r, es₂, w₂, rfl, hsys, hrest⟩ := h
  obtain ⟨rfl, rfl⟩ := World.step_getFd hgetFd
  obtain ⟨hquiet, -⟩ := (hk _ r).exec (I := fun _ => True) (fun _ _ _ _ _ _ _ => trivial) trivial
    hrest
  constructor
  · intro e he fd hfd
    rcases List.mem_cons.mp he with rfl | he
    · cases hfd
    · rcases List.mem_cons.mp he with rfl | he
      · exact Option.some.inj (hfd.symm.trans (hcall _))
      · have hnone := (hquiet e he).symm.trans hfd
        cases hnone
  · exact ⟨_, .tail _ (.head _), hcall _⟩
  · intro hnone
    have hfd : w₁.file.getFd (-1) (fdOf fh) = -1 := by rw [Table.getFd, hnone, Option.getD_none]
    have hclosed : w₁.files.serial (w₁.file.getFd (-1) (fdOf fh)) = none := by
      rw [hfd, w₁.files.serial_null]
    obtain ⟨e, rfl⟩ := World.error_of_allows (World.step_sys hsys).1 (hcall _) hclosed
    refine ⟨e, ?_, hfailed _ e w₂ es₂ hrest ((World.step_call hsys).2)⟩
    have hall := List.all_eq_true.mp hpos _ (.tail _ (.head _))
    simpa [positiveErrno] using hall

theorem exec_errno {w₁ : World} {f : Int32 → Message}
    (h : exec (World.step t) w₁ (getErrno >>= fun errno => .pure (f errno)) es = some (res, w')) :
    res = .ok (f (w₁.errno t)) := by
  simp only [Prog.call_bind, exec_perform_iff] at h
  obtain ⟨errno, es₁, w₂, rfl, herrno, hrest⟩ := h
  obtain ⟨rfl, rfl⟩ := World.step_errno_iff.mp herrno
  obtain ⟨-, heq⟩ := exec_pure_iff.mp hrest
  cases heq
  rfl

/-- What is sent for the call is the encoding of its arguments, and it fits a frame. -/
theorem written_fields (hfits : c.Fits fh) :
    written (c.fields fh) = encodingOf (c.fields fh) ∧
      (encodingOf (c.fields fh)).length < 2 ^ 32 := by
  have hwritten : ∀ {fields : List Field}, (encodingOf fields).length < 2 ^ 32 →
      written fields = encodingOf fields ∧ (encodingOf fields).length < 2 ^ 32 := by
    intro fields hfields
    refine ⟨?_, hfields⟩
    rw [written, writeFields_new hfields]
    rfl
  cases c with
  | «open» path flags => exact hwritten hfits
  | create path mode flags => exact hwritten hfits
  | read path buf size offset => exact hwritten (by simp [fields])
  | release path => exact hwritten (by simp [fields])
  | write path buf size offset hsize =>
      have hfits : 16 + size.toUInt32.toNat < 2 ^ 32 := hfits
      have hlen : ∀ (n : UInt32) (hn : n.toNat ≤ buf.length),
          (encodingOf [.int32 (fdOf fh), .int64 offset, .bytes buf n hn]).length =
            16 + n.toNat := by
        intro n hn
        simp
        omega
      refine ⟨written_bytes [.int32 (fdOf fh), .int64 offset] hsize (by simp), ?_⟩
      rw [fields, hlen]
      exact hfits

theorem uses_of_doCommand (hc : c.opens = false) (hfits : c.Fits fh)
    (hpos : es.all positiveErrno = true)
    (h : exec (World.step t) w (Worker.doCommand dirsToOverride (c.message fh id)) es =
      some (res, w')) : Uses c fh id w es res := by
  rw [message, (written_fields hfits).1] at h
  cases c with
  | read path buf size offset =>
      have hexec := h
      simp only [type, fields, doCommand_pread, Local.readWith] at hexec
      refine uses_of_exec (fun _ => rfl) ?_ ?_ hpos hexec
      · exact fun _ _ => ⟨rfl, fun _ => trivial⟩
      · intro fd e w₁ es hrest herrno
        rw [exec_errno hrest, herrno]
        rfl
  | write path buf size offset hsize =>
      have hfits : 16 + size.toUInt32.toNat < 2 ^ 32 := hfits
      have hexec := h
      simp only [type, fields, doCommand_pwrite hsize hfits, Local.writeWith, Prog.bind_assoc,
        Prog.pure_bind, Prog.pure_eq] at hexec
      refine uses_of_exec (fun _ => rfl) ?_ ?_ hpos hexec
      · exact fun _ _ => ⟨rfl, fun _ => trivial⟩
      · intro fd e w₁ es hrest herrno
        rw [exec_errno hrest, herrno]
        rfl
  | release path =>
      have hdispatch := @dispatch_close dirsToOverride id (fdOf fh)
      have hhandled := doCommand_handled (noThrow_close (fdOf fh)) hdispatch fun _ => by simp
      have hexec := h
      simp only [type, fields, hhandled, Local.close, Prog.bind_assoc, Prog.pure_bind,
        Prog.pure_eq] at hexec
      refine uses_of_exec (fun _ => rfl) ?_ ?_ hpos hexec
      · exact fun _ _ => ⟨rfl, fun _ => ⟨rfl, fun _ => trivial⟩⟩
      · intro fd e w₁ es hrest herrno
        obtain ⟨_, es₁, w₂, rfl, herase, hrest⟩ := exec_perform_iff.mp hrest
        cases herase
        have herrno : w₁.errno t = e := herrno
        rw [exec_errno hrest, ← herrno]
        rfl
  | _ => cases hc

/-- An open that fails is answered by a failure; one that succeeds is answered by the next id. -/
theorem opens_of_exec {filePath : Bytes} {flags mode : Int32} (hpos : es.all positiveErrno = true)
    (h : exec (World.step t) w
      (Local.open filePath flags mode >>= fun x => .pure (opened id x.1 x.2)) es =
        some (res, w')) :
    (∃ errno, 0 < errno ∧ res = .ok (opened id (-1) errno) ∧
        es.any WorkerEvent.opensFile = false) ∨
      ∃ errno, res = .ok (opened id w.file.nextFdId errno) ∧
        es.any WorkerEvent.opensFile = true := by
  simp only [Local.open, Prog.call_bind, Prog.perform_bind, exec_perform_iff] at h
  obtain ⟨r, es₁, w₁, rfl, hsys, hrest⟩ := h
  have hfile : w.file = w₁.file := (World.step_call hsys).1.file
  cases r with
  | error e =>
      left
      refine ⟨e, ?_, ?_⟩
      · have hall := List.all_eq_true.mp hpos _ (.head _)
        simpa [positiveErrno] using hall
      · simp only [Prog.pure_eq, Prog.pure_bind, Prog.perform_bind, exec_perform_iff] at hrest
        obtain ⟨errno, es₂, w₂, rfl, herrno, hrest⟩ := hrest
        obtain ⟨rfl, rfl⟩ := World.step_errno_iff.mp herrno
        obtain ⟨rfl, heq⟩ := exec_pure_iff.mp hrest
        cases heq
        rw [(World.step_call hsys).2]
        exact ⟨rfl, rfl⟩
  | ok fd =>
      right
      simp only [Local.enter, Prog.pure_eq, Prog.call_bind, Prog.perform_bind, Prog.pure_bind,
        exec_perform_iff] at hrest
      obtain ⟨fdId, es₂, w₂, rfl, hnext, _, es₃, w₃, rfl, -, errno, es₄, w₄, rfl, -, hrest⟩ := hrest
      obtain ⟨rfl, -⟩ := World.step_nextFdId hnext
      obtain ⟨rfl, heq⟩ := exec_pure_iff.mp hrest
      cases heq
      rw [hfile]
      exact ⟨errno, rfl, rfl⟩

theorem opens_of_doCommand (hc : c.opens = true) (hfits : c.Fits fh)
    (hpos : es.all positiveErrno = true)
    (h : exec (World.step t) w (Worker.doCommand dirsToOverride (c.message fh id)) es =
      some (res, w')) :
    (∃ errno, 0 < errno ∧ res = .ok (c.failure id errno) ∧
        es.any WorkerEvent.opensFile = false) ∨
      ∃ errno, res = .ok (opened id w.file.nextFdId errno) ∧
        es.any WorkerEvent.opensFile = true := by
  have hwritten := (written_fields hfits).1
  rw [message, hwritten] at h
  cases c with
  | «open» path flags =>
      rw [type, fields, doCommand_handled noThrow_open (dispatch_open hfits) fun _ => by simp] at h
      exact opens_of_exec hpos h
  | create path mode flags =>
      rw [type, fields, doCommand_handled noThrow_open (dispatch_open hfits) fun _ => by simp] at h
      exact opens_of_exec hpos h
  | _ => cases hc

end Handled

end FileCall

end Zcfs

end ZControl
