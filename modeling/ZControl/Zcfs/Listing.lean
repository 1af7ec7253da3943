import ZControl.Lib.Batches
import ZControl.Worker.Replies
import ZControl.Zcfs.Mount

/-!
# Listing a remote directory

A call of `zcfs_readdir` is a loop over requests, each of them a loop over the entries of a stream
in the worker, followed by a loop over the entries of the answer. Here the three are run together:
a directory stream is a list of entries that are still to be read, and `filler` may say at any
time that its buffer is full.
-/

namespace ZControl

open Batches Interaction BinaryDeserializer

/-! ## The operations of the whole -/

/-- What the mount, its `Commander` and the worker at the other end do together; `t` is the
handler thread. -/
inductive MountOp where
  | getCommander (client : Bytes)
  | getClients
  | nextCommandId
  | worker (t : ThreadId) (op : WorkerOp)
  | filler (name : Bytes) (st : FillStat)
  deriving DecidableEq

@[reducible] def MountOp.Ans : MountOp → Type
  | .getCommander _ => Option ConnId
  | .getClients     => List Bytes
  | .nextCommandId  => UInt32
  | .worker _ op    => op.Ans
  | .filler _ _     => Bool

abbrev MountProg (α : Type) := Prog MountOp MountOp.Ans Fault α

abbrev MountEvent := Event MountOp MountOp.Ans

/-- An operation of the worker, performed by thread `t`. -/
abbrev perWorker (t : ThreadId) (op : WorkerOp) : MountProg op.Ans :=
  Prog.call (MountOp.worker t op)

/-- Carry the operations of the mount out; `thread` says which handler gets which command. -/
def carryOut (dirsToOverride : DirsToOverride) (thread : UInt32 → ThreadId) :
    (op : ZcfsOp) → MountProg op.Ans
  | .getCommander client => Prog.call (MountOp.getCommander client)
  | .getClients          => Prog.call MountOp.getClients
  | .commander _ .nextCommandId => Prog.call MountOp.nextCommandId
  | .commander _ (.sendCommand commanderMsg) => do
      let workerMsg ←
        (Worker.doCommand dirsToOverride commanderMsg).translate
          (perWorker (thread commanderMsg.id))
      pure (Commander.responseOf workerMsg)
  | .filler name st => Prog.call (MountOp.filler name st)

def Mounted {α : Type} (dirsToOverride : DirsToOverride) (thread : UInt32 → ThreadId)
    (p : ZcfsProg α) : MountProg α :=
  p.translate (carryOut dirsToOverride thread)

/-! ## The directories -/

/-- One worker, registered under the name `client`; `unread` is what is left of each directory
stream, and `filled` the calls of `filler` so far. -/
structure Mount where
  client : Bytes
  nextCommandId : UInt32
  world : World
  unread : DirPtr → List Dirent
  filled : List (Bytes × FillStat)

namespace Mount

/-- A stream hands its entries over one by one, and the null pointer at its end; or the call fails.
`full` is the answer of `filler` to the history of its calls. -/
def step (full : List (Bytes × FillStat) → Bool) (s : Mount) :
    (op : MountOp) → op.Ans → Option Mount
  | .getCommander client, conn =>
      if conn = (if client = s.client then some 0 else none) then some s else none
  | .getClients, clients => if clients = [s.client] then some s else none
  | .nextCommandId, id =>
      if id = s.nextCommandId then some { s with nextCommandId := id + 1 } else none
  | .worker t (.sys (.readdir dir)), .ok entry =>
      if entry = (s.unread dir).head? then
        (s.world.step t (.sys (.readdir dir)) (.ok entry)).map fun world =>
          { s with
            world := world
            unread := Function.update s.unread dir (s.unread dir).tail }
      else none
  | .worker t (.sys (.readdir dir)), .error e =>
      if 0 < e then
        (s.world.step t (.sys (.readdir dir)) (.error e)).map fun world =>
          { s with world := world }
      else none
  | .worker t op, a => (s.world.step t op a).map fun world => { s with world := world }
  | .filler name st, isFull =>
      if isFull = full (s.filled ++ [(name, st)]) then
        some { s with filled := s.filled ++ [(name, st)] }
      else none

section

variable {full : List (Bytes × FillStat) → Bool} {s s' : Mount} {t : ThreadId} {dir : DirPtr}

theorem step_setErrno {value : Int32} {a : Unit}
    (h : s.step full (.worker t (.setErrno value)) a = some s') :
    s' = { s with world := s.world.setErrno t value } := (Option.some.inj h).symm

theorem step_errno {a : Int32} (h : s.step full (.worker t .errno) a = some s') :
    a = s.world.errno t ∧ s' = s := by
  obtain ⟨w, hw, rfl⟩ := Option.map_eq_some_iff.mp h
  have hif : (if a = s.world.errno t then some s.world else none) = some w := hw
  simp only [Option.ite_none_right_eq_some, Option.some.injEq] at hif
  obtain ⟨ha, rfl⟩ := hif
  exact ⟨ha, rfl⟩

theorem step_find {id : Int32} {entries : Option (List Dirent)}
    (h : s.step full (.worker t (.overridden (.find id))) entries = some s') :
    entries = s.world.overriddenFds.lookup id ∧ s' = s := by
  obtain ⟨w, hw, rfl⟩ := Option.map_eq_some_iff.mp h
  obtain ⟨hentries, rfl⟩ := World.step_find hw
  exact ⟨hentries, rfl⟩

theorem step_getFd {id : Int32} {fd : DirPtr}
    (h : s.step full (.worker t (.dir (.getFd id))) fd = some s') :
    fd = s.world.dir.getFd none id ∧ s' = s := by
  obtain ⟨w, hw, rfl⟩ := Option.map_eq_some_iff.mp h
  obtain ⟨hfd, rfl⟩ := World.step_dirGetFd hw
  exact ⟨hfd, rfl⟩

theorem step_readdir_ok {entry : Option Dirent}
    (h : s.step full (.worker t (.sys (.readdir dir))) (.ok entry) = some s') :
    entry = (s.unread dir).head? ∧
      s' = { s with unread := Function.update s.unread dir (s.unread dir).tail } := by
  simp only [step, Option.ite_none_right_eq_some, Option.map_eq_some_iff] at h
  obtain ⟨hentry, world, hworld, rfl⟩ := h
  refine ⟨hentry, ?_⟩
  simp only [World.step, World.sysStep, World.handlesAfter, Option.ite_none_right_eq_some,
    Option.some.injEq] at hworld
  rw [hworld.2]

theorem step_readdir_error {e : Int32}
    (h : s.step full (.worker t (.sys (.readdir dir))) (.error e) = some s') :
    0 < e ∧ s' = { s with world := s.world.setErrno t e } := by
  simp only [step, Option.ite_none_right_eq_some, Option.map_eq_some_iff] at h
  obtain ⟨he, world, hworld, rfl⟩ := h
  refine ⟨he, ?_⟩
  simp only [World.step, World.sysStep, World.handlesAfter, Option.ite_none_right_eq_some,
    Option.some.injEq] at hworld
  rw [hworld.2]

end

end Mount

/-! ## Events -/

/-- The error number of a `::readdir` that failed. -/
def MountEvent.failure? : MountEvent → Option Int32
  | ⟨.worker _ (.sys (.readdir _)), .error e⟩ => some e
  | _ => none

/-- Whether a `::readdir` returned an entry. -/
def MountEvent.isEntry : MountEvent → Bool
  | ⟨.worker _ (.sys (.readdir _)), .ok (some _)⟩ => true
  | _ => false

/-- The error numbers of the calls of `::readdir` that failed, in order. -/
def failures (es : List MountEvent) : List Int32 := es.filterMap MountEvent.failure?

/-- The number of requests that were sent. -/
def requests (es : List MountEvent) : Nat := es.countP fun e => e.1 = .nextCommandId

/-- The number of entries that were read off the streams. -/
def entriesRead (es : List MountEvent) : Nat := es.countP MountEvent.isEntry

@[simp] theorem failures_nil : failures [] = [] := rfl

@[simp] theorem failures_append (es fs : List MountEvent) :
    failures (es ++ fs) = failures es ++ failures fs := List.filterMap_append

@[simp] theorem requests_nil : requests [] = 0 := rfl

@[simp] theorem requests_append (es fs : List MountEvent) :
    requests (es ++ fs) = requests es + requests fs := List.countP_append

@[simp] theorem entriesRead_nil : entriesRead [] = 0 := rfl

@[simp] theorem entriesRead_append (es fs : List MountEvent) :
    entriesRead (es ++ fs) = entriesRead es + entriesRead fs := List.countP_append

theorem requests_cons (e : MountEvent) (es : List MountEvent) :
    requests (e :: es) = (if e.1 = .nextCommandId then 1 else 0) + requests es := by
  rw [requests, List.countP_cons, Nat.add_comm]
  simp [requests]

theorem entriesRead_cons (e : MountEvent) (es : List MountEvent) :
    entriesRead (e :: es) = (if e.isEntry then 1 else 0) + entriesRead es := by
  rw [entriesRead, List.countP_cons, Nat.add_comm]
  simp [entriesRead]

/-! ## The loop in the worker -/

section

variable {full : List (Bytes × FillStat) → Bool} {t : ThreadId} {dir : DirPtr}

/-- The state after a loop that read `m` entries of `dir`; the handler's `errno` is `f t`. -/
def Mount.afterReading (s : Mount) (dir : DirPtr) (m : Nat) (f : ThreadId → Int32) : Mount :=
  { s with
    world := { s.world with errno := f }
    unread := Function.update s.unread dir ((s.unread dir).drop m) }

/-- The state after requests that read `m` entries of `dir`. -/
def Mount.afterListing (s : Mount) (dir : DirPtr) (m : Nat) (f : ThreadId → Int32) (id : UInt32)
    (filled : List (Bytes × FillStat)) : Mount :=
  { s.afterReading dir m f with nextCommandId := id, filled := filled }

@[simp] theorem Mount.afterListing_unread (s : Mount) (dir : DirPtr) (m : Nat)
    (f : ThreadId → Int32) (id : UInt32) (filled : List (Bytes × FillStat)) :
    (s.afterListing dir m f id filled).unread dir = (s.unread dir).drop m := by
  simp [afterListing, afterReading]

@[simp] theorem Mount.afterListing_afterListing (s : Mount) (dir : DirPtr) (m m' : Nat)
    (f f' : ThreadId → Int32) (id id' : UInt32) (filled filled' : List (Bytes × FillStat)) :
    (s.afterListing dir m f id filled).afterListing dir m' f' id' filled' =
      s.afterListing dir (m + m') f' id' filled' := by
  simp [afterListing, afterReading]

/-- **The loop over a stream.** It reads up to `n` entries and writes each; either all calls
succeed and `errno` ends at 0, or one fails and its error number stays. -/
theorem readdirLoop_lists :
    ∀ {n : Nat} {ser : BinarySerializer} {s s' : Mount} {es : List MountEvent}
      {r : Except Fault BinarySerializer},
      exec (Mount.step full) s
          ((DirCommandsHandler.readdirLoop dir n ser).translate (perWorker t)) es = some (r, s') →
        (∀ d ∈ s.unread dir, ValidName d) → ser.Synced →
        ser.serialized.length +
          (encodeDirEntries (((s.unread dir).take n).map entryOf)).length < 2 ^ 32 →
        requests es = 0 ∧ ∃ m f, s' = s.afterReading dir m f ∧
          entriesRead es = min m (s.unread dir).length ∧
          r = .ok (ser.append (encodeDirEntries (((s.unread dir).take m).map entryOf))) ∧
          ((failures es = [] ∧ m = n ∧ f t = if n = 0 then s.world.errno t else 0) ∨
            ∃ e, 0 < e ∧ failures es = [e] ∧ m ≤ n ∧ f t = e)
  | 0, ser, s, s', es, r, h, _, _, _ => by
      obtain ⟨rfl, heq⟩ := exec_pure_iff.mp h
      cases heq
      refine ⟨rfl, 0, s.world.errno, ?_, ?_, ?_, .inl ⟨rfl, rfl, rfl⟩⟩
      · simp [Mount.afterReading]
      · simp
      · simp [BinarySerializer.append]
  | n + 1, ser, s, s', es, r, h, hvalid, hser, hfits => by
      simp only [DirCommandsHandler.readdirLoop, Prog.call_bind, Prog.translate_perform,
        exec_perform_iff] at h
      obtain ⟨_, es₁, s₁, rfl, hsetErrno, entry, es₂, s₂, rfl, hread, hrest⟩ := h
      obtain rfl := Mount.step_setErrno hsetErrno
      rcases entry with e | _ | d
      · -- the call fails: `errno` is its error number
        obtain ⟨he, rfl⟩ := Mount.step_readdir_error hread
        obtain ⟨rfl, heq⟩ := exec_pure_iff.mp hrest
        cases heq
        refine ⟨by simp [requests], 0, Function.update s.world.errno t e, ?_, ?_, ?_,
          .inr ⟨e, he, ?_, Nat.zero_le _, ?_⟩⟩
        · simp [Mount.afterReading, World.setErrno]
        · simp [entriesRead_cons, MountEvent.isEntry]
        · simp [BinarySerializer.append]
        · rfl
        · simp
      · -- the end of the stream
        obtain ⟨hnone, rfl⟩ := Mount.step_readdir_ok hread
        have hnil : s.unread dir = [] := List.head?_eq_none_iff.mp hnone.symm
        obtain ⟨rfl, heq⟩ := exec_pure_iff.mp hrest
        cases heq
        refine ⟨by simp [requests], n + 1, Function.update s.world.errno t 0, ?_, ?_, ?_,
          .inl ⟨?_, rfl, ?_⟩⟩
        · simp [Mount.afterReading, World.setErrno, hnil]
        · simp [entriesRead_cons, MountEvent.isEntry, hnil]
        · simp [hnil, BinarySerializer.append]
        · rfl
        · simp
      · -- one more entry
        obtain ⟨hsome, rfl⟩ := Mount.step_readdir_ok hread
        obtain ⟨ds, hds⟩ : ∃ ds, s.unread dir = d :: ds := List.head?_eq_some_iff.mp hsome.symm
        have hd : ValidName d := hvalid d (by simp [hds])
        rw [hds, List.take_succ_cons, List.map_cons, encodeDirEntries_cons,
          List.length_append] at hfits
        have hfields := DirCommandsHandler.direntFields_append hd.1 hser (by omega)
        simp only [hfields, Prog.lift_ok, Prog.pure_bind] at hrest
        obtain ⟨hrequests, m, f, rfl, hcount, rfl, hend⟩ := readdirLoop_lists hrest
          (by simpa [hds] using fun x hx => hvalid x (by simp [hds, hx]))
          (BinarySerializer.append_synced hser (by omega))
          (by
            rw [BinarySerializer.append_serialized, List.length_append]
            simp only [hds, Function.update_self, List.tail_cons]
            omega)
        refine ⟨?_, m + 1, f, ?_, ?_, ?_, ?_⟩
        · simpa [requests_cons] using hrequests
        · simp [Mount.afterReading, World.setErrno, hds]
        · simp only [entriesRead_cons, MountEvent.isEntry, hcount, hds, Function.update_self,
            List.tail_cons, List.length_cons, if_true]
          simp
          omega
        · simp [hds]
        · rcases hend with ⟨hnone, rfl, hf⟩ | ⟨e, he, hone, hm, hf⟩
          · refine .inl ⟨hnone, rfl, ?_⟩
            rw [hf]
            simp [World.setErrno]
          · exact .inr ⟨e, he, hone, by omega, hf⟩

end

/-! ## One request -/

/-- How a `ReadDir` is handled. -/
theorem doCommand_readdir (dirsToOverride : DirsToOverride) (id : UInt32) (fd : Int32)
    (n : UInt32) :
    Worker.doCommand dirsToOverride
        ⟨id, CommanderMessageType.readDir.toUint8, encodingOf [.int32 fd, .uint32 n]⟩ =
      (do
        let overridden ← overriddenOp (.find fd)
        match overridden with
        | some dirents => do
            let serializer ←
              Prog.lift (DirCommandsHandler.overriddenLoop dirents n.toNat BinarySerializer.new)
            DirCommandsHandler.readdirReply
              ⟨id, CommanderMessageType.readDir.toUint8, encodingOf [.int32 fd, .uint32 n]⟩
              serializer 0
        | none => do
            let dir ← DirCommandsHandler.getFd fd
            match dir with
            | none   =>
                DirCommandsHandler.readdirReply
                  ⟨id, CommanderMessageType.readDir.toUint8, encodingOf [.int32 fd, .uint32 n]⟩
                  BinarySerializer.new DirCommandsHandler.EBADF
            | some _ => do
                let serializer ←
                  DirCommandsHandler.readdirLoop dir n.toNat BinarySerializer.new
                let errno ← getErrno
                DirCommandsHandler.readdirReply
                  ⟨id, CommanderMessageType.readDir.toUint8, encodingOf [.int32 fd, .uint32 n]⟩
                  serializer errno) := by
  have hfits : (encodingOf [.int32 fd, .uint32 n]).length < 2 ^ 32 := by simp
  have hkinds : dispatchedKinds CommanderMessageType.readDir.toUint8 = some [.int32, .uint32] := rfl
  refine (Worker.doCommand_wellFormed dirsToOverride hfits hkinds
    ⟨(fd, n, ()), [],
      by simp [encodeFields, Field.encoded, Field.value, FieldKind.encode]⟩).trans ?_
  show DirCommandsHandler.readdir _ = _
  exact arguments_bind hfits

/-- What `Commander::readdir` does with the answer. -/
def decodeListing (workerMsg : Message) : CommanderProg (List DirEntry × Int32) :=
  Commander.response workerMsg do
    let dirEntries ← Commander.readDirEntries (workerMsg.data.length + 1)
    let workerErrno ← deserializeInt32
    pure (dirEntries, workerErrno)

section

variable {dirsToOverride : DirsToOverride} {thread : UInt32 → ThreadId}
  {full : List (Bytes × FillStat) → Bool}

/-- A `readdir` of the `Commander` takes a number, has the worker handle the request, and decodes
the answer. -/
theorem mounted_readdir (conn : ConnId) (fd : Int32) (n : UInt32) :
    Mounted dirsToOverride thread (Zcfs.onCommander conn (Commander.readdir fd n)) =
      .perform .nextCommandId fun id =>
        (Worker.doCommand dirsToOverride ⟨id, CommanderMessageType.readDir.toUint8,
            encodingOf [.int32 fd, .uint32 n]⟩).translate (perWorker (thread id)) >>= fun m =>
          Mounted dirsToOverride thread (Zcfs.onCommander conn
            (Prog.lift (Commander.responseOf m) >>= decodeListing)) := by
  have hfits : (encodingOf [.int32 fd, .uint32 n]).length < 2 ^ 32 := by simp
  rw [Commander.readdir, request_eq hfits]
  simp only [Zcfs.onCommander, Mounted, Prog.perform_bind, Prog.translate_perform, Prog.call_bind,
    carryOut, Prog.bind_assoc, Prog.pure_eq, Prog.pure_bind]
  rfl

theorem mounted_decodeListing {conn : ConnId} {id : UInt32} {es : List DirEntry} {errno : Int32}
    (hfits : (encodeDirEntries es).length + 4 < 2 ^ 32) :
    Mounted dirsToOverride thread (Zcfs.onCommander conn
      (Prog.lift (Commander.responseOf ⟨id, WorkerMessageType.commandResult.toUint8,
        encodeDirEntries es ++ encodeInt32 errno⟩) >>= decodeListing)) = .pure (es, errno) := by
  have hresponse := Commander.readdir_response es errno id
    WorkerMessageType.commandResult.toUint8 (by rw [List.length_append]; simpa using hfits)
  show Mounted dirsToOverride thread (Zcfs.onCommander conn (decodeListing _)) = _
  rw [decodeListing, hresponse]
  rfl

/-- The encoding of fewer entries is shorter. -/
theorem length_encode_take_le (dirents : List Dirent) {m n : Nat} (hmn : m ≤ n) :
    (encodeDirEntries ((dirents.take m).map entryOf)).length ≤
      (encodeDirEntries ((dirents.take n).map entryOf)).length := by
  obtain ⟨k, rfl⟩ := Nat.exists_eq_add_of_le hmn
  rw [List.take_add, List.map_append, encodeDirEntries_append, List.length_append]
  exact Nat.le_add_right _ _

/-- The encoding of a listing of `m` entries or less. -/
theorem length_listing_le {dirents : List Dirent} (hvalid : ∀ d ∈ dirents, ValidName d) (m : Nat) :
    (encodeDirEntries ((dirents.take m).map entryOf)).length ≤ 264 * m := by
  have hle := length_encodeDirEntries_le ((dirents.take m).map entryOf) (by
    intro e he
    obtain ⟨d, hd, rfl⟩ := List.mem_map.mp he
    exact (hvalid d (List.mem_of_mem_take hd)).2)
  rw [List.length_map, List.length_take] at hle
  omega

/-- The entries that `zcfs_readdir` asks for at once fit a message. -/
theorem page_fits {dirents : List Dirent} (hvalid : ∀ d ∈ dirents, ValidName d) :
    (encodeDirEntries ((dirents.take Zcfs.MaxDirsReadPerCall.toNat).map entryOf)).length + 4 <
      2 ^ 32 := by
  have hle := length_listing_le hvalid Zcfs.MaxDirsReadPerCall.toNat
  have hmax : Zcfs.MaxDirsReadPerCall.toNat = 2048 := rfl
  omega

/-- The entries that a loop wrote, with `errno`, are what the `Commander` gets. -/
theorem mounted_answer {conn : ConnId} {t : ThreadId} {es : List DirEntry} {errno : Int32}
    (id : UInt32) (type : UInt8) (data : Bytes)
    (hfits : (encodeDirEntries es).length + 4 < 2 ^ 32) :
    ((DirCommandsHandler.readdirReply ⟨id, type, data⟩
        (BinarySerializer.new.append (encodeDirEntries es)) errno).translate (perWorker t) >>=
      fun m => Mounted dirsToOverride thread (Zcfs.onCommander conn
        (Prog.lift (Commander.responseOf m) >>= decodeListing))) = .pure (es, errno) := by
  have hsynced : (BinarySerializer.new.append (encodeDirEntries es)).Synced := by
    apply BinarySerializer.append_synced BinarySerializer.synced_new
    show 0 + (encodeDirEntries es).length < 2 ^ 32
    omega
  have hserialized : (BinarySerializer.new.append (encodeDirEntries es)).serialized =
      encodeDirEntries es := by
    rw [BinarySerializer.append_serialized]
    exact List.nil_append _
  rw [readdirReply_append _ hsynced (by rw [hserialized]; exact hfits), hserialized]
  exact mounted_decodeListing hfits

/-- The id `fd`, which `zcfs_opendir` does not take for a failure, stands for the open stream
`dir`. -/
structure Streams (s : Mount) (fd : Int32) (dir : Nat) : Prop where
  notFailed : fd ≠ -1
  handle : s.world.dir.fds.lookup fd = some (some dir)
  notOverridden : s.world.overriddenFds.lookup fd = none
  isOpen : (s.world.dirs.serial (some dir)).isSome
  valid : ∀ d ∈ s.unread (some dir), ValidName d

/-- **One request on a stream.** It brings the next `n` entries, or fewer at the end, and no error;
or one `::readdir` fails, and it brings that error number. -/
theorem request_streams {s s' : Mount} {conn : ConnId} {fd : Int32} {dir : Nat} {n : UInt32}
    {es : List MountEvent} {r : Except Fault (List DirEntry × Int32)} (hs : Streams s fd dir)
    (hn : n ≠ 0)
    (hfits : (encodeDirEntries (((s.unread (some dir)).take n.toNat).map entryOf)).length + 4 <
      2 ^ 32)
    (h : exec (Mount.step full) s
      (Mounted dirsToOverride thread (Zcfs.onCommander conn (Commander.readdir fd n))) es =
        some (r, s')) :
    requests es = 1 ∧ ∃ m f,
      s' = s.afterListing (some dir) m f (s.nextCommandId + 1) s.filled ∧
      entriesRead es = min m (s.unread (some dir)).length ∧
      ((failures es = [] ∧ m = n.toNat ∧
          r = .ok (((s.unread (some dir)).take n.toNat).map entryOf, 0)) ∨
        ∃ e entries, 0 < e ∧ failures es = [e] ∧ r = .ok (entries, e)) := by
  rw [mounted_readdir] at h
  obtain ⟨id, es₁, s₁, rfl, hid, h₁⟩ := exec_perform_iff.mp h
  simp only [Mount.step, Option.ite_none_right_eq_some, Option.some.injEq] at hid
  obtain ⟨rfl, rfl⟩ := hid
  simp only [doCommand_readdir, DirCommandsHandler.getFd, Prog.call_bind, Prog.translate_perform,
    Prog.perform_bind, exec_perform_iff] at h₁
  obtain ⟨overridden, es₂, s₂, rfl, hfind, h₂⟩ := h₁
  obtain ⟨rfl, rfl⟩ := Mount.step_find hfind
  simp only [hs.notOverridden, Prog.translate_perform, Prog.call_bind, Prog.perform_bind,
    exec_perform_iff] at h₂
  obtain ⟨fdPtr, es₃, s₃, rfl, hgetFd, h₃⟩ := h₂
  obtain ⟨hptr, rfl⟩ := Mount.step_getFd hgetFd
  have hdir : fdPtr = some dir := by
    rw [hptr, Table.getFd]
    show (s.world.dir.fds.lookup fd).getD none = _
    rw [hs.handle]
    rfl
  subst hdir
  simp only [Prog.translate_bind, Prog.bind_assoc] at h₃
  obtain ⟨r₄, s₄, es₄, es₅, rfl, hloop, h₄⟩ := exec_bind h₃
  obtain ⟨hrequests, m, f, rfl, hcount, rfl, hend⟩ := readdirLoop_lists hloop hs.valid
    BinarySerializer.synced_new (by
      show 0 + (encodeDirEntries (((s.unread (some dir)).take n.toNat).map entryOf)).length < 2 ^ 32
      omega)
  simp only [Prog.translate_perform, Prog.call_bind, Prog.perform_bind, exec_perform_iff] at h₄
  obtain ⟨errno, es₆, s₆, rfl, herrno, h₆⟩ := h₄
  obtain ⟨rfl, rfl⟩ := Mount.step_errno herrno
  have hm : m ≤ n.toNat := by
    rcases hend with ⟨-, rfl, -⟩ | ⟨-, -, -, hm, -⟩
    · exact Nat.le_refl _
    · exact hm
  have hentries := length_encode_take_le (s.unread (some dir)) hm
  rw [mounted_answer _ _ _ (by omega)] at h₆
  obtain ⟨rfl, heq⟩ := exec_pure_iff.mp h₆
  cases heq
  have hn' : n.toNat ≠ 0 := fun hzero => hn (UInt32.toNat_inj.mp hzero)
  refine ⟨?_, m, f, rfl, ?_, ?_⟩
  · simp [requests_cons, hrequests]
  · simp [entriesRead_cons, MountEvent.isEntry, hcount]
  · rcases hend with ⟨hnone, rfl, hf⟩ | ⟨e, he, hone, -, hf⟩
    · refine .inl ⟨?_, rfl, ?_⟩
      · show failures (es₄ ++ _) = []
        rw [failures_append, hnone]
        rfl
      · rw [if_neg hn'] at hf
        show Except.ok (_, f (thread s.nextCommandId)) = _
        rw [hf]
    · refine .inr ⟨e, ((s.unread (some dir)).take m).map entryOf, he, ?_, ?_⟩
      · show failures (es₄ ++ _) = [e]
        rw [failures_append, hone]
        rfl
      · show Except.ok (_, f (thread s.nextCommandId)) = _
        rw [hf]

/-- What `filler` is called with for an entry. -/
def fillOf (e : DirEntry) : Bytes × FillStat := (cStr e.name, ⟨e.type.toUInt32 <<< 12, 0⟩)

/-- The loop over the entries of one answer. -/
theorem fillEntries_exec :
    ∀ {entries : List DirEntry} {s s' : Mount} {es : List MountEvent} {r : Except Fault Unit},
      exec (Mount.step full) s
          (Mounted dirsToOverride thread (Zcfs.fillEntries entries)) es = some (r, s') →
        requests es = 0 ∧ failures es = [] ∧ entriesRead es = 0 ∧ r = .ok () ∧
          s' = { s with filled := s.filled ++ passed full s.filled (entries.map fillOf) }
  | [], s, s', es, r, h => by
      obtain ⟨rfl, heq⟩ := exec_pure_iff.mp h
      cases heq
      exact ⟨rfl, rfl, rfl, rfl, by simp [passed]⟩
  | e :: entries, s, s', es, r, h => by
      simp only [Zcfs.fillEntries, Mounted, Prog.call_bind, Prog.translate_perform, carryOut,
        exec_perform_iff] at h
      obtain ⟨isFull, es₁, s₁, rfl, hfill, h₁⟩ := h
      simp only [Mount.step, Option.ite_none_right_eq_some, Option.some.injEq] at hfill
      obtain ⟨rfl, rfl⟩ := hfill
      have hpassed : passed full s.filled ((e :: entries).map fillOf) = fillOf e ::
          if full (s.filled ++ [fillOf e]) then []
          else passed full (s.filled ++ [fillOf e]) (entries.map fillOf) := rfl
      rw [hpassed]
      by_cases hfull : full (s.filled ++ [fillOf e]) = true
      · -- the loop is left
        have hstop : full (s.filled ++ [(cStr e.name, ⟨e.type.toUInt32 <<< 12, 0⟩)]) = true := hfull
        rw [hstop] at h₁
        obtain ⟨rfl, heq⟩ := exec_pure_iff.mp h₁
        cases heq
        refine ⟨rfl, rfl, rfl, rfl, ?_⟩
        rw [if_pos hfull]
        rfl
      · have hgo : full (s.filled ++ [(cStr e.name, ⟨e.type.toUInt32 <<< 12, 0⟩)]) = false :=
          Bool.eq_false_iff.mpr hfull
        rw [hgo] at h₁
        obtain ⟨hrequests, hfailures, hcount, rfl, rfl⟩ := fillEntries_exec h₁
        refine ⟨?_, hfailures, ?_, rfl, ?_⟩
        · simpa [requests_cons] using hrequests
        · simpa [entriesRead_cons, MountEvent.isEntry] using hcount
        · rw [if_neg hfull, List.append_cons s.filled (fillOf e)]
          rfl

theorem Streams.after {s : Mount} {fd : Int32} {dir : Nat} (hs : Streams s fd dir) (m : Nat)
    (f : ThreadId → Int32) (id : UInt32) (filled : List (Bytes × FillStat)) :
    Streams (s.afterListing (some dir) m f id filled) fd dir where
  notFailed := hs.notFailed
  handle := hs.handle
  notOverridden := hs.notOverridden
  isOpen := hs.isOpen
  valid := by
    intro d hd
    apply hs.valid d
    rw [Mount.afterListing_unread] at hd
    exact List.mem_of_mem_drop hd

/-- One turn of the loop in `zcfs_readdir`: a request, and a `filler` call for each entry. -/
theorem readdirLoop_turn {conn : ConnId} {fh : UInt64} {n : Nat} {s s' : Mount}
    {es : List MountEvent} {r : Except Fault (Option Int32)}
    (h : exec (Mount.step full) s
      (Mounted dirsToOverride thread (Zcfs.readdirLoop conn fh (n + 1))) es = some (r, s')) :
    ∃ r₁ s₁ es₁ es₂, es = es₁ ++ es₂ ∧
      exec (Mount.step full) s (Mounted dirsToOverride thread (Zcfs.onCommander conn
        (Commander.readdir (Zcfs.fdOf fh) Zcfs.MaxDirsReadPerCall))) es₁ = some (r₁, s₁) ∧
      match r₁ with
      | .error e => es₂ = [] ∧ r = .error e ∧ s' = s₁
      | .ok (dirs, workerErrno) =>
          exec (Mount.step full) s₁
            (if workerErrno ≠ 0 then .pure (some (-workerErrno))
            else Mounted dirsToOverride thread (Zcfs.fillEntries dirs) >>= fun _ =>
              if dirs.length = Zcfs.MaxDirsReadPerCall.toNat then
                Mounted dirsToOverride thread (Zcfs.readdirLoop conn fh n)
              else .pure (some 0)) es₂ = some (r, s') := by
  rw [Zcfs.readdirLoop, Mounted, Prog.translate_bind] at h
  obtain ⟨r₁, s₁, es₁, es₂, rfl, hrequest, hrest⟩ := exec_bind h
  refine ⟨r₁, s₁, es₁, es₂, rfl, hrequest, ?_⟩
  rcases r₁ with e | ⟨dirs, workerErrno⟩
  · obtain ⟨rfl, heq⟩ := hrest
    cases heq
    exact ⟨rfl, rfl, rfl⟩
  · by_cases herrno : workerErrno = 0
    · subst herrno
      by_cases hfull : dirs.length = Zcfs.MaxDirsReadPerCall.toNat
      · simpa [hfull, Mounted, Prog.translate_bind] using hrest
      · simpa [hfull, Mounted, Prog.translate_bind] using hrest
    · simpa [herrno] using hrest

/-- How a loop over requests on a stream has ended: it has used up its turns, or every entry has
been passed to `filler`, or a `::readdir` has failed. -/
inductive LoopEnds (s : Mount) (dir n m : Nat) (filled : List (Bytes × FillStat))
    (es : List MountEvent) : Option Int32 → Prop where
  | turnsUsedUp (hnofail : failures es = []) (hmore : n ≤ (s.unread (some dir)).length / 2048) :
      LoopEnds s dir n m filled es none
  | done (hnofail : failures es = [])
      (hrequests : requests es = (s.unread (some dir)).length / 2048 + 1)
      (hread : (s.unread (some dir)).length ≤ m)
      (hfilled : filled = s.filled ++ ((s.unread (some dir)).map entryOf).map fillOf) :
      LoopEnds s dir n m filled es (some 0)
  | failed (e : Int32) (he : 0 < e) (hone : failures es = [e]) :
      LoopEnds s dir n m filled es (some (-e))

/-- **The loop over the requests**, on a stream. -/
theorem readdirLoop_streams {conn : ConnId} {fd : Int32} {dir n : Nat} {s s' : Mount}
    {es : List MountEvent} {r : Except Fault (Option Int32)}
    (h : exec (Mount.step fun _ => false) s
      (Mounted dirsToOverride thread (Zcfs.readdirLoop conn (Zcfs.fhOf fd) n)) es = some (r, s'))
    (hs : Streams s fd dir) :
    ∃ m f id filled v, s' = s.afterListing (some dir) m f id filled ∧
      entriesRead es = min m (s.unread (some dir)).length ∧ r = .ok v ∧
      LoopEnds s dir n m filled es v := by
  induction n generalizing s es with
  | zero =>
      obtain ⟨rfl, heq⟩ := exec_pure_iff.mp h
      cases heq
      refine ⟨0, s'.world.errno, s'.nextCommandId, s'.filled, none, ?_, by simp, rfl,
        .turnsUsedUp rfl (Nat.zero_le _)⟩
      simp [Mount.afterListing, Mount.afterReading]
  | succ n ih =>
      obtain ⟨r₁, s₁, es₁, es₂, rfl, hrequest, hrest⟩ := readdirLoop_turn h
      rw [Zcfs.fdOf_fhOf] at hrequest
      obtain ⟨hrequests, m, f, rfl, hcount, hanswer⟩ :=
        request_streams hs (by decide) (page_fits hs.valid) hrequest
      have hmax : Zcfs.MaxDirsReadPerCall.toNat = 2048 := rfl
      rcases hanswer with ⟨hnone, rfl, rfl⟩ | ⟨e, entries, he, hone, rfl⟩
      · -- the answer holds the next 2048 entries, or what is left
        rw [hmax] at hrest hcount
        simp only [ne_eq, not_true_eq_false, if_false] at hrest
        obtain ⟨r₂, s₂, es₃, es₄, rfl, hfill, hloop⟩ := exec_bind hrest
        obtain ⟨hfillRequests, hfillFailures, hfillCount, rfl, rfl⟩ := fillEntries_exec hfill
        rw [passed_never, List.length_map, List.length_take] at hloop
        have hfilled : ∀ rest : List Dirent, s.filled ++
            (((s.unread (some dir)).take 2048).map entryOf).map fillOf ++
              (rest.map entryOf).map fillOf =
            s.filled ++ (((s.unread (some dir)).take 2048 ++ rest).map entryOf).map fillOf := by
          intro rest
          simp
        by_cases hfull : 2048 ≤ (s.unread (some dir)).length
        · -- a full answer, and on with the rest
          rw [if_pos (Nat.min_eq_left hfull)] at hloop
          obtain ⟨m, f', id, filled, v, rfl, hrestCount, rfl, hend⟩ := ih
            (s := s.afterListing (some dir) 2048 f (s.nextCommandId + 1)
              (s.filled ++ (((s.unread (some dir)).take 2048).map entryOf).map fillOf))
            hloop (hs.after _ _ _ _)
          rw [Mount.afterListing_unread, List.length_drop] at hrestCount
          refine ⟨2048 + m, f', id, filled, v, Mount.afterListing_afterListing .., ?_, rfl, ?_⟩
          · simp only [entriesRead_append, hcount, hfillCount, hrestCount]
            omega
          · cases hend with
            | turnsUsedUp hnofail hmore =>
                rw [Mount.afterListing_unread, List.length_drop] at hmore
                exact .turnsUsedUp (by simp [hnone, hfillFailures, hnofail]) (by omega)
            | done hnofail hrestRequests hread hrestFilled =>
                rw [Mount.afterListing_unread, List.length_drop] at hrestRequests hread
                refine .done (by simp [hnone, hfillFailures, hnofail]) ?_ (by omega) ?_
                · simp only [requests_append, hrequests, hfillRequests, hrestRequests]
                  omega
                · rw [hrestFilled, Mount.afterListing_unread]
                  show s.filled ++ _ ++ _ = _
                  rw [hfilled, List.take_append_drop]
            | failed e he hone => exact .failed e he (by simp [hnone, hfillFailures, hone])
        · -- the last answer
          rw [if_neg (by omega)] at hloop
          obtain ⟨rfl, heq⟩ := exec_pure_iff.mp hloop
          cases heq
          refine ⟨2048, f, s.nextCommandId + 1, _, some 0, rfl, ?_, rfl, .done ?_ ?_ (by omega) ?_⟩
          · simp [hcount, hfillCount]
          · simp [hnone, hfillFailures]
          · simp only [requests_append, hrequests, hfillRequests, requests_nil]
            omega
          · rw [List.take_of_length_le (by omega)]
            rfl
      · -- the request has failed
        have hne : e ≠ 0 := by
          rintro rfl
          exact absurd he (by decide)
        simp only [ne_eq, hne, not_false_eq_true, if_true] at hrest
        obtain ⟨rfl, heq⟩ := exec_pure_iff.mp hrest
        cases heq
        exact ⟨m, f, _, _, _, rfl, by simp [hcount], rfl, .failed e he (by simp [hone])⟩

/-! ## One call -/

/-- A call that looks the worker up and does not fail is a run of its body. -/
theorem withCommander_exec {α : Type} {path : Bytes} {missing failed : α}
    {body : ConnId → Bytes → ZcfsProg α} {s s' : Mount} {es : List MountEvent} {r : Except Fault α}
    (hpath : (Zcfs.splitPath path).1 = s.client)
    (h : exec (Mount.step full) s (Mounted dirsToOverride thread
      (Prog.tryCatch (Zcfs.withCommander path missing body) (Zcfs.onError failed))) es =
        some (r, s')) :
    ∃ es₁ es₂ r₁ s₁, es = ⟨.getCommander (Zcfs.splitPath path).1, some 0⟩ :: (es₁ ++ es₂) ∧
      exec (Mount.step full) s
        (Mounted dirsToOverride thread (body 0 (Zcfs.splitPath path).2)) es₁ = some (r₁, s₁) ∧
      ∀ a, r₁ = .ok a → es₂ = [] ∧ r = .ok a ∧ s' = s₁ := by
  obtain ⟨r₁, s₁, es₁, es₂, rfl, hbody, hend⟩ := exec_translate_tryCatch h
  simp only [Zcfs.withCommander, Prog.call_bind, Prog.translate_perform, carryOut,
    exec_perform_iff] at hbody
  obtain ⟨conn, es₃, s₂, rfl, hconn, hrest⟩ := hbody
  simp only [Mount.step, if_pos hpath, Option.ite_none_right_eq_some, Option.some.injEq] at hconn
  obtain ⟨rfl, rfl⟩ := hconn
  refine ⟨es₃, es₂, r₁, s₁, rfl, hrest, ?_⟩
  rintro a rfl
  obtain ⟨rfl, heq⟩ := hend
  cases heq
  exact ⟨rfl, rfl, rfl⟩

/-- What a call of `zcfs_readdir` on a stream does. -/
theorem readdir_streams {path : Bytes} {fd : Int32} {dir n : Nat} {s s' : Mount}
    {es : List MountEvent} {r : Except Fault (Option Int32)}
    (hpath : (Zcfs.splitPath path).1 = s.client) (hs : Streams s fd dir)
    (h : exec (Mount.step fun _ => false) s
      (Mounted dirsToOverride thread (Zcfs.readdir n path (Zcfs.fhOf fd))) es = some (r, s')) :
    ∃ m f id filled v, s' = s.afterListing (some dir) m f id filled ∧
      entriesRead es = min m (s.unread (some dir)).length ∧ r = .ok v ∧
      LoopEnds s dir n m filled es v := by
  rw [Zcfs.readdir, if_neg (Zcfs.fhOf_ne hs.notFailed)] at h
  obtain ⟨es₁, es₂, r₁, s₁, rfl, hloop, hend⟩ := withCommander_exec hpath h
  obtain ⟨m, f, id, filled, v, rfl, hcount, rfl, hends⟩ := readdirLoop_streams hloop hs
  obtain ⟨rfl, rfl, rfl⟩ := hend v rfl
  rw [List.append_nil]
  refine ⟨m, f, id, filled, v, rfl, ?_, rfl, ?_⟩
  · simpa [entriesRead_cons, MountEvent.isEntry] using hcount
  · -- looking the worker up is no request and does not fail
    cases hends with
    | turnsUsedUp hnofail hmore => exact .turnsUsedUp hnofail hmore
    | done hnofail hrequests hread hfilled =>
        exact .done hnofail (by simpa [requests_cons] using hrequests) hread hfilled
    | failed e he hone => exact .failed e he hone

/-! ## Runs without a failure -/

/-- The state after `errno = 0` and one `::readdir` that succeeds. -/
def Mount.afterOne (s : Mount) (t : ThreadId) (dir : Nat) : Mount :=
  { s with
    world := s.world.setErrno t 0
    unread := Function.update s.unread (some dir) (s.unread (some dir)).tail }

/-- A turn of the loop over a stream that is open can be run without a failure. -/
theorem Mount.readdir_runs {s s' : Mount} {t : ThreadId} {dir : Nat} {α : Type}
    {k : Except Int32 (Option Dirent) → MountProg α} {x : Except Fault α} (es : List MountEvent)
    (hopen : (s.world.dirs.serial (some dir)).isSome)
    (hrest : exec (Mount.step full) (s.afterOne t dir) (k (.ok (s.unread (some dir)).head?)) es =
      some (x, s')) :
    exec (Mount.step full) s
      (.perform (.worker t (.setErrno 0)) fun _ =>
        .perform (.worker t (.sys (.readdir (some dir)))) k)
      (⟨.worker t (.setErrno 0), ()⟩ ::
        ⟨.worker t (.sys (.readdir (some dir))), .ok (s.unread (some dir)).head?⟩ :: es) =
      some (x, s') := by
  have hread : Mount.step full { s with world := s.world.setErrno t 0 }
      (.worker t (.sys (.readdir (some dir)))) (.ok (s.unread (some dir)).head?) =
        some (s.afterOne t dir) := by
    simp [Mount.step, World.step, World.sysStep, World.allows, World.handlesAfter, World.setErrno,
      hopen, afterOne]
  exact exec_perform_iff.mpr ⟨(), _, _, rfl, rfl, exec_perform_iff.mpr
    ⟨_, _, _, rfl, hread, hrest⟩⟩

/-- The loop over a stream that is open can be run to its end without a failure. -/
theorem readdirLoop_runs (full : List (Bytes × FillStat) → Bool) (t : ThreadId) {dir : Nat} :
    ∀ (n : Nat) (ser : BinarySerializer) (s : Mount),
      (s.world.dirs.serial (some dir)).isSome → (∀ d ∈ s.unread (some dir), ValidName d) →
        ser.Synced →
        ser.serialized.length +
          (encodeDirEntries (((s.unread (some dir)).take n).map entryOf)).length < 2 ^ 32 →
        ∃ es r s', exec (Mount.step full) s
          ((DirCommandsHandler.readdirLoop (some dir) n ser).translate (perWorker t)) es =
            some (.ok r, s') ∧ failures es = []
  | 0, ser, s, _, _, _, _ => ⟨[], ser, s, exec_pure_iff.mpr ⟨rfl, rfl⟩, rfl⟩
  | n + 1, ser, s, hopen, hvalid, hser, hfits => by
      simp only [DirCommandsHandler.readdirLoop, Prog.call_bind, Prog.translate_perform]
      cases hunread : s.unread (some dir) with
      | nil =>
          refine ⟨_, ser, s.afterOne t dir, Mount.readdir_runs [] hopen ?_, rfl⟩
          rw [hunread]
          exact exec_pure_iff.mpr ⟨rfl, rfl⟩
      | cons d ds =>
          have hd : ValidName d := hvalid d (by simp [hunread])
          rw [hunread, List.take_succ_cons, List.map_cons, encodeDirEntries_cons,
            List.length_append] at hfits
          have hfields := DirCommandsHandler.direntFields_append hd.1 hser (by omega)
          obtain ⟨es, r, s', hrest, hfailures⟩ := readdirLoop_runs full t n
            (ser.append (encodeDirEntry (entryOf d))) (s.afterOne t dir) hopen
            (by
              intro x hx
              apply hvalid x
              exact List.mem_of_mem_tail (by simpa [Mount.afterOne] using hx))
            (BinarySerializer.append_synced hser (by omega))
            (by
              rw [BinarySerializer.append_serialized, List.length_append]
              simp only [Mount.afterOne, hunread, Function.update_self, List.tail_cons]
              omega)
          refine ⟨_, r, s', Mount.readdir_runs es hopen ?_, hfailures⟩
          simp only [hunread, List.head?_cons, hfields, Prog.lift_ok, Prog.pure_bind]
          exact hrest

section Runs

variable (dirsToOverride thread)

/-- A request on a stream that is open can be handled without a failure. -/
theorem request_runs (full : List (Bytes × FillStat) → Bool) (conn : ConnId) {s : Mount}
    {fd : Int32} {dir : Nat} {n : UInt32} (hs : Streams s fd dir)
    (hfits : (encodeDirEntries (((s.unread (some dir)).take n.toNat).map entryOf)).length + 4 <
      2 ^ 32) :
    ∃ es r s', exec (Mount.step full) s
      (Mounted dirsToOverride thread (Zcfs.onCommander conn (Commander.readdir fd n))) es =
        some (.ok r, s') ∧ failures es = [] := by
  have hshort : BinarySerializer.new.serialized.length +
      (encodeDirEntries (((s.unread (some dir)).take n.toNat).map entryOf)).length < 2 ^ 32 := by
    show 0 + _ < _
    omega
  obtain ⟨es, ser, s', hloop, hfailures⟩ := readdirLoop_runs full (thread s.nextCommandId) n.toNat
    BinarySerializer.new { s with nextCommandId := s.nextCommandId + 1 } hs.isOpen hs.valid
    BinarySerializer.synced_new hshort
  obtain ⟨-, m, f, -, -, hser, hend⟩ := readdirLoop_lists hloop hs.valid
    BinarySerializer.synced_new hshort
  obtain rfl : ser = BinarySerializer.new.append
      (encodeDirEntries (((s.unread (some dir)).take m).map entryOf)) := Except.ok.inj hser
  have hm : m ≤ n.toNat := by
    rcases hend with ⟨-, rfl, -⟩ | ⟨-, -, -, hm, -⟩
    · exact Nat.le_refl _
    · exact hm
  have hentries := length_encode_take_le (s.unread (some dir)) hm
  rw [mounted_readdir]
  simp only [doCommand_readdir, DirCommandsHandler.getFd, Prog.call_bind, Prog.translate_perform,
    Prog.perform_bind]
  have hfind : Mount.step full { s with nextCommandId := s.nextCommandId + 1 }
      (.worker (thread s.nextCommandId) (.overridden (.find fd))) none =
        some { s with nextCommandId := s.nextCommandId + 1 } := by
    simp [Mount.step, World.step, World.overriddenStep, hs.notOverridden]
  have hgetFd : Mount.step full { s with nextCommandId := s.nextCommandId + 1 }
      (.worker (thread s.nextCommandId) (.dir (.getFd fd))) (some dir) =
        some { s with nextCommandId := s.nextCommandId + 1 } := by
    simp [Mount.step, World.step, Table.step, Table.getFd, hs.handle]
  have herrno : Mount.step full s' (.worker (thread s.nextCommandId) .errno)
      (s'.world.errno (thread s.nextCommandId)) = some s' := by
    simp [Mount.step, World.step]
  refine ⟨⟨.nextCommandId, s.nextCommandId⟩ ::
    ⟨.worker (thread s.nextCommandId) (.overridden (.find fd)), none⟩ ::
      ⟨.worker (thread s.nextCommandId) (.dir (.getFd fd)), some dir⟩ ::
        (es ++ [⟨.worker (thread s.nextCommandId) .errno,
          s'.world.errno (thread s.nextCommandId)⟩]),
    (((s.unread (some dir)).take m).map entryOf, s'.world.errno (thread s.nextCommandId)), s',
    ?_, ?_⟩
  · refine exec_perform_iff.mpr ⟨_, _, _, rfl, if_pos rfl, exec_perform_iff.mpr
      ⟨_, _, _, rfl, hfind, ?_⟩⟩
    simp only [Prog.translate_perform, Prog.call_bind, Prog.perform_bind]
    refine exec_perform_iff.mpr ⟨_, _, _, rfl, hgetFd, ?_⟩
    simp only [Prog.translate_bind, Prog.bind_assoc, Prog.translate_perform, Prog.call_bind,
      Prog.perform_bind]
    refine exec_bind_ok hloop (exec_perform_iff.mpr ⟨_, _, _, rfl, herrno, ?_⟩)
    rw [mounted_answer _ _ _ (by omega)]
    exact exec_pure_iff.mpr ⟨rfl, rfl⟩
  · show failures (es ++ _) = []
    rw [failures_append, hfailures]
    rfl

theorem fillEntries_runs (full : List (Bytes × FillStat) → Bool) :
    ∀ (entries : List DirEntry) (s : Mount),
      ∃ es s', exec (Mount.step full) s
        (Mounted dirsToOverride thread (Zcfs.fillEntries entries)) es = some (.ok (), s')
  | [], s => ⟨[], s, exec_pure_iff.mpr ⟨rfl, rfl⟩⟩
  | e :: entries, s => by
      have hfill : Mount.step full s
          (.filler (cStr e.name) ⟨e.type.toUInt32 <<< 12, 0⟩) (full (s.filled ++ [fillOf e])) =
            some { s with filled := s.filled ++ [fillOf e] } := by
        simp [Mount.step, fillOf]
      simp only [Zcfs.fillEntries, Mounted, Prog.call_bind, Prog.translate_perform, carryOut]
      by_cases hfull : full (s.filled ++ [fillOf e]) = true
      · refine ⟨_, { s with filled := s.filled ++ [fillOf e] },
          exec_perform_iff.mpr ⟨_, [], _, rfl, hfill, ?_⟩⟩
        rw [if_pos hfull]
        exact exec_pure_iff.mpr ⟨rfl, rfl⟩
      · obtain ⟨es, s', hrest⟩ :=
          fillEntries_runs full entries { s with filled := s.filled ++ [fillOf e] }
        refine ⟨_, s', exec_perform_iff.mpr ⟨_, es, _, rfl, hfill, ?_⟩⟩
        rw [if_neg hfull]
        exact hrest

/-- The loop over the requests can be run without a failure. -/
theorem zcfsLoop_runs (full : List (Bytes × FillStat) → Bool) (conn : ConnId) {fd : Int32}
    {dir : Nat} :
    ∀ (n : Nat) (s : Mount), Streams s fd dir →
      ∃ es r s', exec (Mount.step full) s
        (Mounted dirsToOverride thread (Zcfs.readdirLoop conn (Zcfs.fhOf fd) n)) es =
          some (.ok r, s') ∧ failures es = []
  | 0, s, _ => ⟨[], none, s, exec_pure_iff.mpr ⟨rfl, rfl⟩, rfl⟩
  | n + 1, s, hs => by
      obtain ⟨es, r, s', hrequest, hfailures⟩ := request_runs dirsToOverride thread
        full conn hs (page_fits hs.valid)
      obtain ⟨-, m, f, rfl, -, hanswer⟩ :=
        request_streams hs (by decide) (page_fits hs.valid) hrequest
      rcases hanswer with ⟨-, rfl, hr⟩ | ⟨e, _, -, hone, -⟩
      · obtain rfl := Except.ok.inj hr
        obtain ⟨es₂, s₂, hfill⟩ := fillEntries_runs dirsToOverride thread full
          (((s.unread (some dir)).take Zcfs.MaxDirsReadPerCall.toNat).map entryOf)
          (s.afterListing (some dir) Zcfs.MaxDirsReadPerCall.toNat f (s.nextCommandId + 1) s.filled)
        obtain ⟨-, hfillFailures, -, -, hs₂⟩ := fillEntries_exec hfill
        have hs' : Streams s₂ fd dir := by
          rw [hs₂]
          exact hs.after _ _ _ _
        obtain ⟨es₃, r, s', hrest, hrestFailures⟩ := zcfsLoop_runs full conn n s₂ hs'
        rw [Zcfs.readdirLoop, Mounted, Prog.translate_bind, Zcfs.fdOf_fhOf]
        by_cases hfull : (((s.unread (some dir)).take Zcfs.MaxDirsReadPerCall.toNat).map
            entryOf).length = Zcfs.MaxDirsReadPerCall.toNat
        · refine ⟨es ++ (es₂ ++ es₃), r, s', exec_bind_ok hrequest ?_, ?_⟩
          · simp only [ne_eq, not_true_eq_false, if_false, Prog.translate_bind]
            refine exec_bind_ok hfill ?_
            rw [if_pos hfull]
            exact hrest
          · simp [hfailures, hfillFailures, hrestFailures]
        · refine ⟨es ++ (es₂ ++ []), some 0, s₂, exec_bind_ok hrequest ?_, ?_⟩
          · simp only [ne_eq, not_true_eq_false, if_false, Prog.translate_bind]
            refine exec_bind_ok hfill ?_
            rw [if_neg hfull]
            exact exec_pure_iff.mpr ⟨rfl, rfl⟩
          · simp [hfailures, hfillFailures]
      · rw [hfailures] at hone
        cases hone

omit dirsToOverride thread in
/-- A run of the loop is one of a call, after the worker has been looked up. -/
theorem readdir_of_loop {dirsToOverride : DirsToOverride} {thread : UInt32 → ThreadId}
    {full : List (Bytes × FillStat) → Bool} {path : Bytes} {fd : Int32} {n : Nat} {s s' : Mount}
    {es : List MountEvent} {r : Option Int32} (hpath : (Zcfs.splitPath path).1 = s.client)
    (hfd : fd ≠ -1)
    (hloop : exec (Mount.step full) s
      (Mounted dirsToOverride thread (Zcfs.readdirLoop 0 (Zcfs.fhOf fd) n)) es =
        some (.ok r, s')) :
    exec (Mount.step full) s (Mounted dirsToOverride thread (Zcfs.readdir n path (Zcfs.fhOf fd)))
      (⟨.getCommander (Zcfs.splitPath path).1, some 0⟩ :: es) = some (.ok r, s') := by
  rw [Zcfs.readdir, if_neg (Zcfs.fhOf_ne hfd)]
  refine exec_translate_tryCatch_ok ?_
  have hconn : Mount.step full s (.getCommander (Zcfs.splitPath path).1) (some 0) = some s := by
    simp [Mount.step, hpath]
  exact exec_perform_iff.mpr ⟨some 0, es, s, rfl, hconn, hloop⟩

/-- A call of `zcfs_readdir` on a stream can be run without a failure. -/
theorem readdir_runs (full : List (Bytes × FillStat) → Bool) {path : Bytes} {fd : Int32} {dir : Nat}
    {s : Mount} (n : Nat) (hpath : (Zcfs.splitPath path).1 = s.client) (hs : Streams s fd dir) :
    ∃ es r s', exec (Mount.step full) s
      (Mounted dirsToOverride thread (Zcfs.readdir n path (Zcfs.fhOf fd))) es =
        some (.ok r, s') ∧ failures es = [] := by
  obtain ⟨es, r, s', hloop, hfailures⟩ := zcfsLoop_runs dirsToOverride thread full 0 n s hs
  exact ⟨_, r, s', readdir_of_loop hpath hs.notFailed hloop, hfailures⟩

end Runs

/-- What `filler` has to be called with for an entry of a directory. -/
def fillOfDirent (d : Dirent) : Bytes × FillStat := (d.dName, ⟨d.dType.toUInt32 <<< 12, 0⟩)

/-- Names without a NUL are passed on as they are. -/
theorem map_fillOf {dirents : List Dirent} (hvalid : ∀ d ∈ dirents, ValidName d) :
    (dirents.map entryOf).map fillOf = dirents.map fillOfDirent := by
  rw [List.map_map]
  apply List.map_congr_left
  intro d hd
  show (cStr d.dName, _) = (d.dName, _)
  rw [cStr_eq_self (hvalid d hd).1]
  rfl

/-- **A first listing is complete.** Let `fd` stand for an open stream. A call of `zcfs_readdir` on
it has a run without a failure, and every run ends: without a failure it returns 0 after one request
more than there are full answers, and `filler` has been called with each entry once, in order; a
failed `::readdir` is returned. -/
theorem readdir_complete {path : Bytes} {fd : Int32} {dir n : Nat} {s : Mount}
    (hpath : (Zcfs.splitPath path).1 = s.client) (hs : Streams s fd dir)
    (hturns : (s.unread (some dir)).length / 2048 < n) :
    (∃ es r s', exec (Mount.step fun _ => false) s
      (Mounted dirsToOverride thread (Zcfs.readdir n path (Zcfs.fhOf fd))) es =
        some (.ok r, s') ∧ failures es = []) ∧
    ∀ es r s', exec (Mount.step fun _ => false) s
        (Mounted dirsToOverride thread (Zcfs.readdir n path (Zcfs.fhOf fd))) es = some (r, s') →
      (failures es = [] →
        r = .ok (some 0) ∧ requests es = (s.unread (some dir)).length / 2048 + 1 ∧
        s'.filled = s.filled ++ (s.unread (some dir)).map fillOfDirent) ∧
      ∀ e ∈ failures es, 0 < e ∧ r = .ok (some (-e)) := by
  refine ⟨readdir_runs dirsToOverride thread _ n hpath hs, ?_⟩
  intro es r s' h
  obtain ⟨m, f, id, filled, v, rfl, -, rfl, hends⟩ := readdir_streams hpath hs h
  cases hends with
  | turnsUsedUp hnofail hmore => omega
  | done hnofail hrequests hread hfilled =>
      refine ⟨fun _ => ⟨rfl, hrequests, ?_⟩, by simp [hnofail]⟩
      rw [← map_fillOf hs.valid]
      exact hfilled
  | failed e he hone =>
      refine ⟨by simp [hone], ?_⟩
      rw [hone]
      intro e' he'
      obtain rfl : e' = e := by simpa using he'
      exact ⟨he, rfl⟩

end

/-- The worker `w` with one open stream under the id 0, of a directory with the one entry `a`. -/
def Mount.oneEntry : Mount where
  client := ascii "w"
  nextCommandId := 0
  world :=
    { World.new with
      dir := Table.emplace ⟨1, ∅⟩ 0 (some 1)
      dirs := HandleSpace.empty.acquire (some 1) ⟨rfl, by decide⟩ }
  unread := fun _ => [⟨7, DirCommandsHandler.DT_DIR, ascii "a"⟩]
  filled := []

theorem streams_oneEntry : Streams .oneEntry 0 1 where
  notFailed := by decide
  handle := by decide
  notOverridden := by decide
  isOpen := by decide
  valid := by simp [Mount.oneEntry, ValidName, NulFree, ascii]

/-- A directory with a file and two directories in it. -/
def Mount.threeEntries : Mount :=
  { Mount.oneEntry with
    unread := fun _ => [⟨9, 8, ascii "b"⟩, ⟨7, DirCommandsHandler.DT_DIR, ascii "a"⟩,
      ⟨8, DirCommandsHandler.DT_DIR, ascii "c"⟩] }

theorem readdir_complete_threeEntries :
    ∃ es s', exec (Mount.step fun _ => false) .threeEntries
        (Mounted [] (fun _ => 0) (Zcfs.readdir 1 (ascii "/w/d") (Zcfs.fhOf 0))) es =
          some (.ok (some 0), s') ∧
      requests es = 1 ∧ s'.filled =
        [(ascii "b", ⟨0o100000, 0⟩), (ascii "a", ⟨0o40000, 0⟩), (ascii "c", ⟨0o40000, 0⟩)] := by
  have hstreams : Streams .threeEntries 0 1 :=
    ⟨streams_oneEntry.notFailed, streams_oneEntry.handle, streams_oneEntry.notOverridden,
      streams_oneEntry.isOpen, by simp [Mount.threeEntries, ValidName, NulFree, ascii]⟩
  have hcomplete := @readdir_complete [] (fun _ => 0) (ascii "/w/d") 0 1 1 .threeEntries (by decide)
    hstreams (by decide)
  obtain ⟨⟨es, r, s', hrun, hnofail⟩, hall⟩ := hcomplete
  obtain ⟨hr, hrequests, hfilled⟩ := (hall es (.ok r) s' hrun).1 hnofail
  obtain rfl := Except.ok.inj hr
  exact ⟨es, s', hrun, hrequests, hfilled⟩

end ZControl
