import ZControl.Rpc
import ZControl.Worker.Handles
import ZControl.Worker.Replies

/-!
# Ids that come round

The counters of the two handlers have 32 bits, so in a session of any length an id is given out
again after `2 ^ 32` opens, and every `2 ^ 32` opens the counter passes the value that reports a
failure. Here the tables are followed without a bound on the length of the session.
-/

namespace ZControl

theorem Table.mem_emplace {H : Type} {t : Table H} {i j : Int32} {h : H} :
    j ∈ (t.emplace i h).fds ↔ j = i ∨ j ∈ t.fds := by
  unfold Table.emplace
  cases hlookup : t.fds.lookup i with
  | none => simp
  | some h' =>
      have hi : i ∈ t.fds := AList.lookup_isSome.mp (by simp [hlookup])
      constructor
      · exact .inr
      · rintro (rfl | hj)
        · exact hi
        · exact hj

theorem Table.emplace_nextFdId {H : Type} (t : Table H) (i : Int32) (h : H) :
    (t.emplace i h).nextFdId = t.nextFdId := by
  unfold Table.emplace
  split <;> rfl

namespace Worker

open Interaction BinaryDeserializer

/-! ## What a request opens -/

/-- What a request does to the table of the `FileCommandsHandler`. -/
inductive FileEffect (w w' : World) : List (Int32 × Option Nat) → Prop where
  | none (hnext : w'.file.nextFdId = w.file.nextFdId)
      (hkeys : ∀ i, i ∈ w'.file.fds → i ∈ w.file.fds) : FileEffect w w' []
  | opened (fd : Int32) (hfree : w.files.serial fd = none ∧ fd ≠ -1)
      (htable : w'.file =
        { w.file with nextFdId := w.file.nextFdId + 1 }.emplace w.file.nextFdId fd)
      (hfiles : w'.files = w.files.acquire fd hfree) :
      FileEffect w w' [(w.file.nextFdId, some w.files.created)]

/-- What a request does to the two tables of the `DirCommandsHandler`. -/
inductive DirEffect (w w' : World) : List (Int32 × Option Nat) → Prop where
  | none (hnext : w'.dir.nextFdId = w.dir.nextFdId)
      (hkeys : ∀ i, i ∈ w'.dir.fds → i ∈ w.dir.fds)
      (hover : ∀ i, i ∈ w'.overriddenFds → i ∈ w.overriddenFds) : DirEffect w w' []
  | opened (dir : Nat) (hfree : w.dirs.serial (some dir) = .none ∧ some dir ≠ .none)
      (htable : w'.dir =
        { w.dir with nextFdId := w.dir.nextFdId + 1 }.emplace w.dir.nextFdId (some dir))
      (hdirs : w'.dirs = w.dirs.acquire (some dir) hfree)
      (hover : w'.overriddenFds = w.overriddenFds) :
      DirEffect w w' [(w.dir.nextFdId, some w.dirs.created)]
  | overridden (entries : List Dirent)
      (hnext : w'.dir = { w.dir with nextFdId := w.dir.nextFdId + 1 })
      (hover : w'.overriddenFds =
        match w.overriddenFds.lookup w.dir.nextFdId with
        | some _ => w.overriddenFds
        | .none  => w.overriddenFds.insert w.dir.nextFdId entries) :
      DirEffect w w' [(w.dir.nextFdId, .none)]

section

variable {w w' : World} {message : Message} {es : List WorkerEvent} {res : Except Fault Message}

theorem fileEffect_of_quiet (hes : ∀ e ∈ es, WorkerEvent.quiet e = true)
    (hnext : w'.file.nextFdId = w.file.nextFdId) (hkeys : ∀ i, i ∈ w'.file.fds → i ∈ w.file.fds) :
    FileEffect w w' (fileOpened w es res) := by
  rw [(Session.opened_of_quiet hes res).1]
  exact .none hnext hkeys

theorem dirEffect_of_quiet (hes : ∀ e ∈ es, WorkerEvent.quiet e = true)
    (hnext : w'.dir.nextFdId = w.dir.nextFdId) (hkeys : ∀ i, i ∈ w'.dir.fds → i ∈ w.dir.fds)
    (hover : ∀ i, i ∈ w'.overriddenFds → i ∈ w.overriddenFds) :
    DirEffect w w' (dirOpened w es res) := by
  rw [(Session.opened_of_quiet hes res).2]
  exact .none hnext hkeys hover

theorem fileEffect_of_served (h : Served w message w' es res) :
    FileEffect w w' (fileOpened w es res) := by
  cases h with
  | idle _ _ hes hw | useFile _ _ _ hes _ _ hw | useDir _ _ _ _ hes _ _ hw
  | useOverridden _ _ _ _ hes hw | closeDir _ _ _ _ hes _ _ hw
  | closeOverridden _ _ _ _ hes hw =>
      have hfile : w'.file = w.file := congrArg Handles.file hw
      exact fileEffect_of_quiet (fun e he => (hes e he).1) (by rw [hfile]) (by simp [hfile])
  | openFile _ _ hfree hw =>
      have hopened : FileEffect w w' [(w.file.nextFdId, some w.files.created)] :=
        .opened _ hfree (congrArg Handles.file hw) (congrArg Handles.files hw)
      simpa [fileOpened, WorkerEvent.opensFile, Session.returnedId_reply] using hopened
  | closeFile _ _ _ hes _ _ hw =>
      have hfile : w'.file = _ := congrArg Handles.file hw
      refine fileEffect_of_quiet (fun e he => (hes e he).1) (by rw [hfile]) ?_
      rw [hfile]
      simp
  | openDir _ _ _ hw | openOverridden _ _ hw =>
      have hfile : w'.file = w.file := congrArg Handles.file hw
      have hnone : FileEffect w w' [] := .none (by rw [hfile]) (by simp [hfile])
      simpa [fileOpened, WorkerEvent.opensFile] using hnone

theorem dirEffect_of_served (h : Served w message w' es res) :
    DirEffect w w' (dirOpened w es res) := by
  cases h with
  | idle _ _ hes hw | useFile _ _ _ hes _ _ hw | useDir _ _ _ _ hes _ _ hw
  | useOverridden _ _ _ _ hes hw | closeFile _ _ _ hes _ _ hw =>
      have hdir : w'.dir = w.dir := congrArg Handles.dir hw
      have hover : w'.overriddenFds = w.overriddenFds := congrArg Handles.overriddenFds hw
      exact dirEffect_of_quiet (fun e he => (hes e he).1) (by rw [hdir]) (by simp [hdir])
        (by simp [hover])
  | closeDir _ _ _ _ hes _ _ hw =>
      have hdir : w'.dir = _ := congrArg Handles.dir hw
      have hover : w'.overriddenFds = w.overriddenFds := congrArg Handles.overriddenFds hw
      refine dirEffect_of_quiet (fun e he => (hes e he).1) (by rw [hdir]) ?_ (by simp [hover])
      rw [hdir]
      simp
  | closeOverridden _ _ _ _ hes hw =>
      have hdir : w'.dir = w.dir := congrArg Handles.dir hw
      have hover : w'.overriddenFds = _ := congrArg Handles.overriddenFds hw
      refine dirEffect_of_quiet (fun e he => (hes e he).1) (by rw [hdir]) (by simp [hdir]) ?_
      rw [hover]
      simp
  | openFile _ _ _ hw =>
      have hdir : w'.dir = w.dir := congrArg Handles.dir hw
      have hover : w'.overriddenFds = w.overriddenFds := congrArg Handles.overriddenFds hw
      have hnone : DirEffect w w' [] :=
        .none (by rw [hdir]) (by simp [hdir]) (by simp [hover])
      simpa [dirOpened, WorkerEvent.opensStream, WorkerEvent.opensOverridden] using hnone
  | openDir _ _ hfree hw =>
      have hopened : DirEffect w w' [(w.dir.nextFdId, some w.dirs.created)] :=
        .opened _ hfree (congrArg Handles.dir hw) (congrArg Handles.dirs hw)
          (congrArg Handles.overriddenFds hw)
      simpa [dirOpened, WorkerEvent.opensStream, Session.returnedId_reply] using hopened
  | openOverridden _ _ hw =>
      have hopened : DirEffect w w' [(w.dir.nextFdId, none)] :=
        .overridden _ (congrArg Handles.dir hw) (congrArg Handles.overriddenFds hw)
      simpa [dirOpened, WorkerEvent.opensStream, WorkerEvent.opensOverridden,
        Session.returnedId_reply] using hopened

end

/-! ## The ids that are live -/

/-- What holds of the ids in sessions of any length. -/
structure Session.Given (s : Session) : Prop where
  file : Numbered s.world.file.nextFdId s.fileOpens
  dir : Numbered s.world.dir.nextFdId s.dirOpens
  fileLive : ∀ i, i ∈ s.world.file.fds → i ∈ s.fileOpens.map Prod.fst
  dirLive : ∀ i, i ∈ s.world.dir.fds ∨ i ∈ s.world.overriddenFds → i ∈ s.dirOpens.map Prod.fst

namespace Session

variable {dirsToOverride : DirsToOverride} {s s' : Session} {r : Request}

theorem Given.init : Given new where
  file := ⟨rfl, rfl⟩
  dir := ⟨rfl, rfl⟩
  fileLive := by simp [new, World.new, Table.empty]
  dirLive := by simp [new, World.new, Table.empty]

theorem Given.step (hg : Given s) (h : s.step dirsToOverride r = some s') : Given s' := by
  obtain ⟨hserved, hfileOpens, hdirOpens⟩ := step_cases h
  have hfile : Numbered s'.world.file.nextFdId s'.fileOpens ∧
      ∀ i, i ∈ s'.world.file.fds → i ∈ s'.fileOpens.map Prod.fst := by
    rw [hfileOpens]
    have heffect := fileEffect_of_served hserved
    generalize fileOpened s.world r.events r.result = opened at heffect
    cases heffect with
    | none hnext hkeys =>
        rw [hnext, List.append_nil]
        exact ⟨hg.file, fun i hi => hg.fileLive i (hkeys i hi)⟩
    | opened fd hfree htable hfiles =>
        rw [htable, Table.emplace_nextFdId]
        refine ⟨hg.file.snoc _, fun i hi => ?_⟩
        rw [List.map_append, List.mem_append]
        rcases Table.mem_emplace.mp hi with rfl | hi
        · exact .inr (by simp)
        · exact .inl (hg.fileLive i hi)
  have hdir : Numbered s'.world.dir.nextFdId s'.dirOpens ∧
      ∀ i, i ∈ s'.world.dir.fds ∨ i ∈ s'.world.overriddenFds →
        i ∈ s'.dirOpens.map Prod.fst := by
    rw [hdirOpens]
    have heffect := dirEffect_of_served hserved
    generalize dirOpened s.world r.events r.result = opened at heffect
    cases heffect with
    | none hnext hkeys hover =>
        rw [hnext, List.append_nil]
        exact ⟨hg.dir, fun i hi => hg.dirLive i (hi.imp (hkeys i) (hover i))⟩
    | opened dir hfree htable hdirs hover =>
        rw [htable, hover, Table.emplace_nextFdId]
        refine ⟨hg.dir.snoc _, fun i hi => ?_⟩
        rw [List.map_append, List.mem_append]
        rcases hi with hi | hi
        · rcases Table.mem_emplace.mp hi with rfl | hi
          · exact .inr (by simp)
          · exact .inl (hg.dirLive i (.inl hi))
        · exact .inl (hg.dirLive i (.inr hi))
    | overridden entries hnext hover =>
        rw [hnext]
        refine ⟨hg.dir.snoc _, fun i hi => ?_⟩
        rw [List.map_append, List.mem_append]
        rcases hi with hi | hi
        · exact .inl (hg.dirLive i (.inl hi))
        · rw [hover] at hi
          split at hi
          · exact .inl (hg.dirLive i (.inr hi))
          · rcases AList.mem_insert _ |>.mp hi with rfl | hi
            · exact .inr (by simp)
            · exact .inl (hg.dirLive i (.inr hi))
  exact ⟨hfile.1, hdir.1, hfile.2, hdir.2⟩

theorem Given.of_run {rs : List Request}
    (h : Transition.run (Session.step dirsToOverride) new rs = some s) : Given s :=
  Transition.run_invariant (fun _ _ _ hg hstep => Given.step hg hstep) Given.init h

end Session

/-! ## When the next id is new -/

/-- The counter does not stand at the value that reports a failure, and no id that was given out a
multiple of `2 ^ 32` opens ago is live. -/
def NotComeRound (opens : List (Int32 × Option Nat)) (live : Int32 → Prop) : Prop :=
  opens.length % 2 ^ 32 ≠ 2 ^ 32 - 1 ∧
    ∀ k i x, opens[k]? = some (i, x) → 2 ^ 32 ∣ opens.length - k → ¬ live i

theorem ofNat_eq_iff (m n : Nat) : Int32.ofNat m = Int32.ofNat n ↔ m % 2 ^ 32 = n % 2 ^ 32 := by
  rw [← Int32.toBitVec_inj, ← BitVec.toNat_inj]
  simp

theorem Numbered.get {next : Int32} {opens : List (Int32 × Option Nat)} {k : Nat} {i : Int32}
    {x : Option Nat} (h : Numbered next opens) (hk : opens[k]? = some (i, x)) :
    i = Int32.ofNat k ∧ k < opens.length := by
  have hlt : k < opens.length := (List.getElem?_eq_some_iff.mp hk).1
  have hids := congrArg (·[k]?) h.2
  simp only [List.getElem?_map, hk, Option.map_some, List.getElem?_range hlt,
    Option.some.injEq] at hids
  exact ⟨hids, hlt⟩

/-- The next id is new exactly as long as no live id has come round. -/
theorem Numbered.fresh_iff {next : Int32} {opens : List (Int32 × Option Nat)}
    {live : Int32 → Prop} (h : Numbered next opens)
    (hlive : ∀ i, live i → i ∈ opens.map Prod.fst) :
    (next ≠ -1 ∧ ¬ live next) ↔ NotComeRound opens live := by
  have hminus : next = -1 ↔ opens.length % 2 ^ 32 = 2 ^ 32 - 1 := by
    rw [h.1]
    exact ofNat_eq_iff opens.length (2 ^ 32 - 1)
  refine and_congr hminus.not ?_
  constructor
  · intro hnext k i x hk hdvd hi
    obtain ⟨rfl, hlt⟩ := h.get hk
    have heq : Int32.ofNat k = next := by
      rw [h.1, ofNat_eq_iff]
      omega
    exact hnext (heq ▸ hi)
  · intro hold hnext
    obtain ⟨⟨i, x⟩, hmem, rfl⟩ := List.mem_map.mp (hlive next hnext)
    obtain ⟨k, hk⟩ := List.mem_iff_getElem?.mp hmem
    obtain ⟨hik, hlt⟩ := h.get hk
    refine hold k i x hk ?_ hnext
    have heq := hik.symm.trans h.1
    rw [ofNat_eq_iff] at heq
    omega

/-- Behind `i` stands the file that was opened as number `x`. -/
def FileStored (w : World) (i : Int32) (x : Option Nat) : Prop :=
  ∃ fd, w.file.fds.lookup i = some fd ∧ w.files.serial fd = x

/-- Behind `i` stands the stream that was opened as number `x`, or an overridden directory. -/
def DirStored (w : World) (i : Int32) (x : Option Nat) : Prop :=
  (∃ dir, w.dir.fds.lookup i = some dir ∧ w.dirs.serial dir = x) ∨
    (x = none ∧ (w.overriddenFds.lookup i).isSome)

namespace Session

variable {dirsToOverride : DirsToOverride} {s s' : Session} {r : Request} {i : Int32}
  {x : Option Nat}

theorem Given.file_fresh (hg : Given s) (h : s.step dirsToOverride r = some s')
    (hopened : (i, x) ∈ fileOpened s.world r.events r.result) :
    ((i ≠ -1 ∧ i ∉ s.world.file.fds) ↔ NotComeRound s.fileOpens (· ∈ s.world.file.fds)) ∧
      (i ∉ s.world.file.fds → FileStored s'.world i x) := by
  obtain ⟨hserved, -, -⟩ := step_cases h
  have heffect := fileEffect_of_served hserved
  generalize fileOpened s.world r.events r.result = opened at heffect hopened
  cases heffect with
  | none => cases hopened
  | opened fd hfree htable hfiles =>
      obtain ⟨rfl, rfl⟩ := Prod.mk.inj (List.mem_singleton.mp hopened)
      refine ⟨hg.file.fresh_iff hg.fileLive, fun hnew => ⟨fd, ?_, ?_⟩⟩
      · have hnone : s.world.file.fds.lookup s.world.file.nextFdId = none := by
          simpa [AList.lookup_eq_none] using hnew
        rw [htable]
        simp [Table.emplace, hnone]
      · rw [hfiles]
        simp

theorem Given.dir_fresh (hg : Given s) (h : s.step dirsToOverride r = some s')
    (hopened : (i, x) ∈ dirOpened s.world r.events r.result) :
    ((i ≠ -1 ∧ ¬ (i ∈ s.world.dir.fds ∨ i ∈ s.world.overriddenFds)) ↔
        NotComeRound s.dirOpens fun i => i ∈ s.world.dir.fds ∨ i ∈ s.world.overriddenFds) ∧
      (¬ (i ∈ s.world.dir.fds ∨ i ∈ s.world.overriddenFds) → DirStored s'.world i x) := by
  obtain ⟨hserved, -, -⟩ := step_cases h
  have heffect := dirEffect_of_served hserved
  generalize dirOpened s.world r.events r.result = opened at heffect hopened
  cases heffect with
  | none => cases hopened
  | opened dir hfree htable hdirs hover =>
      obtain ⟨rfl, rfl⟩ := Prod.mk.inj (List.mem_singleton.mp hopened)
      refine ⟨hg.dir.fresh_iff hg.dirLive, fun hnew => .inl ⟨some dir, ?_, ?_⟩⟩
      · have hnone : s.world.dir.fds.lookup s.world.dir.nextFdId = none := by
          simpa [AList.lookup_eq_none] using fun hi => hnew (.inl hi)
        rw [htable]
        simp [Table.emplace, hnone]
      · rw [hdirs]
        simp
  | overridden entries hnext hover =>
      obtain ⟨rfl, rfl⟩ := Prod.mk.inj (List.mem_singleton.mp hopened)
      refine ⟨hg.dir.fresh_iff hg.dirLive, fun hnew => .inr ⟨rfl, ?_⟩⟩
      have hnone : s.world.overriddenFds.lookup s.world.dir.nextFdId = none := by
        simpa [AList.lookup_eq_none] using fun hi => hnew (.inr hi)
      rw [hover, hnone]
      simp

end Session

/-! ## Coming round -/

def openMessage : Message :=
  ⟨0, CommanderMessageType.open.toUint8, encodingOf [.str (ascii "/a"), .int32 0, .int32 0]⟩

def closeMessage (fdId : Int32) : Message :=
  ⟨1, CommanderMessageType.close.toUint8, encodingOf [.int32 fdId]⟩

/-- A file is opened under the descriptor 3. -/
theorem exec_open (w : World) (hclosed : w.files.serial 3 = none) :
    ∃ w', exec (World.step 0) w (doCommand [] openMessage)
      [⟨.sys (.open (ascii "/a") 0 0), .ok 3⟩, ⟨.file .nextFdId, w.file.nextFdId⟩,
        ⟨.file (.emplace w.file.nextFdId 3), ()⟩, ⟨.errno, w.errno 0⟩] =
      some (.ok (reply openMessage [.int32 w.file.nextFdId, .int32 (w.errno 0)]), w') ∧
      w'.file = { w.file with nextFdId := w.file.nextFdId + 1 }.emplace w.file.nextFdId 3 ∧
      w'.files.serial 3 ≠ none ∧ ∀ fd, fd ≠ 3 → w'.files.serial fd = w.files.serial fd := by
  have hfree : w.files.serial 3 = none ∧ (3 : Int32) ≠ -1 := ⟨hclosed, by decide⟩
  let opened : World := { w with files := w.files.acquire 3 hfree }
  let numbered : World := { opened with file := { w.file with nextFdId := w.file.nextFdId + 1 } }
  let stored : World := { numbered with file := numbered.file.emplace w.file.nextFdId 3 }
  have hsys : World.step 0 w (.sys (.open (ascii "/a") 0 0)) (.ok 3) = some opened := by
    simp [World.step, World.sysStep, World.allows, World.handlesAfter, hclosed, opened]
  have hnext : World.step 0 opened (.file .nextFdId) w.file.nextFdId = some numbered := by
    simp [World.step, Table.step, numbered, opened]
  have herrno : World.step 0 stored .errno (w.errno 0) = some stored := by
    simp [World.step, stored, numbered, opened]
  have hdo : doCommand [] openMessage = FileCommandsHandler.open openMessage :=
    doCommand_wellFormed [] (by decide) rfl ⟨(ascii "/a", 0, 0, ()), [], by decide⟩
  have harguments : arguments openMessage [.str, .int32, .int32] =
      .pure (ascii "/a", 0, 0, ()) :=
    (Prog.bind_pure _).symm.trans (arguments_bind (by decide))
  refine ⟨stored, ?_, rfl, by simp [stored, numbered, opened], fun fd hfd => ?_⟩
  · rw [hdo]
    simp only [FileCommandsHandler.open, harguments, Prog.pure_bind, Prog.call_bind]
    refine exec_perform_iff.mpr ⟨_, _, _, rfl, hsys, ?_⟩
    simp only [Prog.pure_eq, Prog.pure_bind, commandResult_value]
    refine exec_perform_iff.mpr ⟨_, _, _, rfl, hnext, ?_⟩
    refine exec_perform_iff.mpr ⟨_, _, _, rfl, rfl, ?_⟩
    exact exec_perform_iff.mpr ⟨_, _, _, rfl, herrno, exec_pure_iff.mpr ⟨rfl, rfl⟩⟩
  · simp [stored, numbered, opened, hfd]

/-- The file behind an id is closed. -/
theorem exec_close (w : World) {fdId : Int32} (hlookup : w.file.fds.lookup fdId = some 3)
    (hopen : w.files.serial 3 ≠ none) :
    ∃ w', exec (World.step 0) w (doCommand [] (closeMessage fdId))
      [⟨.file (.getFd fdId), 3⟩, ⟨.sys (.close 3), .ok ()⟩, ⟨.file (.erase fdId), ()⟩,
        ⟨.errno, w.errno 0⟩] =
      some (.ok (reply (closeMessage fdId) [.uint8 1, .int32 (w.errno 0)]), w') ∧
      w'.file = { w.file with fds := w.file.fds.erase fdId } ∧
      w'.files = w.files.release 3 := by
  let closed : World := { w with files := w.files.release 3 }
  let erased : World := { closed with file := { w.file with fds := w.file.fds.erase fdId } }
  have hgetFd : World.step 0 w (.file (.getFd fdId)) 3 = some w := by
    simp [World.step, Table.step, Table.getFd, hlookup]
  have hsys : World.step 0 w (.sys (.close 3)) (.ok ()) = some closed := by
    simp [World.step, World.sysStep, World.allows, World.handlesAfter, closed,
      Option.isSome_iff_ne_none.mpr hopen]
  have herrno : World.step 0 erased .errno (w.errno 0) = some erased := by
    simp [World.step, erased, closed]
  have hdo : doCommand [] (closeMessage fdId) =
      .perform (.file (.getFd fdId)) fun fd => .perform (.sys (.close fd)) fun value =>
        .perform (.file (.erase fdId)) fun _ => .perform .errno fun errno =>
          commandResult (closeMessage fdId) [successField value, .int32 errno] := by
    refine (doCommand_wellFormed [] (by simp [closeMessage]) rfl
      ⟨(fdId, ()), [], by simp [closeMessage, encodeFields, Field.encoded, Field.value,
        FieldKind.encode]⟩).trans ?_
    show FileCommandsHandler.close _ = _
    exact arguments_bind (by simp)
  refine ⟨erased, ?_, rfl, rfl⟩
  rw [hdo]
  refine exec_perform_iff.mpr ⟨_, _, _, rfl, hgetFd, ?_⟩
  refine exec_perform_iff.mpr ⟨_, _, _, rfl, hsys, ?_⟩
  refine exec_perform_iff.mpr ⟨_, _, _, rfl, rfl, ?_⟩
  refine exec_perform_iff.mpr ⟨_, _, _, rfl, herrno, ?_⟩
  rw [commandResult_status]
  exact exec_pure_iff.mpr ⟨rfl, rfl⟩

namespace Session

/-- The session in which `n` files have been opened and closed again. -/
structure Emptied (s : Session) (n : Nat) : Prop where
  opens : s.fileOpens.length = n
  table : ∀ i, s.world.file.fds.lookup i = none
  files : ∀ fd, s.world.files.serial fd = none

theorem step_of_exec {s : Session} {dirsToOverride : DirsToOverride} {t : ThreadId} {m : Message}
    {es : List WorkerEvent} {res : Except Fault Message} {w' : World}
    (h : exec (World.step t) s.world (doCommand dirsToOverride m) es = some (res, w')) :
    s.step dirsToOverride ⟨t, m, es, res⟩ = some (s.after w' es res) := by
  simp [step, h, after]

/-- A file can be opened. -/
theorem Emptied.open {s : Session} {n : Nat} (hs : Emptied s n) :
    ∃ r s', s.step [] r = some s' ∧ s'.fileOpens.length = n + 1 ∧
      fileOpened s.world r.events r.result =
        [(s.world.file.nextFdId, some s.world.files.created)] ∧
      s'.world.file.fds = s.world.file.fds.insert s.world.file.nextFdId 3 ∧
      s'.world.files.serial 3 ≠ none ∧ ∀ fd, fd ≠ 3 → s'.world.files.serial fd = none := by
  obtain ⟨w', hexec, hfile, hopen, hothers⟩ := exec_open s.world (hs.files 3)
  have hopened : fileOpened s.world
      [⟨.sys (.open (ascii "/a") 0 0), .ok 3⟩, ⟨.file .nextFdId, s.world.file.nextFdId⟩,
        ⟨.file (.emplace s.world.file.nextFdId 3), ()⟩, ⟨.errno, s.world.errno 0⟩]
      (.ok (reply openMessage [.int32 s.world.file.nextFdId, .int32 (s.world.errno 0)])) =
        [(s.world.file.nextFdId, some s.world.files.created)] := by
    simp [fileOpened, WorkerEvent.opensFile, returnedId_reply]
  refine ⟨_, _, step_of_exec hexec, ?_, hopened, ?_, hopen, fun fd hfd => ?_⟩
  · rw [after, List.length_append, hopened, hs.opens]
    rfl
  · show w'.file.fds = _
    rw [hfile]
    simp [Table.emplace, hs.table]
  · exact (hothers fd hfd).trans (hs.files fd)

/-- Any number of files can be opened and closed again, one after the other. -/
theorem emptied_run : ∀ n, ∃ rs s, Transition.run (Session.step []) new rs = some s ∧ Emptied s n
  | 0 => ⟨[], new, rfl, rfl, by simp [new, World.new, Table.empty], fun _ => rfl⟩
  | n + 1 => by
      obtain ⟨rs, s, hrun, hs⟩ := emptied_run n
      obtain ⟨r, s₁, hstep, hopens, -, htable, hopen, hothers⟩ := hs.open
      have hlookup : s₁.world.file.fds.lookup s.world.file.nextFdId = some 3 := by
        rw [htable]
        exact AList.lookup_insert _
      obtain ⟨w₂, hexec, hfile, hfiles⟩ := exec_close s₁.world hlookup hopen
      have hrest : Transition.run (Session.step []) s [r, _] = some _ :=
        Transition.run_cons_iff.mpr ⟨s₁, hstep, Transition.run_cons_iff.mpr
          ⟨_, step_of_exec hexec, rfl⟩⟩
      refine ⟨rs ++ [r, _], _, Transition.run_append_iff.mpr ⟨s, hrun, hrest⟩, ?_, ?_, ?_⟩
      · simp [after, fileOpened, WorkerEvent.opensFile, hopens]
      · intro i
        show w₂.file.fds.lookup i = none
        rw [hfile, htable]
        by_cases hi : i = s.world.file.nextFdId
        · subst hi
          exact AList.lookup_erase _ _
        · rw [AList.lookup_erase_ne hi, AList.lookup_insert_ne hi]
          exact hs.table i
      · intro fd
        show w₂.files.serial fd = none
        rw [hfiles]
        by_cases hfd : fd = 3
        · subst hfd
          simp
        · simp [hfd, hothers]

/-- The open that follows `2 ^ 32 - 1` others succeeds and returns the value for a failure. -/
theorem open_returns_minus_one :
    ∃ rs s r s', Transition.run (Session.step []) new rs = some s ∧ s.step [] r = some s' ∧
      ∃ x, fileOpened s.world r.events r.result = [(-1, some x)] := by
  obtain ⟨rs, s, hrun, hs⟩ := emptied_run (2 ^ 32 - 1)
  obtain ⟨r, s', hstep, -, hopened, -⟩ := hs.open
  have hnext : s.world.file.nextFdId = -1 := by
    rw [(Given.of_run hrun).file.1, hs.opens]
    decide
  rw [hnext] at hopened
  exact ⟨rs, s, r, s', hrun, hstep, _, hopened⟩

end Session

end Worker
end ZControl
