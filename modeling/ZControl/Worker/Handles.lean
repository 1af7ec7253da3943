import ZControl.Lib.HandleTable
import ZControl.Lib.Transition
import ZControl.Worker.Requests

/-!
# The handle tables of a worker

Requests handled one after the other. The tables of both handlers are followed through whole
runs: which ids were returned, what each of them stands for, and that nothing is left open once
the handlers are destroyed.
-/

namespace ZControl
namespace Worker

open Interaction BinaryDeserializer

/-! ## Sessions -/

/-- A request that was handled: by which thread, what it did, and what came of it. -/
structure Request where
  thread : ThreadId
  message : Message
  events : List WorkerEvent
  result : Except Fault Message

/-- The command of a request. -/
abbrev Request.type? (r : Request) : Option CommanderMessageType :=
  CommanderMessageType.ofUint8 r.message.type

/-- The world with the history of both handlers: every id that a successful open returned, with
the file or the stream that was opened for it, or `none` for an overridden directory. -/
structure Session where
  world : World
  fileOpens : List (Int32 × Option Nat)
  dirOpens : List (Int32 × Option Nat)

/-- The id in the reply to an open. -/
def returnedId : Except Fault Message → Int32
  | .ok m =>
      match deserialize m.data (readFields [.int32, .int32]) with
      | .ok (fdId, _) => fdId
      | .error _      => -1
  | .error _ => -1

/-- What a request adds to the history of the `FileCommandsHandler`. -/
def fileOpened (w : World) (es : List WorkerEvent) (res : Except Fault Message) :
    List (Int32 × Option Nat) :=
  if es.any WorkerEvent.opensFile then [(returnedId res, some w.files.created)] else []

/-- What a request adds to the history of the `DirCommandsHandler`. -/
def dirOpened (w : World) (es : List WorkerEvent) (res : Except Fault Message) :
    List (Int32 × Option Nat) :=
  if es.any WorkerEvent.opensStream then [(returnedId res, some w.dirs.created)]
  else if es.any WorkerEvent.opensOverridden then [(returnedId res, none)]
  else []

namespace Session

def new : Session := ⟨.new, [], []⟩

def step (dirsToOverride : DirsToOverride) (s : Session) (r : Request) : Option Session :=
  match exec (World.step r.thread) s.world (doCommand dirsToOverride r.message) r.events with
  | some (result, world) =>
      if result = r.result then
        some
          { world
            fileOpens := s.fileOpens ++ fileOpened s.world r.events r.result
            dirOpens := s.dirOpens ++ dirOpened s.world r.events r.result }
      else none
  | none => none

variable {dirsToOverride : DirsToOverride} {s s' : Session} {r : Request}

theorem step_exec (h : s.step dirsToOverride r = some s') :
    exec (World.step r.thread) s.world (doCommand dirsToOverride r.message) r.events =
        some (r.result, s'.world) ∧
      s'.fileOpens = s.fileOpens ++ fileOpened s.world r.events r.result ∧
      s'.dirOpens = s.dirOpens ++ dirOpened s.world r.events r.result := by
  unfold step at h
  split at h
  case h_2 => cases h
  case h_1 result world hexec =>
    split at h
    case isFalse => cases h
    case isTrue heq =>
      subst heq
      cases h
      exact ⟨hexec, rfl, rfl⟩

theorem step_cases (h : s.step dirsToOverride r = some s') :
    Served s.world r.message s'.world r.events r.result ∧
      s'.fileOpens = s.fileOpens ++ fileOpened s.world r.events r.result ∧
      s'.dirOpens = s.dirOpens ++ dirOpened s.world r.events r.result :=
  ⟨served (step_exec h).1, (step_exec h).2⟩

end Session

/-! ## The ids are numbered -/

/-- The `k`-th successful open returned the id `k`, as long as that is a number of 32 bits. -/
def Numbered (next : Int32) (opens : List (Int32 × Option Nat)) : Prop :=
  next = Int32.ofNat opens.length ∧
    opens.map Prod.fst = (List.range opens.length).map Int32.ofNat

theorem ofNat_inj {m n : Nat} (hm : m < 2 ^ 32) (hn : n < 2 ^ 32)
    (h : Int32.ofNat m = Int32.ofNat n) : m = n := by
  have hbits : (Int32.ofNat m).toBitVec.toNat = (Int32.ofNat n).toBitVec.toNat := by rw [h]
  simp only [Int32.toBitVec_ofNat', BitVec.toNat_ofNat] at hbits
  omega

section

variable {next : Int32} {opens : List (Int32 × Option Nat)}

/-- The next id is new, and it is not the value that reports a failure. -/
theorem Numbered.fresh (h : Numbered next opens) (hlen : opens.length < 2 ^ 32 - 1) :
    next ∉ opens.map Prod.fst ∧ next ≠ -1 := by
  obtain ⟨rfl, hids⟩ := h
  rw [hids]
  constructor
  · intro hmem
    obtain ⟨k, hk, heq⟩ := List.mem_map.mp hmem
    have hlt := List.mem_range.mp hk
    have := ofNat_inj (by omega) (by omega) heq
    omega
  · intro heq
    have hminus : Int32.ofNat opens.length = Int32.ofNat (2 ^ 32 - 1) := heq
    have := ofNat_inj (by omega) (by omega) hminus
    omega

theorem Numbered.snoc (h : Numbered next opens) (x : Option Nat) :
    Numbered (next + 1) (opens ++ [(next, x)]) := by
  obtain ⟨rfl, hids⟩ := h
  constructor
  · simp [Int32.ofNat_add]
  · simp [hids, List.range_succ]

end

/-! ## The table of one handler -/

/-- A table against the open handles and the ids returned so far. -/
structure TableInv {H : Type} {null : H} (t : Table H) (space : HandleSpace H null)
    (opens : List (Int32 × Option Nat)) : Prop where
  handles : HandleTable t.fds space opens
  ids : Numbered t.nextFdId opens

namespace TableInv

variable {H : Type} [DecidableEq H] {null : H} {t : Table H} {space : HandleSpace H null}
  {opens : List (Int32 × Option Nat)}

theorem «open» {h : H} (hi : TableInv t space opens) (hlen : opens.length < 2 ^ 32 - 1)
    (hfree : space.serial h = none ∧ h ≠ null) :
    TableInv ({ t with nextFdId := t.nextFdId + 1 }.emplace t.nextFdId h) (space.acquire h hfree)
      (opens ++ [(t.nextFdId, some space.created)]) := by
  obtain ⟨hfresh, -⟩ := hi.ids.fresh hlen
  have hnone := hi.handles.lookup_of_fresh hfresh
  have hemplace : { t with nextFdId := t.nextFdId + 1 }.emplace t.nextFdId h =
      ⟨t.nextFdId + 1, t.fds.insert t.nextFdId h⟩ := by
    simp [Table.emplace, hnone]
  rw [hemplace]
  exact ⟨hi.handles.acquire hfree hfresh, hi.ids.snoc _⟩

omit [DecidableEq H] in
theorem skip (hi : TableInv t space opens) (hlen : opens.length < 2 ^ 32 - 1) :
    TableInv { t with nextFdId := t.nextFdId + 1 } space (opens ++ [(t.nextFdId, none)]) := by
  obtain ⟨hfresh, -⟩ := hi.ids.fresh hlen
  exact ⟨hi.handles.skip hfresh, hi.ids.snoc _⟩

/-- Closing an id that is not in the table closes the null handle. -/
theorem close (hi : TableInv t space opens) (fdId : Int32) :
    TableInv { t with fds := t.fds.erase fdId } (space.release (t.getFd null fdId)) opens := by
  cases hlookup : t.fds.lookup fdId with
  | none =>
      rw [Table.getFd, hlookup, Option.getD_none, HandleSpace.release_of_none space.serial_null]
      exact ⟨hi.handles.erase_of_none hlookup, hi.ids⟩
  | some h =>
      rw [Table.getFd, hlookup, Option.getD_some]
      exact ⟨hi.handles.release hlookup, hi.ids⟩

end TableInv

namespace Session

/-! ## The invariant -/

structure Inv (s : Session) : Prop where
  file : TableInv s.world.file s.world.files s.fileOpens
  dir : TableInv s.world.dir s.world.dirs s.dirOpens
  overridden : ∀ i entries, s.world.overriddenFds.lookup i = some entries → (i, none) ∈ s.dirOpens

/-- The counters have not come back to an id. -/
def Bounded (s : Session) : Prop :=
  s.fileOpens.length < 2 ^ 32 - 1 ∧ s.dirOpens.length < 2 ^ 32 - 1

instance (s : Session) : Decidable s.Bounded := inferInstanceAs (Decidable (_ ∧ _))

variable {dirsToOverride : DirsToOverride} {s s' : Session} {r : Request}

theorem Inv.init : Inv new where
  file := ⟨.empty, rfl, rfl⟩
  dir := ⟨.empty, rfl, rfl⟩
  overridden := by simp [new, World.new]

theorem returnedId_reply (message : Message) (fdId errno : Int32) :
    returnedId (.ok (reply message [.int32 fdId, .int32 errno])) = fdId := by
  have hread : deserialize (reply message [.int32 fdId, .int32 errno]).data
      (readFields [.int32, .int32]) = .ok (fdId, errno, ()) :=
    deserialize_encodingOf [.int32 fdId, .int32 errno] (by simp)
  simp only [returnedId, hread]

/-- A request that opens nothing leaves the histories as they are. -/
theorem opened_of_quiet {w : World} {es : List WorkerEvent}
    (hes : ∀ e ∈ es, WorkerEvent.quiet e = true) (res : Except Fault Message) :
    fileOpened w es res = [] ∧ dirOpened w es res = [] := by
  have hnone : ∀ e ∈ es, e.opensFile = false ∧ e.opensStream = false ∧
      e.opensOverridden = false := by
    intro e he
    simpa [WorkerEvent.quiet, and_assoc] using hes e he
  have hfile : es.any WorkerEvent.opensFile = false :=
    List.any_eq_false.mpr fun e he => by simp [(hnone e he).1]
  have hstream : es.any WorkerEvent.opensStream = false :=
    List.any_eq_false.mpr fun e he => by simp [(hnone e he).2.1]
  have hoverridden : es.any WorkerEvent.opensOverridden = false :=
    List.any_eq_false.mpr fun e he => by simp [(hnone e he).2.2]
  simp [fileOpened, dirOpened, hfile, hstream, hoverridden]

/-- The session after a request that did `es`, came to `res` and left the world `w'`. -/
def after (s : Session) (w' : World) (es : List WorkerEvent) (res : Except Fault Message) :
    Session :=
  ⟨w', s.fileOpens ++ fileOpened s.world es res, s.dirOpens ++ dirOpened s.world es res⟩

section

variable {w' : World} {message : Message} {es : List WorkerEvent} {res : Except Fault Message}

theorem after_of_quiet (hes : ∀ e ∈ es, WorkerEvent.quiet e = true) :
    s.after w' es res = ⟨w', s.fileOpens, s.dirOpens⟩ := by
  obtain ⟨hfile, hdir⟩ := opened_of_quiet (w := s.world) hes res
  rw [after, hfile, hdir, List.append_nil, List.append_nil]

/-- Requests that leave the tables and handles as they are. -/
theorem Inv.of_quiet (hi : Inv s) (hes : ∀ e ∈ es, WorkerEvent.quiet e = true)
    (hw : w'.handles = s.world.handles) : Inv (s.after w' es res) := by
  obtain ⟨hw₁, hw₂, hw₃, hw₄, hw₅⟩ := Handles.mk.inj hw
  rw [after_of_quiet hes]
  constructor
  · rw [hw₁, hw₄]; exact hi.file
  · rw [hw₂, hw₅]; exact hi.dir
  · rw [hw₃]; exact hi.overridden

theorem Inv.served (hi : Inv s) (hb : s.Bounded) (h : Served s.world message w' es res) :
    Inv (s.after w' es res) := by
  cases h with
  | idle hfile hdir hes hw => exact hi.of_quiet (fun e he => (hes e he).1) hw
  | useFile htype hfile hdir hes hacts hfail hw =>
      exact hi.of_quiet (fun e he => (hes e he).1) hw
  | useDir htype hfile hdir hover hes hacts hfail hw =>
      exact hi.of_quiet (fun e he => (hes e he).1) hw
  | useOverridden htype hfile hdir hover hes hw =>
      exact hi.of_quiet (fun e he => (hes e he).1) hw
  | @openFile path flags mode fd errno hfile hdir hfree hw =>
      obtain ⟨hw₁, hw₂, hw₃, hw₄, hw₅⟩ := Handles.mk.inj hw
      have hafter : s.after w' [⟨.sys (.open path flags mode), .ok fd⟩,
          ⟨.file .nextFdId, s.world.file.nextFdId⟩,
          ⟨.file (.emplace s.world.file.nextFdId fd), ()⟩, ⟨.errno, errno⟩]
          (.ok (reply message [.int32 s.world.file.nextFdId, .int32 errno])) =
            ⟨w', s.fileOpens ++ [(s.world.file.nextFdId, some s.world.files.created)],
              s.dirOpens⟩ := by
        simp [after, fileOpened, dirOpened, WorkerEvent.opensFile, WorkerEvent.opensStream,
          WorkerEvent.opensOverridden, returnedId_reply]
      rw [hafter]
      constructor
      · rw [hw₁, hw₄]; exact hi.file.open hb.1 hfree
      · rw [hw₂, hw₅]; exact hi.dir
      · rw [hw₃]; exact hi.overridden
  | @closeFile es fdId errno r htype hfile hdir hes hacts hfail hw =>
      obtain ⟨hw₁, hw₂, hw₃, hw₄, hw₅⟩ := Handles.mk.inj hw
      rw [after_of_quiet fun e he => (hes e he).1]
      constructor
      · rw [hw₁, hw₄]; exact hi.file.close fdId
      · rw [hw₂, hw₅]; exact hi.dir
      · rw [hw₃]; exact hi.overridden
  | @openDir path dir errno hfile hdir hfree hw =>
      obtain ⟨hw₁, hw₂, hw₃, hw₄, hw₅⟩ := Handles.mk.inj hw
      have hafter : s.after w' [⟨.sys (.opendir path), .ok dir⟩,
          ⟨.dir .nextFdId, s.world.dir.nextFdId⟩,
          ⟨.dir (.emplace s.world.dir.nextFdId (some dir)), ()⟩, ⟨.errno, errno⟩]
          (.ok (reply message [.int32 s.world.dir.nextFdId, .int32 errno])) =
            ⟨w', s.fileOpens, s.dirOpens ++
              [(s.world.dir.nextFdId, some s.world.dirs.created)]⟩ := by
        simp [after, fileOpened, dirOpened, WorkerEvent.opensFile, WorkerEvent.opensStream,
          returnedId_reply]
      rw [hafter]
      constructor
      · rw [hw₁, hw₄]; exact hi.file
      · rw [hw₂, hw₅]; exact hi.dir.open hb.2 hfree
      · intro i entries hover
        rw [hw₃] at hover
        exact List.mem_append_left _ (hi.overridden i entries hover)
  | @openOverridden entries hfile hdir hw =>
      obtain ⟨hw₁, hw₂, hw₃, hw₄, hw₅⟩ := Handles.mk.inj hw
      have hafter : s.after w' [⟨.dir .nextFdId, s.world.dir.nextFdId⟩,
          ⟨.overridden (.emplace s.world.dir.nextFdId entries), ()⟩]
          (.ok (reply message [.int32 s.world.dir.nextFdId, .int32 0])) =
            ⟨w', s.fileOpens, s.dirOpens ++ [(s.world.dir.nextFdId, none)]⟩ := by
        simp [after, fileOpened, dirOpened, WorkerEvent.opensFile, WorkerEvent.opensStream,
          WorkerEvent.opensOverridden, returnedId_reply]
      rw [hafter]
      constructor
      · rw [hw₁, hw₄]; exact hi.file
      · rw [hw₂, hw₅]; exact hi.dir.skip hb.2
      · intro i entries' hlookup
        rw [hw₃] at hlookup
        rw [List.mem_append, List.mem_singleton, Prod.mk.injEq]
        by_cases hnext : i = s.world.dir.nextFdId
        · exact .inr ⟨hnext, rfl⟩
        · refine .inl (hi.overridden i entries' ?_)
          split at hlookup
          · exact hlookup
          · rwa [AList.lookup_insert_ne hnext] at hlookup
  | @closeDir es fdId errno r htype hfile hdir hover hes hacts hfail hw =>
      obtain ⟨hw₁, hw₂, hw₃, hw₄, hw₅⟩ := Handles.mk.inj hw
      rw [after_of_quiet fun e he => (hes e he).1]
      constructor
      · rw [hw₁, hw₄]; exact hi.file
      · rw [hw₂, hw₅]; exact hi.dir.close fdId
      · rw [hw₃]; exact hi.overridden
  | @closeOverridden es fdId entries htype hfile hdir hover hes hw =>
      obtain ⟨hw₁, hw₂, hw₃, hw₄, hw₅⟩ := Handles.mk.inj hw
      rw [after_of_quiet fun e he => (hes e he).1]
      constructor
      · rw [hw₁, hw₄]; exact hi.file
      · rw [hw₂, hw₅]; exact hi.dir
      · intro i entries' hlookup
        rw [hw₃] at hlookup
        have hne : i ≠ fdId := by
          rintro rfl
          simp at hlookup
        rw [AList.lookup_erase_ne hne] at hlookup
        exact hi.overridden i entries' hlookup

end

theorem Bounded.before (h : s.step dirsToOverride r = some s') (hb : s'.Bounded) : s.Bounded := by
  obtain ⟨-, hfile, hdir⟩ := step_cases h
  obtain ⟨hb₁, hb₂⟩ := hb
  rw [hfile, List.length_append] at hb₁
  rw [hdir, List.length_append] at hb₂
  exact ⟨by omega, by omega⟩

theorem Bounded.of_run {rs : List Request} :
    ∀ {s : Session}, Transition.run (Session.step dirsToOverride) s rs = some s' → s'.Bounded →
      s.Bounded := by
  induction rs with
  | nil =>
      intro s h hb
      cases h
      exact hb
  | cons r rs ih =>
      intro s h hb
      obtain ⟨s₁, hstep, hrest⟩ := Transition.run_cons_iff.mp h
      exact Bounded.before hstep (ih hrest hb)

theorem Inv.step (hi : Inv s) (hb : s.Bounded) (h : s.step dirsToOverride r = some s') :
    Inv s' := by
  obtain ⟨hserved, hfileOpens, hdirOpens⟩ := step_cases h
  have hi' := hi.served hb hserved
  rw [after, ← hfileOpens, ← hdirOpens] at hi'
  exact hi'

/-- In every session short enough, the tables are sound. -/
theorem Inv.of_run {rs : List Request}
    (h : Transition.run (Session.step dirsToOverride) new rs = some s) (hb : s.Bounded) :
    Inv s := by
  refine Transition.run_invariant (I := fun s => s.Bounded → Inv s) ?_ (fun _ => Inv.init) h hb
  intro s₁ r s₂ hi hstep hb₂
  have hb₁ := Bounded.before hstep hb₂
  exact (hi hb₁).step hb₁ hstep

/-! ## What the tables say -/

/-- The ids of a table stand one by one for the open handles, each for the one that was opened
for it. -/
structure OneToOne {H : Type} {null : H} (fds : AList fun _ : Int32 => H)
    (space : HandleSpace H null) (opens : List (Int32 × Option Nat)) : Prop where
  injective : ∀ i j h, fds.lookup i = some h → fds.lookup j = some h → i = j
  onto : ∀ h, (∃ i, fds.lookup i = some h) ↔ (space.serial h).isSome
  own : ∀ i h, fds.lookup i = some h → ∃ n, (i, some n) ∈ opens ∧ space.serial h = some n

/-- The tables, the ids in them and the handles that are open. -/
structure Refines (s : Session) : Prop where
  file : OneToOne s.world.file.fds s.world.files s.fileOpens
  dir : OneToOne s.world.dir.fds s.world.dirs s.dirOpens
  disjoint : ∀ i, i ∈ s.world.dir.fds → i ∉ s.world.overriddenFds

/-- Every open returned a new id, and never the value for a failure. -/
def FreshIds (opens : List (Int32 × Option Nat)) : Prop :=
  (opens.map Prod.fst).Nodup ∧ -1 ∉ opens.map Prod.fst

theorem oneToOne {H : Type} {null : H} {fds : AList fun _ : Int32 => H}
    {space : HandleSpace H null} {opens : List (Int32 × Option Nat)}
    (ht : HandleTable fds space opens) : OneToOne fds space opens :=
  ⟨fun _ _ _ => ht.injective, fun _ => ht.mem_iff_open, ht.entry⟩

theorem Inv.refines (hi : Inv s) : s.Refines where
  file := oneToOne hi.file.handles
  dir := oneToOne hi.dir.handles
  disjoint := by
    intro i hdir hover
    obtain ⟨h, hlookup⟩ := Option.isSome_iff_exists.mp (AList.lookup_isSome.mpr hdir)
    obtain ⟨entries, hentries⟩ := Option.isSome_iff_exists.mp (AList.lookup_isSome.mpr hover)
    obtain ⟨n, hn, -⟩ := hi.dir.handles.entry i h hlookup
    have hboth := hi.dir.handles.resource_unique hn (hi.overridden i entries hentries)
    cases hboth

end Session

theorem Numbered.freshIds {next : Int32} {opens : List (Int32 × Option Nat)}
    (h : Numbered next opens) (hlen : opens.length < 2 ^ 32 - 1) : Session.FreshIds opens := by
  obtain ⟨-, hids⟩ := h
  rw [Session.FreshIds, hids]
  constructor
  · refine List.Nodup.map_on ?_ List.nodup_range
    intro j hj k hk heq
    have hj' := List.mem_range.mp hj
    have hk' := List.mem_range.mp hk
    exact ofNat_inj (by omega) (by omega) heq
  · intro hmem
    obtain ⟨k, hk, heq⟩ := List.mem_map.mp hmem
    have hlt := List.mem_range.mp hk
    have hminus : Int32.ofNat k = Int32.ofNat (2 ^ 32 - 1) := heq
    have := ofNat_inj (by omega) (by omega) hminus
    omega

namespace Session

variable {dirsToOverride : DirsToOverride} {s s' : Session} {r : Request}

/-- No entry of a table is changed, and nothing is opened or closed. -/
structure Unchanged (w w' : World) : Prop where
  file : ∀ i, w'.file.fds.lookup i = w.file.fds.lookup i
  dir : ∀ i, w'.dir.fds.lookup i = w.dir.fds.lookup i
  overridden : w'.overriddenFds = w.overriddenFds
  files : w'.files = w.files
  dirs : w'.dirs = w.dirs

/-- A request acts on what the id it names stands for: no other handle is used, the calls that
belong to the command are made, and an id that is closed is out of its table. -/
structure Acts (s : Session) (r : Request) (s' : Session) : Prop where
  fileNamed : ∀ e ∈ r.events, ∀ fd, e.1.fd? = some fd → ∃ i, fileId? r.message = some i
  fileLive : ∀ i fd, fileId? r.message = some i → s.world.file.fds.lookup i = some fd →
    (∃ e ∈ r.events, e.1.fd? = some fd) ∧
      ∀ e ∈ r.events, ∀ fd', e.1.fd? = some fd' → fd' = fd
  fileUnknown : ∀ i, fileId? r.message = some i → s.world.file.fds.lookup i = none →
    (∀ e ∈ r.events, ∀ fd, e.1.fd? = some fd → e.1.Fails e.2) ∧ IsFailure r.message r.result ∧
      Unchanged s.world s'.world
  fileClosed : ∀ i, r.type? = some .close → fileId? r.message = some i →
    s'.world.file.fds.lookup i = none
  dirNamed : ∀ e ∈ r.events, ∀ dir, e.1.dir? = some dir → ∃ i, dirId? r.message = some i
  dirLive : ∀ i dir, dirId? r.message = some i → s.world.dir.fds.lookup i = some dir →
    ∀ e ∈ r.events, ∀ dir', e.1.dir? = some dir' → dir' = dir
  dirRead : ∀ i dir entries, r.type? = some .readDir → dirId? r.message = some i →
    s.world.dir.fds.lookup i = some (some dir) → dirEntries? r.message = some entries →
      entries ≠ 0 → ∃ e ∈ r.events, e.1 = .sys (.readdir (some dir))
  dirClosed : ∀ i dir, r.type? = some .closeDir → dirId? r.message = some i →
    s.world.dir.fds.lookup i = some dir →
      (∃ e ∈ r.events, e.1 = .sys (.closedir dir)) ∧ s'.world.dir.fds.lookup i = none
  dirOverridden : ∀ i entries, dirId? r.message = some i →
    s.world.overriddenFds.lookup i = some entries → ∀ e ∈ r.events, e.1.dir? = none
  overriddenClosed : ∀ i entries, r.type? = some .closeDir → dirId? r.message = some i →
    s.world.overriddenFds.lookup i = some entries →
      s'.world.overriddenFds = s.world.overriddenFds.erase i
  dirUnknown : ∀ i, dirId? r.message = some i → s.world.dir.fds.lookup i = none →
    s.world.overriddenFds.lookup i = none →
      (∀ e ∈ r.events, ∀ dir, e.1.dir? = some dir → e.1.Fails e.2) ∧
        IsFailure r.message r.result ∧ Unchanged s.world s'.world

theorem Unchanged.of_handles {w w' : World} (hw : w'.handles = w.handles) : Unchanged w w' := by
  obtain ⟨hw₁, hw₂, hw₃, hw₄, hw₅⟩ := Handles.mk.inj hw
  constructor <;> simp [*]

/-- A request that names no id uses no handle. -/
theorem acts_of_usesNone (hfile : fileId? r.message = none) (hdir : dirId? r.message = none)
    (hes : ∀ e ∈ r.events, e.1.fd? = none ∧ e.1.dir? = none) : Acts s r s' where
  fileNamed := fun e he _ hfd => nomatch (hes e he).1.symm.trans hfd
  fileLive := fun _ _ hi => nomatch hfile.symm.trans hi
  fileUnknown := fun _ hi => nomatch hfile.symm.trans hi
  fileClosed := fun _ _ hi => nomatch hfile.symm.trans hi
  dirNamed := fun e he _ hdir' => nomatch (hes e he).2.symm.trans hdir'
  dirLive := fun _ _ hi => nomatch hdir.symm.trans hi
  dirRead := fun _ _ _ _ hi => nomatch hdir.symm.trans hi
  dirClosed := fun _ _ _ hi => nomatch hdir.symm.trans hi
  dirOverridden := fun _ _ hi => nomatch hdir.symm.trans hi
  overriddenClosed := fun _ _ _ hi => nomatch hdir.symm.trans hi
  dirUnknown := fun _ hi => nomatch hdir.symm.trans hi

/-- A request on an open file. -/
theorem acts_of_usesFile {fdId : Int32} (hfile : fileId? r.message = some fdId)
    (hdir : dirId? r.message = none)
    (hes : UsesFile s.world (s.world.file.getFd (-1) fdId) r.events)
    (hacts : ∃ e ∈ r.events, e.1.fd? = some (s.world.file.getFd (-1) fdId))
    (hunknown : s.world.file.fds.lookup fdId = none →
      IsFailure r.message r.result ∧ Unchanged s.world s'.world)
    (hclosed : r.type? = some .close → s'.world.file.fds.lookup fdId = none) : Acts s r s' where
  fileNamed := fun _ _ _ _ => ⟨fdId, hfile⟩
  fileLive := by
    intro i fd hi hlookup
    obtain rfl := Option.some.inj (hfile.symm.trans hi)
    have hfd : s.world.file.getFd (-1) fdId = fd := by rw [Table.getFd, hlookup, Option.getD_some]
    rw [hfd] at hes hacts
    exact ⟨hacts, fun e he fd' hfd' => ((hes e he).2.2 fd' hfd').1⟩
  fileUnknown := by
    intro i hi hlookup
    obtain rfl := Option.some.inj (hfile.symm.trans hi)
    have hfd : s.world.file.getFd (-1) fdId = -1 := by rw [Table.getFd, hlookup, Option.getD_none]
    rw [hfd] at hes
    exact ⟨fun e he fd' hfd' => ((hes e he).2.2 fd' hfd').2 s.world.files.serial_null,
      hunknown hlookup⟩
  fileClosed := by
    intro i htype hi
    obtain rfl := Option.some.inj (hfile.symm.trans hi)
    exact hclosed htype
  dirNamed := fun e he _ hdir' => nomatch (hes e he).2.1.symm.trans hdir'
  dirLive := fun _ _ hi => nomatch hdir.symm.trans hi
  dirRead := fun _ _ _ _ hi => nomatch hdir.symm.trans hi
  dirClosed := fun _ _ _ hi => nomatch hdir.symm.trans hi
  dirOverridden := fun _ _ hi => nomatch hdir.symm.trans hi
  overriddenClosed := fun _ _ _ hi => nomatch hdir.symm.trans hi
  dirUnknown := fun _ hi => nomatch hdir.symm.trans hi

/-- A request on an open directory that is not overridden. -/
theorem acts_of_usesDir {fdId : Int32} (hfile : fileId? r.message = none)
    (hdir : dirId? r.message = some fdId) (hover : s.world.overriddenFds.lookup fdId = none)
    (hes : UsesDir s.world (s.world.dir.getFd none fdId) r.events)
    (hread : r.type? = some .readDir → ∀ entries dir, dirEntries? r.message = some entries →
      entries ≠ 0 → s.world.dir.getFd none fdId = some dir →
        ∃ e ∈ r.events, e.1 = .sys (.readdir (some dir)))
    (hclosed : r.type? = some .closeDir →
      (∃ e ∈ r.events, e.1 = .sys (.closedir (s.world.dir.getFd none fdId))) ∧
        s'.world.dir.fds.lookup fdId = none)
    (hunknown : s.world.dir.fds.lookup fdId = none →
      IsFailure r.message r.result ∧ Unchanged s.world s'.world) : Acts s r s' where
  fileNamed := fun e he _ hfd => nomatch (hes e he).2.1.symm.trans hfd
  fileLive := fun _ _ hi => nomatch hfile.symm.trans hi
  fileUnknown := fun _ hi => nomatch hfile.symm.trans hi
  fileClosed := fun _ _ hi => nomatch hfile.symm.trans hi
  dirNamed := fun _ _ _ _ => ⟨fdId, hdir⟩
  dirLive := by
    intro i dir hi hlookup
    obtain rfl := Option.some.inj (hdir.symm.trans hi)
    have hfd : s.world.dir.getFd none fdId = dir := by rw [Table.getFd, hlookup, Option.getD_some]
    rw [hfd] at hes
    exact fun e he dir' hdir' => ((hes e he).2.2 dir' hdir').1
  dirRead := by
    intro i dir entries htype hi hlookup hentries hne
    obtain rfl := Option.some.inj (hdir.symm.trans hi)
    refine hread htype entries dir hentries hne ?_
    rw [Table.getFd, hlookup, Option.getD_some]
  dirClosed := by
    intro i dir htype hi hlookup
    obtain rfl := Option.some.inj (hdir.symm.trans hi)
    have hfd : s.world.dir.getFd none fdId = dir := by rw [Table.getFd, hlookup, Option.getD_some]
    rw [hfd] at hclosed
    exact hclosed htype
  dirOverridden := by
    intro i entries hi hlookup
    obtain rfl := Option.some.inj (hdir.symm.trans hi)
    rw [hover] at hlookup
    cases hlookup
  overriddenClosed := by
    intro i entries _ hi hlookup
    obtain rfl := Option.some.inj (hdir.symm.trans hi)
    rw [hover] at hlookup
    cases hlookup
  dirUnknown := by
    intro i hi hlookup _
    obtain rfl := Option.some.inj (hdir.symm.trans hi)
    have hfd : s.world.dir.getFd none fdId = none := by
      rw [Table.getFd, hlookup, Option.getD_none]
    rw [hfd] at hes
    exact ⟨fun e he dir' hdir' => ((hes e he).2.2 dir' hdir').2 s.world.dirs.serial_null,
      hunknown hlookup⟩

/-- A request on an overridden directory, whose id is in no other table. -/
theorem acts_of_overridden {fdId : Int32} {entries : List Dirent}
    (hdisjoint : ∀ i, i ∈ s.world.dir.fds → i ∉ s.world.overriddenFds)
    (hfile : fileId? r.message = none) (hdir : dirId? r.message = some fdId)
    (hover : s.world.overriddenFds.lookup fdId = some entries) (hes : UsesNone r.events)
    (hclosed : r.type? = some .closeDir →
      s'.world.overriddenFds = s.world.overriddenFds.erase fdId) : Acts s r s' := by
  have hnone : ∀ i dir, dirId? r.message = some i → s.world.dir.fds.lookup i ≠ some dir := by
    intro i dir hi hlookup
    obtain rfl := Option.some.inj (hdir.symm.trans hi)
    exact hdisjoint fdId (AList.lookup_isSome.mp (by simp [hlookup]))
      (AList.lookup_isSome.mp (by simp [hover]))
  exact {
    fileNamed := fun e he _ hfd => nomatch (hes e he).2.1.symm.trans hfd
    fileLive := fun _ _ hi => nomatch hfile.symm.trans hi
    fileUnknown := fun _ hi => nomatch hfile.symm.trans hi
    fileClosed := fun _ _ hi => nomatch hfile.symm.trans hi
    dirNamed := fun _ _ _ _ => ⟨fdId, hdir⟩
    dirLive := fun _ _ _ _ e he _ hdir' => nomatch (hes e he).2.2.symm.trans hdir'
    dirRead := fun i dir _ _ hi hlookup => absurd hlookup (hnone i _ hi)
    dirClosed := fun i dir _ hi hlookup => absurd hlookup (hnone i dir hi)
    dirOverridden := fun _ _ _ _ e he => (hes e he).2.2
    overriddenClosed := by
      intro i _ htype hi _
      obtain rfl := Option.some.inj (hdir.symm.trans hi)
      exact hclosed htype
    dirUnknown := by
      intro i hi _ hlookup
      obtain rfl := Option.some.inj (hdir.symm.trans hi)
      rw [hover] at hlookup
      cases hlookup }

theorem acts_of_step (hr : s.Refines) (h : s.step dirsToOverride r = some s') : Acts s r s' := by
  obtain ⟨hserved, -, -⟩ := step_cases h
  obtain ⟨thread, message, events, result⟩ := r
  dsimp only at hserved
  cases hserved with
  | idle hfile hdir hes hw => exact acts_of_usesNone hfile hdir fun e he => (hes e he).2
  | openFile hfile hdir hfree hw =>
      refine acts_of_usesNone hfile hdir ?_
      simp [WorkerOp.fd?, WorkerOp.dir?, SysCall.fd?, SysCall.dir?]
  | openDir hfile hdir hfree hw =>
      refine acts_of_usesNone hfile hdir ?_
      simp [WorkerOp.fd?, WorkerOp.dir?, SysCall.fd?, SysCall.dir?]
  | openOverridden hfile hdir hw =>
      refine acts_of_usesNone hfile hdir ?_
      simp [WorkerOp.fd?, WorkerOp.dir?]
  | @closeFile es fdId errno r htype hfile hdir hes hacts hfail hw =>
      obtain ⟨hw₁, hw₂, hw₃, hw₄, hw₅⟩ := Handles.mk.inj hw
      refine acts_of_usesFile hfile hdir hes hacts (fun hlookup => ?_) fun _ => ?_
      · have hfd : s.world.file.getFd (-1) fdId = -1 := by
          rw [Table.getFd, hlookup, Option.getD_none]
        rw [hfd] at hfail hw₄
        obtain ⟨e, rfl⟩ := hfail s.world.files.serial_null
        rw [HandleSpace.release_of_none s.world.files.serial_null] at hw₄
        exact ⟨⟨.close, _, htype, .close errno, rfl⟩,
          ⟨fun i => by rw [hw₁]; exact HandleTable.lookup_erase_of_none hlookup i,
            fun i => by rw [hw₂]; rfl, hw₃, hw₄, hw₅⟩⟩
      · rw [hw₁]
        exact AList.lookup_erase fdId _
  | @closeDir es fdId errno r htype hfile hdir hover hes hacts hfail hw =>
      obtain ⟨hw₁, hw₂, hw₃, hw₄, hw₅⟩ := Handles.mk.inj hw
      refine acts_of_usesDir hfile hdir hover hes (fun hread => ?_) (fun _ => ⟨hacts, ?_⟩)
        fun hlookup => ?_
      · rw [Request.type?, htype] at hread
        cases hread
      · rw [hw₂]
        exact AList.lookup_erase fdId _
      · have hfd : s.world.dir.getFd none fdId = none := by
          rw [Table.getFd, hlookup, Option.getD_none]
        rw [hfd] at hfail hw₅
        obtain ⟨e, rfl⟩ := hfail s.world.dirs.serial_null
        rw [HandleSpace.release_of_none s.world.dirs.serial_null] at hw₅
        exact ⟨⟨.closeDir, _, htype, .closeDir errno, rfl⟩,
          ⟨fun i => by rw [hw₁]; rfl,
            fun i => by rw [hw₂]; exact HandleTable.lookup_erase_of_none hlookup i,
            hw₃, hw₄, hw₅⟩⟩
  | @useFile es fdId res htype hfile hdir hes hacts hfail hw =>
      refine acts_of_usesFile hfile hdir hes hacts (fun hlookup => ⟨hfail ?_, .of_handles hw⟩)
        fun hclose => absurd hclose htype
      rw [Table.getFd, hlookup, Option.getD_none]
      exact s.world.files.serial_null
  | @useDir es fdId res htype hfile hdir hover hes hacts hfail hw =>
      refine acts_of_usesDir hfile hdir hover hes (fun _ => hacts) (fun hclose => ?_)
        fun hlookup => ⟨hfail ?_, .of_handles hw⟩
      · rw [Request.type?, htype] at hclose
        cases hclose
      · rw [Table.getFd, hlookup, Option.getD_none]
  | closeOverridden htype hfile hdir hover hes hw =>
      exact acts_of_overridden hr.disjoint hfile hdir hover hes
        fun _ => congrArg Handles.overriddenFds hw
  | useOverridden htype hfile hdir hover hes hw =>
      refine acts_of_overridden hr.disjoint hfile hdir hover hes fun hclose => ?_
      rw [Request.type?, htype] at hclose
      cases hclose

/-! ## Destruction -/

/-- What is left of the open files once the `FileCommandsHandler` is destroyed: the destructor
walks over the table in some order, and it closes every file that is open once and nothing else,
so that every file ever opened has then been closed once. -/
def FilesClosed (s : Session) : Prop :=
  ∀ (l : List (Int32 × Int32)) (t : ThreadId) (es : List WorkerEvent) (res : Except Fault Unit)
    (w : World), HandleTable.Enumerates l s.world.file.fds →
      exec (World.step t) s.world (FileCommandsHandler.destroy l) es = some (res, w) →
        (∀ fd, (es.map Sigma.fst).count (.sys (.close fd)) =
          if (s.world.files.serial fd).isSome then 1 else 0) ∧
        ∀ n, n < s.world.files.created → w.files.released.count n = 1

/-- The same for the directory streams and the `DirCommandsHandler`. -/
def StreamsClosed (s : Session) : Prop :=
  ∀ (l : List (Int32 × DirPtr)) (t : ThreadId) (es : List WorkerEvent) (res : Except Fault Unit)
    (w : World), HandleTable.Enumerates l s.world.dir.fds →
      exec (World.step t) s.world (DirCommandsHandler.destroy l) es = some (res, w) →
        (∀ dir, (es.map Sigma.fst).count (.sys (.closedir dir)) =
          if (s.world.dirs.serial dir).isSome then 1 else 0) ∧
        ∀ n, n < s.world.dirs.created → w.dirs.released.count n = 1

theorem exec_destroy {t : ThreadId} {res : Except Fault Unit} {w' : World} :
    ∀ {l : List (Int32 × Int32)} {w : World} {es : List WorkerEvent},
      exec (World.step t) w (FileCommandsHandler.destroy l) es = some (res, w') →
        es.map Sigma.fst = (l.map Prod.snd).map (fun fd => WorkerOp.sys (.close fd)) ∧
          w'.files = (l.map Prod.snd).foldl HandleSpace.release w.files
  | [], w, es, h => by
      obtain ⟨rfl, heq⟩ := exec_pure_iff.mp h
      cases heq
      exact ⟨rfl, rfl⟩
  | (i, fd) :: l, w, es, h => by
      simp only [FileCommandsHandler.destroy, Prog.call_bind, exec_perform_iff] at h
      obtain ⟨r, es', w₁, rfl, hsys, hrest⟩ := h
      obtain ⟨hops, hfiles⟩ := exec_destroy hrest
      have hw₁ : w₁.files = w.files.release fd := congrArg Handles.files (World.step_sys hsys).2
      exact ⟨by simp [hops], by rw [hfiles, hw₁]; rfl⟩

theorem exec_destroyDirs {t : ThreadId} {res : Except Fault Unit} {w' : World} :
    ∀ {l : List (Int32 × DirPtr)} {w : World} {es : List WorkerEvent},
      exec (World.step t) w (DirCommandsHandler.destroy l) es = some (res, w') →
        es.map Sigma.fst = (l.map Prod.snd).map (fun dir => WorkerOp.sys (.closedir dir)) ∧
          w'.dirs = (l.map Prod.snd).foldl HandleSpace.release w.dirs
  | [], w, es, h => by
      obtain ⟨rfl, heq⟩ := exec_pure_iff.mp h
      cases heq
      exact ⟨rfl, rfl⟩
  | (i, dir) :: l, w, es, h => by
      simp only [DirCommandsHandler.destroy, Prog.call_bind, exec_perform_iff] at h
      obtain ⟨r, es', w₁, rfl, hsys, hrest⟩ := h
      obtain ⟨hops, hdirs⟩ := exec_destroyDirs hrest
      have hw₁ : w₁.dirs = w.dirs.release dir := congrArg Handles.dirs (World.step_sys hsys).2
      exact ⟨by simp [hops], by rw [hdirs, hw₁]; rfl⟩

theorem Inv.filesClosed (hi : Inv s) : s.FilesClosed := by
  intro l t es res w hl hexec
  obtain ⟨hops, hfiles⟩ := exec_destroy hexec
  constructor
  · intro fd
    have hinj : Function.Injective fun fd => WorkerOp.sys (.close fd) := by
      intro a b hab
      cases hab
      rfl
    rw [hops, List.count_map_of_injective _ _ hinj]
    exact hl.count hi.file.handles fd
  · intro n hn
    rw [hfiles]
    exact hl.released hi.file.handles hn

theorem Inv.streamsClosed (hi : Inv s) : s.StreamsClosed := by
  intro l t es res w hl hexec
  obtain ⟨hops, hdirs⟩ := exec_destroyDirs hexec
  constructor
  · intro dir
    have hinj : Function.Injective fun dir => WorkerOp.sys (.closedir dir) := by
      intro a b hab
      cases hab
      rfl
    rw [hops, List.count_map_of_injective _ _ hinj]
    exact hl.count hi.dir.handles dir
  · intro n hn
    rw [hdirs]
    exact hl.released hi.dir.handles hn

/-- **The handle tables are sound.** In every session in which neither counter has come round,
the ids in the tables stand one by one for the open files and streams; every successful open
returned a new id; every request acted on what its id stands for, with an id that is closed going
out of its table, and failed without changing anything where that was nothing; and the destructors
close everything once. -/
theorem handle_table_refinement {rs : List Request}
    (hrun : Transition.run (Session.step dirsToOverride) new rs = some s)
    (hfile : s.fileOpens.length < 2 ^ 32 - 1) (hdir : s.dirOpens.length < 2 ^ 32 - 1) :
    s.Refines ∧ FreshIds s.fileOpens ∧ FreshIds s.dirOpens ∧
      (∀ before r after, rs = before ++ r :: after →
        ∃ s₁ s₂, Transition.run (Session.step dirsToOverride) new before = some s₁ ∧
          s₁.step dirsToOverride r = some s₂ ∧ s₁.Refines ∧ Acts s₁ r s₂) ∧
      s.FilesClosed ∧ s.StreamsClosed := by
  have hi : Inv s := Inv.of_run hrun ⟨hfile, hdir⟩
  refine ⟨hi.refines, hi.file.ids.freshIds hfile, hi.dir.ids.freshIds hdir, ?_, hi.filesClosed,
    hi.streamsClosed⟩
  rintro before r after rfl
  obtain ⟨s₁, hbefore, hrest⟩ := Transition.run_append_iff.mp hrun
  obtain ⟨s₂, hstep, hafter⟩ := Transition.run_cons_iff.mp hrest
  -- the histories only grow, so the bound held before
  have hb : s₁.Bounded := Bounded.before hstep (Bounded.of_run hafter ⟨hfile, hdir⟩)
  have hrefines := (Inv.of_run hbefore hb).refines
  exact ⟨s₁, s₂, hbefore, hstep, hrefines, acts_of_step hrefines hstep⟩

/-- A file is opened under descriptor 3 and closed. A directory is opened under stream 7, an
overridden one next to it; the first is read, and both are closed. -/
def openThenClose : List Request :=
  [⟨0, ⟨0, CommanderMessageType.open.toUint8,
      encodingOf [.str (ascii "/a"), .int32 0, .int32 0]⟩,
    [⟨.sys (.open (ascii "/a") 0 0), .ok 3⟩, ⟨.file .nextFdId, 0⟩, ⟨.file (.emplace 0 3), ()⟩,
      ⟨.errno, 0⟩],
    .ok ⟨0, WorkerMessageType.commandResult.toUint8, encodingOf [.int32 0, .int32 0]⟩⟩,
  ⟨1, ⟨1, CommanderMessageType.close.toUint8, encodingOf [.int32 0]⟩,
    [⟨.file (.getFd 0), 3⟩, ⟨.sys (.close 3), .ok ()⟩, ⟨.file (.erase 0), ()⟩, ⟨.errno, 0⟩],
    .ok ⟨1, WorkerMessageType.commandResult.toUint8, encodingOf [.uint8 1, .int32 0]⟩⟩,
  ⟨0, ⟨2, CommanderMessageType.openDir.toUint8, encodingOf [.str (ascii "/d")]⟩,
    [⟨.sys (.opendir (ascii "/d")), .ok 7⟩, ⟨.dir .nextFdId, 0⟩, ⟨.dir (.emplace 0 (some 7)), ()⟩,
      ⟨.errno, 0⟩],
    .ok ⟨2, WorkerMessageType.commandResult.toUint8, encodingOf [.int32 0, .int32 0]⟩⟩,
  ⟨1, ⟨3, CommanderMessageType.openDir.toUint8, encodingOf [.str (ascii "/o")]⟩,
    [⟨.dir .nextFdId, 1⟩, ⟨.overridden (.emplace 1 []), ()⟩],
    .ok ⟨3, WorkerMessageType.commandResult.toUint8, encodingOf [.int32 1, .int32 0]⟩⟩,
  ⟨0, ⟨4, CommanderMessageType.readDir.toUint8, encodingOf [.int32 0, .uint32 8]⟩,
    [⟨.overridden (.find 0), none⟩, ⟨.dir (.getFd 0), some 7⟩, ⟨.setErrno 0, ()⟩,
      ⟨.sys (.readdir (some 7)), .ok none⟩, ⟨.errno, 0⟩],
    .ok ⟨4, WorkerMessageType.commandResult.toUint8, encodingOf [.int32 0]⟩⟩,
  ⟨1, ⟨5, CommanderMessageType.closeDir.toUint8, encodingOf [.int32 1]⟩,
    [⟨.overridden (.find 1), some []⟩, ⟨.overridden (.erase 1), ()⟩],
    .ok ⟨5, WorkerMessageType.commandResult.toUint8, encodingOf [.uint8 1, .int32 0]⟩⟩]

/-- The last request of the session. -/
def closeStream : Request :=
  ⟨0, ⟨6, CommanderMessageType.closeDir.toUint8, encodingOf [.int32 0]⟩,
    [⟨.overridden (.find 0), none⟩, ⟨.dir (.getFd 0), some 7⟩, ⟨.sys (.closedir (some 7)), .ok ()⟩,
      ⟨.dir (.erase 0), ()⟩, ⟨.errno, 0⟩],
    .ok ⟨6, WorkerMessageType.commandResult.toUint8, encodingOf [.uint8 1, .int32 0]⟩⟩

theorem handle_table_refinement_close :
    ∃ s, Transition.run (Session.step [(ascii "/o", [])]) new (openThenClose ++ [closeStream]) =
        some s ∧
      s.fileOpens = [(0, some 0)] ∧ s.dirOpens = [(0, some 0), (1, none)] ∧ s.Refines ∧
      s.FilesClosed ∧ s.StreamsClosed ∧
      ∃ s₁ s₂, Transition.run (Session.step [(ascii "/o", [])]) new openThenClose = some s₁ ∧
        s₁.step [(ascii "/o", [])] closeStream = some s₂ ∧ Acts s₁ closeStream s₂ := by
  have hrun : (Transition.run (Session.step [(ascii "/o", [])]) new
      (openThenClose ++ [closeStream])).map (fun s => (s.fileOpens, s.dirOpens)) =
        some ([(0, some 0)], [(0, some 0), (1, none)]) := by decide +kernel
  obtain ⟨s, hs, hopens⟩ := Option.map_eq_some_iff.mp hrun
  obtain ⟨hfile, hdir⟩ := Prod.mk.inj hopens
  have h := handle_table_refinement hs (by rw [hfile]; decide) (by rw [hdir]; decide)
  obtain ⟨s₁, s₂, hbefore, hstep, -, hacts⟩ := h.2.2.2.1 openThenClose closeStream [] rfl
  exact ⟨s, hs, hfile, hdir, h.1, h.2.2.2.2.1, h.2.2.2.2.2, s₁, s₂, hbefore, hstep, hacts⟩

end Session
end Worker
end ZControl
