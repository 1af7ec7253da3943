import ZControl.Lib.SharedTable
import ZControl.Lib.Transition
import ZControl.Worker.Requests

/-!
# Requests that overlap

Several threads handle requests at the same time, and between two operations of one request any
other thread may move. A look-up in a table, the call on the handle that was found and the removal
of the id are three operations, so what was found may be closed by another request meanwhile, and
the system may give the number or the pointer out again.
-/

namespace ZControl

open Interaction Transition SharedTable

namespace Worker

namespace Overlap

/-- A request that a thread is handling: what it has done so far, and what is left. -/
structure Running where
  message : Message
  events : List WorkerEvent
  rest : WorkerProg Message

/-- For the record, which file or stream each thread has opened last, and which ones the ids were
put into the table for. -/
structure Ledger (n : Nat) where
  last : Fin n → Nat
  opens : List (Int32 × Nat)

structure State (n : Nat) where
  world : World
  running : Fin n → Option Running
  files : Ledger n
  dirs : Ledger n

/-- What an operation does to the open files and `_fds` of the `FileCommandsHandler`. -/
def fileAccess : WorkerEvent → Option (Access Int32 Int32)
  | ⟨.sys (.open _ _ _), .ok fd⟩   => some (.acquire fd)
  | ⟨.sys (.close fd), _⟩          => some (.release fd)
  | ⟨.sys (.read fd _), _⟩         => some (.use fd)
  | ⟨.sys (.pread64 fd _ _), _⟩    => some (.use fd)
  | ⟨.sys (.write fd _), _⟩        => some (.use fd)
  | ⟨.sys (.pwrite64 fd _ _), _⟩   => some (.use fd)
  | ⟨.file (.emplace fdId fd), _⟩  => some (.publish fdId fd)
  | ⟨.file (.getFd fdId), fd⟩      => some (.lookUp fdId fd)
  | ⟨.file (.erase fdId), _⟩       => some (.erase fdId)
  | _ => none

/-- What it does to the open streams and `_fds` of the `DirCommandsHandler`. -/
def dirAccess : WorkerEvent → Option (Access Int32 DirPtr)
  | ⟨.sys (.opendir _), .ok dir⟩  => some (.acquire (some dir))
  | ⟨.sys (.closedir dir), _⟩     => some (.release dir)
  | ⟨.sys (.readdir dir), _⟩      => some (.use dir)
  | ⟨.dir (.emplace fdId dir), _⟩ => some (.publish fdId dir)
  | ⟨.dir (.getFd fdId), dir⟩     => some (.lookUp fdId dir)
  | ⟨.dir (.erase fdId), _⟩       => some (.erase fdId)
  | _ => none

def Ledger.after {n : Nat} {H : Type} (l : Ledger n) (t : Fin n) (created : Nat) :
    Option (Access Int32 H) → Ledger n
  | some (.acquire _)      => { l with last := Function.update l.last t created }
  | some (.publish fdId _) => { l with opens := l.opens ++ [(fdId, l.last t)] }
  | _ => l

def init (n : Nat) : State n where
  world := .new
  running := fun _ => none
  files := ⟨fun _ => 0, []⟩
  dirs := ⟨fun _ => 0, []⟩

inductive Action (n : Nat) where
  | start (t : Fin n) (message : Message)
  | op (t : Fin n) (e : WorkerEvent)
  | finish (t : Fin n)

def step {n : Nat} (dirsToOverride : DirsToOverride) (s : State n) : Action n → Option (State n)
  | .start t message =>
      match s.running t with
      | none =>
          some { s with
            running := Function.update s.running t
              (some ⟨message, [], doCommand dirsToOverride message⟩) }
      | some _ => none
  | .op t e =>
      match s.running t with
      | some r => do
          let rest ← r.rest.resume e
          let world ← World.step t s.world e.1 e.2
          return {
            world
            running := Function.update s.running t (some ⟨r.message, r.events ++ [e], rest⟩)
            files := s.files.after t s.world.files.created (fileAccess e)
            dirs := s.dirs.after t s.world.dirs.created (dirAccess e) }
      | none => none
  | .finish t =>
      match s.running t with
      | some ⟨_, _, .perform _ _⟩ => none
      | some _ => some { s with running := Function.update s.running t none }
      | none => none

/-! ## The two tables -/

/-- One of the two tables: what the operations do to it, the handle a system call acts on, the id
that a request names, and where the table and the open handles are. -/
structure Handler (H : Type) (null : H) where
  access : WorkerEvent → Option (Access Int32 H)
  handle? : WorkerOp → Option H
  named : Message → Option Int32
  fds : World → AList (fun _ : Int32 => H)
  space : World → HandleSpace H null

def fileHandler : Handler Int32 (-1) :=
  ⟨fileAccess, WorkerOp.fd?, fileId?, fun w => w.file.fds, World.files⟩

def dirHandler : Handler DirPtr none :=
  ⟨dirAccess, WorkerOp.dir?, dirId?, fun w => w.dir.fds, World.dirs⟩

namespace Handler

variable {H : Type} {null : H} (X : Handler H null)

/-- What a request may do with the table, one access after the other. -/
def protocol (message : Message) : Protocol WorkerOp WorkerOp.Ans (Phase Int32 H) where
  allowed phase e :=
    match X.access e with
    | some a => phase.Allows (fun fdId => X.named message = some fdId) a
    | none   => True
  next phase e :=
    match X.access e with
    | some a => phase.next a
    | none   => phase
  ends := Phase.Ends

/-- Where a request stands after what it has done. -/
def walk (message : Message) (events : List WorkerEvent) : Phase Int32 H :=
  events.foldl (X.protocol message).next .idle

open Classical in
/-- The same, but a request that makes no more calls on what it has found is done with it. -/
noncomputable def phaseOf (r : Running) : Phase Int32 H :=
  match X.walk r.message r.events with
  | .looked fdId h =>
      if r.rest.Only fun op => X.handle? op ≠ some h then .idle else .looked fdId h
  | phase => phase

/-- Where a thread stands. -/
noncomputable def phase : Option Running → Phase Int32 H
  | none   => .idle
  | some r => X.phaseOf r

/-- The table as the threads share it. -/
noncomputable def view {n : Nat} (l : Ledger n) (s : State n) :
    SharedTable.State Int32 H null (Fin n) where
  fds := X.fds s.world
  space := X.space s.world
  phase := fun t => X.phase (s.running t)
  last := l.last
  opens := l.opens

/-- What an access does to the table and the open handles. -/
def Effect [DecidableEq H] (w w' : World) : Option (Access Int32 H) → Prop
  | some (.acquire h)      =>
      ∃ hfree, X.space w' = (X.space w).acquire h hfree ∧ X.fds w' = X.fds w
  | some (.publish fdId h) =>
      X.space w' = X.space w ∧ (X.fds w' = X.fds w ∨ X.fds w' = (X.fds w).insert fdId h)
  | some (.lookUp fdId h)  =>
      h = ((X.fds w).lookup fdId).getD null ∧ X.space w' = X.space w ∧ X.fds w' = X.fds w
  | some (.release h)      => X.space w' = (X.space w).release h ∧ X.fds w' = X.fds w
  | some (.erase fdId)     => X.space w' = X.space w ∧ X.fds w' = (X.fds w).erase fdId
  | _                      => X.space w' = X.space w ∧ X.fds w' = X.fds w

/-- The operations and the requests do with the table what they should. -/
structure Lawful [DecidableEq H] : Prop where
  effect : ∀ {t w op a w'}, World.step t w op a = some w' → X.Effect w w' (X.access ⟨op, a⟩)
  use : ∀ {op a h}, X.access ⟨op, a⟩ = some (.use h) → X.handle? op = some h
  release : ∀ {op a h}, X.access ⟨op, a⟩ = some (.release h) → X.handle? op = some h
  follows : ∀ dirsToOverride message,
    (doCommand dirsToOverride message).Follows (X.protocol message) .idle

/-! ## Each operation is a step with the table -/

section

variable {X} {n : Nat} {l : Ledger n} {s : State n} {t : Fin n} {r : Running}

theorem walk_append (message : Message) (events : List WorkerEvent) (e : WorkerEvent) :
    X.walk message (events ++ [e]) =
      (X.protocol message).next (X.walk message events) e := by
  rw [walk, List.foldl_append]
  rfl

/-- A thread stands where its events have led, or it is done with what it has found. -/
theorem phase_cases (r : Running) :
    X.phaseOf r = X.walk r.message r.events ∨
      ∃ fdId h, X.walk r.message r.events = .looked fdId h ∧ X.phaseOf r = .idle := by
  unfold phaseOf
  split
  case h_1 fdId h hwalk =>
    split
    · exact .inr ⟨fdId, h, hwalk, rfl⟩
    · exact .inl hwalk.symm
  case h_2 => exact .inl rfl

theorem phase_of_walk {phase : Phase Int32 H} (hwalk : X.walk r.message r.events = phase)
    (hne : ∀ fdId h, phase ≠ .looked fdId h) : X.phaseOf r = phase := by
  rcases phase_cases r with heq | ⟨fdId, h, hlooked, -⟩
  · rw [heq]
    exact hwalk
  · rw [hwalk] at hlooked
    exact absurd hlooked (hne fdId h)

theorem phase_looked_cases {fdId : Int32} {h : H}
    (hwalk : X.walk r.message r.events = .looked fdId h) :
    X.phaseOf r = .looked fdId h ∨ X.phaseOf r = .idle := by
  rcases phase_cases r with heq | ⟨-, -, -, hidle⟩
  · exact .inl (heq.trans hwalk)
  · exact .inr hidle

theorem phase_looked_iff {fdId : Int32} {h : H} :
    X.phaseOf r = .looked fdId h ↔
      X.walk r.message r.events = .looked fdId h ∧
        ¬ r.rest.Only fun op => X.handle? op ≠ some h := by
  unfold phaseOf
  split
  case h_1 fdId' h' hwalk =>
    rw [hwalk]
    split
    case isTrue honly =>
      constructor
      · intro hidle
        cases hidle
      · rintro ⟨heq, hnot⟩
        cases heq
        exact absurd honly hnot
    case isFalse hnot =>
      constructor
      · intro heq
        cases heq
        exact ⟨rfl, hnot⟩
      · rintro ⟨heq, -⟩
        exact heq
  case h_2 hnone =>
    constructor
    · intro heq
      exact absurd heq (hnone fdId h)
    · rintro ⟨heq, -⟩
      exact heq

/-- A request that goes on without an access stands where it stood, or it is done with what it has
found. -/
theorem phaseOf_quiet {r' : Running}
    (hwalk : X.walk r'.message r'.events = X.walk r.message r.events)
    (honly : ∀ P, r.rest.Only P → r'.rest.Only P) :
    X.phaseOf r' = X.phaseOf r ∨
      ∃ fdId h, X.phaseOf r = .looked fdId h ∧ X.phaseOf r' = .idle := by
  rcases phase_cases r' with heq' | ⟨fdId, h, hlooked, hidle⟩
  · left
    rcases phase_cases r with heq | ⟨fdId, h, hlooked, hidle⟩
    · rw [heq', heq, hwalk]
    · -- what makes no more calls now made none before
      rw [hwalk, hlooked] at heq'
      obtain ⟨-, hnot⟩ := phase_looked_iff.mp heq'
      have hnot : ¬ r.rest.Only fun op => X.handle? op ≠ some h := fun h => hnot (honly _ h)
      rw [phase_looked_iff.mpr ⟨hlooked, hnot⟩] at hidle
      cases hidle
  · rw [hwalk] at hlooked
    rcases phase_looked_cases hlooked with heq | heq
    · exact .inr ⟨fdId, h, heq, hidle⟩
    · exact .inl (hidle.trans heq.symm)

theorem view_update {l' : Ledger n} {w' : World} {r' : Option Running} {files dirs : Ledger n} :
    X.view l' ⟨w', Function.update s.running t r', files, dirs⟩ =
      ⟨X.fds w', X.space w', Function.update (X.view l s).phase t (X.phase r'), l'.last,
        l'.opens⟩ := by
  unfold view
  congr 1
  funext u
  show X.phase (Function.update s.running t r' u) =
    Function.update (fun v => X.phase (s.running v)) t (X.phase r') u
  rw [Function.update_apply, Function.update_apply]
  split <;> rfl

/-- A request that keeps to the protocol performs an operation. -/
theorem step_op [DecidableEq H] (hX : X.Lawful) (hr : s.running t = some r)
    (hfollows : r.rest.Follows (X.protocol r.message) (X.walk r.message r.events))
    {e : WorkerEvent} {rest : WorkerProg Message} {w' : World} {files dirs : Ledger n}
    (hrest : r.rest.resume e = some rest) (hw : World.step t s.world e.1 e.2 = some w') :
    SharedTable.Step (X.view l s) t (X.access e)
      (X.view (l.after t (X.space s.world).created (X.access e))
        ⟨w', Function.update s.running t (some ⟨r.message, r.events ++ [e], rest⟩), files,
          dirs⟩) := by
  obtain ⟨op, a⟩ := e
  obtain ⟨hallowed, -⟩ := hfollows.resume hrest
  have heffect := hX.effect hw
  have hphase : (X.view l s).phase t = X.phaseOf r := by
    show X.phase (s.running t) = _
    rw [hr]
    rfl
  let r' : Running := ⟨r.message, r.events ++ [⟨op, a⟩], rest⟩
  have hwalk : X.walk r'.message r'.events =
      (X.protocol r.message).next (X.walk r.message r.events) ⟨op, a⟩ :=
    walk_append r.message r.events ⟨op, a⟩
  rw [view_update]
  show SharedTable.Step (X.view l s) t (X.access ⟨op, a⟩)
    ⟨X.fds w', X.space w', Function.update (X.view l s).phase t (X.phaseOf r'), _, _⟩
  have hallowed : match X.access ⟨op, a⟩ with
      | some a => (X.walk r.message r.events).Allows (fun fdId => X.named r.message = some fdId) a
      | none   => True := hallowed
  have hwalk : X.walk r'.message r'.events =
      match X.access ⟨op, a⟩ with
      | some a => (X.walk r.message r.events).next a
      | none   => X.walk r.message r.events := hwalk
  -- a call on a handle is one that the request had yet to make
  have hcalls : ∀ {fdId h}, X.handle? op = some h → X.walk r.message r.events = .looked fdId h →
      X.phaseOf r = .looked fdId h := by
    intro fdId h hhandle hlooked
    refine phase_looked_iff.mpr ⟨hlooked, ?_⟩
    intro honly
    exact (honly.resume hrest).1 hhandle
  cases haccess : X.access ⟨op, a⟩ with
  | none =>
      rw [haccess] at heffect hwalk
      obtain ⟨hspace, hfds⟩ := heffect
      rw [hspace, hfds]
      refine .other _ ?_
      rw [hphase]
      exact phaseOf_quiet hwalk fun P hP => (hP.resume hrest).2
  | some access =>
      rw [haccess] at heffect hwalk hallowed
      cases access with
      | acquire h =>
          obtain ⟨hfree, hspace, hfds⟩ := heffect
          have hidle := Phase.allows_acquire.mp hallowed
          rw [hspace, hfds, phase_of_walk hwalk (by simp [Phase.next])]
          exact .acquire h hfree (hphase.trans (phase_of_walk hidle (by simp)))
      | publish fdId h =>
          obtain ⟨hspace, hfds⟩ := heffect
          have hopened := Phase.allows_publish.mp hallowed
          rw [hspace, phase_of_walk hwalk (by simp [Phase.next])]
          exact .publish fdId h (X.fds w') (hphase.trans (phase_of_walk hopened (by simp))) hfds
      | lookUp fdId h =>
          obtain ⟨hh, hspace, hfds⟩ := heffect
          obtain ⟨hidle, -⟩ := Phase.allows_lookUp.mp hallowed
          rw [hspace, hfds]
          exact .lookUp fdId h _ hh (hphase.trans (phase_of_walk hidle (by simp)))
            (phase_looked_cases hwalk)
      | use h =>
          obtain ⟨hspace, hfds⟩ := heffect
          obtain ⟨fdId, hlooked⟩ := Phase.allows_use.mp hallowed
          rw [hspace, hfds]
          refine .use fdId h _ (hphase.trans (hcalls (hX.use haccess) hlooked))
            (phase_looked_cases (hwalk.trans ?_))
          exact hlooked
      | release h =>
          obtain ⟨hspace, hfds⟩ := heffect
          obtain ⟨fdId, hlooked⟩ := Phase.allows_release.mp hallowed
          rw [hlooked] at hwalk
          rw [hspace, hfds, phase_of_walk hwalk (by simp [Phase.next])]
          exact .release fdId h (hphase.trans (hcalls (hX.release haccess) hlooked))
      | erase fdId =>
          obtain ⟨hspace, hfds⟩ := heffect
          have hclosed := Phase.allows_erase.mp hallowed
          rw [hspace, hfds, phase_of_walk hwalk (by simp [Phase.next])]
          exact .erase fdId (hphase.trans (phase_of_walk hclosed (by simp)))

/-- A thread that starts a request, or leaves one that has ended, has no handle. -/
theorem step_idle [DecidableEq H] {r' : Option Running} (hphase : X.phase (s.running t) = .idle)
    (hphase' : X.phase r' = .idle) :
    SharedTable.Step (X.view l s) t none
      (X.view l { s with running := Function.update s.running t r' }) := by
  have hview : X.view l { s with running := Function.update s.running t r' } =
      { X.view l s with phase := Function.update (X.view l s).phase t (X.phase r') } := view_update
  rw [hview]
  exact .other _ (.inl (hphase'.trans hphase.symm))

theorem phaseOf_start (message : Message) (p : WorkerProg Message) :
    X.phaseOf ⟨message, [], p⟩ = .idle :=
  phase_of_walk rfl (by simp)

/-- The requests keep to the protocol. -/
structure Kept (X : Handler H null) (s : State n) : Prop where
  follows : ∀ t r, s.running t = some r →
    r.rest.Follows (X.protocol r.message) (X.walk r.message r.events)
  named : ∀ t r fdId h, s.running t = some r → X.walk r.message r.events = .looked fdId h →
    X.named r.message = some fdId

/-- A request that has ended has left nothing half done. -/
theorem Kept.phase_ended (hs : X.Kept s) (hr : s.running t = some r)
    (hend : ∀ op k, r.rest ≠ .perform op k) : X.phase (s.running t) = .idle := by
  rw [hr]
  show X.phaseOf r = .idle
  have hends : (X.walk r.message r.events).Ends ∧ ∀ P, r.rest.Only P := by
    have hfollows := hs.follows t r hr
    cases hrest : r.rest with
    | pure m =>
        rw [hrest] at hfollows
        exact ⟨Prog.follows_pure.mp hfollows, fun P => trivial⟩
    | throw e =>
        rw [hrest] at hfollows
        exact ⟨Prog.follows_throw.mp hfollows, fun P => trivial⟩
    | perform op k => exact absurd hrest (hend op k)
  rcases phase_cases r with heq | ⟨-, -, -, hidle⟩
  · cases hwalk : X.walk r.message r.events with
    | idle => rw [heq, hwalk]
    | looked fdId h =>
        rw [hwalk] at heq
        exact absurd (hends.2 _) (phase_looked_iff.mp heq).2
    | opened h =>
        rw [hwalk] at hends
        exact hends.1.elim
    | closed fdId =>
        rw [hwalk] at hends
        exact hends.1.elim
  · exact hidle

/-- The requests of another thread go on keeping to the protocol, and so does a new one. -/
theorem Kept.update (hs : X.Kept s) {r' : Option Running} {w : World} {files dirs : Ledger n}
    (hfollows : ∀ r, r' = some r →
      r.rest.Follows (X.protocol r.message) (X.walk r.message r.events))
    (hnamed : ∀ r fdId h, r' = some r → X.walk r.message r.events = .looked fdId h →
      X.named r.message = some fdId) :
    X.Kept ⟨w, Function.update s.running t r', files, dirs⟩ where
  follows := by
    intro u r hr
    by_cases hut : u = t
    · subst hut
      exact hfollows r (by simpa using hr)
    · exact hs.follows u r (by simpa [hut] using hr)
  named := by
    intro u r fdId h hr
    by_cases hut : u = t
    · subst hut
      exact hnamed r fdId h (by simpa using hr)
    · exact hs.named u r fdId h (by simpa [hut] using hr)

theorem Kept.step_op (hs : X.Kept s) (hr : s.running t = some r) {e : WorkerEvent}
    {rest : WorkerProg Message} (hrest : r.rest.resume e = some rest) {w' : World}
    {files dirs : Ledger n} :
    X.Kept ⟨w', Function.update s.running t (some ⟨r.message, r.events ++ [e], rest⟩), files,
      dirs⟩ := by
  obtain ⟨hallowed, hfollows⟩ := (hs.follows t r hr).resume hrest
  refine hs.update ?_ ?_
  · rintro q ⟨⟩
    show rest.Follows _ (X.walk r.message (r.events ++ [e]))
    rw [walk_append]
    exact hfollows
  · rintro q fdId h ⟨⟩ hwalk
    have hwalk : X.walk r.message (r.events ++ [e]) = .looked fdId h := hwalk
    rw [walk_append] at hwalk
    have hallowed : match X.access e with
        | some a => (X.walk r.message r.events).Allows
            (fun fdId => X.named r.message = some fdId) a
        | none   => True := hallowed
    have hwalk : (match X.access e with
        | some a => (X.walk r.message r.events).next a
        | none   => X.walk r.message r.events) = .looked fdId h := hwalk
    cases haccess : X.access e with
    | none =>
        rw [haccess] at hwalk
        exact hs.named t r fdId h hr hwalk
    | some a =>
        rw [haccess] at hwalk hallowed
        cases a with
        | lookUp i h' =>
            cases hwalk
            exact (Phase.allows_lookUp.mp hallowed).2
        | use h' => exact hs.named t r fdId h hr hwalk
        | release h' =>
            obtain ⟨i, hlooked⟩ := Phase.allows_release.mp hallowed
            rw [hlooked] at hwalk
            cases hwalk
        | _ => cases hwalk

end

end Handler

/-! ## The steps, one case each -/

/-- Everything a step can be. -/
inductive Step {n : Nat} (dirsToOverride : DirsToOverride) (s : State n) :
    Action n → State n → Prop where
  | starts (t : Fin n) (message : Message) (ht : s.running t = none) :
      Step dirsToOverride s (.start t message)
        { s with
          running := Function.update s.running t
            (some ⟨message, [], doCommand dirsToOverride message⟩) }
  | performs (t : Fin n) (e : WorkerEvent) (r : Running) (rest : WorkerProg Message) (w : World)
      (ht : s.running t = some r) (hrest : r.rest.resume e = some rest)
      (hw : World.step t s.world e.1 e.2 = some w) :
      Step dirsToOverride s (.op t e)
        ⟨w, Function.update s.running t (some ⟨r.message, r.events ++ [e], rest⟩),
          s.files.after t s.world.files.created (fileAccess e),
          s.dirs.after t s.world.dirs.created (dirAccess e)⟩
  | finishes (t : Fin n) (r : Running) (ht : s.running t = some r)
      (hend : ∀ op k, r.rest ≠ .perform op k) :
      Step dirsToOverride s (.finish t) { s with running := Function.update s.running t none }

variable {n : Nat} {dirsToOverride : DirsToOverride} {s s' : State n} {a : Action n}

theorem step_cases (h : step dirsToOverride s a = some s') : Step dirsToOverride s a s' := by
  cases a with
  | start t message =>
      simp only [step] at h
      split at h
      case h_1 ht => cases h; exact .starts t message ht
      case h_2 => cases h
  | op t e =>
      simp only [step] at h
      split at h
      case h_1 r ht =>
        obtain ⟨rest, hrest, h⟩ := Option.bind_eq_some_iff.mp h
        obtain ⟨w, hw, h⟩ := Option.bind_eq_some_iff.mp h
        cases h
        exact .performs t e r rest w ht hrest hw
      case h_2 => cases h
  | finish t =>
      simp only [step] at h
      split at h
      case h_1 => cases h
      case h_2 r hend ht =>
        cases h
        refine .finishes t r ht ?_
        intro op k hrest
        exact hend r.message r.events op k (by rw [← hrest])
      case h_3 => cases h

/-! ## What the operations do to the tables -/

/-- Opening a directory does not concern files. -/
theorem handlesAfter_opendir (w : World) (path : Bytes) (r : Except Int32 Nat) :
    (w.handlesAfter (.opendir path) r).file = w.file ∧
      (w.handlesAfter (.opendir path) r).files = w.files := by
  cases r with
  | ok dir =>
      by_cases hfree : w.dirs.serial (some dir) = none ∧ some dir ≠ none
      · rw [World.handlesAfter, dif_pos hfree]
        exact ⟨rfl, rfl⟩
      · rw [World.handlesAfter, dif_neg hfree]
        exact ⟨rfl, rfl⟩
  | error e => exact ⟨rfl, rfl⟩

/-- Opening a file does not concern directories. -/
theorem handlesAfter_open (w : World) (path : Bytes) (flags mode : Int32) (r : Except Int32 Int32) :
    (w.handlesAfter (.open path flags mode) r).dir = w.dir ∧
      (w.handlesAfter (.open path flags mode) r).dirs = w.dirs := by
  cases r with
  | ok fd =>
      by_cases hfree : w.files.serial fd = none ∧ fd ≠ -1
      · rw [World.handlesAfter, dif_pos hfree]
        exact ⟨rfl, rfl⟩
      · rw [World.handlesAfter, dif_neg hfree]
        exact ⟨rfl, rfl⟩
  | error e => exact ⟨rfl, rfl⟩

theorem overridden_handles {t : ThreadId} {w w' : World} {op : OverriddenOp} {a : op.Ans}
    (h : World.step t w (.overridden op) a = some w') :
    (w'.file = w.file ∧ w'.files = w.files) ∧ w'.dir = w.dir ∧ w'.dirs = w.dirs := by
  cases op with
  | emplace fdId entries => rw [World.step_emplace h]; exact ⟨⟨rfl, rfl⟩, rfl, rfl⟩
  | find fdId => rw [(World.step_find h).2]; exact ⟨⟨rfl, rfl⟩, rfl, rfl⟩
  | erase fdId => cases h; exact ⟨⟨rfl, rfl⟩, rfl, rfl⟩

theorem emplace_fds {H : Type} [DecidableEq H] (table : Table H) (fdId : Int32) (fd : H) :
    (table.emplace fdId fd).fds = table.fds ∨
      (table.emplace fdId fd).fds = table.fds.insert fdId fd := by
  unfold Table.emplace
  split
  · exact .inl rfl
  · exact .inr rfl

theorem file_effect {t : ThreadId} {w w' : World} {op : WorkerOp} {a : op.Ans}
    (h : World.step t w op a = some w') : fileHandler.Effect w w' (fileAccess ⟨op, a⟩) := by
  cases op with
  | sys call =>
      obtain ⟨hallows, hhandles⟩ := World.step_sys h
      obtain ⟨hfile, -, -, hfiles, -⟩ := Handles.mk.inj hhandles
      have hfds : fileHandler.fds w' = (w.handlesAfter call a).file.fds := by
        show w'.file.fds = _
        rw [hfile]
      have hspace : fileHandler.space w' = (w.handlesAfter call a).files := hfiles
      cases call
      case «open» path flags mode =>
        cases a with
        | ok fd =>
            simp only [World.allows, decide_eq_true_eq] at hallows
            have hfree : w.files.serial fd = none ∧ fd ≠ -1 := by
              refine ⟨hallows.1, ?_⟩
              rintro rfl
              exact (by decide : ¬ (0 : Int32) ≤ -1) hallows.2
            rw [World.handlesAfter, dif_pos hfree] at hfds hspace
            exact ⟨hfree, hspace, hfds⟩
        | error e => exact ⟨hspace, hfds⟩
      case opendir path =>
        obtain ⟨hkeepFile, hkeepFiles⟩ := handlesAfter_opendir w path a
        rw [hkeepFile] at hfds
        rw [hkeepFiles] at hspace
        exact ⟨hspace, hfds⟩
      all_goals exact ⟨hspace, hfds⟩
  | errno => rw [World.step_errno h]; exact ⟨rfl, rfl⟩
  | setErrno value => cases h; exact ⟨rfl, rfl⟩
  | uninitStatvfs => cases h; exact ⟨rfl, rfl⟩
  | setShouldStop => cases h; exact ⟨rfl, rfl⟩
  | file op =>
      cases op with
      | nextFdId => rw [(World.step_nextFdId h).2]; exact ⟨rfl, rfl⟩
      | emplace fdId fd => cases h; exact ⟨rfl, emplace_fds w.file fdId fd⟩
      | getFd fdId =>
          obtain ⟨hfd, rfl⟩ := World.step_getFd h
          exact ⟨hfd, rfl, rfl⟩
      | erase fdId => cases h; exact ⟨rfl, rfl⟩
  | dir op =>
      obtain ⟨dir, -, rfl⟩ := Option.map_eq_some_iff.mp h
      exact ⟨rfl, rfl⟩
  | overridden op =>
      obtain ⟨⟨hfile, hfiles⟩, -⟩ := overridden_handles h
      exact ⟨hfiles, congrArg Table.fds hfile⟩

theorem dir_effect {t : ThreadId} {w w' : World} {op : WorkerOp} {a : op.Ans}
    (h : World.step t w op a = some w') : dirHandler.Effect w w' (dirAccess ⟨op, a⟩) := by
  cases op with
  | sys call =>
      obtain ⟨hallows, hhandles⟩ := World.step_sys h
      obtain ⟨-, hdir, -, -, hdirs⟩ := Handles.mk.inj hhandles
      have hfds : dirHandler.fds w' = (w.handlesAfter call a).dir.fds := by
        show w'.dir.fds = _
        rw [hdir]
      have hspace : dirHandler.space w' = (w.handlesAfter call a).dirs := hdirs
      cases call
      case opendir path =>
        cases a with
        | ok dir =>
            simp only [World.allows, decide_eq_true_eq] at hallows
            have hfree : w.dirs.serial (some dir) = none ∧ some dir ≠ none := ⟨hallows, by simp⟩
            rw [World.handlesAfter, dif_pos hfree] at hfds hspace
            exact ⟨hfree, hspace, hfds⟩
        | error e => exact ⟨hspace, hfds⟩
      case «open» path flags mode =>
        obtain ⟨hkeepDir, hkeepDirs⟩ := handlesAfter_open w path flags mode a
        rw [hkeepDir] at hfds
        rw [hkeepDirs] at hspace
        exact ⟨hspace, hfds⟩
      all_goals exact ⟨hspace, hfds⟩
  | errno => rw [World.step_errno h]; exact ⟨rfl, rfl⟩
  | setErrno value => cases h; exact ⟨rfl, rfl⟩
  | uninitStatvfs => cases h; exact ⟨rfl, rfl⟩
  | setShouldStop => cases h; exact ⟨rfl, rfl⟩
  | file op =>
      obtain ⟨file, -, rfl⟩ := Option.map_eq_some_iff.mp h
      exact ⟨rfl, rfl⟩
  | dir op =>
      cases op with
      | nextFdId => rw [(World.step_dirNextFdId h).2]; exact ⟨rfl, rfl⟩
      | emplace fdId fd => cases h; exact ⟨rfl, emplace_fds w.dir fdId fd⟩
      | getFd fdId =>
          obtain ⟨hfd, rfl⟩ := World.step_dirGetFd h
          exact ⟨hfd, rfl, rfl⟩
      | erase fdId => cases h; exact ⟨rfl, rfl⟩
  | overridden op =>
      obtain ⟨-, hdir, hdirs⟩ := overridden_handles h
      exact ⟨hdirs, congrArg Table.fds hdir⟩

end Overlap

end Worker

end ZControl
