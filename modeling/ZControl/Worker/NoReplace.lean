import ZControl.Lib.FileTree
import ZControl.Lib.Transition
import ZControl.Worker.Replies
import ZControl.Worker.Requests

/-!
# Renaming without replacing

`rename` with `RENAME_NOREPLACE` looks whether the new path exists and calls `::rename` if it does
not. Between the two calls other handler threads may act, and the first one follows a symbolic
link where the second one replaces it. Here several threads carry out such requests, one system
call at a time, on one tree of files.
-/

namespace ZControl

open Interaction BinaryDeserializer FileTree Transition

/-! ## The file system -/

/-- The components of a path, as the system takes it. -/
def pathOf (path : Bytes) : Path Bytes where
  absolute := path.head? = some 47
  steps := ((path.splitOn 47).filter (· ≠ [])).map fun name =>
    if name = ascii "." then .here else if name = ascii ".." then .up else .name name

/-- The threads of a worker that handle renames, and the files they share. -/
structure Host where
  tree : FileSystem Bytes
  errno : ThreadId → Int32
  handlers : ThreadId → Option (WorkerProg Message)  -- what is left to do of the request
  replaced : ThreadId → Bool                         -- its `::rename` has replaced an entry

namespace Host

def initial (tree : FileSystem Bytes) (errno : ThreadId → Int32) : Host where
  tree := tree
  errno := errno
  handlers := fun _ => none
  replaced := fun _ => false

def setErrno (s : Host) (t : ThreadId) (value : Int32) : Host :=
  { s with errno := Function.update s.errno t value }

/-- What `::stat` finds; there is nothing at the empty path. -/
def stat (s : Host) (path : Bytes) : Option Nat :=
  if path = [] then none else s.tree.resolve (pathOf path)

/-- The state after an operation of thread `t` has been answered so. A call that could succeed may
still fail, for reasons that are not in the tree. -/
def answer (s : Host) (t : ThreadId) : (op : WorkerOp) → op.Ans → Option Host
  | .sys (.stat path),       .ok _    => if (s.stat path).isSome then some s else none
  | .sys (.stat _),          .error e => some (s.setErrno t e)
  | .sys (.rename old new),  .ok _    =>
      (s.tree.rename (pathOf old) (pathOf new)).map fun tree =>
        { s with
          tree := tree
          replaced := Function.update s.replaced t (s.tree.replaces (pathOf old) (pathOf new)) }
  | .sys (.rename _ _),      .error e => some (s.setErrno t e)
  | .errno,                  value    => if value = s.errno t then some s else none
  | .setErrno value,         _        => some (s.setErrno t value)
  | _, _ => none

end Host

/-- A request to rename whose flags contain `RENAME_NOREPLACE`. -/
def asksNoReplace (message : Message) : Bool :=
  CommanderMessageType.ofUint8 message.type = some .rename &&
    match deserialize message.data (readFields [.str, .str, .uint8]) with
    | .ok (_, _, flags, _) => flags &&& FileCommandsHandler.renameNoreplace ≠ 0
    | .error _ => false

inductive HostAction where
  | take (t : ThreadId) (message : Message)     -- a thread that is free begins with a request
  | perform (t : ThreadId) (e : WorkerEvent)    -- its next operation, with the answer

def HostAction.thread : HostAction → ThreadId
  | .take t _    => t
  | .perform t _ => t

namespace Host

variable (dirsToOverride : DirsToOverride)

def step (s : Host) : HostAction → Option Host
  | .take t message =>
      match s.handlers t with
      | some (.perform _ _) => none
      | _ =>
          if asksNoReplace message then
            some { s with
              handlers := Function.update s.handlers t
                (some (Worker.doCommand dirsToOverride message))
              replaced := Function.update s.replaced t false }
          else none
  | .perform t e =>
      (s.handlers t).bind fun p => (p.resume e).bind fun q =>
        (s.answer t e.1 e.2).map fun s' =>
          { s' with handlers := Function.update s'.handlers t (some q) }

/-- The response reports success. -/
def ReportsSuccess (m : Message) : Prop := m.data.head? = some 1

/-- No request that has reported success has replaced an entry. -/
def NeverReplaces (s : Host) : Prop :=
  ∀ t m, s.handlers t = some (.pure m) → ReportsSuccess m → s.replaced t = false

/-- A step that does not mislead the check: a `::stat` that fails is about a path with no entry,
and a `::rename` makes no entry where another thread has found none and is about to rename to. -/
def Undisturbed (s : Host) : HostAction → Prop
  | .perform _ ⟨.sys (.stat path), .error _⟩ => s.tree.entry (pathOf path) = none
  | .perform t ⟨.sys (.rename old new), .ok _⟩ =>
      ∀ u o n k tree, u ≠ t → s.handlers u = some (.perform (.sys (.rename o n)) k) →
        s.tree.rename (pathOf old) (pathOf new) = some tree →
        s.tree.entry (pathOf n) = none → tree.entry (pathOf n) = none
  | _ => True

end Host

/-! ## What is left of a request -/

/-- No further system call is made. -/
def Answering (p : WorkerProg Message) : Prop :=
  p.Only fun op => ∀ call, op ≠ .sys call

/-- The stages of a request: the check, the rename after a check that has found nothing, and the
reply. -/
inductive Phase (tree : FileSystem Bytes) : WorkerProg Message → Prop where
  | checking {old new : Bytes} {k : Except Int32 Stat → WorkerProg Message}
      (hok : ∀ info, Answering (k (.ok info)))
      (herror : ∀ e, Answering (k (.error e)) ∨
        ∃ k', k (.error e) = .perform (.sys (.rename old new)) k' ∧ ∀ v, Answering (k' v)) :
      Phase tree (.perform (.sys (.stat new)) k)
  | moving {old new : Bytes} {k : Except Int32 Unit → WorkerProg Message}
      (hfree : tree.entry (pathOf new) = none) (hk : ∀ v, Answering (k v)) :
      Phase tree (.perform (.sys (.rename old new)) k)
  | answering {p : WorkerProg Message} (hp : Answering p) : Phase tree p

section

variable {message : Message}

theorem answering_statusReply {α : Type} (r : Except Int32 α) :
    Answering (statusReply message r) :=
  ⟨by simp, fun _ => Prog.only_lift _⟩

/-- A request that asks not to replace begins with the check. -/
theorem phase_doCommand {dirsToOverride : DirsToOverride} (tree : FileSystem Bytes)
    (h : asksNoReplace message = true) : Phase tree (Worker.doCommand dirsToOverride message) := by
  rw [asksNoReplace, Bool.and_eq_true, decide_eq_true_eq] at h
  obtain ⟨htype, hflags⟩ := h
  cases hargs : deserialize message.data (readFields [.str, .str, .uint8]) with
  | error e =>
      rw [hargs] at hflags
      cases hflags
  | ok args =>
      obtain ⟨old, new, flags, u⟩ := args
      rw [hargs] at hflags
      have hnoreplace : flags &&& FileCommandsHandler.renameNoreplace ≠ 0 :=
        of_decide_eq_true hflags
      have hdecoded : arguments message [.str, .str, .uint8] = .pure (old, new, flags, u) := by
        rw [arguments, hargs]
        rfl
      -- the arguments are there, so nothing is thrown
      have hreturns : (FileCommandsHandler.rename message).Returns
          (Answers message .commandResult) := by
        obtain ⟨handler, hrename, hreplies⟩ := @FileCommandsHandler.rename_replies message
        rw [hrename, hdecoded, Prog.pure_bind]
        exact hreplies _
      have hdo : Worker.doCommand dirsToOverride message = FileCommandsHandler.rename message := by
        rw [Worker.doCommand, Worker.dispatch, htype]
        exact hreturns.tryCatch _
      rw [hdo]
      by_cases hexchange : flags &&& FileCommandsHandler.renameExchange = 0
      · simp only [FileCommandsHandler.rename, hdecoded, Prog.pure_bind, hnoreplace, hexchange,
          ne_eq, not_true_eq_false, not_false_eq_true, if_true, if_false, Prog.call_bind]
        refine @Phase.checking tree (cStr old) (cStr new) _ (fun info => ?_) fun e => .inr ?_
        · exact ⟨by simp, fun _ => answering_statusReply _⟩
        · exact ⟨_, rfl, fun v => answering_statusReply v⟩
      · simp only [FileCommandsHandler.rename, hdecoded, Prog.pure_bind, hnoreplace, hexchange,
          ne_eq, not_false_eq_true, if_true, Prog.call_bind]
        refine @Phase.checking tree (cStr old) (cStr new) _ (fun info => ?_) fun e => .inl ?_
        · exact ⟨by simp, fun _ => ⟨by simp, fun _ => answering_statusReply _⟩⟩
        · exact ⟨by simp, fun _ => answering_statusReply _⟩

/-- A stage stays the same as the tree changes, unless the new path is no longer free. -/
theorem Phase.transfer {tree tree' : FileSystem Bytes} {p : WorkerProg Message} (hp : Phase tree p)
    (hfree : ∀ old new k, p = .perform (.sys (.rename old new)) k →
      tree.entry (pathOf new) = none → tree'.entry (pathOf new) = none) : Phase tree' p := by
  cases hp with
  | checking hok herror => exact .checking hok herror
  | moving hentry hk => exact .moving (hfree _ _ _ rfl hentry) hk
  | answering hp => exact .answering hp

end

/-! ## Runs -/

namespace Host

/-- Every request is in one of its stages, and none has replaced an entry. -/
structure Careful (s : Host) : Prop where
  phase : ∀ t p, s.handlers t = some p → Phase s.tree p
  replaced : ∀ t, s.replaced t = false

variable {dirsToOverride : DirsToOverride} {s s' : Host} {t : ThreadId}

theorem answer_errno {op : WorkerOp} {a : op.Ans} (hop : ∀ call, op ≠ .sys call)
    (h : s.answer t op a = some s') :
    s'.tree = s.tree ∧ s'.handlers = s.handlers ∧ s'.replaced = s.replaced := by
  cases op with
  | sys call => exact absurd rfl (hop call)
  | errno =>
      simp only [answer, Option.ite_none_right_eq_some, Option.some.injEq] at h
      obtain ⟨-, rfl⟩ := h
      exact ⟨rfl, rfl, rfl⟩
  | setErrno value =>
      cases h
      exact ⟨rfl, rfl, rfl⟩
  | _ => cases h

theorem step_take {message : Message} (h : s.step dirsToOverride (.take t message) = some s') :
    asksNoReplace message = true ∧
      s' = { s with
        handlers := Function.update s.handlers t (some (Worker.doCommand dirsToOverride message))
        replaced := Function.update s.replaced t false } := by
  rw [step] at h
  split at h
  case h_1 => cases h
  case h_2 =>
    split at h
    case isFalse => cases h
    case isTrue hasks => exact ⟨hasks, (Option.some.inj h).symm⟩

theorem step_perform {op : WorkerOp} {a : op.Ans}
    (h : s.step dirsToOverride (.perform t ⟨op, a⟩) = some s') :
    ∃ k s₁, s.handlers t = some (.perform op k) ∧ s.answer t op a = some s₁ ∧
      s' = { s₁ with handlers := Function.update s₁.handlers t (some (k a)) } := by
  obtain ⟨p, hp, hrest⟩ := Option.bind_eq_some_iff.mp h
  obtain ⟨q, hq, hanswer⟩ := Option.bind_eq_some_iff.mp hrest
  obtain ⟨s₁, hs₁, rfl⟩ := Option.map_eq_some_iff.mp hanswer
  obtain ⟨k, rfl, rfl⟩ := Prog.resume_iff.mp hq
  exact ⟨k, s₁, hp, hs₁, rfl⟩

/-- One more stage of one thread, the others being where they were. -/
theorem Careful.update {tree : FileSystem Bytes} {errno : ThreadId → Int32}
    {replaced : ThreadId → Bool} {q : WorkerProg Message} (hq : Phase tree q)
    (hothers : ∀ u p, u ≠ t → s.handlers u = some p → Phase tree p)
    (hreplaced : ∀ u, replaced u = false) :
    Careful ⟨tree, errno, Function.update s.handlers t (some q), replaced⟩ := by
  refine ⟨fun u p hu => ?_, hreplaced⟩
  by_cases hut : u = t
  · subst hut
    have hself : Function.update s.handlers u (some q) u = some p := hu
    rw [Function.update_self] at hself
    obtain rfl := Option.some.inj hself
    exact hq
  · have hother : Function.update s.handlers t (some q) u = some p := hu
    rw [Function.update_of_ne hut] at hother
    exact hothers u p hut hother

theorem Careful.replaced_update (hs : s.Careful) {value : Bool} (hvalue : value = false)
    (u : ThreadId) : Function.update s.replaced t value u = false := by
  by_cases hut : u = t
  · subst hut
    rw [Function.update_self]
    exact hvalue
  · rw [Function.update_of_ne hut]
    exact hs.replaced u

/-- What one step preserves, if it does not mislead the check. -/
theorem Careful.step {a : HostAction} (hs : s.Careful) (ha : s.Undisturbed a)
    (h : s.step dirsToOverride a = some s') : s'.Careful := by
  cases a with
  | take t message =>
      obtain ⟨hasks, rfl⟩ := step_take h
      exact Careful.update (phase_doCommand s.tree hasks) (fun u p _ hu => hs.phase u p hu)
        (hs.replaced_update rfl)
  | perform t e =>
      obtain ⟨op, a⟩ := e
      obtain ⟨k, s₁, hp, hanswer, rfl⟩ := step_perform h
      cases hs.phase t _ hp with
      | @checking old new k hok herror =>
          cases a with
          | ok info =>
              simp only [answer, Option.ite_none_right_eq_some, Option.some.injEq] at hanswer
              obtain ⟨-, rfl⟩ := hanswer
              exact Careful.update (.answering (hok info)) (fun u p _ hu => hs.phase u p hu)
                hs.replaced
          | error e =>
              cases hanswer
              refine Careful.update ?_ (fun u p _ hu => hs.phase u p hu) hs.replaced
              rcases herror e with hk | ⟨k', hk, hanswering⟩
              · exact .answering hk
              · rw [hk]
                exact .moving ha hanswering
      | @moving old new k hfree hk =>
          cases a with
          | ok _ =>
              obtain ⟨tree, htree, rfl⟩ := Option.map_eq_some_iff.mp hanswer
              have hreplaces := FileSystem.replaces_of_entry_eq_none hfree (pathOf old)
              refine Careful.update (.answering (hk _)) ?_ (hs.replaced_update hreplaces)
              -- the other threads still find free what they have checked
              intro u p hut hu
              refine (hs.phase u p hu).transfer ?_
              rintro o n k' rfl hentry
              exact ha u o n k' tree hut hu htree hentry
          | error e =>
              cases hanswer
              exact Careful.update (.answering (hk _)) (fun u p _ hu => hs.phase u p hu)
                hs.replaced
      | answering hp =>
          obtain ⟨htree, hhandlers, hreplaced⟩ := answer_errno hp.1 hanswer
          obtain ⟨tree, errno, handlers, replaced⟩ := s₁
          cases htree
          cases hhandlers
          cases hreplaced
          exact Careful.update (.answering (hp.2 a)) (fun u p _ hu => hs.phase u p hu) hs.replaced

theorem careful_initial (tree : FileSystem Bytes) (errno : ThreadId → Int32) :
    (initial tree errno).Careful where
  phase := fun _ _ h => nomatch h
  replaced := fun _ => rfl

/-! ## Some threads and no others -/

theorem answer_handlers {op : WorkerOp} {a : op.Ans} (h : s.answer t op a = some s') :
    s'.handlers = s.handlers := by
  unfold answer at h
  split at h
  case h_1 | h_5 =>
    simp only [Option.ite_none_right_eq_some, Option.some.injEq] at h
    obtain ⟨-, rfl⟩ := h
    rfl
  case h_3 =>
    obtain ⟨tree, -, rfl⟩ := Option.map_eq_some_iff.mp h
    rfl
  case h_2 | h_4 | h_6 =>
    cases h
    rfl
  case h_7 => cases h

theorem step_others {a : HostAction} {u : ThreadId} (hu : u ≠ a.thread)
    (h : s.step dirsToOverride a = some s') : s'.handlers u = s.handlers u := by
  cases a with
  | take t message =>
      obtain ⟨-, rfl⟩ := step_take h
      exact Function.update_of_ne hu ..
  | perform t e =>
      obtain ⟨k, s₁, -, hanswer, rfl⟩ := step_perform h
      have hne : u ≠ t := hu
      show Function.update s₁.handlers t _ u = s.handlers u
      rw [Function.update_of_ne hne, answer_handlers hanswer]

/-- The condition, as far as the threads `ts` go. -/
def undisturbedBy (ts : List ThreadId) (s : Host) : HostAction → Bool
  | .perform _ ⟨.sys (.stat path), .error _⟩ => s.tree.entry (pathOf path) = none
  | .perform t ⟨.sys (.rename old new), .ok _⟩ =>
      ts.all fun u => u = t ||
        match s.handlers u, s.tree.rename (pathOf old) (pathOf new) with
        | some (.perform (.sys (.rename _ n)) _), some tree =>
            (s.tree.entry (pathOf n)).isSome || tree.entry (pathOf n) = none
        | _, _ => true
  | _ => true

theorem undisturbed_of_undisturbedBy {ts : List ThreadId} {a : HostAction}
    (hs : ∀ u, u ∉ ts → s.handlers u = none) (h : s.undisturbedBy ts a = true) :
    s.Undisturbed a := by
  unfold Undisturbed
  split
  case h_1 path e => exact of_decide_eq_true h
  case h_2 t old new _ =>
    intro u o n k tree hut hu htree hentry
    have hmem : u ∈ ts := by
      by_contra hmem
      rw [hs u hmem] at hu
      cases hu
    have hclause := List.all_eq_true.mp h u hmem
    simpa [hut, hu, htree, hentry] using hclause
  case h_3 => trivial

/-- In a run of some threads and no others. -/
theorem allSteps_undisturbed {ts : List ThreadId} {as : List HostAction}
    (hs : ∀ u, u ∉ ts → s.handlers u = none)
    (hall : AllSteps (Host.step dirsToOverride)
      (fun s a => a.thread ∈ ts ∧ s.undisturbedBy ts a = true) s as) :
    AllSteps (Host.step dirsToOverride) Undisturbed s as := by
  refine hall.of_invariant (I := fun s => ∀ u, u ∉ ts → s.handlers u = none) ?_ ?_ hs
  · intro s a s' ha hs h u hu
    have hother : u ≠ a.thread := by
      rintro rfl
      exact hu ha.1
    rw [step_others hother h]
    exact hs u hu
  · intro s a ha hs
    exact undisturbed_of_undisturbedBy hs ha.2

end Host

/-- **Renaming without replacing** in every run whose steps do not mislead the check: whatever the
files are, and however the system calls of the requests interleave, no request that has reported
success has replaced an entry. -/
theorem neverReplaces_of_undisturbed (dirsToOverride : DirsToOverride) (tree : FileSystem Bytes)
    (errno : ThreadId → Int32) (as : List HostAction) (s : Host)
    (hrun : run (Host.step dirsToOverride) (.initial tree errno) as = some s)
    (hall : AllSteps (Host.step dirsToOverride) Host.Undisturbed (.initial tree errno) as) :
    s.NeverReplaces := by
  have hcareful : s.Careful :=
    AllSteps.invariant (fun s a s' ha hs h => Host.Careful.step hs ha h) hall
      (Host.careful_initial tree errno) hrun
  intro t m _ _
  exact hcareful.replaced t

/-- A directory with the files `a` and `d`, and a link `l` to `b`, which is not there. -/
def danglingTree : FileSystem Bytes where
  inodes := fun
    | 0 => some (.directory 0 ((((∅ : AList fun _ : Bytes => Nat).insert (ascii "a") 1).insert
        (ascii "l") 2).insert (ascii "d") 3))
    | 1 => some .file
    | 2 => some (.symlink ⟨false, [.name (ascii "b")]⟩)
    | 3 => some .file
    | _ => none
  root := 0
  cwd := 0
  maxLinks := 40

/-- Rename, but not onto something that exists. -/
def renameNoreplaceRequest (oldPath newPath : Bytes) : Message :=
  ⟨1, CommanderMessageType.rename.toUint8,
    encodingOf [.str oldPath, .str newPath, .uint8 FileCommandsHandler.renameNoreplace]⟩

/-- A thread begins with such a request and finds the new path free. -/
def checkedFree (t : ThreadId) (oldPath newPath : Bytes) : List HostAction :=
  [.take t (renameNoreplaceRequest oldPath newPath), .perform t ⟨.sys (.stat newPath), .error 2⟩]

/-- It renames and answers. -/
def renamed (t : ThreadId) (oldPath newPath : Bytes) : List HostAction :=
  [.perform t ⟨.sys (.rename oldPath newPath), .ok ()⟩, .perform t ⟨.errno, (2 : Int32)⟩]

/-- The first byte of the response of a thread, and whether its request has replaced an entry. -/
def Host.response (s : Host) (t : ThreadId) : Option (Option UInt8 × Bool) :=
  match s.handlers t with
  | some (.pure m) => some (m.data.head?, s.replaced t)
  | _ => none

/-- One thread that renames to the dangling link. -/
def replacesLink : List HostAction :=
  checkedFree 0 (ascii "/a") (ascii "/l") ++ renamed 0 (ascii "/a") (ascii "/l")

theorem not_neverReplaces :
    ¬ ∀ (dirsToOverride : DirsToOverride) (tree : FileSystem Bytes) (errno : ThreadId → Int32)
      (as : List HostAction) (s : Host),
      run (Host.step dirsToOverride) (.initial tree errno) as = some s → s.NeverReplaces := by
  intro h
  have hresponse : ((run (Host.step []) (.initial danglingTree fun _ => 0) replacesLink).bind
      fun s => s.response 0) = some (some 1, true) := by decide
  obtain ⟨s, hrun, hs⟩ := Option.bind_eq_some_iff.mp hresponse
  rw [Host.response] at hs
  split at hs
  case h_1 m hm =>
    obtain ⟨hsuccess, hreplaced⟩ := Prod.mk.inj (Option.some.inj hs)
    rw [h [] danglingTree (fun _ => 0) _ s hrun 0 m hm hsuccess] at hreplaced
    cases hreplaced
  case h_2 => cases hs

/-- Two threads that rename to the same free path, no link being involved. -/
example : ((run (Host.step []) (.initial danglingTree fun _ => 0)
    (checkedFree 0 (ascii "/a") (ascii "/c") ++ checkedFree 1 (ascii "/d") (ascii "/c") ++
      renamed 0 (ascii "/a") (ascii "/c") ++ renamed 1 (ascii "/d") (ascii "/c"))).bind
    fun s => s.response 1) = some (some 1, true) := by decide +kernel

/-- Two threads that rename to different free paths, one between the two calls of the other. -/
def renameApart : List HostAction :=
  checkedFree 0 (ascii "/a") (ascii "/c") ++ checkedFree 1 (ascii "/d") (ascii "/e") ++
    renamed 0 (ascii "/a") (ascii "/c") ++ renamed 1 (ascii "/d") (ascii "/e")

theorem neverReplaces_of_undisturbed_apart :
    ∃ s, run (Host.step []) (.initial danglingTree fun _ => 0) renameApart = some s ∧
      s.response 0 = some (some 1, false) ∧ s.response 1 = some (some 1, false) ∧
      s.NeverReplaces := by
  have hresponses : (run (Host.step []) (.initial danglingTree fun _ => 0) renameApart).map
      (fun s => (s.response 0, s.response 1)) =
        some (some (some 1, false), some (some 1, false)) := by decide +kernel
  obtain ⟨s, hrun, hs⟩ := Option.map_eq_some_iff.mp hresponses
  obtain ⟨h₀, h₁⟩ := Prod.mk.inj hs
  have hsteps : AllSteps (Host.step []) (fun s a => a.thread ∈ [0, 1] ∧
      s.undisturbedBy [0, 1] a = true) (.initial danglingTree fun _ => 0) renameApart := by
    decide +kernel
  have hall := Host.allSteps_undisturbed (fun _ _ => rfl) hsteps
  exact ⟨s, hrun, h₀, h₁, neverReplaces_of_undisturbed [] danglingTree _ _ s hrun hall⟩

end ZControl
