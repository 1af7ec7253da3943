import ZControl.Worker.Accesses

/-!
# Calls on handles while requests overlap

Each system call on a handle is meant for the file or the stream that its id was given out for.
It acts on that, or fails, in every run in which no request closes or opens a handle at the wrong
moment; there are runs with such moments.
-/

namespace ZControl

open Interaction Transition SharedTable

namespace Worker

namespace Overlap

variable {n : Nat} {dirsToOverride : DirsToOverride} {s s' : State n} {a : Action n}

/-- The thread whose step it is. -/
def Action.thread : Action n → Fin n
  | .start t _ => t
  | .op t _    => t
  | .finish t  => t

/-- What it does with a table. -/
def Action.access {H : Type} {null : H} (X : Handler H null) :
    Action n → Option (Access Int32 H)
  | .op _ e => X.access e
  | _       => none

noncomputable def State.fileView (s : State n) : SharedTable.State Int32 Int32 (-1) (Fin n) :=
  fileHandler.view s.files s

noncomputable def State.dirView (s : State n) : SharedTable.State Int32 DirPtr none (Fin n) :=
  dirHandler.view s.dirs s

/-! ## Every step is one with each table -/

namespace Handler

variable {H : Type} [DecidableEq H] {null : H} {X : Handler H null}

omit [DecidableEq H] in
theorem Kept.init : X.Kept (init n) where
  follows := by intro t r hr; cases hr
  named := by intro t r fdId h hr; cases hr

theorem Kept.step (hs : X.Kept s) (hX : X.Lawful) (h : Step dirsToOverride s a s') :
    X.Kept s' := by
  cases h with
  | starts t message ht =>
      refine hs.update ?_ ?_
      · rintro r ⟨⟩
        exact hX.follows dirsToOverride message
      · rintro r fdId h ⟨⟩ hwalk
        cases hwalk
  | performs t e r rest w ht hrest hw => exact hs.step_op ht hrest
  | finishes t r ht hend => exact hs.update (by rintro r ⟨⟩) (by rintro r fdId h ⟨⟩)

theorem view_step (hs : X.Kept s) (hX : X.Lawful) (h : Step dirsToOverride s a s')
    {l l' : Ledger n} (hl : l' = l.after a.thread (X.space s.world).created (a.access X)) :
    SharedTable.Step (X.view l s) a.thread (a.access X) (X.view l' s') := by
  subst hl
  cases h with
  | starts t message ht =>
      have hidle : X.phase (s.running t) = .idle := by
        rw [ht]
        rfl
      exact step_idle hidle (phaseOf_start message _)
  | performs t e r rest w ht hrest hw => exact step_op hX ht (hs.follows t r ht) hrest hw
  | finishes t r ht hend => exact step_idle (hs.phase_ended ht hend) rfl

end Handler

theorem fileView_step (hs : fileHandler.Kept s) (h : Step dirsToOverride s a s') :
    SharedTable.Step s.fileView a.thread (a.access fileHandler) s'.fileView :=
  Handler.view_step hs fileHandler_lawful h (by cases h <;> rfl)

theorem dirView_step (hs : dirHandler.Kept s) (h : Step dirsToOverride s a s') :
    SharedTable.Step s.dirView a.thread (a.access dirHandler) s'.dirView :=
  Handler.view_step hs dirHandler_lawful h (by cases h <;> rfl)

/-! ## The moments to avoid -/

/-- The step opens no number that another request has looked up and has yet to call on, and looks
up none for a call that another request has closed under this id, and not taken out, when it has
been opened again. It closes no stream that another request has looked up and may still call on,
and looks up none for a call that another request has closed under this id and not taken out. -/
def Undisturbed (dirsToOverride : DirsToOverride) (s : State n) (a : Action n) : Prop :=
  ∀ s', step dirsToOverride s a = some s' →
    NotReused s.fileView s'.fileView a.thread (a.access fileHandler) ∧
      Unhurt s.dirView s'.dirView a.thread (a.access dirHandler)

structure Inv (s : State n) : Prop where
  fileKept : fileHandler.Kept s
  dirKept : dirHandler.Kept s
  fileSound : Sound s.fileView
  dirSound : Sound s.dirView
  dirAlive : Alive s.dirView

theorem sound_view {H : Type} {null : H} {X : Handler H null} {l : Ledger n}
    (hfds : X.fds World.new = ∅) (hopens : l.opens = []) : Sound (X.view l (init n)) where
  table := by
    intro i h hlookup
    have hlookup : (X.fds World.new).lookup i = some h := hlookup
    rw [hfds] at hlookup
    cases hlookup
  looked := by intro t i h ht; cases ht
  opened := by intro t h ht; cases ht
  openers := by intro t u h ht; cases ht
  unique := by
    intro i j k hi
    have hi : (i, k) ∈ l.opens := hi
    rw [hopens] at hi
    cases hi
  created := by
    intro i k hi
    have hi : (i, k) ∈ l.opens := hi
    rw [hopens] at hi
    cases hi

theorem Inv.init : Inv (init n) where
  fileKept := Handler.Kept.init
  dirKept := Handler.Kept.init
  fileSound := sound_view rfl rfl
  dirSound := sound_view rfl rfl
  dirAlive := by intro t i h ht; cases ht

theorem Inv.step (hs : Inv s) (hcond : Undisturbed dirsToOverride s a)
    (h : step dirsToOverride s a = some s') : Inv s' := by
  obtain ⟨hfile, hdir⟩ := hcond s' h
  have hfileStep := fileView_step hs.fileKept (step_cases h)
  have hdirStep := dirView_step hs.dirKept (step_cases h)
  exact
    { fileKept := hs.fileKept.step fileHandler_lawful (step_cases h)
      dirKept := hs.dirKept.step dirHandler_lawful (step_cases h)
      fileSound := hs.fileSound.step hfile hfileStep
      dirSound := hs.dirSound.step (hs.dirAlive.notReused hdir hdirStep) hdirStep
      dirAlive := hs.dirAlive.step hs.dirSound hdir hdirStep }

/-! ## The calls -/

/-- A request whose calls on handles are not over has come as far as its events say. -/
theorem Handler.walk_of_phase {H : Type} [DecidableEq H] {null : H} {X : Handler H null}
    {running : Option Running} {phase : SharedTable.Phase Int32 H}
    (hphase : X.phase running = phase) (hne : phase ≠ .idle) :
    ∃ r, running = some r ∧ X.walk r.message r.events = phase := by
  cases running with
  | none => exact absurd hphase.symm hne
  | some r =>
      refine ⟨r, rfl, ?_⟩
      rcases Handler.phase_cases (X := X) r with heq | ⟨-, -, -, hidle⟩
      · exact heq.symm.trans hphase
      · exact absurd (hphase.symm.trans hidle) hne

section

variable {H : Type} [DecidableEq H] {null : H} {X : Handler H null} {t : Fin n}

/-- The access concerns neither what a request at this point has found nor the id of what it has
closed. -/
def apart : SharedTable.Phase Int32 H → Access Int32 H → Bool
  | .looked _ h, .acquire h'      => h ≠ h'
  | .looked _ h, .release h'      => h ≠ h'
  | .closed fdId, .lookUp fdId' _ => fdId ≠ fdId'
  | _, _ => true

/-- The access of the thread keeps off what the requests of the others have found or closed. -/
def Handler.Apart (X : Handler H null) (s : State n) (t : Fin n) (a : Option (Access Int32 H)) :
    Prop :=
  ∀ u, u ≠ t → ∀ r ∈ s.running u, ∀ access ∈ a, apart (X.walk r.message r.events) access = true

instance (s : State n) (t : Fin n) (a : Option (Access Int32 H)) : Decidable (X.Apart s t a) :=
  inferInstanceAs (Decidable (∀ u, u ≠ t → ∀ r ∈ s.running u, ∀ access ∈ a,
    apart (X.walk r.message r.events) access = true))

theorem Handler.Apart.phase_ne_looked {access : Access Int32 H} {h : H}
    (hapart : X.Apart s t (some access)) (haccess : access = .acquire h ∨ access = .release h)
    {u : Fin n} (hu : u ≠ t) (fdId : Int32) : X.phase (s.running u) ≠ .looked fdId h := by
  intro hphase
  obtain ⟨r, hr, hwalk⟩ := Handler.walk_of_phase hphase (by simp)
  have hoff := hapart u hu r hr access rfl
  rw [hwalk] at hoff
  rcases haccess with rfl | rfl <;> simp [apart] at hoff

theorem Handler.Apart.phase_ne_closed {fdId : Int32} {h : H}
    (hapart : X.Apart s t (some (.lookUp fdId h))) {u : Fin n} (hu : u ≠ t) :
    X.phase (s.running u) ≠ .closed fdId := by
  intro hphase
  obtain ⟨r, hr, hwalk⟩ := Handler.walk_of_phase hphase (by simp)
  have hoff := hapart u hu r hr _ rfl
  rw [hwalk] at hoff
  simp [apart] at hoff

theorem Handler.Apart.notReused {a : Option (Access Int32 H)} (hapart : X.Apart s t a)
    {l : Ledger n} {v : SharedTable.State Int32 H null (Fin n)} :
    NotReused (X.view l s) v t a := by
  rcases a with - | access
  · trivial
  · cases access with
    | acquire h => exact fun u hu fdId => hapart.phase_ne_looked (.inl rfl) hu fdId
    | lookUp fdId h => exact fun _ _ u hu => hapart.phase_ne_closed hu
    | _ => trivial

end

def openOf (id : UInt32) (path : Bytes) : Message :=
  ⟨id, CommanderMessageType.open.toUint8, encodingOf [.str path, .int32 0, .int32 0]⟩

end Overlap

end Worker

end ZControl
