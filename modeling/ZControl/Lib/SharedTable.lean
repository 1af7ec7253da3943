import ZControl.Lib.HandleSpace
import Mathlib.Data.List.AList

/-!
# Tables of handles used by several threads

Threads share a table from ids to handles. To open, a thread gets a handle from the system and puts
it into the table under an id. To use or to close one it looks the id up first, and after closing
it takes the id out. Each of these is a step of its own, so a handle that one thread has found may
be closed by another meanwhile, and given out again for something else. Two conditions are given
under which no thread is deceived. In every state a thread uses what its id was given out for or
nothing that is open, if no handle that is in use is given out again and no id is found whose
handle has been; and what a thread uses is even open, if nothing is closed that another thread uses
and no id is found whose handle has been closed.
-/

namespace SharedTable

/-- Where a thread stands with a handle. -/
inductive Phase (I H : Type) where
  | idle
  | opened (h : H)            -- has opened `h` and not put it into the table
  | looked (i : I) (h : H)    -- has found `h` under `i`, and may use it
  | closed (i : I)            -- has closed what it found, and not taken `i` out of the table
  deriving DecidableEq

inductive Access (I H : Type) where
  | acquire (h : H)
  | publish (i : I) (h : H)
  | lookUp (i : I) (h : H)
  | use (h : H)
  | release (h : H)
  | erase (i : I)

section

variable {I H : Type}

/-- What a thread may do next, if it looks up no other ids than those named. -/
def Phase.Allows (named : I → Prop) : Phase I H → Access I H → Prop
  | .idle,        .acquire _    => True
  | .idle,        .lookUp i _   => named i
  | .opened h,    .publish _ h' => h' = h
  | .looked _ h,  .use h'       => h' = h
  | .looked _ h,  .release h'   => h' = h
  | .closed i,    .erase j      => j = i
  | _, _ => False

/-- Where it stands then. -/
def Phase.next : Phase I H → Access I H → Phase I H
  | _,           .acquire h   => .opened h
  | _,           .publish _ _ => .idle
  | _,           .lookUp i h  => .looked i h
  | phase,       .use _       => phase
  | .looked i _, .release _   => .closed i
  | phase,       .release _   => phase
  | _,           .erase _     => .idle

section

variable {named : I → Prop} {phase : Phase I H} {i : I} {h : H}

theorem Phase.allows_acquire : phase.Allows named (.acquire h) ↔ phase = .idle := by
  cases phase <;> simp [Phase.Allows]

theorem Phase.allows_publish : phase.Allows named (.publish i h) ↔ phase = .opened h := by
  cases phase <;> simp [Phase.Allows, eq_comm]

theorem Phase.allows_lookUp : phase.Allows named (.lookUp i h) ↔ phase = .idle ∧ named i := by
  cases phase <;> simp [Phase.Allows]

theorem Phase.allows_use : phase.Allows named (.use h) ↔ ∃ i, phase = .looked i h := by
  cases phase <;> simp [Phase.Allows, eq_comm]

theorem Phase.allows_release : phase.Allows named (.release h) ↔ ∃ i, phase = .looked i h := by
  cases phase <;> simp [Phase.Allows, eq_comm]

theorem Phase.allows_erase : phase.Allows named (.erase i) ↔ phase = .closed i := by
  cases phase <;> simp [Phase.Allows, eq_comm]

end

/-- It may stop here: nothing is left half done. -/
def Phase.Ends : Phase I H → Prop
  | .idle       => True
  | .looked _ _ => True
  | _           => False

end

/-- The table, the open handles, where the threads stand, the resource each thread opened last, and
the resources that the ids were given out for. -/
structure State (I H : Type) (null : H) (T : Type) where
  fds : AList (fun _ : I => H)
  space : HandleSpace H null
  phase : T → Phase I H
  last : T → Nat
  opens : List (I × Nat)

section

variable {I H T : Type} [DecidableEq I] [DecidableEq H] [DecidableEq T] {null : H}

/-- The steps of thread `t`, with the access it makes. A look-up of an id that is not in the table
finds the null handle, and an id that is there may stay with the handle it has. A thread that has
found a handle may at any time be done with it. -/
inductive Step (s : State I H null T) (t : T) :
    Option (Access I H) → State I H null T → Prop where
  | other (phase : Phase I H)
      (hphase : phase = s.phase t ∨ ∃ i h, s.phase t = .looked i h ∧ phase = .idle) :
      Step s t none { s with phase := Function.update s.phase t phase }
  | acquire (h : H) (hfree : s.space.serial h = none ∧ h ≠ null) (hphase : s.phase t = .idle) :
      Step s t (some (.acquire h))
        { s with
          space := s.space.acquire h hfree
          phase := Function.update s.phase t (.opened h)
          last := Function.update s.last t s.space.created }
  | publish (i : I) (h : H) (fds : AList (fun _ : I => H)) (hphase : s.phase t = .opened h)
      (hfds : fds = s.fds ∨ fds = s.fds.insert i h) :
      Step s t (some (.publish i h))
        { s with
          fds := fds
          phase := Function.update s.phase t .idle
          opens := s.opens ++ [(i, s.last t)] }
  | lookUp (i : I) (h : H) (phase : Phase I H) (hh : h = (s.fds.lookup i).getD null)
      (hphase : s.phase t = .idle) (hnext : phase = .looked i h ∨ phase = .idle) :
      Step s t (some (.lookUp i h)) { s with phase := Function.update s.phase t phase }
  | use (i : I) (h : H) (phase : Phase I H) (hphase : s.phase t = .looked i h)
      (hnext : phase = .looked i h ∨ phase = .idle) :
      Step s t (some (.use h)) { s with phase := Function.update s.phase t phase }
  | release (i : I) (h : H) (hphase : s.phase t = .looked i h) :
      Step s t (some (.release h))
        { s with
          space := s.space.release h
          phase := Function.update s.phase t (.closed i) }
  | erase (i : I) (hphase : s.phase t = .closed i) :
      Step s t (some (.erase i))
        { s with fds := s.fds.erase i, phase := Function.update s.phase t .idle }

variable {s s' : State I H null T} {t : T} {a : Option (Access I H)}

omit [DecidableEq I] [DecidableEq H] in
/-- After a step of one thread, a thread is that one, or it stands where it stood. -/
theorem update_cases {f : T → Phase I H} {p q : Phase I H} {u : T}
    (h : Function.update f t p u = q) : (u = t ∧ p = q) ∨ (u ≠ t ∧ f u = q) := by
  by_cases hut : u = t
  · subst hut
    rw [Function.update_self] at h
    exact .inl ⟨rfl, h⟩
  · rw [Function.update_of_ne hut] at h
    exact .inr ⟨hut, h⟩

omit [DecidableEq I] [DecidableEq H] in
/-- Another thread stands where it stood. -/
theorem update_of_phase_ne {f : T → Phase I H} {p q : Phase I H} {u : T} (hu : f u = q)
    (ht : f t ≠ q) : Function.update f t p u = q := by
  have hut : u ≠ t := by
    rintro rfl
    exact ht hu
  rw [Function.update_of_ne hut]
  exact hu

/-- What is open under the handle, if anything, is what `i` was given out for. -/
def State.Own (s : State I H null T) (i : I) (h : H) : Prop :=
  ∀ n, s.space.serial h = some n → (i, n) ∈ s.opens

/-- What is open under the handle is what `i` was given out for. -/
def State.Live (s : State I H null T) (i : I) (h : H) : Prop :=
  ∃ n, s.space.serial h = some n ∧ (i, n) ∈ s.opens

omit [DecidableEq I] [DecidableEq H] [DecidableEq T] in
theorem State.Live.own {i : I} {h : H} (hlive : s.Live i h) : s.Own i h := by
  intro m hm
  obtain ⟨n, hn, hmem⟩ := hlive
  rw [hn] at hm
  cases hm
  exact hmem

/-- A step leaves what an id stands for, unless it gives the handle out again. -/
theorem Step.own (h : Step s t a s') {i : I} {h' : H} (hacquire : a ≠ some (.acquire h'))
    (hown : s.Own i h') : s'.Own i h' := by
  intro n hn
  cases h with
  | acquire h hfree hphase =>
      have hne : h' ≠ h := by
        rintro rfl
        exact hacquire rfl
      rw [HandleSpace.acquire_serial, if_neg hne] at hn
      exact hown n hn
  | publish i' h fds hphase hfds => exact List.mem_append_left _ (hown n hn)
  | release i' h hphase =>
      rw [HandleSpace.release_serial] at hn
      split at hn
      · cases hn
      · exact hown n hn
  | _ => exact hown n hn

/-- What is open stays open, unless the step closes it. -/
theorem Step.live (h : Step s t a s') {i : I} {h' : H} (hrelease : a ≠ some (.release h'))
    (hlive : s.Live i h') : s'.Live i h' := by
  obtain ⟨n, hn, hmem⟩ := hlive
  cases h with
  | acquire h hfree hphase =>
      have hne : h' ≠ h := by
        rintro rfl
        rw [hfree.1] at hn
        cases hn
      refine ⟨n, ?_, hmem⟩
      rw [HandleSpace.acquire_serial, if_neg hne]
      exact hn
  | publish i' h fds hphase hfds => exact ⟨n, hn, List.mem_append_left _ hmem⟩
  | release i' h hphase =>
      have hne : h' ≠ h := by
        rintro rfl
        exact hrelease rfl
      refine ⟨n, ?_, hmem⟩
      rw [HandleSpace.release_serial, if_neg hne]
      exact hn
  | _ => exact ⟨n, hn, hmem⟩

/-- An id in the table leads to what it was given out for, unless a thread has closed that and will
take the id out; and what a thread has found under an id is not something else. -/
structure Sound (s : State I H null T) : Prop where
  table : ∀ i h, s.fds.lookup i = some h → s.Live i h ∨ ∃ t, s.phase t = .closed i
  looked : ∀ t i h, s.phase t = .looked i h → s.Own i h
  opened : ∀ t h, s.phase t = .opened h →
    s.space.serial h = some (s.last t) ∧ ∀ i, (i, s.last t) ∉ s.opens
  openers : ∀ t u h, s.phase t = .opened h → s.phase u = .opened h → t = u
  unique : ∀ i j n, (i, n) ∈ s.opens → (j, n) ∈ s.opens → i = j
  created : ∀ i n, (i, n) ∈ s.opens → n < s.space.created

/-- No handle is given out that another thread uses, and no id is found for use whose handle has
been closed and given out again. -/
def NotReused (s s' : State I H null T) (t : T) : Option (Access I H) → Prop
  | some (.acquire h)  => ∀ u, u ≠ t → ∀ i, s.phase u ≠ .looked i h
  | some (.lookUp i h) =>
      s'.phase t = .looked i h → s.space.serial h ≠ none → ∀ u, u ≠ t → s.phase u ≠ .closed i
  | _ => True

/-- Whoever has closed an id has, or takes it out. -/
theorem Step.closed (h : Step s t a s') {i : I} {u : T} (hu : s.phase u = .closed i) :
    s'.phase u = .closed i ∨ s'.fds.lookup i = none := by
  cases h with
  | other phase hphase =>
      left
      by_cases hut : u = t
      · subst hut
        rcases hphase with rfl | ⟨j, h, hlooked, -⟩
        · simpa using hu
        · rw [hlooked] at hu
          cases hu
      · simpa [hut] using hu
  | erase j hphase =>
      by_cases hut : u = t
      · subst hut
        rw [hphase] at hu
        cases hu
        exact .inr (AList.lookup_erase _ _)
      · exact .inl (by simpa [hut] using hu)
  | _ => exact .inl (update_of_phase_ne hu (by simp [*]))

omit [DecidableEq H] in
theorem lookup_of_erase {fds : AList (fun _ : I => H)} {i j : I} {h : H}
    (hlookup : (fds.erase i).lookup j = some h) : fds.lookup j = some h := by
  by_cases hji : j = i
  · subst hji
    simp at hlookup
  · rwa [AList.lookup_erase_ne hji] at hlookup

theorem Sound.table_step (hs : Sound s) (h : Step s t a s') (i : I) (h' : H)
    (hlookup : s'.fds.lookup i = some h') : s'.Live i h' ∨ ∃ u, s'.phase u = .closed i := by
  have hclosed : ∀ {u}, s.phase u = .closed i → s'.phase u = .closed i := by
    intro u hu
    rcases h.closed hu with hstill | hgone
    · exact hstill
    · rw [hgone] at hlookup
      cases hlookup
  -- an entry that was there before
  have hkeep : s.fds.lookup i = some h' → a ≠ some (.release h') →
      s'.Live i h' ∨ ∃ u, s'.phase u = .closed i := by
    intro hbefore hrelease
    rcases hs.table i h' hbefore with hlive | ⟨u, hu⟩
    · exact .inl (h.live hrelease hlive)
    · exact .inr ⟨u, hclosed hu⟩
  cases h with
  | publish j h fds hphase hfds =>
      rcases hfds with rfl | rfl
      · exact hkeep hlookup (by simp)
      · by_cases hij : i = j
        · subst hij
          obtain rfl : h = h' := by simpa using hlookup
          exact .inl ⟨s.last t, (hs.opened t h hphase).1, List.mem_append_right _ (by simp)⟩
        · have hbefore : (s.fds.insert j h).lookup i = some h' := hlookup
          rw [AList.lookup_insert_ne hij] at hbefore
          exact hkeep hbefore (by simp)
  | release j h hphase =>
      by_cases hh : h' = h
      · subst hh
        rcases hs.table i h' hlookup with ⟨n, hn, hmem⟩ | ⟨u, hu⟩
        · have hij := hs.unique i j n hmem (hs.looked t j h' hphase n hn)
          subst hij
          exact .inr ⟨t, by simp⟩
        · exact .inr ⟨u, hclosed hu⟩
      · exact hkeep hlookup (by simp [Ne.symm hh])
  | erase j hphase => exact hkeep (lookup_of_erase hlookup) (by simp)
  | _ => exact hkeep hlookup (by simp)

/-- Whoever uses a handle did so before, or has just found it. -/
theorem Step.looked_of (h : Step s t a s') {u : T} {i : I} {h' : H}
    (hu : s'.phase u = .looked i h') :
    s.phase u = .looked i h' ∨
      (u = t ∧ a = some (.lookUp i h') ∧ h' = (s.fds.lookup i).getD null ∧ s.phase t = .idle) := by
  cases h with
  | other phase hphase =>
      rcases update_cases hu with ⟨rfl, heq⟩ | ⟨hut, hu⟩
      · rcases hphase with rfl | ⟨j, h, -, rfl⟩
        · exact .inl heq
        · cases heq
      · exact .inl hu
  | lookUp j h phase hh hphase hnext =>
      rcases update_cases hu with ⟨rfl, heq⟩ | ⟨hut, hu⟩
      · rcases hnext with rfl | rfl <;> cases heq
        exact .inr ⟨rfl, rfl, hh, hphase⟩
      · exact .inl hu
  | use j h phase hphase hnext =>
      rcases update_cases hu with ⟨rfl, heq⟩ | ⟨hut, hu⟩
      · rcases hnext with rfl | rfl <;> cases heq
        exact .inl hphase
      · exact .inl hu
  | _ =>
      rcases update_cases hu with ⟨rfl, heq⟩ | ⟨hut, hu⟩
      · cases heq
      · exact .inl hu

/-- Whoever has opened a handle had done so before, or has just done so. -/
theorem Step.opened_of (h : Step s t a s') {u : T} {h' : H} (hu : s'.phase u = .opened h') :
    (s.phase u = .opened h' ∧ s'.last u = s.last u) ∨
      (u = t ∧ s.space.serial h' = none ∧ s'.space.serial h' = some (s'.last t) ∧
        s'.last t = s.space.created ∧ s'.opens = s.opens) := by
  cases h with
  | other phase hphase =>
      rcases update_cases hu with ⟨rfl, heq⟩ | ⟨hut, hu⟩
      · rcases hphase with rfl | ⟨j, h, -, rfl⟩
        · exact .inl ⟨heq, rfl⟩
        · cases heq
      · exact .inl ⟨hu, rfl⟩
  | acquire h hfree hphase =>
      rcases update_cases hu with ⟨rfl, heq⟩ | ⟨hut, hu⟩
      · cases heq
        exact .inr ⟨rfl, hfree.1, by simp, by simp, rfl⟩
      · exact .inl ⟨hu, Function.update_of_ne hut _ _⟩
  | lookUp j h phase hh hphase hnext =>
      rcases update_cases hu with ⟨rfl, heq⟩ | ⟨hut, hu⟩
      · rcases hnext with rfl | rfl <;> cases heq
      · exact .inl ⟨hu, rfl⟩
  | use j h phase hphase hnext =>
      rcases update_cases hu with ⟨rfl, heq⟩ | ⟨hut, hu⟩
      · rcases hnext with rfl | rfl <;> cases heq
      · exact .inl ⟨hu, rfl⟩
  | _ =>
      rcases update_cases hu with ⟨rfl, heq⟩ | ⟨hut, hu⟩
      · cases heq
      · exact .inl ⟨hu, rfl⟩

omit [DecidableEq H] [DecidableEq T] in
/-- A look-up finds what its id was given out for, or nothing that is open, unless the thread that
has closed it has yet to take the id out. -/
theorem Sound.lookUp (hs : Sound s) (i : I) :
    s.Own i ((s.fds.lookup i).getD null) ∨ ∃ u, s.phase u = .closed i := by
  cases hlookup : s.fds.lookup i with
  | none =>
      left
      intro n hn
      rw [Option.getD_none, s.space.serial_null] at hn
      cases hn
  | some h =>
      rw [Option.getD_some]
      rcases hs.table i h hlookup with hlive | hclosed
      · exact .inl hlive.own
      · exact .inr hclosed

theorem Sound.looked_step (hs : Sound s) (hreuse : NotReused s s' t a) (h : Step s t a s') (u : T)
    (i : I) (h' : H) (hu : s'.phase u = .looked i h') : s'.Own i h' := by
  rcases h.looked_of hu with hbefore | ⟨rfl, rfl, hh, hidle⟩
  · refine h.own ?_ (hs.looked u i h' hbefore)
    rintro rfl
    by_cases hut : u = t
    · -- a thread opens nothing while it has a handle
      subst hut
      cases h with
      | acquire _ _ hphase =>
          rw [hphase] at hbefore
          cases hbefore
    · exact hreuse u hut i hbefore
  · refine h.own (by simp) ?_
    rcases hs.lookUp i with hown | ⟨v, hv⟩
    · rw [hh]
      exact hown
    · intro n hn
      have hvu : v ≠ u := by
        rintro rfl
        rw [hidle] at hv
        cases hv
      exact absurd hv (hreuse hu (by simp [hn]) v hvu)

theorem Sound.opened_step (hs : Sound s) (h : Step s t a s') (u : T) (h' : H)
    (hu : s'.phase u = .opened h') :
    s'.space.serial h' = some (s'.last u) ∧ ∀ i, (i, s'.last u) ∉ s'.opens := by
  rcases h.opened_of hu with ⟨hbefore, hlast⟩ | ⟨rfl, -, hserial, hlast, hopens⟩
  · obtain ⟨hserial, hfresh⟩ := hs.opened u h' hbefore
    rw [hlast]
    cases h with
    | acquire h hfree hphase =>
        refine ⟨?_, hfresh⟩
        have hne : h' ≠ h := by
          rintro rfl
          rw [hfree.1] at hserial
          cases hserial
        rw [HandleSpace.acquire_serial, if_neg hne]
        exact hserial
    | publish i h fds hphase hfds =>
        refine ⟨hserial, ?_⟩
        intro j hmem
        rcases List.mem_append.mp hmem with hmem | hmem
        · exact hfresh j hmem
        · -- two threads would have opened one resource
          obtain ⟨rfl, hsame⟩ := Prod.mk.inj (List.mem_singleton.mp hmem)
          rw [hsame] at hserial
          obtain rfl := s.space.injective h' h _ hserial (hs.opened t h hphase).1
          obtain rfl := hs.openers u t h' hbefore hphase
          simp at hu
    | release i h hphase =>
        refine ⟨?_, hfresh⟩
        have hne : h' ≠ h := by
          rintro rfl
          exact hfresh i (hs.looked t i h' hphase _ hserial)
        rw [HandleSpace.release_serial, if_neg hne]
        exact hserial
    | _ => exact ⟨hserial, hfresh⟩
  · refine ⟨hserial, ?_⟩
    intro i hmem
    rw [hopens, hlast] at hmem
    exact Nat.lt_irrefl _ (hs.created i _ hmem)

theorem Sound.openers_step (hs : Sound s) (h : Step s t a s') (u v : T) (h' : H)
    (hu : s'.phase u = .opened h') (hv : s'.phase v = .opened h') : u = v := by
  rcases h.opened_of hu with ⟨hu, -⟩ | ⟨rfl, hnone, -⟩
  · rcases h.opened_of hv with ⟨hv, -⟩ | ⟨rfl, hnone, -⟩
    · exact hs.openers u v h' hu hv
    · rw [(hs.opened u h' hu).1] at hnone
      cases hnone
  · rcases h.opened_of hv with ⟨hv, -⟩ | ⟨rfl, -⟩
    · rw [(hs.opened v h' hv).1] at hnone
      cases hnone
    · rfl

/-- Whatever an id was given out for had been opened before. -/
theorem Step.opens (h : Step s t a s') :
    s'.opens = s.opens ∨
      ∃ i h', s.phase t = .opened h' ∧ s'.opens = s.opens ++ [(i, s.last t)] := by
  cases h with
  | publish i h' fds hphase hfds => exact .inr ⟨i, h', hphase, rfl⟩
  | _ => exact .inl rfl

theorem Step.created_le (h : Step s t a s') : s.space.created ≤ s'.space.created := by
  cases h with
  | acquire h hfree hphase => exact Nat.le_succ _
  | release i h hphase => exact Nat.le_of_eq (HandleSpace.release_created _ _).symm
  | _ => exact Nat.le_refl _

theorem Sound.step (hs : Sound s) (hreuse : NotReused s s' t a) (h : Step s t a s') : Sound s' where
  table := hs.table_step h
  looked := hs.looked_step hreuse h
  opened := hs.opened_step h
  openers := hs.openers_step h
  unique := by
    rcases h.opens with hopens | ⟨k, h', hphase, hopens⟩
    · rw [hopens]
      exact hs.unique
    · rw [hopens]
      obtain ⟨-, hfresh⟩ := hs.opened t h' hphase
      intro i j n hi hj
      rcases List.mem_append.mp hi with hi | hi <;> rcases List.mem_append.mp hj with hj | hj
      · exact hs.unique i j n hi hj
      · cases List.mem_singleton.mp hj
        exact absurd hi (hfresh i)
      · cases List.mem_singleton.mp hi
        exact absurd hj (hfresh j)
      · cases List.mem_singleton.mp hi
        cases List.mem_singleton.mp hj
        rfl
  created := by
    intro i n hmem
    refine Nat.lt_of_lt_of_le ?_ h.created_le
    rcases h.opens with hopens | ⟨k, h', hphase, hopens⟩
    · rw [hopens] at hmem
      exact hs.created i n hmem
    · rw [hopens] at hmem
      rcases List.mem_append.mp hmem with hmem | hmem
      · exact hs.created i n hmem
      · cases List.mem_singleton.mp hmem
        exact s.space.lt h' _ (hs.opened t h' hphase).1

/-! ## What is used is open -/

/-- What a thread has found is open, unless it is the null handle. -/
def Alive (s : State I H null T) : Prop :=
  ∀ t i h, s.phase t = .looked i h → h = null ∨ s.Live i h

/-- No handle is closed that another thread uses, and no id is found for use whose handle has been
closed. -/
def Unhurt (s s' : State I H null T) (t : T) : Option (Access I H) → Prop
  | some (.release h)  => h ≠ null → ∀ u, u ≠ t → ∀ i, s.phase u ≠ .looked i h
  | some (.lookUp i h) =>
      s'.phase t = .looked i h → h ≠ null → ∀ u, u ≠ t → s.phase u ≠ .closed i
  | _ => True

/-- A handle that is in use is open, so it is not given out again. -/
theorem Alive.notReused (ha : Alive s) (hhurt : Unhurt s s' t a) (h : Step s t a s') :
    NotReused s s' t a := by
  cases h with
  | acquire h hfree hphase =>
      intro u hut i hu
      rcases ha u i h hu with rfl | ⟨n, hn, -⟩
      · exact hfree.2 rfl
      · rw [hfree.1] at hn
        cases hn
  | lookUp i h phase hh hphase hnext =>
      intro hlooked hopen
      refine hhurt hlooked ?_
      rintro rfl
      exact hopen s.space.serial_null
  | _ => trivial

theorem Alive.step (ha : Alive s) (hs : Sound s) (hhurt : Unhurt s s' t a) (h : Step s t a s') :
    Alive s' := by
  intro u i h' hu
  rcases h.looked_of hu with hbefore | ⟨rfl, rfl, hh, hidle⟩
  · rcases ha u i h' hbefore with hnull | hlive
    · exact .inl hnull
    · refine or_iff_not_imp_left.mpr fun hne => h.live ?_ hlive
      rintro rfl
      by_cases hut : u = t
      · -- a thread that closes a handle is done with it
        subst hut
        cases h with
        | release j _ hphase =>
            simp at hu
      · exact hhurt hne u hut i hbefore
  · refine or_iff_not_imp_left.mpr fun hne => h.live (by simp) ?_
    cases hlookup : s.fds.lookup i with
    | none =>
        rw [hlookup, Option.getD_none] at hh
        exact absurd hh hne
    | some h'' =>
        rw [hlookup, Option.getD_some] at hh
        subst hh
        rcases hs.table i h' hlookup with hlive | ⟨v, hv⟩
        · exact hlive
        · have hvu : v ≠ u := by
            rintro rfl
            rw [hidle] at hv
            cases hv
          exact absurd hv (hhurt hu hne v hvu)

end

end SharedTable
