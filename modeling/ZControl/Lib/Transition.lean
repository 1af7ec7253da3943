import Mathlib.Tactic.Common

/-!
# Transition systems given by a partial step function

`step s a = some s'` says that action `a` is possible in `s` and leads to `s'`; the actions
resolve all nondeterminism (which thread moves, what the environment answers). A run is a list of
actions, so a particular schedule can be evaluated, and a property of all schedules is proved
from what one step preserves.
-/

namespace Transition

-- numerals for the threads of a system that has this many
instance neZeroOne : @NeZero Nat Zero.ofOfNat0 1 := ⟨Nat.succ_ne_zero 0⟩
instance neZeroTwo : @NeZero Nat Zero.ofOfNat0 2 := ⟨Nat.succ_ne_zero 1⟩
instance neZeroThree : @NeZero Nat Zero.ofOfNat0 3 := ⟨Nat.succ_ne_zero 2⟩

variable {σ α : Type} (step : σ → α → Option σ)

/-- Perform the actions in order; `none` as soon as one is not possible. -/
def run : σ → List α → Option σ
  | s, []      => some s
  | s, a :: as => (step s a).bind fun s' => run s' as

/-- Some run leads from `s` to `s'`. -/
def Reaches (s s' : σ) : Prop := ∃ as, run step s as = some s'

variable {step}

@[simp] theorem run_nil (s : σ) : run step s [] = some s := rfl

theorem run_cons_iff {s s' : σ} {a : α} {as : List α} :
    run step s (a :: as) = some s' ↔ ∃ s₁, step s a = some s₁ ∧ run step s₁ as = some s' := by
  simp [run, Option.bind_eq_some_iff]

theorem run_append_iff {s s' : σ} {as bs : List α} :
    run step s (as ++ bs) = some s' ↔ ∃ s₁, run step s as = some s₁ ∧ run step s₁ bs = some s' := by
  induction as generalizing s with
  | nil => simp
  | cons a as ih => simp only [List.cons_append, run_cons_iff, ih]; grind

theorem Reaches.refl (s : σ) : Reaches step s s := ⟨[], rfl⟩

theorem Reaches.head {s s₁ s' : σ} {a : α} (h : step s a = some s₁) (hr : Reaches step s₁ s') :
    Reaches step s s' := by
  obtain ⟨as, has⟩ := hr
  exact ⟨a :: as, run_cons_iff.mpr ⟨s₁, h, has⟩⟩

/-- What every step preserves, every run preserves. -/
theorem run_invariant {I : σ → Prop} (hstep : ∀ s a s', I s → step s a = some s' → I s') :
    ∀ {as : List α} {s s' : σ}, I s → run step s as = some s' → I s'
  | [], s, s', hs, hrun => by cases hrun; exact hs
  | a :: as, s, s', hs, hrun => by
      obtain ⟨s₁, h, hrest⟩ := run_cons_iff.mp hrun
      exact run_invariant hstep (hstep s a s₁ hs h) hrest

theorem Reaches.invariant {I : σ → Prop} (hstep : ∀ s a s', I s → step s a = some s' → I s')
    {s s' : σ} (hr : Reaches step s s') (hs : I s) : I s' := by
  obtain ⟨as, has⟩ := hr
  exact run_invariant hstep hs has

/-- What every step preserves together with the actions taken so far, every run preserves. -/
theorem run_history {I : List α → σ → Prop}
    (hstep : ∀ past s a s', I past s → step s a = some s' → I (past ++ [a]) s') :
    ∀ {past as : List α} {s s' : σ}, I past s → run step s as = some s' → I (past ++ as) s'
  | past, [], s, s', hs, hrun => by
      cases hrun
      rw [List.append_nil]
      exact hs
  | past, a :: as, s, s', hs, hrun => by
      obtain ⟨s₁, h, hrest⟩ := run_cons_iff.mp hrun
      have hall := run_history hstep (hstep past s a s₁ hs h) hrest
      rwa [List.append_assoc, List.singleton_append] at hall

/-! ## What happens in a run -/

variable (step) in
/-- What the steps of a run give, one after the other. -/
def collect {β : Type} (f : σ → α → σ → List β) : σ → List α → List β
  | _, []      => []
  | s, a :: as =>
      match step s a with
      | some s' => f s a s' ++ collect f s' as
      | none    => []

theorem collect_cons {β : Type} {f : σ → α → σ → List β} {s s₁ : σ} {a : α} (as : List α)
    (h : step s a = some s₁) : collect step f s (a :: as) = f s a s₁ ++ collect step f s₁ as := by
  rw [collect, h]

/-- What every step preserves together with what has happened so far, every run preserves. -/
theorem run_collect {β : Type} {f : σ → α → σ → List β} {I : List β → σ → Prop}
    (hstep : ∀ past s a s', I past s → step s a = some s' → I (past ++ f s a s') s') :
    ∀ {past : List β} {as : List α} {s s' : σ}, I past s → run step s as = some s' →
      I (past ++ collect step f s as) s'
  | past, [], s, s', hs, hrun => by
      cases hrun
      rw [collect, List.append_nil]
      exact hs
  | past, a :: as, s, s', hs, hrun => by
      obtain ⟨s₁, h, hrest⟩ := run_cons_iff.mp hrun
      have hall := run_collect hstep (hstep past s a s₁ hs h) hrest
      rwa [List.append_assoc, ← collect_cons as h] at hall

theorem Reaches.trans {s s₁ s' : σ} (h₁ : Reaches step s s₁) (h₂ : Reaches step s₁ s') :
    Reaches step s s' := by
  obtain ⟨as, has⟩ := h₁
  induction as generalizing s with
  | nil => cases has; exact h₂
  | cons a as ih =>
      obtain ⟨t, h, hrest⟩ := run_cons_iff.mp has
      exact Reaches.head h (ih hrest)

/-! ## Runs whose steps meet a condition -/

variable (step) in
/-- Every step of the run is taken in a state and with an action that meet `C`. -/
def AllSteps (C : σ → α → Prop) : σ → List α → Prop
  | _, []      => True
  | s, a :: as =>
      C s a ∧ match step s a with
        | some s' => AllSteps C s' as
        | none    => True

theorem AllSteps.tail {C : σ → α → Prop} {s s₁ : σ} {a : α} {as : List α}
    (hC : AllSteps step C s (a :: as)) (h : step s a = some s₁) : AllSteps step C s₁ as := by
  have hmatch := hC.2
  rwa [h] at hmatch

instance decidableAllSteps {C : σ → α → Prop} [∀ s a, Decidable (C s a)] :
    ∀ s as, Decidable (AllSteps step C s as)
  | _, []      => isTrue trivial
  | s, a :: as =>
      have : Decidable (match step s a with
          | some s' => AllSteps step C s' as
          | none    => True) :=
        match step s a with
        | some s' => decidableAllSteps s' as
        | none    => isTrue trivial
      inferInstanceAs (Decidable (C s a ∧ _))

/-- Every step of the run, wherever it stands. -/
theorem allSteps_iff {C : σ → α → Prop} {as : List α} {s : σ} :
    AllSteps step C s as ↔
      ∀ before a after t, as = before ++ a :: after → run step s before = some t → C t a := by
  induction as generalizing s with
  | nil =>
      constructor
      · intro _ before a after t heq
        simp at heq
      · intro _
        trivial
  | cons b bs ih =>
      constructor
      · intro hC before a after t heq hrun
        cases before with
        | nil =>
            cases heq
            cases hrun
            exact hC.1
        | cons b' before =>
            cases heq
            obtain ⟨s₁, h, hrest⟩ := run_cons_iff.mp hrun
            exact ih.mp (hC.tail h) before a after t rfl hrest
      · intro hall
        refine ⟨hall [] b bs s rfl rfl, ?_⟩
        split
        case h_1 s₁ h =>
          refine ih.mpr ?_
          intro before a after t heq hrun
          refine hall (b :: before) a after t ?_ (run_cons_iff.mpr ⟨s₁, h, hrun⟩)
          rw [heq, List.cons_append]
        case h_2 => trivial

theorem AllSteps.mono {C D : σ → α → Prop} (hCD : ∀ s a, C s a → D s a) :
    ∀ {as : List α} {s : σ}, AllSteps step C s as → AllSteps step D s as
  | [], _, _ => trivial
  | a :: as, s, hC => by
      refine ⟨hCD s a hC.1, ?_⟩
      have hrest := hC.2
      split at hrest
      · exact AllSteps.mono hCD hrest
      · trivial

theorem AllSteps.snoc {C : σ → α → Prop} {a : α} {s' : σ} (ha : C s' a) :
    ∀ {as : List α} {s : σ}, AllSteps step C s as → run step s as = some s' →
      AllSteps step C s (as ++ [a])
  | [], s, _, hrun => by
      cases hrun
      refine ⟨ha, ?_⟩
      split <;> trivial
  | b :: as, s, hC, hrun => by
      obtain ⟨s₁, h, hrest⟩ := run_cons_iff.mp hrun
      refine ⟨hC.1, ?_⟩
      rw [h]
      exact AllSteps.snoc ha (hC.tail h) hrest

/-- What every step meeting `C` preserves, every run of such steps preserves. -/
theorem AllSteps.invariant {C : σ → α → Prop} {I : σ → Prop}
    (hstep : ∀ s a s', C s a → I s → step s a = some s' → I s') :
    ∀ {as : List α} {s s' : σ}, AllSteps step C s as → I s → run step s as = some s' → I s'
  | [], s, s', _, hs, hrun => by cases hrun; exact hs
  | a :: as, s, s', hC, hs, hrun => by
      obtain ⟨s₁, h, hrest⟩ := run_cons_iff.mp hrun
      exact AllSteps.invariant hstep (hC.tail h) (hstep s a s₁ hC.1 hs h) hrest

/-- A condition that an invariant of the run supplies. -/
theorem AllSteps.of_invariant {C D : σ → α → Prop} {I : σ → Prop}
    (hstep : ∀ s a s', C s a → I s → step s a = some s' → I s')
    (hD : ∀ s a, C s a → I s → D s a) :
    ∀ {as : List α} {s : σ}, AllSteps step C s as → I s → AllSteps step D s as
  | [], _, _, _ => trivial
  | a :: as, s, hC, hs => by
      refine ⟨hD s a hC.1 hs, ?_⟩
      split
      case h_1 s' h => exact AllSteps.of_invariant hstep hD (hC.tail h) (hstep s a s' hC.1 hs h)
      case h_2 => trivial

/-- Where every step takes something off a measure, a run is no longer than the measure says. -/
theorem AllSteps.length_add_le {C : σ → α → Prop} {I : σ → Prop} {f : σ → Nat}
    (hstep : ∀ s a s', C s a → I s → step s a = some s' → I s' ∧ f s' < f s) :
    ∀ {as : List α} {s s' : σ}, AllSteps step C s as → I s → run step s as = some s' →
      as.length + f s' ≤ f s
  | [], s, s', _, _, hrun => by cases hrun; exact Nat.le_of_eq (Nat.zero_add _)
  | a :: as, s, s', hC, hs, hrun => by
      obtain ⟨s₁, h, hrest⟩ := run_cons_iff.mp hrun
      obtain ⟨hs₁, hlt⟩ := hstep s a s₁ hC.1 hs h
      have hle := AllSteps.length_add_le hstep (hC.tail h) hs₁ hrest
      rw [List.length_cons]
      omega

/-! ## Simulation -/

/-- Where every step is matched by a run of another system that keeps the two related, every run
is. -/
theorem AllSteps.simulation {τ β : Type} {step' : τ → β → Option τ} {C : σ → α → Prop}
    {R : σ → τ → Prop}
    (hsim : ∀ s a s' t, C s a → R s t → step s a = some s' → ∃ t', Reaches step' t t' ∧ R s' t') :
    ∀ {as : List α} {s s' : σ} {t : τ}, AllSteps step C s as → R s t →
      run step s as = some s' → ∃ t', Reaches step' t t' ∧ R s' t'
  | [], s, s', t, _, hR, hrun => by cases hrun; exact ⟨t, .refl t, hR⟩
  | a :: as, s, s', t, hC, hR, hrun => by
      obtain ⟨s₁, h, hrest⟩ := run_cons_iff.mp hrun
      obtain ⟨t₁, ht₁, hR₁⟩ := hsim s a s₁ t hC.1 hR h
      obtain ⟨t', ht', hR'⟩ := AllSteps.simulation hsim (hC.tail h) hR₁ hrest
      exact ⟨t', ht₁.trans ht', hR'⟩

end Transition
