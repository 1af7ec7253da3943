import Mathlib.Logic.Function.Basic

/-!
# Mutual exclusion

A mutex with the threads that stand between a lock and an unlock. A lock is taken only when it is
free, and given back only from inside.
-/

namespace Mutex

structure State (T : Type) where
  owner : Option T
  inside : T → Bool

variable {T : Type} [DecidableEq T] {s s' : State T}

inductive Step (s : State T) : State T → Prop where
  | lock (t : T) (hfree : s.owner = none) :
      Step s ⟨some t, Function.update s.inside t true⟩
  | unlock (t : T) (hin : s.inside t = true) :
      Step s ⟨none, Function.update s.inside t false⟩

/-- The owner is the one thread inside. -/
def Exclusive (s : State T) : Prop := ∀ t, s.inside t = true ↔ s.owner = some t

theorem Step.exclusive (h : Step s s') (hs : Exclusive s) : Exclusive s' := by
  intro u
  cases h with
  | lock t hfree =>
      by_cases hut : u = t
      · subst hut
        simp
      · have hout : s.inside u ≠ true := by
          rw [ne_eq, hs u, hfree]
          simp
        simp [Function.update_of_ne hut, hout, Ne.symm hut]
  | unlock t hin =>
      by_cases hut : u = t
      · subst hut
        simp
      · have hout : s.inside u ≠ true := by
          rw [ne_eq, hs u, (hs t).mp hin]
          simp [Ne.symm hut]
        simp [Function.update_of_ne hut, hout]

omit [DecidableEq T] in
theorem Exclusive.unique (hs : Exclusive s) {t u : T} (ht : s.inside t = true)
    (hu : s.inside u = true) : t = u := by
  have howner := (hs t).mp ht
  rw [(hs u).mp hu] at howner
  exact (Option.some.inj howner).symm

end Mutex
