import Mathlib.Tactic.Common
import Mathlib.Data.List.Nodup

/-!
# Handles that are reused

A system hands out handles for resources. A handle is free again once its resource has been
released and may then stand for another one, so the handle alone does not say which resource is
meant: here every resource has a serial number of its own. A `Space` knows which resource each
open handle stands for and which resources have been released; by its fields every resource ever
created is either open under exactly one handle or was released exactly once, and the handle
`null` is never open.
-/

/-- The handles of a system, with the resources they stand for. -/
structure HandleSpace (H : Type) (null : H) where
  serial : H → Option Nat
  created : Nat
  released : List Nat
  serial_null : serial null = none
  lt : ∀ h n, serial h = some n → n < created
  injective : ∀ h h' n, serial h = some n → serial h' = some n → h = h'
  nodup : released.Nodup
  released_iff : ∀ n, n ∈ released ↔ n < created ∧ ∀ h, serial h ≠ some n

namespace HandleSpace

variable {H : Type} {null : H} [DecidableEq H]

def empty : HandleSpace H null where
  serial := fun _ => none
  created := 0
  released := []
  serial_null := rfl
  lt := by simp
  injective := by simp
  nodup := List.nodup_nil
  released_iff := by simp

/-- A new resource under the handle `h`, which must not be open or null. -/
def acquire (s : HandleSpace H null) (h : H) (hfree : s.serial h = none ∧ h ≠ null) :
    HandleSpace H null where
  serial := Function.update s.serial h (some s.created)
  created := s.created + 1
  released := s.released
  serial_null := by simp [hfree.2.symm, s.serial_null]
  lt := by
    intro h' n hn
    by_cases heq : h' = h
    · subst heq
      have : s.created = n := by simpa using hn
      omega
    · have := s.lt h' n (by simpa [heq] using hn)
      omega
  injective := by
    intro h₁ h₂ n h₁n h₂n
    have hlt := s.lt
    have hinj := s.injective
    simp only [Function.update_apply] at h₁n h₂n
    grind
  nodup := s.nodup
  released_iff := by
    intro n
    have hlt := s.lt
    rw [s.released_iff n]
    simp only [Function.update_apply]
    constructor
    · rintro ⟨hn, hclosed⟩
      exact ⟨by omega, fun h' => by grind⟩
    · rintro ⟨hn, hclosed⟩
      have hne : s.created ≠ n := by simpa using hclosed h
      refine ⟨by omega, fun h' hh' => ?_⟩
      grind

/-- The resource under `h`, if there is one, is released. -/
def release (s : HandleSpace H null) (h : H) : HandleSpace H null :=
  match hn : s.serial h with
  | none   => s
  | some n =>
    { serial := Function.update s.serial h none
      created := s.created
      released := s.released ++ [n]
      serial_null := by simp [Function.update_apply, s.serial_null]
      lt := by
        intro h' m hm
        refine s.lt h' m ?_
        by_cases heq : h' = h
        · simp [heq] at hm
        · simpa [heq] using hm
      injective := by
        intro h₁ h₂ m h₁m h₂m
        have hinj := s.injective
        simp only [Function.update_apply] at h₁m h₂m
        grind
      nodup := by
        have hnot : n ∉ s.released := fun hmem => ((s.released_iff n).mp hmem).2 h hn
        exact List.nodup_append.mpr ⟨s.nodup, by simp, by grind⟩
      released_iff := by
        intro m
        have hlt := s.lt h n hn
        have hinj := s.injective
        simp only [List.mem_append, List.mem_singleton, s.released_iff m, Function.update_apply]
        grind }

@[simp] theorem acquire_serial (s : HandleSpace H null) (h h' : H)
    (hfree : s.serial h = none ∧ h ≠ null) :
    (s.acquire h hfree).serial h' = if h' = h then some s.created else s.serial h' := by
  simp [acquire, Function.update_apply]

@[simp] theorem acquire_created (s : HandleSpace H null) (h : H)
    (hfree : s.serial h = none ∧ h ≠ null) :
    (s.acquire h hfree).created = s.created + 1 := rfl

@[simp] theorem release_serial (s : HandleSpace H null) (h h' : H) :
    (s.release h).serial h' = if h' = h then none else s.serial h' := by
  unfold release
  split
  case h_1 hn => split <;> simp_all
  case h_2 n hn => simp [Function.update_apply]

@[simp] theorem release_created (s : HandleSpace H null) (h : H) :
    (s.release h).created = s.created := by
  unfold release
  split <;> rfl

theorem release_of_none {s : HandleSpace H null} {h : H} (hn : s.serial h = none) :
    s.release h = s := by
  unfold release
  split
  case h_1 => rfl
  case h_2 n hn' => simp [hn] at hn'

/-- Releasing several handles. -/
theorem foldl_release_serial (hs : List H) (s : HandleSpace H null) (h : H) :
    (hs.foldl release s).serial h = if h ∈ hs then none else s.serial h := by
  induction hs generalizing s with
  | nil => simp
  | cons h' hs ih =>
      rw [List.foldl_cons, ih]
      by_cases hmem : h ∈ hs <;> by_cases heq : h = h' <;> simp [hmem, heq]

theorem foldl_release_created (hs : List H) (s : HandleSpace H null) :
    (hs.foldl release s).created = s.created := by
  induction hs generalizing s with
  | nil => rfl
  | cons h' hs ih => rw [List.foldl_cons, ih, release_created]

end HandleSpace
