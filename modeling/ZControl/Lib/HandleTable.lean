import ZControl.Lib.HandleSpace
import Mathlib.Data.List.AList
import Mathlib.Data.List.Perm.Basic

/-!
# Tables of handles

A table gives every opened handle an id that was never given out before, and the users of the
table know the id only. `opens` is the history: each id that was given out, with the resource it
was given out for, or `none` where no handle stands behind the id. A table is sound when an id in
it leads to the handle that its own resource is open under, and when nothing else is open.
-/

variable {I H : Type} [DecidableEq I] {null : H}

/-- The entries of a table against the open handles and the history. -/
structure HandleTable (fds : AList fun _ : I => H) (space : HandleSpace H null)
    (opens : List (I × Option Nat)) : Prop where
  entry : ∀ i h, fds.lookup i = some h → ∃ n, (i, some n) ∈ opens ∧ space.serial h = some n
  covered : ∀ h n, space.serial h = some n → ∃ i, fds.lookup i = some h
  created : ∀ n, n < space.created ↔ ∃ i, (i, some n) ∈ opens
  unique : ∀ i j n, (i, some n) ∈ opens → (j, some n) ∈ opens → i = j
  ids : (opens.map Prod.fst).Nodup

namespace HandleTable

variable {fds : AList fun _ : I => H} {space : HandleSpace H null}
  {opens : List (I × Option Nat)} {i j : I} {h : H} {n : Nat}

theorem empty :
    HandleTable (∅ : AList fun _ : I => H) (HandleSpace.empty : HandleSpace H null) [] where
  entry := by simp
  covered := by simp [HandleSpace.empty]
  created := by simp [HandleSpace.empty]
  unique := by simp
  ids := List.nodup_nil

/-- An id was given out once, so it stands for one resource. -/
theorem resource_unique (ht : HandleTable fds space opens) {x y : Option Nat}
    (hx : (i, x) ∈ opens) (hy : (i, y) ∈ opens) : x = y := by
  have h := List.inj_on_of_nodup_map ht.ids hx hy rfl
  exact congrArg Prod.snd h

theorem serial_of_lookup (ht : HandleTable fds space opens) (hi : fds.lookup i = some h)
    (hn : (i, some n) ∈ opens) : space.serial h = some n := by
  obtain ⟨m, hm, hserial⟩ := ht.entry i h hi
  have heq : some m = some n := ht.resource_unique hm hn
  rw [hserial, heq]

/-- Two ids never lead to one handle. -/
theorem injective (ht : HandleTable fds space opens) (hi : fds.lookup i = some h)
    (hj : fds.lookup j = some h) : i = j := by
  obtain ⟨n, hn, hserial⟩ := ht.entry i h hi
  obtain ⟨m, hm, hserial'⟩ := ht.entry j h hj
  obtain rfl : n = m := Option.some.inj (hserial.symm.trans hserial')
  exact ht.unique i j n hn hm

theorem mem_iff_open (ht : HandleTable fds space opens) :
    (∃ i, fds.lookup i = some h) ↔ (space.serial h).isSome := by
  rw [Option.isSome_iff_exists]
  constructor
  · rintro ⟨i, hi⟩
    obtain ⟨n, -, hserial⟩ := ht.entry i h hi
    exact ⟨n, hserial⟩
  · rintro ⟨n, hserial⟩
    exact ht.covered h n hserial

/-- An id in the table was given out. -/
theorem mem_ids (ht : HandleTable fds space opens) (hi : fds.lookup i = some h) :
    i ∈ opens.map Prod.fst := by
  obtain ⟨n, hn, -⟩ := ht.entry i h hi
  exact List.mem_map.mpr ⟨_, hn, rfl⟩

theorem lookup_of_fresh (ht : HandleTable fds space opens) (hi : i ∉ opens.map Prod.fst) :
    fds.lookup i = none := by
  cases hlookup : fds.lookup i with
  | none   => rfl
  | some h => exact absurd (ht.mem_ids hlookup) hi

/-- Erasing an id that is not in the table. -/
theorem lookup_erase_of_none (hi : fds.lookup i = none) (j : I) :
    (fds.erase i).lookup j = fds.lookup j := by
  by_cases hji : j = i
  · subst hji
    rw [AList.lookup_erase, hi]
  · exact AList.lookup_erase_ne hji

theorem erase_of_none (ht : HandleTable fds space opens) (hi : fds.lookup i = none) :
    HandleTable (fds.erase i) space opens where
  entry := by simpa only [lookup_erase_of_none hi] using ht.entry
  covered := by simpa only [lookup_erase_of_none hi] using ht.covered
  created := ht.created
  unique := ht.unique
  ids := ht.ids

omit [DecidableEq I] in
theorem nodup_snoc {x : Option Nat} (hids : (opens.map Prod.fst).Nodup)
    (hi : i ∉ opens.map Prod.fst) : ((opens ++ [(i, x)]).map Prod.fst).Nodup := by
  rw [List.map_append]
  refine List.nodup_append.mpr ⟨hids, by simp, ?_⟩
  rintro j hj k hk rfl
  obtain rfl : j = i := by simpa using hk
  exact hi hj

/-- An id that is given out without a handle. -/
theorem skip (ht : HandleTable fds space opens) (hi : i ∉ opens.map Prod.fst) :
    HandleTable fds space (opens ++ [(i, none)]) where
  entry := by
    intro j h hj
    obtain ⟨n, hn, hserial⟩ := ht.entry j h hj
    exact ⟨n, by simp [hn], hserial⟩
  covered := ht.covered
  created := by simpa using ht.created
  unique := by simpa using ht.unique
  ids := nodup_snoc ht.ids hi

section

variable [DecidableEq H]

/-- An open: a free handle for a new resource, under a new id. -/
theorem acquire (ht : HandleTable fds space opens) (hfree : space.serial h = none ∧ h ≠ null)
    (hi : i ∉ opens.map Prod.fst) :
    HandleTable (fds.insert i h) (space.acquire h hfree)
      (opens ++ [(i, some space.created)]) where
  entry := by
    intro j h' hj
    by_cases hji : j = i
    · subst hji
      obtain rfl : h = h' := by simpa using hj
      exact ⟨space.created, by simp, by simp⟩
    · rw [AList.lookup_insert_ne hji] at hj
      obtain ⟨n, hn, hserial⟩ := ht.entry j h' hj
      have hne : h' ≠ h := by
        rintro rfl
        rw [hfree.1] at hserial
        cases hserial
      exact ⟨n, by simp [hn], by simpa [hne] using hserial⟩
  covered := by
    intro h' n hn
    by_cases heq : h' = h
    · exact ⟨i, by simp [heq]⟩
    · obtain ⟨j, hj⟩ := ht.covered h' n (by simpa [heq] using hn)
      have hji : j ≠ i := by
        rintro rfl
        exact hi (ht.mem_ids hj)
      exact ⟨j, by rw [AList.lookup_insert_ne hji]; exact hj⟩
  created := by
    intro n
    have := ht.created n
    simp only [HandleSpace.acquire_created, List.mem_append, List.mem_singleton, Prod.mk.injEq,
      Option.some.injEq]
    constructor
    · intro hn
      rcases Nat.lt_succ_iff_lt_or_eq.mp hn with hlt | rfl
      · obtain ⟨j, hj⟩ := this.mp hlt
        exact ⟨j, .inl hj⟩
      · exact ⟨i, .inr ⟨rfl, rfl⟩⟩
    · rintro ⟨j, hj | ⟨-, rfl⟩⟩
      · exact Nat.lt_succ_of_lt (this.mpr ⟨j, hj⟩)
      · exact Nat.lt_succ_self _
  unique := by
    -- the new resource has a number that no earlier id was given out for
    have hnew : ∀ j, (j, some space.created) ∉ opens := fun j hj =>
      absurd ((ht.created _).mpr ⟨j, hj⟩) (Nat.lt_irrefl _)
    intro j k n hj hk
    simp only [List.mem_append, List.mem_singleton, Prod.mk.injEq, Option.some.injEq] at hj hk
    rcases hj with hj | ⟨rfl, rfl⟩ <;> rcases hk with hk | ⟨rfl, hkn⟩
    · exact ht.unique j k n hj hk
    · exact absurd (hkn ▸ hj) (hnew j)
    · exact absurd hk (hnew k)
    · rfl
  ids := nodup_snoc ht.ids hi

/-- A close: the handle of an id is released and the id leaves the table. -/
theorem release (ht : HandleTable fds space opens) (hi : fds.lookup i = some h) :
    HandleTable (fds.erase i) (space.release h) opens where
  entry := by
    intro j h' hj
    have hji : j ≠ i := by
      rintro rfl
      simp at hj
    rw [AList.lookup_erase_ne hji] at hj
    have hne : h' ≠ h := by
      rintro rfl
      exact hji (ht.injective hj hi)
    obtain ⟨n, hn, hserial⟩ := ht.entry j h' hj
    exact ⟨n, hn, by simpa [hne] using hserial⟩
  covered := by
    intro h' n hn
    have hne : h' ≠ h := by
      rintro rfl
      simp at hn
    obtain ⟨j, hj⟩ := ht.covered h' n (by simpa [hne] using hn)
    have hji : j ≠ i := by
      rintro rfl
      rw [hi] at hj
      exact hne (Option.some.inj hj).symm
    exact ⟨j, by rw [AList.lookup_erase_ne hji]; exact hj⟩
  created := by simpa using ht.created
  unique := ht.unique
  ids := ht.ids

/-- A list of the entries of a table, each once, in any order. -/
structure Enumerates (l : List (I × H)) (fds : AList fun _ : I => H) : Prop where
  mem : ∀ i h, (i, h) ∈ l ↔ fds.lookup i = some h
  nodup : l.Nodup

omit [DecidableEq H] in
/-- Walking over the table visits every open handle once and no other. -/
theorem Enumerates.count [BEq H] [LawfulBEq H] {l : List (I × H)} (hl : Enumerates l fds)
    (ht : HandleTable fds space opens) (h : H) :
    (l.map Prod.snd).count h = if (space.serial h).isSome then 1 else 0 := by
  have hnodup : (l.map Prod.snd).Nodup := by
    refine List.Nodup.map_on ?_ hl.nodup
    rintro ⟨i, h⟩ hi ⟨j, h'⟩ hj (rfl : h = h')
    have hij : i = j := ht.injective ((hl.mem i h).mp hi) ((hl.mem j h).mp hj)
    rw [hij]
  have hmem : h ∈ l.map Prod.snd ↔ (space.serial h).isSome := by
    rw [← ht.mem_iff_open, List.mem_map]
    constructor
    · rintro ⟨⟨i, h⟩, hi, rfl⟩
      exact ⟨i, (hl.mem i h).mp hi⟩
    · rintro ⟨i, hi⟩
      exact ⟨(i, h), (hl.mem i h).mpr hi, rfl⟩
  rw [hnodup.count]
  simp only [hmem]

/-- Releasing every handle of the table releases every resource once. -/
theorem Enumerates.released {l : List (I × H)} (hl : Enumerates l fds)
    (ht : HandleTable fds space opens) {n : Nat} (hn : n < space.created) :
    ((l.map Prod.snd).foldl HandleSpace.release space).released.count n = 1 := by
  let closed := (l.map Prod.snd).foldl HandleSpace.release space
  have hclosed : ∀ h, closed.serial h = none := by
    intro h
    rw [HandleSpace.foldl_release_serial]
    split
    case isTrue => rfl
    case isFalse hmem =>
      cases hserial : space.serial h with
      | none   => rfl
      | some m =>
          have hcount := hl.count ht h
          rw [List.count_eq_zero_of_not_mem hmem, hserial] at hcount
          cases hcount
  have hmem : n ∈ closed.released := by
    refine (closed.released_iff n).mpr ⟨?_, fun h => by simp [hclosed]⟩
    rw [HandleSpace.foldl_release_created]
    exact hn
  exact List.count_eq_one_of_mem closed.nodup hmem

end

end HandleTable
