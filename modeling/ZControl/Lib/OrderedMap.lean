import Mathlib.Order.RelClasses
import Mathlib.Tactic.Common

/-!
# Ordered maps

A map is the list of its entries, each key once and in increasing order. That the keys increase is
part of the type, so whoever goes through the entries meets them in order and without repetition.
-/

/-- A map from `κ` to `β`. -/
structure OrderedMap (κ β : Type) [LT κ] where
  entries : List (κ × β)
  increasing : (entries.map Prod.fst).Pairwise (· < ·)

namespace OrderedMap

variable {κ β : Type} [LT κ] [DecidableEq κ]

def empty : OrderedMap κ β := ⟨[], .nil⟩

/-! ## Looking up and erasing -/

/-- The value of the first entry for `k`. -/
def lookup (k : κ) (entries : List (κ × β)) : Option β :=
  (entries.find? fun e => e.1 = k).map Prod.snd

def find? (m : OrderedMap κ β) (k : κ) : Option β := lookup k m.entries

def erase (m : OrderedMap κ β) (k : κ) : OrderedMap κ β where
  entries := m.entries.filter fun e => e.1 ≠ k
  increasing := m.increasing.sublist (List.filter_sublist.map Prod.fst)

omit [LT κ] in
@[simp] theorem lookup_nil (k : κ) : lookup k ([] : List (κ × β)) = none := rfl

omit [LT κ] in
theorem lookup_cons (k : κ) (e : κ × β) (es : List (κ × β)) :
    lookup k (e :: es) = if e.1 = k then some e.2 else lookup k es := by
  by_cases h : e.1 = k <;> simp [lookup, h]

omit [LT κ] in
theorem lookup_eq_none_iff {k : κ} {entries : List (κ × β)} :
    lookup k entries = none ↔ k ∉ entries.map Prod.fst := by
  induction entries with
  | nil => simp
  | cons e es ih =>
      rw [lookup_cons, List.map_cons, List.mem_cons, not_or]
      by_cases h : e.1 = k
      · rw [if_pos h]
        exact iff_of_false (by simp) fun hk => hk.1 h.symm
      · rw [if_neg h, ih]
        exact (and_iff_right fun hk => h hk.symm).symm

omit [LT κ] in
theorem lookup_filter_self (k : κ) (entries : List (κ × β)) :
    lookup k (entries.filter fun e => e.1 ≠ k) = none := by
  rw [lookup_eq_none_iff]
  intro hk
  obtain ⟨e, he, rfl⟩ := List.mem_map.mp hk
  simp at he

omit [LT κ] in
theorem lookup_filter_ne {k k' : κ} (h : k' ≠ k) (entries : List (κ × β)) :
    lookup k' (entries.filter fun e => e.1 ≠ k) = lookup k' entries := by
  induction entries with
  | nil => rfl
  | cons e es ih =>
      by_cases he : e.1 = k
      · have hne : e.1 ≠ k' := by
          rw [he]
          exact h.symm
        rw [List.filter_cons_of_neg (by simp [he]), ih, lookup_cons, if_neg hne]
      · rw [List.filter_cons_of_pos (by simp [he]), lookup_cons, lookup_cons, ih]

@[simp] theorem find?_empty (k : κ) : (empty : OrderedMap κ β).find? k = none := rfl

@[simp] theorem find?_erase_self (m : OrderedMap κ β) (k : κ) : (m.erase k).find? k = none :=
  lookup_filter_self k m.entries

theorem find?_erase_ne (m : OrderedMap κ β) {k k' : κ} (h : k' ≠ k) :
    (m.erase k).find? k' = m.find? k' := lookup_filter_ne h m.entries

/-! ## Inserting -/

variable [DecidableLT κ]

/-- The entries with one for `k`, if there was none; an entry that is there is kept. -/
def place (k : κ) (v : β) : List (κ × β) → List (κ × β)
  | []      => [(k, v)]
  | e :: es =>
      if e.1 < k then e :: place k v es
      else if e.1 = k then e :: es
      else (k, v) :: e :: es

theorem mem_place {k : κ} {v : β} {entries : List (κ × β)} {e : κ × β}
    (he : e ∈ place k v entries) : e = (k, v) ∨ e ∈ entries := by
  induction entries with
  | nil => exact .inl (List.mem_singleton.mp he)
  | cons e' es ih =>
      rw [place] at he
      split at he
      · rcases List.mem_cons.mp he with rfl | he
        · exact .inr List.mem_cons_self
        · exact (ih he).imp_right (List.mem_cons_of_mem _)
      · split at he
        · exact .inr he
        · exact List.mem_cons.mp he

theorem lookup_place_ne {k k' : κ} (h : k' ≠ k) (v : β) (entries : List (κ × β)) :
    lookup k' (place k v entries) = lookup k' entries := by
  induction entries with
  | nil =>
      rw [place, lookup_cons, if_neg h.symm]
  | cons e es ih =>
      rw [place]
      split
      · rw [lookup_cons, lookup_cons, ih]
      · split
        · rfl
        · rw [lookup_cons, if_neg h.symm]

theorem lookup_place_self {k : κ} (v : β) {entries : List (κ × β)}
    (h : lookup k entries = none) : lookup k (place k v entries) = some v := by
  induction entries with
  | nil =>
      rw [place, lookup_cons, if_pos rfl]
  | cons e es ih =>
      rw [lookup_cons] at h
      split at h
      case isTrue => cases h
      case isFalse hne =>
        rw [place]
        split
        · rw [lookup_cons, if_neg hne]
          exact ih h
        · rw [lookup_cons, if_pos rfl]

section

variable [Trans (fun a b : κ => a < b) (fun a b => a < b) (fun a b => a < b)]
  [Std.Trichotomous (fun a b : κ => a < b)]

theorem increasing_place (k : κ) (v : β) {entries : List (κ × β)}
    (h : (entries.map Prod.fst).Pairwise (· < ·)) :
    ((place k v entries).map Prod.fst).Pairwise (· < ·) := by
  induction entries with
  | nil => exact List.pairwise_singleton ..
  | cons e es ih =>
      rw [List.map_cons, List.pairwise_cons] at h
      obtain ⟨hlt, hes⟩ := h
      rw [place]
      split
      case isTrue hek =>
        rw [List.map_cons, List.pairwise_cons]
        refine ⟨?_, ih hes⟩
        intro k' hk'
        obtain ⟨e', he', rfl⟩ := List.mem_map.mp hk'
        rcases mem_place he' with rfl | he'
        · exact hek
        · exact hlt _ (List.mem_map_of_mem he')
      case isFalse hek =>
        split
        case isTrue => exact List.pairwise_cons.mpr ⟨hlt, hes⟩
        case isFalse hne =>
          -- `k` is below the entry, and so below all others
          have hke : k < e.1 := by
            by_contra hnot
            exact hne (Std.Trichotomous.trichotomous _ _ hek hnot)
          rw [List.map_cons, List.pairwise_cons]
          refine ⟨?_, List.pairwise_cons.mpr ⟨hlt, hes⟩⟩
          intro k' hk'
          rcases List.mem_cons.mp hk' with rfl | hk'
          · exact hke
          · exact Trans.trans hke (hlt k' hk')

/-- `emplace`: an entry that is there is kept. -/
def emplace (m : OrderedMap κ β) (k : κ) (v : β) : OrderedMap κ β where
  entries := place k v m.entries
  increasing := increasing_place k v m.increasing

theorem find?_emplace_ne (m : OrderedMap κ β) {k k' : κ} (h : k' ≠ k) (v : β) :
    (m.emplace k v).find? k' = m.find? k' := lookup_place_ne h v m.entries

theorem find?_emplace_self {m : OrderedMap κ β} {k : κ} (v : β) (h : m.find? k = none) :
    (m.emplace k v).find? k = some v := lookup_place_self v h

end

/-! ## Going through the entries -/

/-- The keys of the entries whose value satisfies `p`, in order. -/
def keysWhere (m : OrderedMap κ β) (p : β → Bool) : List κ :=
  (m.entries.filter fun e => p e.2).map Prod.fst

omit [DecidableEq κ] [DecidableLT κ] in
theorem increasing_keysWhere (m : OrderedMap κ β) (p : β → Bool) :
    (m.keysWhere p).Pairwise (· < ·) :=
  m.increasing.sublist (List.filter_sublist.map Prod.fst)

omit [DecidableLT κ] in
theorem find?_of_mem [Std.Irrefl (fun a b : κ => a < b)] (m : OrderedMap κ β) {e : κ × β}
    (he : e ∈ m.entries) : m.find? e.1 = some e.2 := by
  obtain ⟨entries, hincreasing⟩ := m
  induction entries with
  | nil => cases he
  | cons e' es ih =>
      rw [List.map_cons, List.pairwise_cons] at hincreasing
      show lookup e.1 (e' :: es) = some e.2
      rw [lookup_cons]
      rcases List.mem_cons.mp he with rfl | he
      · rw [if_pos rfl]
      · have hlt := hincreasing.1 e.1 (List.mem_map_of_mem he)
        have hne : e'.1 ≠ e.1 := by
          intro heq
          rw [heq] at hlt
          exact Std.Irrefl.irrefl _ hlt
        rw [if_neg hne]
        exact ih hincreasing.2 he

omit [DecidableLT κ] in
theorem mem_of_find? {m : OrderedMap κ β} {k : κ} {v : β} (h : m.find? k = some v) :
    (k, v) ∈ m.entries := by
  obtain ⟨e, he, rfl⟩ := Option.map_eq_some_iff.mp h
  have hk : e.1 = k := by simpa using List.find?_some he
  rw [← hk]
  exact List.mem_of_find?_eq_some he

omit [DecidableLT κ] in
theorem mem_keysWhere_iff [Std.Irrefl (fun a b : κ => a < b)] {m : OrderedMap κ β}
    {p : β → Bool} {k : κ} : k ∈ m.keysWhere p ↔ ∃ v, m.find? k = some v ∧ p v = true := by
  constructor
  · intro hk
    obtain ⟨e, he, rfl⟩ := List.mem_map.mp hk
    obtain ⟨hmem, hp⟩ := List.mem_filter.mp he
    exact ⟨e.2, m.find?_of_mem hmem, hp⟩
  · rintro ⟨v, hv, hp⟩
    exact List.mem_map.mpr ⟨(k, v), List.mem_filter.mpr ⟨mem_of_find? hv, hp⟩, rfl⟩

end OrderedMap
