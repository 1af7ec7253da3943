import ZControl.Zcfs.Mount

/-!
# Paths of the mounted file system

The first component of a path names the client, the rest is the path on its side. `split_path`
takes them apart; every operation on a path asks the server for the client it finds, and `rename`
compares the clients of its two paths.
-/

namespace ZControl

open Interaction

namespace Zcfs

def EXDEV : Int32 := 18

def rename (oldPath newPath : Bytes) (flags : UInt32) : ZcfsProg Int32 :=
  Prog.tryCatch
    (if (splitPath oldPath).1 ≠ (splitPath newPath).1 then pure (-EXDEV)
    else withCommander oldPath (-ENOENT) fun conn oldRemotePath => do
      let (result, workerErrno) ←
        onCommander conn (Commander.rename oldRemotePath (splitPath newPath).2 flags.toUInt8)
      if result then pure 0
      else pure (-workerErrno))
    (onError (- EIO))

/-- What may follow the first component: nothing, or a separator and more. -/
def IsRest (rest : Bytes) : Prop := rest = [] ∨ ∃ tail, rest = slash :: tail

section

variable {c rest : Bytes}

/-- The name of the client ends where the next slash stands. -/
theorem dropWhile_name (hc : slash ∉ c) (hrest : IsRest rest) :
    (c ++ rest).dropWhile (· ≠ slash) = rest := by
  have hname : ∀ b ∈ c, decide (b ≠ slash) = true := by
    intro b hb
    refine decide_eq_true ?_
    rintro rfl
    exact hc hb
  rw [List.dropWhile_append_of_pos hname]
  rcases hrest with rfl | ⟨tail, rfl⟩
  · rfl
  · simp

theorem takeWhile_name (hc : slash ∉ c) (hrest : IsRest rest) :
    (c ++ rest).takeWhile (· ≠ slash) = c := by
  have hsplit := List.takeWhile_append_dropWhile (p := fun b => decide (b ≠ slash)) (l := c ++ rest)
  rw [dropWhile_name hc hrest] at hsplit
  exact List.append_cancel_right hsplit

/-- Where a separator is followed by more, or there is none, the path is split at it. -/
theorem splitPath_of_ne (hc : slash ∉ c) (hrest : IsRest rest) (hne : rest ≠ [slash]) :
    splitPath (slash :: (c ++ rest)) = (c, if rest = [] then [slash] else rest) := by
  simp only [splitPath, List.tail_cons, dropWhile_name hc hrest, takeWhile_name hc hrest]
  by_cases hnil : rest = []
  · subst hnil
    simp
  · simp [hnil, hne]

/-- A separator in last position stays with the name of the client. -/
theorem splitPath_trailing (hc : slash ∉ c) :
    splitPath (slash :: (c ++ [slash])) = (c ++ [slash], [slash]) := by
  simp only [splitPath, List.tail_cons, dropWhile_name hc (.inr ⟨[], rfl⟩), or_true, if_true]

end

/-- `split_path` does as it is meant to: the client is the first component, without a slash, and
the remote path is absolute. -/
structure Splits (c rest : Bytes) : Prop where
  value : splitPath (slash :: (c ++ rest)) =
    (c, if rest = [] ∨ rest = [slash] then [slash] else rest)
  client : slash ∉ (splitPath (slash :: (c ++ rest))).1
  remote : ∃ tail, (splitPath (slash :: (c ++ rest))).2 = slash :: tail

/-- **Path splitting**: a path is split into its first component and the rest, and two paths under
the same component lead to the same client, unless the rest is a single slash. -/
theorem splits_iff {c : Bytes} (hc : slash ∉ c) :
    (∀ rest, IsRest rest → (Splits c rest ↔ rest ≠ [slash])) ∧
    ∀ rest rest', IsRest rest → IsRest rest' →
      ((splitPath (slash :: (c ++ rest))).1 = (splitPath (slash :: (c ++ rest'))).1 ↔
        (rest = [slash] ↔ rest' = [slash])) := by
  have hclient : ∀ rest, IsRest rest → rest ≠ [slash] →
      (splitPath (slash :: (c ++ rest))).1 = c := by
    intro rest hrest hne
    rw [splitPath_of_ne hc hrest hne]
  have htrailing : (splitPath (slash :: (c ++ [slash]))).1 ≠ c := by
    rw [splitPath_trailing hc]
    simp
  refine ⟨?_, ?_⟩
  · intro rest hrest
    constructor
    · rintro hsplits rfl
      exact htrailing (congrArg Prod.fst hsplits.value)
    · intro hne
      have hsplit := splitPath_of_ne hc hrest hne
      refine ⟨?_, ?_, ?_⟩
      · rw [hsplit]
        simp [hne]
      · rw [hsplit]
        exact hc
      · rw [hsplit]
        rcases hrest with rfl | ⟨tail, rfl⟩
        · exact ⟨[], by simp⟩
        · exact ⟨tail, by simp⟩
  · intro rest rest' hrest hrest'
    by_cases hslash : rest = [slash] <;> by_cases hslash' : rest' = [slash]
    · simp [hslash, hslash']
    · subst hslash
      rw [hclient rest' hrest' hslash']
      simp [htrailing, hslash']
    · subst hslash'
      rw [hclient rest hrest hslash]
      simp [Ne.symm htrailing, hslash]
    · rw [hclient rest hrest hslash, hclient rest' hrest' hslash']
      simp [hslash, hslash']

/-- `/w/d` and `/w` lead to the same client. -/
theorem splits_iff_dir :
    Splits (ascii "w") (ascii "/d") ∧
      (splitPath (ascii "/w/d")).1 = (splitPath (ascii "/w")).1 := by
  obtain ⟨hsplits, hroute⟩ := @splits_iff (ascii "w") (by decide)
  refine ⟨(hsplits (ascii "/d") (.inr ⟨ascii "d", by decide⟩)).mpr (by decide), ?_⟩
  exact (hroute (ascii "/d") [] (.inr ⟨ascii "d", by decide⟩) (.inl rfl)).mpr (by decide)

/-- `/w/` leads to a client `w/`. -/
theorem not_splits :
    ¬ ∀ c rest : Bytes, slash ∉ c → IsRest rest → Splits c rest := by
  intro hall
  have hvalue := (hall (ascii "w") [slash] (by decide) (.inr ⟨[], rfl⟩)).value
  revert hvalue
  decide

end Zcfs

end ZControl
