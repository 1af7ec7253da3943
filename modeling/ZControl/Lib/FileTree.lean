import Mathlib.Data.List.AList
import Mathlib.Logic.Function.Basic

/-!
# Trees of directories with symbolic links

A file system as far as its names go: numbered inodes, directories that map names to inodes, and
symbolic links that stand for a path. A path is resolved from the left, and a link on the way is
replaced by its target, at most `maxLinks` times. At its end there are two ways to take a path:
`resolve` follows a link there, while `entry` is what the directory itself holds.
-/

namespace FileTree

/-- A component of a path. -/
inductive Step (Name : Type) where
  | here
  | up
  | name (n : Name)

structure Path (Name : Type) where
  absolute : Bool
  steps : List (Step Name)

inductive Inode (Name : Type) where
  | file
  | directory (parent : Nat) (entries : AList fun _ : Name => Nat)
  | symlink (target : Path Name)

structure FileSystem (Name : Type) where
  inodes : Nat → Option (Inode Name)
  root : Nat
  cwd : Nat
  maxLinks : Nat

namespace FileSystem

variable {Name : Type} [DecidableEq Name] (t : FileSystem Name)

/-! ## Resolution -/

/-- What a directory holds under one component. -/
def lookup (d : Nat) (s : Step Name) : Option Nat :=
  match t.inodes d with
  | some (.directory parent entries) =>
      match s with
      | .here   => some d
      | .up     => some parent
      | .name n => entries.lookup n
  | _ => none

/-- Where a path starts that is given in directory `d`. -/
def start (absolute : Bool) (d : Nat) : Nat := if absolute then t.root else d

/-- Go along the components; `follow` goes on from a link. -/
def walkWith (follow : Nat → List (Step Name) → Option Nat) :
    Nat → List (Step Name) → Option Nat
  | d, []        => some d
  | d, s :: rest =>
      match t.lookup d s with
      | none   => none
      | some i =>
          match t.inodes i with
          | some (.symlink target) => follow (t.start target.absolute d) (target.steps ++ rest)
          | _ => walkWith follow i rest

/-- Go along the components, through at most `links` links. -/
def walk : Nat → Nat → List (Step Name) → Option Nat
  | 0         => t.walkWith fun _ _ => none
  | links + 1 => t.walkWith (walk links)

/-- What the path stands for, with a link at its end followed. -/
def resolve (p : Path Name) : Option Nat :=
  t.walk t.maxLinks (t.start p.absolute t.cwd) p.steps

/-- The directory and the name in it that the path ends with. -/
def locate (p : Path Name) : Option (Nat × Name) :=
  match p.steps.getLast? with
  | some (.name n) =>
      (t.walk t.maxLinks (t.start p.absolute t.cwd) p.steps.dropLast).map fun d => (d, n)
  | _ => none

/-- The directory entry that the path names, itself a link or not. -/
def entry (p : Path Name) : Option Nat :=
  (t.locate p).bind fun (d, n) => t.lookup d (.name n)

/-! ## Renaming -/

def isDirectory (i : Nat) : Bool :=
  match t.inodes i with
  | some (.directory _ _) => true
  | _ => false

/-- Change the entries of a directory. -/
def updateEntries (d : Nat)
    (f : AList (fun _ : Name => Nat) → AList fun _ : Name => Nat) : FileSystem Name :=
  match t.inodes d with
  | some (.directory parent entries) =>
      { t with inodes := Function.update t.inodes d (some (.directory parent (f entries))) }
  | _ => t

/-- A directory that is moved gets another parent. -/
def setParent (i d : Nat) : FileSystem Name :=
  match t.inodes i with
  | some (.directory _ entries) =>
      { t with inodes := Function.update t.inodes i (some (.directory d entries)) }
  | _ => t

/-- A directory replaces an empty directory only, and anything else no directory. -/
def mayReplace (i j : Nat) : Bool :=
  match t.inodes j with
  | some (.directory _ entries) => t.isDirectory i && entries.keys.isEmpty
  | _ => !t.isDirectory i

/-- Take inode `i` from one place to another. -/
def move (i : Nat) (source target : Nat × Name) : FileSystem Name :=
  ((t.updateEntries source.1 fun entries => entries.erase source.2).updateEntries target.1
    fun entries => entries.insert target.2 i).setParent i target.1

/-- The effect of a rename that succeeds. It replaces the entry at `new` itself, and does nothing
where both names are those of one inode. -/
def rename (old new : Path Name) : Option (FileSystem Name) :=
  match t.locate old, t.locate new, t.entry old with
  | some source, some target, some i =>
      if t.isDirectory target.1 then
        match t.entry new with
        | none   => some (t.move i source target)
        | some j =>
            if j = i then some t
            else if t.mayReplace i j then some (t.move i source target)
            else none
      else none
  | _, _, _ => none

/-- A rename that succeeds removes what was at `new` before. -/
def replaces (old new : Path Name) : Bool :=
  match t.entry new with
  | none   => false
  | some j => t.entry old ≠ some j

theorem replaces_of_entry_eq_none {t : FileSystem Name} {new : Path Name}
    (h : t.entry new = none) (old : Path Name) : t.replaces old new = false := by
  rw [replaces, h]

end FileSystem

end FileTree
