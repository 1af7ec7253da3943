import ZControl.Lib.ExactReader

/-!
# Shared vocabulary

`std::string` and `std::vector<uint8_t>` are both byte sequences in this program (paths and
names come from C strings, file contents are raw), so both are `Bytes` here. Everything that
can end a C++ function early is a `Fault`: a thrown exception, which a `catch` clause may see,
or undefined behaviour, which nothing may see and which the results of this development exclude.
-/

namespace ZControl

abbrev Bytes := List UInt8

/-- The bytes of a text in the source, all of them ASCII. -/
def ascii (s : String) : Bytes := s.toList.map fun c => UInt8.ofNat c.toNat

/-- The exception classes the program throws or names in a `catch` clause. -/
inductive ExceptionKind where
  | runtimeError
  | invalidArgument
  | outOfRange
  | futureError
  | systemError
  | transportClosed
  | cancellation
  | queueShutdown
  | remoteWorker
  deriving DecidableEq, Repr

inductive Fault where
  | exception (kind : ExceptionKind) (what : Bytes)
  | undefined (what : String)
  deriving DecidableEq, Repr

/-- The fault is a C++ exception, as opposed to undefined behaviour. -/
def Fault.IsException : Fault → Prop
  | .exception _ _ => True
  | .undefined _   => False

@[simp] theorem Fault.isException_exception (kind : ExceptionKind) (what : Bytes) :
    (Fault.exception kind what).IsException := trivial

@[simp] theorem Fault.not_isException_undefined (what : String) :
    ¬ (Fault.undefined what).IsException := id

/-- `std::string::c_str()` as the system calls read it: up to the first NUL. -/
def cStr (s : Bytes) : Bytes := s.takeWhile (· ≠ 0)

/-- A text without NUL bytes, the only kind a C string can hold. -/
def NulFree (s : Bytes) : Prop := 0 ∉ s

instance (s : Bytes) : Decidable (NulFree s) := inferInstanceAs (Decidable (0 ∉ s))

theorem cStr_eq_self {s : Bytes} (h : NulFree s) : cStr s = s := by
  induction s with
  | nil => rfl
  | cons b s ih =>
      obtain ⟨hb, hs⟩ : 0 ≠ b ∧ 0 ∉ s := by simpa [NulFree] using h
      have ih' : s.takeWhile (· ≠ 0) = s := ih hs
      rw [cStr, List.takeWhile_cons_of_pos (by simpa using hb.symm), ih']

end ZControl
