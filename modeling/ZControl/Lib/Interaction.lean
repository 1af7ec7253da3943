import Mathlib.Data.Nat.Find
import Mathlib.Tactic.Common

/-!
# Programs that perform operations

A program either ends, with a value or a fault, or performs an operation and goes on with the
answer. What the operations do is not part of the program: it can be run against an environment,
it can be suspended between any two operations, which is how interleavings of several programs
are described, and it can be translated into a program over other operations.

The environment is a partial function: `step s op a` is the state after operation `op` has been
answered by `a`, if the environment may give that answer in `s`. A run is the list of operations
performed with their answers.
-/

namespace Interaction

/-- A program over operations `Op`, where `op` is answered by an `Ans op`. -/
inductive Prog (Op : Type) (Ans : Op → Type) (ε α : Type) where
  | pure (a : α)
  | throw (e : ε)
  | perform (op : Op) (k : Ans op → Prog Op Ans ε α)

variable {Op Op' : Type} {Ans : Op → Type} {Ans' : Op' → Type} {ε α β : Type}

namespace Prog

def bind : Prog Op Ans ε α → (α → Prog Op Ans ε β) → Prog Op Ans ε β
  | .pure a,       f => f a
  | .throw e,      _ => .throw e
  | .perform op k, f => .perform op fun a => (k a).bind f

instance : Monad (Prog Op Ans ε) where
  pure := Prog.pure
  bind := Prog.bind

/-- Perform `op` and return its answer. -/
def call (op : Op) : Prog Op Ans ε (Ans op) := .perform op .pure

/-- A computation that performs no operation. -/
def lift : Except ε α → Prog Op Ans ε α
  | .ok a    => .pure a
  | .error e => .throw e

/-- Go on with `handler` where `p` throws. -/
def tryCatch : Prog Op Ans ε α → (ε → Prog Op Ans ε α) → Prog Op Ans ε α
  | .pure a,       _       => .pure a
  | .throw e,      handler => handler e
  | .perform op k, handler => .perform op fun a => (k a).tryCatch handler

/-- Carry every operation out by a program over other operations. -/
def translate (h : (op : Op) → Prog Op' Ans' ε (Ans op)) : Prog Op Ans ε α → Prog Op' Ans' ε α
  | .pure a       => .pure a
  | .throw e      => .throw e
  | .perform op k => (h op).bind fun a => (k a).translate h

@[simp] theorem pure_eq (a : α) : (Pure.pure a : Prog Op Ans ε α) = .pure a := rfl

@[simp] theorem pure_bind (a : α) (f : α → Prog Op Ans ε β) :
    (Prog.pure a : Prog Op Ans ε α) >>= f = f a := rfl

@[simp] theorem throw_bind (e : ε) (f : α → Prog Op Ans ε β) :
    (Prog.throw e : Prog Op Ans ε α) >>= f = .throw e := rfl

@[simp] theorem perform_bind (op : Op) (k : Ans op → Prog Op Ans ε α)
    (f : α → Prog Op Ans ε β) :
    (Prog.perform op k : Prog Op Ans ε α) >>= f = .perform op fun a => k a >>= f := rfl

@[simp] theorem call_bind (op : Op) (f : Ans op → Prog Op Ans ε β) :
    (call op : Prog Op Ans ε (Ans op)) >>= f = .perform op f := rfl

@[simp] theorem lift_ok (a : α) : (lift (.ok a) : Prog Op Ans ε α) = .pure a := rfl

@[simp] theorem lift_error (e : ε) : (lift (.error e) : Prog Op Ans ε α) = .throw e := rfl

theorem lift_eq_pure_iff {r : Except ε α} {a : α} :
    (lift r : Prog Op Ans ε α) = .pure a ↔ r = .ok a := by
  cases r <;> simp [lift]

theorem bind_assoc {γ : Type} (p : Prog Op Ans ε α) (f : α → Prog Op Ans ε β)
    (g : β → Prog Op Ans ε γ) : p >>= f >>= g = p >>= fun a => f a >>= g := by
  induction p with
  | pure a => rfl
  | throw e => rfl
  | perform op k ih => exact congrArg (Prog.perform op) (funext ih)

@[simp] theorem bind_pure (p : Prog Op Ans ε α) : p >>= Prog.pure = p := by
  induction p with
  | pure a => rfl
  | throw e => rfl
  | perform op k ih => exact congrArg (Prog.perform op) (funext ih)

@[simp] theorem tryCatch_pure (a : α) (handler : ε → Prog Op Ans ε α) :
    (Prog.pure a).tryCatch handler = .pure a := rfl

@[simp] theorem tryCatch_throw (e : ε) (handler : ε → Prog Op Ans ε α) :
    (Prog.throw e : Prog Op Ans ε α).tryCatch handler = handler e := rfl

@[simp] theorem tryCatch_perform (op : Op) (k : Ans op → Prog Op Ans ε α)
    (handler : ε → Prog Op Ans ε α) :
    (Prog.perform op k).tryCatch handler = .perform op fun a => (k a).tryCatch handler := rfl

section Translate

variable (h : (op : Op) → Prog Op' Ans' ε (Ans op))

@[simp] theorem translate_pure (a : α) : (Prog.pure a).translate h = .pure a := rfl

@[simp] theorem translate_throw (e : ε) :
    (Prog.throw e : Prog Op Ans ε α).translate h = .throw e := rfl

@[simp] theorem translate_perform (op : Op) (k : Ans op → Prog Op Ans ε α) :
    (Prog.perform op k).translate h = h op >>= fun a => (k a).translate h := rfl

theorem translate_bind (p : Prog Op Ans ε α) (f : α → Prog Op Ans ε β) :
    (p >>= f).translate h = p.translate h >>= fun a => (f a).translate h := by
  induction p with
  | pure a => rfl
  | throw e => rfl
  | perform op k ih =>
      rw [perform_bind, translate_perform, translate_perform, bind_assoc]
      exact congrArg (h op >>= ·) (funext ih)

end Translate

/-! ## Programs that do not throw -/

def NoThrow : Prog Op Ans ε α → Prop
  | .pure _       => True
  | .throw _      => False
  | .perform _ k  => ∀ a, (k a).NoThrow

@[simp] theorem noThrow_pure (a : α) : (Prog.pure a : Prog Op Ans ε α).NoThrow := trivial

@[simp] theorem noThrow_perform {op : Op} {k : Ans op → Prog Op Ans ε α} :
    (Prog.perform op k).NoThrow ↔ ∀ a, (k a).NoThrow := Iff.rfl

theorem NoThrow.bind {p : Prog Op Ans ε α} {f : α → Prog Op Ans ε β} (hp : p.NoThrow)
    (hf : ∀ a, (f a).NoThrow) : (p >>= f).NoThrow := by
  induction p with
  | pure a => exact hf a
  | throw e => exact hp.elim
  | perform op k ih => exact fun a => ih a (hp a)

theorem NoThrow.translate {h : (op : Op) → Prog Op' Ans' ε (Ans op)} {p : Prog Op Ans ε α}
    (hp : p.NoThrow) (hh : ∀ op, (h op).NoThrow) : (p.translate h).NoThrow := by
  induction p with
  | pure a => trivial
  | throw e => exact hp.elim
  | perform op k ih => exact (hh op).bind fun a => ih a (hp a)

/-- What does not throw need not be caught. -/
theorem NoThrow.tryCatch_bind {p : Prog Op Ans ε α} (hp : p.NoThrow)
    (f : α → Prog Op Ans ε β) (handler : ε → Prog Op Ans ε β) :
    (p >>= f).tryCatch handler = p >>= fun a => (f a).tryCatch handler := by
  induction p with
  | pure a => rfl
  | throw e => exact hp.elim
  | perform op k ih => exact congrArg (Prog.perform op) (funext fun a => ih a (hp a))

/-! ## Programs that return -/

/-- Whatever its operations are answered, `p` returns a value that satisfies `Q`. -/
def Returns (Q : α → Prop) : Prog Op Ans ε α → Prop
  | .pure a      => Q a
  | .throw _     => False
  | .perform _ k => ∀ a, (k a).Returns Q

section Returns

variable {Q : α → Prop}

@[simp] theorem returns_pure {a : α} : (Prog.pure a : Prog Op Ans ε α).Returns Q ↔ Q a := Iff.rfl

@[simp] theorem returns_perform {op : Op} {k : Ans op → Prog Op Ans ε α} :
    (Prog.perform op k).Returns Q ↔ ∀ a, (k a).Returns Q := Iff.rfl

theorem Returns.bind {R : β → Prop} {p : Prog Op Ans ε α} {f : α → Prog Op Ans ε β}
    (hp : p.Returns Q) (hf : ∀ a, Q a → (f a).Returns R) : (p >>= f).Returns R := by
  induction p with
  | pure a => exact hf a hp
  | throw e => exact hp.elim
  | perform op k ih => exact fun a => ih a (hp a)

theorem Returns.mono {R : α → Prop} {p : Prog Op Ans ε α} (hp : p.Returns Q)
    (hQR : ∀ a, Q a → R a) : p.Returns R := by
  induction p with
  | pure a => exact hQR a hp
  | throw e => exact hp.elim
  | perform op k ih => exact fun a => ih a (hp a)

theorem NoThrow.returns {p : Prog Op Ans ε α} (hp : p.NoThrow) : p.Returns fun _ => True := by
  induction p with
  | pure a => trivial
  | throw e => exact hp.elim
  | perform op k ih => exact fun a => ih a (hp a)

/-- What returns has nothing to catch. -/
theorem Returns.tryCatch {p : Prog Op Ans ε α} (hp : p.Returns Q)
    (handler : ε → Prog Op Ans ε α) : p.tryCatch handler = p := by
  induction p with
  | pure a => rfl
  | throw e => exact hp.elim
  | perform op k ih => exact congrArg (Prog.perform op) (funext fun a => ih a (hp a))

end Returns

/-! ## Programs restricted to some operations -/

/-- Every operation `p` can come to perform satisfies `P`. -/
def Only (P : Op → Prop) : Prog Op Ans ε α → Prop
  | .pure _       => True
  | .throw _      => True
  | .perform op k => P op ∧ ∀ a, (k a).Only P

variable {P : Op → Prop}

@[simp] theorem only_pure (a : α) : (Prog.pure a : Prog Op Ans ε α).Only P := trivial

@[simp] theorem only_throw (e : ε) : (Prog.throw e : Prog Op Ans ε α).Only P := trivial

@[simp] theorem only_perform {op : Op} {k : Ans op → Prog Op Ans ε α} :
    (Prog.perform op k).Only P ↔ P op ∧ ∀ a, (k a).Only P := Iff.rfl

theorem only_lift (r : Except ε α) : (lift r : Prog Op Ans ε α).Only P := by
  cases r <;> trivial

theorem Only.bind {p : Prog Op Ans ε α} {f : α → Prog Op Ans ε β} (hp : p.Only P)
    (hf : ∀ a, (f a).Only P) : (p >>= f).Only P := by
  induction p with
  | pure a => exact hf a
  | throw e => trivial
  | perform op k ih => exact ⟨hp.1, fun a => ih a (hp.2 a)⟩

theorem Only.tryCatch {p : Prog Op Ans ε α} {handler : ε → Prog Op Ans ε α} (hp : p.Only P)
    (hh : ∀ e, (handler e).Only P) : (p.tryCatch handler).Only P := by
  induction p with
  | pure a => trivial
  | throw e => exact hh e
  | perform op k ih => exact ⟨hp.1, fun a => ih a (hp.2 a)⟩

theorem Only.translate {Q : Op' → Prop} {h : (op : Op) → Prog Op' Ans' ε (Ans op)}
    {p : Prog Op Ans ε α} (hp : p.Only P) (hh : ∀ op, P op → (h op).Only Q) :
    (p.translate h).Only Q := by
  induction p with
  | pure a => trivial
  | throw e => trivial
  | perform op k ih => exact (hh op hp.1).bind fun a => ih a (hp.2 a)

theorem Only.mono {Q : Op → Prop} {p : Prog Op Ans ε α} (hp : p.Only P)
    (hPQ : ∀ op, P op → Q op) : p.Only Q := by
  induction p with
  | pure a => trivial
  | throw e => trivial
  | perform op k ih => exact ⟨hPQ op hp.1, fun a => ih a (hp.2 a)⟩

theorem only_true (p : Prog Op Ans ε α) : p.Only fun _ => True := by
  induction p with
  | pure a => trivial
  | throw e => trivial
  | perform op k ih => exact ⟨trivial, ih⟩

/-- Where no operation is left there is a value or a fault. -/
theorem Only.ended {p : Prog Op Ans ε α} (hp : p.Only fun _ => False) :
    (∃ a, p = .pure a) ∨ ∃ e, p = .throw e := by
  cases p with
  | pure a       => exact .inl ⟨a, rfl⟩
  | throw e      => exact .inr ⟨e, rfl⟩
  | perform op k => exact hp.1.elim

/-- However it is answered, the program ends within `n` operations, each of which satisfies `P`. -/
inductive AtMost (P : Op → Prop) : Prog Op Ans ε α → Nat → Prop where
  | pure {n : Nat} (a : α) : AtMost P (.pure a) n
  | throw {n : Nat} (e : ε) : AtMost P (.throw e) n
  | perform {n : Nat} {op : Op} {k : Ans op → Prog Op Ans ε α} (hop : P op)
      (hk : ∀ a, AtMost P (k a) n) : AtMost P (.perform op k) (n + 1)

section AtMost

variable {m n : Nat}

theorem atMost_lift (r : Except ε α) : (lift r : Prog Op Ans ε α).AtMost P n := by
  cases r with
  | ok a => exact .pure a
  | error e => exact .throw e

theorem AtMost.mono {p : Prog Op Ans ε α} (hp : p.AtMost P m) (hmn : m ≤ n) : p.AtMost P n := by
  induction hp generalizing n with
  | pure a => exact .pure a
  | throw e => exact .throw e
  | perform hop hk ih =>
      obtain ⟨n, rfl⟩ := Nat.exists_eq_add_of_le' (Nat.lt_of_lt_of_le (Nat.succ_pos _) hmn)
      exact .perform hop fun a => ih a (by omega)

theorem AtMost.imp {Q : Op → Prop} {p : Prog Op Ans ε α} (hp : p.AtMost P n)
    (hPQ : ∀ op, P op → Q op) : p.AtMost Q n := by
  induction hp with
  | pure a => exact .pure a
  | throw e => exact .throw e
  | perform hop hk ih => exact .perform (hPQ _ hop) ih

theorem AtMost.bind {p : Prog Op Ans ε α} {f : α → Prog Op Ans ε β} (hp : p.AtMost P m)
    (hf : ∀ a, (f a).AtMost P n) : (p >>= f).AtMost P (m + n) := by
  induction hp with
  | pure a => exact (hf a).mono (Nat.le_add_left n _)
  | throw e => exact .throw e
  | perform hop hk ih =>
      rw [Nat.add_right_comm]
      exact .perform hop ih

/-- One operation, and `n` more. -/
theorem AtMost.call {op : Op} {f : Ans op → Prog Op Ans ε α} (hop : P op)
    (hf : ∀ a, (f a).AtMost P n) : (Prog.call op >>= f).AtMost P (n + 1) := by
  rw [call_bind]
  exact .perform hop hf

theorem AtMost.tryCatch {p : Prog Op Ans ε α} {handler : ε → Prog Op Ans ε α}
    (hp : p.AtMost P m) (hh : ∀ e, (handler e).AtMost P n) :
    (p.tryCatch handler).AtMost P (m + n) := by
  induction hp with
  | pure a => exact .pure a
  | throw e => exact (hh e).mono (Nat.le_add_left n _)
  | perform hop hk ih =>
      rw [Nat.add_right_comm]
      exact .perform hop ih

end AtMost

end Prog

/-! ## Running a program -/

/-- An operation with its answer. -/
abbrev Event (Op : Type) (Ans : Op → Type) : Type := (op : Op) × Ans op

namespace Prog

/-! ## Suspended programs -/

section Resume

variable [DecidableEq Op]

/-- What is left of a program once its next operation has been answered. -/
def resume : Prog Op Ans ε α → Event Op Ans → Option (Prog Op Ans ε α)
  | .perform op k, e => if h : e.1 = op then some (k (h ▸ e.2)) else none
  | _,             _ => none

/-- What is left of it after several operations. -/
def residual : Prog Op Ans ε α → List (Event Op Ans) → Option (Prog Op Ans ε α)
  | p, []      => some p
  | p, e :: es => (p.resume e).bind fun q => q.residual es

theorem resume_iff {p q : Prog Op Ans ε α} {op : Op} {a : Ans op} :
    p.resume ⟨op, a⟩ = some q ↔ ∃ k, p = .perform op k ∧ q = k a := by
  cases p with
  | pure b =>
      constructor
      · intro h
        cases h
      · rintro ⟨k, h, -⟩
        cases h
  | throw e =>
      constructor
      · intro h
        cases h
      · rintro ⟨k, h, -⟩
        cases h
  | perform op' k =>
      by_cases hop : op = op'
      · subst hop
        have hresume : (Prog.perform op k).resume ⟨op, a⟩ = some (k a) := dif_pos rfl
        rw [hresume]
        constructor
        · intro h
          exact ⟨k, rfl, (Option.some.inj h).symm⟩
        · rintro ⟨k', heq, rfl⟩
          cases heq
          rfl
      · have hresume : (Prog.perform op' k).resume ⟨op, a⟩ = none := dif_neg hop
        rw [hresume]
        constructor
        · intro h
          cases h
        · rintro ⟨k', heq, -⟩
          cases heq
          exact absurd rfl hop

@[simp] theorem residual_nil (p : Prog Op Ans ε α) : p.residual [] = some p := rfl

@[simp] theorem residual_perform {op : Op} {a : Ans op} {k : Ans op → Prog Op Ans ε α}
    {es : List (Event Op Ans)} :
    (Prog.perform op k).residual (⟨op, a⟩ :: es) = (k a).residual es := by
  have hresume : (Prog.perform op k).resume ⟨op, a⟩ = some (k a) := dif_pos rfl
  rw [residual, hresume]
  rfl

theorem residual_snoc {p q r : Prog Op Ans ε α} {es : List (Event Op Ans)} {e : Event Op Ans}
    (hq : p.residual es = some q) (hr : q.resume e = some r) : p.residual (es ++ [e]) = some r := by
  induction es generalizing p with
  | nil =>
      obtain rfl : p = q := Option.some.inj hq
      show (p.resume e).bind _ = _
      rw [hr]
      rfl
  | cons e' es ih =>
      obtain ⟨p', hp', hrest⟩ := Option.bind_eq_some_iff.mp hq
      show (p.resume e').bind _ = _
      rw [hp']
      exact ih hrest

/-- What is left of a sequence while its first part is under way. -/
theorem residual_bind {p q : Prog Op Ans ε α} {f : α → Prog Op Ans ε β}
    {es : List (Event Op Ans)} (h : p.residual es = some q) :
    (p >>= f).residual es = some (q >>= f) := by
  induction es generalizing p with
  | nil =>
      obtain rfl : p = q := Option.some.inj h
      rfl
  | cons e es ih =>
      obtain ⟨p', hp', hrest⟩ := Option.bind_eq_some_iff.mp h
      obtain ⟨op, a⟩ := e
      obtain ⟨k, rfl, rfl⟩ := resume_iff.mp hp'
      rw [perform_bind, residual_perform]
      exact ih hrest

theorem residual_append {p q r : Prog Op Ans ε α} {es fs : List (Event Op Ans)}
    (hq : p.residual es = some q) (hr : q.residual fs = some r) :
    p.residual (es ++ fs) = some r := by
  induction es generalizing p with
  | nil =>
      obtain rfl : p = q := Option.some.inj hq
      exact hr
  | cons e es ih =>
      obtain ⟨p', hp', hrest⟩ := Option.bind_eq_some_iff.mp hq
      show (p.resume e).bind _ = _
      rw [hp']
      exact ih hrest

/-- What is left of a translated program when its operations have been carried out one by one. -/
theorem residual_translate [DecidableEq Op'] {h : (op : Op) → Prog Op' Ans' ε (Ans op)}
    {es : List (Event Op Ans)} {fss : List (List (Event Op' Ans'))}
    (hcarried : List.Forall₂ (fun e fs => (h e.1).residual fs = some (.pure e.2)) es fss)
    {p q : Prog Op Ans ε α} (hq : p.residual es = some q) :
    (p.translate h).residual fss.flatten = some (q.translate h) := by
  induction hcarried generalizing p with
  | nil =>
      obtain rfl : p = q := Option.some.inj hq
      rfl
  | @cons e fs es fss hfs _ ih =>
      obtain ⟨p', hp', hrest⟩ := Option.bind_eq_some_iff.mp hq
      obtain ⟨op, a⟩ := e
      obtain ⟨k, rfl, rfl⟩ := resume_iff.mp hp'
      rw [translate_perform, List.flatten_cons]
      exact residual_append (residual_bind hfs) (ih hrest)

theorem Returns.resume {Q : α → Prop} {p q : Prog Op Ans ε α} {e : Event Op Ans}
    (hp : p.Returns Q) (hq : p.resume e = some q) : q.Returns Q := by
  obtain ⟨op, a⟩ := e
  obtain ⟨k, rfl, rfl⟩ := resume_iff.mp hq
  exact hp a

theorem Returns.residual {Q : α → Prop} {p q : Prog Op Ans ε α} {es : List (Event Op Ans)}
    (hp : p.Returns Q) (hq : p.residual es = some q) : q.Returns Q := by
  induction es generalizing p with
  | nil => cases hq; exact hp
  | cons e es ih =>
      obtain ⟨p', hp', hrest⟩ := Option.bind_eq_some_iff.mp hq
      exact ih (hp.resume hp') hrest

theorem AtMost.resume {P : Op → Prop} {n : Nat} {p q : Prog Op Ans ε α} {e : Event Op Ans}
    (hp : p.AtMost P n) (hq : p.resume e = some q) :
    P e.1 ∧ ∃ m, n = m + 1 ∧ q.AtMost P m := by
  obtain ⟨op, a⟩ := e
  obtain ⟨k, rfl, rfl⟩ := resume_iff.mp hq
  cases hp with
  | perform hop hk => exact ⟨hop, _, rfl, hk a⟩

theorem AtMost.residual {P : Op → Prop} {n : Nat} {p q : Prog Op Ans ε α}
    {es : List (Event Op Ans)} (hp : p.AtMost P n) (hq : p.residual es = some q) :
    q.AtMost P n := by
  induction es generalizing p with
  | nil => cases hq; exact hp
  | cons e es ih =>
      obtain ⟨p', hp', hrest⟩ := Option.bind_eq_some_iff.mp hq
      obtain ⟨-, m, rfl, hm⟩ := hp.resume hp'
      exact ih (hm.mono (Nat.le_succ m)) hrest

open Classical in
/-- The operations left at most, where there is a bound. -/
noncomputable def opsLeft (p : Prog Op Ans ε α) : Nat :=
  if h : ∃ n, p.AtMost (fun _ => True) n then Nat.find h else 0

omit [DecidableEq Op] in
theorem AtMost.opsLeft_le {P : Op → Prop} {n : Nat} {p : Prog Op Ans ε α} (hp : p.AtMost P n) :
    p.opsLeft ≤ n := by
  have hall := hp.imp fun _ _ => trivial
  classical
  rw [opsLeft, dif_pos ⟨n, hall⟩]
  exact Nat.find_min' ⟨n, hall⟩ hall

omit [DecidableEq Op] in
theorem AtMost.opsLeft {P : Op → Prop} {n : Nat} {p : Prog Op Ans ε α} (hp : p.AtMost P n) :
    p.AtMost (fun _ => True) p.opsLeft := by
  have hbound : ∃ n, p.AtMost (fun _ => True) n := ⟨n, hp.imp fun _ _ => trivial⟩
  classical
  rw [Prog.opsLeft, dif_pos hbound]
  exact Nat.find_spec hbound

/-- An operation that has been answered is no longer left. -/
theorem AtMost.opsLeft_resume {P : Op → Prop} {n : Nat} {p q : Prog Op Ans ε α}
    {e : Event Op Ans} (hp : p.AtMost P n) (hq : p.resume e = some q) :
    q.opsLeft < p.opsLeft := by
  obtain ⟨-, m, hm, hleft⟩ := hp.opsLeft.resume hq
  have hle := hleft.opsLeft_le
  omega

theorem Only.resume {P : Op → Prop} {p q : Prog Op Ans ε α} {e : Event Op Ans} (hp : p.Only P)
    (hq : p.resume e = some q) : P e.1 ∧ q.Only P := by
  obtain ⟨op, a⟩ := e
  obtain ⟨k, rfl, rfl⟩ := resume_iff.mp hq
  exact ⟨hp.1, hp.2 a⟩

end Resume

end Prog

/-! ## Programs that keep to a protocol -/

/-- Which events may come where, where they lead, and where it may end. -/
structure Protocol (Op : Type) (Ans : Op → Type) (σ : Type) where
  allowed : σ → Event Op Ans → Prop
  next : σ → Event Op Ans → σ
  ends : σ → Prop

/-- The operations of a kind are allowed at `x` and lead nowhere else. -/
def Protocol.Ignores {σ : Type} (P : Protocol Op Ans σ) (x : σ) (R : Op → Prop) : Prop :=
  ∀ op, R op → ∀ a, P.allowed x ⟨op, a⟩ ∧ P.next x ⟨op, a⟩ = x

namespace Prog

variable {σ : Type} (P : Protocol Op Ans σ)

/-- However it is answered, from `x` on the program keeps to the protocol. -/
def Follows : σ → Prog Op Ans ε α → Prop
  | x, .pure _       => P.ends x
  | x, .throw _      => P.ends x
  | x, .perform op k => ∀ a, P.allowed x ⟨op, a⟩ ∧ Follows (P.next x ⟨op, a⟩) (k a)

variable {P} {x : σ}

theorem follows_pure {a : α} : (Prog.pure a : Prog Op Ans ε α).Follows P x ↔ P.ends x := Iff.rfl

theorem follows_throw {e : ε} : (Prog.throw e : Prog Op Ans ε α).Follows P x ↔ P.ends x := Iff.rfl

theorem follows_perform {op : Op} {k : Ans op → Prog Op Ans ε α} :
    (Prog.perform op k).Follows P x ↔
      ∀ a, P.allowed x ⟨op, a⟩ ∧ (k a).Follows P (P.next x ⟨op, a⟩) := Iff.rfl

-- so that nothing evaluates a program to see what following the protocol comes to
attribute [irreducible] Follows

/-- Operations that the protocol ignores may come before. -/
theorem Only.bind_follows {R : Op → Prop} {p : Prog Op Ans ε α} {f : α → Prog Op Ans ε β}
    (hp : p.Only R) (hR : P.Ignores x R) (hx : P.ends x) (hf : ∀ a, (f a).Follows P x) :
    (p >>= f).Follows P x := by
  induction p with
  | pure a => exact hf a
  | throw e => exact follows_throw.mpr hx
  | perform op k ih =>
      refine follows_perform.mpr fun a => ?_
      obtain ⟨hallowed, hnext⟩ := hR op hp.1 a
      refine ⟨hallowed, ?_⟩
      rw [hnext]
      exact ih a (hp.2 a)

theorem Only.follows {R : Op → Prop} {p : Prog Op Ans ε α} (hp : p.Only R)
    (hR : P.Ignores x R) (hx : P.ends x) : p.Follows P x := by
  rw [← bind_pure p]
  exact hp.bind_follows hR hx fun _ => follows_pure.mpr hx

/-- A handler that keeps to the protocol wherever it is called. -/
theorem Follows.tryCatch {p : Prog Op Ans ε α} {handler : ε → Prog Op Ans ε α}
    (hp : p.Follows P x) (hhandler : ∀ y e, P.ends y → (handler e).Follows P y) :
    (p.tryCatch handler).Follows P x := by
  induction p generalizing x with
  | pure a => exact hp
  | throw e => exact hhandler x e (follows_throw.mp hp)
  | perform op k ih =>
      refine follows_perform.mpr fun a => ?_
      obtain ⟨hallowed, hrest⟩ := follows_perform.mp hp a
      exact ⟨hallowed, ih a hrest⟩

theorem Follows.resume [DecidableEq Op] {p q : Prog Op Ans ε α} {e : Event Op Ans}
    (hp : p.Follows P x) (hq : p.resume e = some q) :
    P.allowed x e ∧ q.Follows P (P.next x e) := by
  obtain ⟨op, a⟩ := e
  obtain ⟨k, rfl, rfl⟩ := resume_iff.mp hq
  exact follows_perform.mp hp a

end Prog

section Exec

variable [DecidableEq Op] {σ : Type} (step : σ → (op : Op) → Ans op → Option σ)

/-- Run `p` from `s`; the events are consumed exactly. -/
def exec : σ → Prog Op Ans ε α → List (Event Op Ans) → Option (Except ε α × σ)
  | s, .pure a,       []      => some (.ok a, s)
  | s, .throw e,      []      => some (.error e, s)
  | s, .perform op k, e :: es =>
      if h : e.1 = op then
        (step s op (h ▸ e.2)).bind fun s' => exec s' (k (h ▸ e.2)) es
      else none
  | _, _, _ => none

variable {step}

theorem exec_pure_iff {s : σ} {a : α} {es : List (Event Op Ans)}
    {x : Except ε α × σ} : exec step s (.pure a) es = some x ↔ es = [] ∧ x = (.ok a, s) := by
  cases es with
  | nil =>
      constructor
      · rintro ⟨⟩
        exact ⟨rfl, rfl⟩
      · rintro ⟨-, rfl⟩
        rfl
  | cons e es =>
      constructor
      · rintro ⟨⟩
      · rintro ⟨⟨⟩, -⟩

theorem exec_throw_iff {s : σ} {e : ε} {es : List (Event Op Ans)}
    {x : Except ε α × σ} :
    exec step s (.throw e) es = some x ↔ es = [] ∧ x = (.error e, s) := by
  cases es with
  | nil =>
      constructor
      · rintro ⟨⟩
        exact ⟨rfl, rfl⟩
      · rintro ⟨-, rfl⟩
        rfl
  | cons e es =>
      constructor
      · rintro ⟨⟩
      · rintro ⟨⟨⟩, -⟩

theorem exec_perform_iff {s : σ} {op : Op} {k : Ans op → Prog Op Ans ε α}
    {es : List (Event Op Ans)} {x : Except ε α × σ} :
    exec step s (.perform op k) es = some x ↔
      ∃ a es' s', es = ⟨op, a⟩ :: es' ∧ step s op a = some s' ∧
        exec step s' (k a) es' = some x := by
  cases es with
  | nil =>
      constructor
      · intro h
        cases h
      · rintro ⟨a, es', s', h, -⟩
        cases h
  | cons e es =>
      obtain ⟨op', a⟩ := e
      by_cases h : op' = op
      · subst h
        have hexec : exec step s (.perform op' k) (⟨op', a⟩ :: es) =
            (step s op' a).bind fun s' => exec step s' (k a) es := dif_pos rfl
        rw [hexec, Option.bind_eq_some_iff]
        constructor
        · rintro ⟨s', hstep, hrest⟩
          exact ⟨a, es, s', rfl, hstep, hrest⟩
        · rintro ⟨a', es', s', heq, hstep, hrest⟩
          cases heq
          exact ⟨s', hstep, hrest⟩
      · have hexec : exec step s (.perform op k) (⟨op', a⟩ :: es) = none := dif_neg h
        rw [hexec]
        constructor
        · intro hnone
          cases hnone
        · rintro ⟨b, es', s', heq, -⟩
          cases heq
          exact absurd rfl h

theorem exec_lift_iff {s : σ} {r : Except ε α} {es : List (Event Op Ans)} {x : Except ε α × σ} :
    exec step s (Prog.lift r) es = some x ↔ es = [] ∧ x = (r, s) := by
  cases r with
  | ok a    => exact exec_pure_iff
  | error e => exact exec_throw_iff

/-- A run of `p >>= f` is one of `p`, and then one of `f` if `p` has not thrown. -/
theorem exec_bind {p : Prog Op Ans ε α} {f : α → Prog Op Ans ε β} {s : σ}
    {es : List (Event Op Ans)} {x : Except ε β × σ} (h : exec step s (p >>= f) es = some x) :
    ∃ r s₁ es₁ es₂, es = es₁ ++ es₂ ∧ exec step s p es₁ = some (r, s₁) ∧
      match r with
      | .ok a    => exec step s₁ (f a) es₂ = some x
      | .error e => es₂ = [] ∧ x = (.error e, s₁) := by
  induction p generalizing s es with
  | pure a => exact ⟨.ok a, s, [], es, rfl, exec_pure_iff.mpr ⟨rfl, rfl⟩, h⟩
  | throw e => exact ⟨.error e, s, [], es, rfl, exec_throw_iff.mpr ⟨rfl, rfl⟩, exec_throw_iff.mp h⟩
  | perform op k ih =>
      obtain ⟨a, es', s', rfl, hstep, hrest⟩ := exec_perform_iff.mp h
      obtain ⟨r, s₁, es₁, es₂, rfl, hp, hr⟩ := ih a hrest
      exact ⟨r, s₁, ⟨op, a⟩ :: es₁, es₂, rfl,
        exec_perform_iff.mpr ⟨a, es₁, s', rfl, hstep, hp⟩, hr⟩

/-- Two runs, one after the other. -/
theorem exec_bind_ok {p : Prog Op Ans ε α} {f : α → Prog Op Ans ε β} {s s₁ : σ} {a : α}
    {es₁ es₂ : List (Event Op Ans)} {x : Except ε β × σ} (hp : exec step s p es₁ = some (.ok a, s₁))
    (hf : exec step s₁ (f a) es₂ = some x) : exec step s (p >>= f) (es₁ ++ es₂) = some x := by
  induction p generalizing s es₁ with
  | pure b =>
      obtain ⟨rfl, heq⟩ := exec_pure_iff.mp hp
      cases heq
      exact hf
  | throw e =>
      obtain ⟨-, heq⟩ := exec_throw_iff.mp hp
      cases heq
  | perform op k ih =>
      obtain ⟨b, es', s', rfl, hstep, hrest⟩ := exec_perform_iff.mp hp
      exact exec_perform_iff.mpr ⟨b, es' ++ es₂, s', rfl, hstep, ih b hrest⟩

theorem exec_bind_throw {p : Prog Op Ans ε α} {f : α → Prog Op Ans ε β} {s s₁ : σ} {e : ε}
    {es : List (Event Op Ans)} (hp : exec step s p es = some (.error e, s₁)) :
    exec step s (p >>= f) es = some (.error e, s₁) := by
  induction p generalizing s es with
  | pure b =>
      obtain ⟨-, heq⟩ := exec_pure_iff.mp hp
      cases heq
  | throw e' =>
      obtain ⟨rfl, heq⟩ := exec_throw_iff.mp hp
      cases heq
      exact exec_throw_iff.mpr ⟨rfl, rfl⟩
  | perform op k ih =>
      obtain ⟨b, es', s', rfl, hstep, hrest⟩ := exec_perform_iff.mp hp
      exact exec_perform_iff.mpr ⟨b, es', s', rfl, hstep, ih b hrest⟩

/-- A run of `p.tryCatch handler` is one of `p`, and then one of the handler if `p` has thrown. -/
theorem exec_tryCatch {p : Prog Op Ans ε α} {handler : ε → Prog Op Ans ε α} {s : σ}
    {es : List (Event Op Ans)} {x : Except ε α × σ}
    (h : exec step s (p.tryCatch handler) es = some x) :
    ∃ r s₁ es₁ es₂, es = es₁ ++ es₂ ∧ exec step s p es₁ = some (r, s₁) ∧
      match r with
      | .ok a    => es₂ = [] ∧ x = (.ok a, s₁)
      | .error e => exec step s₁ (handler e) es₂ = some x := by
  induction p generalizing s es with
  | pure a => exact ⟨.ok a, s, [], es, rfl, exec_pure_iff.mpr ⟨rfl, rfl⟩, exec_pure_iff.mp h⟩
  | throw e => exact ⟨.error e, s, [], es, rfl, exec_throw_iff.mpr ⟨rfl, rfl⟩, h⟩
  | perform op k ih =>
      obtain ⟨a, es', s', rfl, hstep, hrest⟩ := exec_perform_iff.mp h
      obtain ⟨r, s₁, es₁, es₂, rfl, hp, hr⟩ := ih a hrest
      exact ⟨r, s₁, ⟨op, a⟩ :: es₁, es₂, rfl,
        exec_perform_iff.mpr ⟨a, es₁, s', rfl, hstep, hp⟩, hr⟩

omit [DecidableEq Op] in
/-- The same where the program is carried out by other operations; what those throw is not
caught. -/
theorem exec_translate_tryCatch [DecidableEq Op'] {step' : σ → (op : Op') → Ans' op → Option σ}
    {carry : (op : Op) → Prog Op' Ans' ε (Ans op)} {p : Prog Op Ans ε α}
    {handler : ε → Prog Op Ans ε α} {s : σ} {es : List (Event Op' Ans')} {x : Except ε α × σ}
    (h : exec step' s ((p.tryCatch handler).translate carry) es = some x) :
    ∃ r s₁ es₁ es₂, es = es₁ ++ es₂ ∧ exec step' s (p.translate carry) es₁ = some (r, s₁) ∧
      match r with
      | .ok a    => es₂ = [] ∧ x = (.ok a, s₁)
      | .error e => (es₂ = [] ∧ x = (.error e, s₁)) ∨
          exec step' s₁ ((handler e).translate carry) es₂ = some x := by
  induction p generalizing s es with
  | pure a =>
      obtain ⟨rfl, rfl⟩ := exec_pure_iff.mp h
      exact ⟨.ok a, s, [], [], rfl, exec_pure_iff.mpr ⟨rfl, rfl⟩, rfl, rfl⟩
  | throw e => exact ⟨.error e, s, [], es, rfl, exec_throw_iff.mpr ⟨rfl, rfl⟩, .inr h⟩
  | perform op k ih =>
      obtain ⟨r, s₁, es₁, es₂, rfl, hop, hrest⟩ := exec_bind h
      rcases r with e | a
      · obtain ⟨rfl, rfl⟩ := hrest
        refine ⟨.error e, s₁, es₁, [], rfl, ?_, .inl ⟨rfl, rfl⟩⟩
        exact exec_bind_throw hop
      · obtain ⟨r, s₂, es₃, es₄, rfl, hk, hr⟩ := ih a hrest
        exact ⟨r, s₂, es₁ ++ es₃, es₄, (List.append_assoc _ _ _).symm, exec_bind_ok hop hk, hr⟩

omit [DecidableEq Op] in
/-- A run that does not throw is one with a handler around it. -/
theorem exec_translate_tryCatch_ok [DecidableEq Op'] {step' : σ → (op : Op') → Ans' op → Option σ}
    {carry : (op : Op) → Prog Op' Ans' ε (Ans op)} {p : Prog Op Ans ε α}
    {handler : ε → Prog Op Ans ε α} {s s' : σ} {a : α} {es : List (Event Op' Ans')}
    (h : exec step' s (p.translate carry) es = some (.ok a, s')) :
    exec step' s ((p.tryCatch handler).translate carry) es = some (.ok a, s') := by
  induction p generalizing s es with
  | pure b => exact h
  | throw e =>
      obtain ⟨-, heq⟩ := exec_throw_iff.mp h
      cases heq
  | perform op k ih =>
      obtain ⟨r, s₁, es₁, es₂, rfl, hop, hrest⟩ := exec_bind h
      rcases r with e | b
      · obtain ⟨-, heq⟩ := hrest
        cases heq
      · exact exec_bind_ok hop (ih b hrest)

/-- What the operations of a kind preserve, a program of such operations preserves. -/
theorem Prog.Only.exec {P : Op → Prop} {p : Prog Op Ans ε α} {I : σ → Prop} (hp : p.Only P)
    (hstep : ∀ s op a s', P op → I s → step s op a = some s' → I s') {s s' : σ} (hs : I s)
    {es : List (Event Op Ans)} {r : Except ε α}
    (hexec : exec step s p es = some (r, s')) : (∀ e ∈ es, P e.1) ∧ I s' := by
  induction p generalizing s es with
  | pure a =>
      obtain ⟨rfl, heq⟩ := exec_pure_iff.mp hexec
      cases heq
      exact ⟨by simp, hs⟩
  | throw e =>
      obtain ⟨rfl, heq⟩ := exec_throw_iff.mp hexec
      cases heq
      exact ⟨by simp, hs⟩
  | perform op k ih =>
      obtain ⟨a, es', s₁, rfl, hop, hrest⟩ := exec_perform_iff.mp hexec
      obtain ⟨hevents, hs'⟩ := ih a (hp.2 a) (hstep s op a s₁ hp.1 hs hop) hrest
      exact ⟨by simpa using ⟨hp.1, hevents⟩, hs'⟩

/-- A run of a program that returns ends with such a value. -/
theorem Prog.Returns.exec {Q : α → Prop} {p : Prog Op Ans ε α} (hp : p.Returns Q) {s s' : σ}
    {es : List (Event Op Ans)} {r : Except ε α} (hexec : exec step s p es = some (r, s')) :
    ∃ a, r = .ok a ∧ Q a := by
  induction p generalizing s es with
  | pure a =>
      obtain ⟨-, heq⟩ := exec_pure_iff.mp hexec
      cases heq
      exact ⟨a, rfl, hp⟩
  | throw e => exact hp.elim
  | perform op k ih =>
      obtain ⟨a, es', s₁, rfl, -, hrest⟩ := exec_perform_iff.mp hexec
      exact ih a (hp a) hrest

/-- Where the environment has an answer to every operation, every program has a run. -/
theorem exec_total (hstep : ∀ s op, ∃ a s', step s op a = some s') (p : Prog Op Ans ε α) (s : σ) :
    ∃ es r s', exec step s p es = some (r, s') := by
  induction p generalizing s with
  | pure a => exact ⟨[], .ok a, s, exec_pure_iff.mpr ⟨rfl, rfl⟩⟩
  | throw e => exact ⟨[], .error e, s, exec_throw_iff.mpr ⟨rfl, rfl⟩⟩
  | perform op k ih =>
      obtain ⟨a, s₁, hop⟩ := hstep s op
      obtain ⟨es, r, s', hrest⟩ := ih a s₁
      exact ⟨⟨op, a⟩ :: es, r, s', exec_perform_iff.mpr ⟨a, es, s₁, rfl, hop, hrest⟩⟩

end Exec

end Interaction
