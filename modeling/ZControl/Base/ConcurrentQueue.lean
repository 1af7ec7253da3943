import ZControl.Lib.Mutex
import ZControl.Lib.Transition
import Mathlib.Data.Fintype.Basic
import Mathlib.Logic.Function.Basic

/-!
# `ConcurrentQueue`

Any number of threads call `push`, `pop` and `shutdown` on one queue. `_shutdown` is read and
written without the mutex, so each access to it is a step of its own; what else is accessed is
accessed under `_mx`. A thread in `wait` releases `_mx` as it falls asleep, and it may wake up
without having been notified. In `push` nothing can be seen of the queue between `_queue.push` and
`notify_one`, and the two are one step.
-/

namespace ZControl

open Transition

namespace ConcurrentQueue

/-- How a call ends. -/
inductive Result (T : Type) where
  | pushed (value : T)            -- `push` has returned
  | popped (value : T)            -- `pop` has returned the value
  | threw                         -- `push` or `pop` has thrown `QueueShutdown`
  | shut                          -- `shutdown()` has returned
  deriving DecidableEq

/-- Where a thread stands. In `pop`, `notified` says whether a notification has woken it. -/
inductive Pc (T : Type) where
  | idle (result : Option (Result T))   -- in no call; `result` is how its last call ended
  | pushTesting (value : T)       -- in `push(const T &)`, at `if (_shutdown)`
  | pushLocking (value : T)       -- before the lock
  | pushing (value : T)           -- holds `_mx`, before `_queue.push`
  | popLocking                    -- before the lock
  | waiting (notified : Bool)     -- holds `_mx`, at the predicate of `wait`
  | blocking                      -- holds it, the predicate was false
  | sleeping                      -- in `wait`, without `_mx`
  | waking (notified : Bool)      -- before `wait` has locked again
  | popping (notified : Bool)     -- holds `_mx`, `wait` has returned, at `if (_shutdown)`
  | taking (notified : Bool)      -- holds it, `_shutdown` was clear
  | unlocking (result : Result T) -- holds it, at the end of `push` or `pop`
  | shutTesting                   -- in `shutdown()`, at `if (_shutdown)`
  | shutFlagging                  -- before `_shutdown = true`
  | shutLocking                   -- before the lock
  | shutNotifying                 -- holds `_mx`, before `notify_all`
  | shutUnlocking                 -- holds it, at the end
  deriving DecidableEq

/-- The members of a queue, where the threads stand, and, for the record, the values pushed and
popped, each with its thread, in the order of the critical sections, and the number of calls of
`shutdown()` that have returned, except those that found `_shutdown` set. -/
structure State (T : Type) (n : Nat) where
  shutdown : Bool
  mx : Option (Fin n)
  queue : List T
  pc : Fin n → Pc T
  pushed : List (Fin n × T)
  popped : List (Fin n × T)
  shutdowns : Nat

variable {T : Type} {n : Nat}

def init : State T n where
  shutdown := false
  mx := none
  queue := []
  pc := fun _ => .idle none
  pushed := []
  popped := []
  shutdowns := 0

/-- `notify_all`, for one thread. -/
def Pc.notify : Pc T → Pc T
  | .sleeping => .waking true
  | pc        => pc

namespace State

variable (s : State T n)

@[simps shutdown mx queue pushed popped shutdowns]
def setPc (t : Fin n) (pc : Pc T) : State T n :=
  { s with pc := Function.update s.pc t pc }

/-- A thread takes `_mx` if it is free. -/
def lock (t : Fin n) (pc : Pc T) : Option (State T n) :=
  match s.mx with
  | none   => some ({ s with mx := some t }.setPc t pc)
  | some _ => none

/-- The steps in which a thread has no choice. -/
def stepThread (t : Fin n) : Option (State T n) :=
  match s.pc t with
  | .pushTesting value =>
      some (s.setPc t (if s.shutdown then .idle (some .threw) else .pushLocking value))
  | .pushLocking value => s.lock t (.pushing value)
  | .popLocking        => s.lock t (.waiting false)
  | .waiting notified  =>
      some (s.setPc t (if s.queue ≠ [] ∨ s.shutdown = true then .popping notified else .blocking))
  | .blocking          => some ({ s with mx := none }.setPc t .sleeping)
  | .waking notified   => s.lock t (.waiting notified)
  | .popping notified  =>
      some (s.setPc t (if s.shutdown then .unlocking .threw else .taking notified))
  | .taking _          =>
      match s.queue with
      | value :: rest =>
          some ({ s with queue := rest, popped := s.popped ++ [(t, value)] }.setPc t
            (.unlocking (.popped value)))
      | [] => none
  | .unlocking result  => some ({ s with mx := none }.setPc t (.idle (some result)))
  | .shutTesting       =>
      some (s.setPc t (if s.shutdown then .idle (some .shut) else .shutFlagging))
  | .shutFlagging      => some ({ s with shutdown := true }.setPc t .shutLocking)
  | .shutLocking       => s.lock t .shutNotifying
  | .shutNotifying     =>
      some ({ s with pc := fun u => (s.pc u).notify }.setPc t .shutUnlocking)
  | .shutUnlocking     =>
      some ({ s with mx := none, shutdowns := s.shutdowns + 1 }.setPc t (.idle (some .shut)))
  | _ => none

/-- `_queue.push(value)` and `notify_one()`, which wakes a sleeping thread if there is one. -/
def enqueue (t : Fin n) (woken : Option (Fin n)) : Option (State T n) :=
  match s.pc t with
  | .pushing value =>
      let pushed := { s with queue := s.queue ++ [value], pushed := s.pushed ++ [(t, value)] }
      match woken with
      | some u =>
          match s.pc u with
          | .sleeping =>
              some ((pushed.setPc u (.waking true)).setPc t (.unlocking (.pushed value)))
          | _ => none
      | none =>
          if ∀ u, (s.pc u matches .sleeping) = false then
            some (pushed.setPc t (.unlocking (.pushed value)))
          else none
  | _ => none

end State

/-- `push` is called for its first overload if `copies` is set, and for its second otherwise. -/
inductive Action (T : Type) (n : Nat) where
  | push (t : Fin n) (value : T) (copies : Bool)
  | pop (t : Fin n)
  | shutdown (t : Fin n)
  | thread (t : Fin n)
  | enqueue (t : Fin n) (woken : Option (Fin n))
  | wake (t : Fin n)               -- without a notification

def step (s : State T n) : Action T n → Option (State T n)
  | .push t value copies =>
      match s.pc t with
      | .idle _ => some (s.setPc t (if copies then .pushTesting value else .pushLocking value))
      | _       => none
  | .pop t =>
      match s.pc t with
      | .idle _ => some (s.setPc t .popLocking)
      | _       => none
  | .shutdown t =>
      match s.pc t with
      | .idle _ => some (s.setPc t .shutTesting)
      | _       => none
  | .thread t        => s.stepThread t
  | .enqueue t woken => s.enqueue t woken
  | .wake t =>
      match s.pc t with
      | .sleeping => some (s.setPc t (.waking false))
      | _         => none

/-! ## What happens in a step -/

/-- A call, as far as its outcome depends on it. -/
inductive Call (T : Type) where
  | push (value : T)
  | pop
  | shutdown

/-- The call a result is one of; only `pop` throws with the mutex in its hands. -/
def Result.call : Result T → Call T
  | .pushed value => .push value
  | .popped _     => .pop
  | .threw        => .pop
  | .shut         => .shutdown

/-- The call a thread is in. -/
def Pc.call : Pc T → Option (Call T)
  | .idle _ => none
  | .pushTesting value | .pushLocking value | .pushing value => some (.push value)
  | .popLocking | .waiting _ | .blocking | .sleeping | .waking _ | .popping _ | .taking _ =>
      some .pop
  | .unlocking result => some result.call
  | .shutTesting | .shutFlagging | .shutLocking | .shutNotifying | .shutUnlocking =>
      some .shutdown

/-- The call a thread begins. -/
def Action.call : Action T n → Option (Call T)
  | .push _ value _ => some (.push value)
  | .pop _          => some .pop
  | .shutdown _     => some .shutdown
  | _               => none

/-- The thread that moves. -/
def Action.actor : Action T n → Fin n
  | .push t _ _ | .pop t | .shutdown t | .thread t | .enqueue t _ | .wake t => t

/-- What can be seen of a thread: that it begins a call, that it is in the part of its critical
section that changes the queue, and how the call ends. -/
inductive Event (T : Type) (n : Nat) where
  | begins (t : Fin n) (call : Call T)
  | puts (t : Fin n)
  | takes (t : Fin n)
  | ends (t : Fin n) (result : Result T)

/-- The event of a step, told by the action and by where the thread stands before and after. -/
def events (s : State T n) (a : Action T n) (s' : State T n) : List (Event T n) :=
  match a with
  | .push t value _ => [.begins t (.push value)]
  | .pop t          => [.begins t .pop]
  | .shutdown t     => [.begins t .shutdown]
  | .enqueue t _    => [.puts t]
  | .wake _         => []
  | .thread t =>
      match s.pc t, s'.pc t with
      | .taking _, _           => [.takes t]
      | _, .idle (some result) => [.ends t result]
      | _, _                   => []

/-- What happens from `s` on when the threads act as in `as`. -/
def history (s : State T n) (as : List (Action T n)) : List (Event T n) :=
  collect step events s as

/-! ## The steps, one case each -/

@[simp] theorem State.setPc_pc (s : State T n) (t u : Fin n) (pc : Pc T) :
    (s.setPc t pc).pc u = if u = t then pc else s.pc u := by
  simp [State.setPc, Function.update_apply]

/-- Whoever is at one of some places was so before, if the thread that moves does not come to one of
them. -/
theorem of_setPc {p : Pc T → Bool} {r s : State T n} {t u : Fin n} {pc : Pc T}
    (hr : ∀ v, p (r.pc v) = p (s.pc v)) (hpc : p pc = false)
    (h : p ((r.setPc t pc).pc u) = true) : p (s.pc u) = true := by
  rw [State.setPc_pc] at h
  split at h
  · rw [hpc] at h
    cases h
  · rw [← hr]
    exact h

/-- Everything a step can be. -/
inductive Step (s : State T n) : Action T n → State T n → Prop where
  | calls (a : Action T n) (t : Fin n) (pc : Pc T) (result : Option (Result T))
      (hpc : s.pc t = .idle result)
      (hnext : (∃ value, pc = .pushTesting value ∨ pc = .pushLocking value) ∨
        pc = .popLocking ∨ pc = .shutTesting)
      (ha : a.actor = t ∧ a.call = pc.call ∧ a.call ≠ none) :
      Step s a (s.setPc t pc)
  | pushThrows (t : Fin n) (value : T) (hpc : s.pc t = .pushTesting value) :
      Step s (.thread t) (s.setPc t (.idle (some .threw)))
  | pushGoesOn (t : Fin n) (value : T) (hpc : s.pc t = .pushTesting value) :
      Step s (.thread t) (s.setPc t (.pushLocking value))
  | locks (t : Fin n) (pc : Pc T) (hmx : s.mx = none)
      (hpc : (∃ value, s.pc t = .pushLocking value ∧ pc = .pushing value) ∨
        (s.pc t = .popLocking ∧ pc = .waiting false) ∨
        (∃ notified, s.pc t = .waking notified ∧ pc = .waiting notified) ∨
        (s.pc t = .shutLocking ∧ pc = .shutNotifying)) :
      Step s (.thread t) ({ s with mx := some t }.setPc t pc)
  | waitReturns (t : Fin n) (notified : Bool) (hpc : s.pc t = .waiting notified)
      (htest : s.queue ≠ [] ∨ s.shutdown = true) :
      Step s (.thread t) (s.setPc t (.popping notified))
  | waitBlocks (t : Fin n) (notified : Bool) (hpc : s.pc t = .waiting notified)
      (hempty : s.queue = []) (hopen : s.shutdown = false) :
      Step s (.thread t) (s.setPc t .blocking)
  | sleeps (t : Fin n) (hpc : s.pc t = .blocking) :
      Step s (.thread t) ({ s with mx := none }.setPc t .sleeping)
  | popThrows (t : Fin n) (notified : Bool) (hpc : s.pc t = .popping notified)
      (hshut : s.shutdown = true) :
      Step s (.thread t) (s.setPc t (.unlocking .threw))
  | popGoesOn (t : Fin n) (notified : Bool) (hpc : s.pc t = .popping notified)
      (hopen : s.shutdown = false) :
      Step s (.thread t) (s.setPc t (.taking notified))
  | takes (t : Fin n) (notified : Bool) (value : T) (rest : List T)
      (hpc : s.pc t = .taking notified) (hq : s.queue = value :: rest) :
      Step s (.thread t)
        ({ s with queue := rest, popped := s.popped ++ [(t, value)] }.setPc t
          (.unlocking (.popped value)))
  | unlocks (t : Fin n) (result : Result T) (hpc : s.pc t = .unlocking result) :
      Step s (.thread t) ({ s with mx := none }.setPc t (.idle (some result)))
  | shutReturns (t : Fin n) (hpc : s.pc t = .shutTesting) :
      Step s (.thread t) (s.setPc t (.idle (some .shut)))
  | shutGoesOn (t : Fin n) (hpc : s.pc t = .shutTesting) :
      Step s (.thread t) (s.setPc t .shutFlagging)
  | flags (t : Fin n) (hpc : s.pc t = .shutFlagging) :
      Step s (.thread t) ({ s with shutdown := true }.setPc t .shutLocking)
  | notifiesAll (t : Fin n) (hpc : s.pc t = .shutNotifying) :
      Step s (.thread t) ({ s with pc := fun u => (s.pc u).notify }.setPc t .shutUnlocking)
  | shutUnlocks (t : Fin n) (hpc : s.pc t = .shutUnlocking) :
      Step s (.thread t)
        ({ s with mx := none, shutdowns := s.shutdowns + 1 }.setPc t (.idle (some .shut)))
  | enqueuesFor (t u : Fin n) (value : T) (hpc : s.pc t = .pushing value)
      (hu : s.pc u = .sleeping) :
      Step s (.enqueue t (some u))
        (({ s with queue := s.queue ++ [value], pushed := s.pushed ++ [(t, value)] }.setPc u
          (.waking true)).setPc t (.unlocking (.pushed value)))
  | enqueues (t : Fin n) (value : T) (hpc : s.pc t = .pushing value)
      (hall : ∀ u, s.pc u ≠ .sleeping) :
      Step s (.enqueue t none)
        ({ s with queue := s.queue ++ [value], pushed := s.pushed ++ [(t, value)] }.setPc t
          (.unlocking (.pushed value)))
  | wakes (t : Fin n) (hpc : s.pc t = .sleeping) :
      Step s (.wake t) (s.setPc t (.waking false))

variable {s s' : State T n} {a : Action T n}

theorem stepThread_cases {t : Fin n} (h : s.stepThread t = some s') : Step s (.thread t) s' := by
  have hlock : ∀ {pc : Pc T}, s.lock t pc = some s' →
      s.mx = none ∧ s' = { s with mx := some t }.setPc t pc := by
    intro pc hlocked
    unfold State.lock at hlocked
    split at hlocked
    case h_1 hmx => exact ⟨hmx, (Option.some.inj hlocked).symm⟩
    case h_2 => cases hlocked
  unfold State.stepThread at h
  split at h
  case h_1 value hpc =>
    cases h
    split
    · exact .pushThrows t value hpc
    · exact .pushGoesOn t value hpc
  case h_2 value hpc =>
    obtain ⟨hmx, rfl⟩ := hlock h
    exact .locks t _ hmx (.inl ⟨value, hpc, rfl⟩)
  case h_3 hpc =>
    obtain ⟨hmx, rfl⟩ := hlock h
    exact .locks t _ hmx (.inr (.inl ⟨hpc, rfl⟩))
  case h_4 notified hpc =>
    cases h
    split
    case isTrue htest => exact .waitReturns t notified hpc htest
    case isFalse htest =>
      rw [not_or, not_not, Bool.not_eq_true] at htest
      exact .waitBlocks t notified hpc htest.1 htest.2
  case h_5 hpc => cases h; exact .sleeps t hpc
  case h_6 notified hpc =>
    obtain ⟨hmx, rfl⟩ := hlock h
    exact .locks t _ hmx (.inr (.inr (.inl ⟨notified, hpc, rfl⟩)))
  case h_7 notified hpc =>
    cases h
    split
    case isTrue hshut => exact .popThrows t notified hpc hshut
    case isFalse hopen => exact .popGoesOn t notified hpc (Bool.eq_false_iff.mpr hopen)
  case h_8 notified hpc =>
    split at h
    case h_1 value rest hq => cases h; exact .takes t notified value rest hpc hq
    case h_2 => cases h
  case h_9 result hpc => cases h; exact .unlocks t result hpc
  case h_10 hpc =>
    cases h
    split
    · exact .shutReturns t hpc
    · exact .shutGoesOn t hpc
  case h_11 hpc => cases h; exact .flags t hpc
  case h_12 hpc =>
    obtain ⟨hmx, rfl⟩ := hlock h
    exact .locks t _ hmx (.inr (.inr (.inr ⟨hpc, rfl⟩)))
  case h_13 hpc => cases h; exact .notifiesAll t hpc
  case h_14 hpc => cases h; exact .shutUnlocks t hpc
  case h_15 => cases h

theorem enqueue_cases {t : Fin n} {woken : Option (Fin n)} (h : s.enqueue t woken = some s') :
    Step s (.enqueue t woken) s' := by
  unfold State.enqueue at h
  split at h
  case h_1 value hpc =>
    cases woken with
    | some u =>
        simp only at h
        split at h
        case h_1 hu => cases h; exact .enqueuesFor t u value hpc hu
        case h_2 => cases h
    | none =>
        simp only at h
        split at h
        case isTrue hall =>
          cases h
          refine .enqueues t value hpc ?_
          intro u hu
          have hawake := hall u
          rw [hu] at hawake
          cases hawake
        case isFalse => cases h
  case h_2 => cases h

/-- The step function read backwards. -/
theorem step_cases (h : step s a = some s') : Step s a s' := by
  cases a with
  | push t value copies =>
      simp only [step] at h
      split at h
      case h_1 result hpc =>
        cases h
        refine .calls _ t _ result hpc (.inl ⟨value, ?_⟩) ⟨rfl, ?_, by simp [Action.call]⟩
        · split
          · exact .inl rfl
          · exact .inr rfl
        · split <;> rfl
      case h_2 => cases h
  | pop t =>
      simp only [step] at h
      split at h
      case h_1 result hpc =>
        cases h
        exact .calls _ t _ result hpc (.inr (.inl rfl)) ⟨rfl, rfl, by simp [Action.call]⟩
      case h_2 => cases h
  | shutdown t =>
      simp only [step] at h
      split at h
      case h_1 result hpc =>
        cases h
        exact .calls _ t _ result hpc (.inr (.inr rfl)) ⟨rfl, rfl, by simp [Action.call]⟩
      case h_2 => cases h
  | thread t => exact stepThread_cases h
  | enqueue t woken => exact enqueue_cases h
  | wake t =>
      simp only [step] at h
      split at h
      case h_1 hpc => cases h; exact .wakes t hpc
      case h_2 => cases h

/-! ## The mutex -/

/-- The thread stands between the lock and the unlock of `_mx`. -/
def Pc.holdsMx : Pc T → Bool
  | .pushing _     => true
  | .waiting _     => true
  | .blocking      => true
  | .popping _     => true
  | .taking _      => true
  | .unlocking _   => true
  | .shutNotifying => true
  | .shutUnlocking => true
  | _              => false

def State.mutex (s : State T n) : Mutex.State (Fin n) := ⟨s.mx, fun t => (s.pc t).holdsMx⟩

@[simp] theorem Pc.notify_holdsMx (pc : Pc T) : pc.notify.holdsMx = pc.holdsMx := by
  cases pc <;> rfl

theorem holdsMx_setPc (s : State T n) (t : Fin n) (pc : Pc T) :
    (fun u => ((s.setPc t pc).pc u).holdsMx) =
      Function.update (fun u => (s.pc u).holdsMx) t pc.holdsMx := by
  funext u
  rw [State.setPc_pc, Function.update_apply]
  split <;> rfl

/-- Each step locks `_mx`, unlocks it or leaves it alone. -/
theorem Step.mutex (h : Step s a s') : Mutex.Step s.mutex s'.mutex ∨ s'.mutex = s.mutex := by
  have hmove : ∀ {r : State T n} {t : Fin n} {pc : Pc T}, r.mx = s.mx →
      (∀ u, (r.pc u).holdsMx = (s.pc u).holdsMx) → pc.holdsMx = (s.pc t).holdsMx →
      (r.setPc t pc).mutex = s.mutex := by
    intro r t pc hmx hr hpc
    show (⟨r.mx, fun u => ((r.setPc t pc).pc u).holdsMx⟩ : Mutex.State (Fin n)) =
      ⟨s.mx, fun u => (s.pc u).holdsMx⟩
    rw [hmx, holdsMx_setPc, funext hr, hpc]
    congr 1
    exact Function.update_eq_self t fun u => (s.pc u).holdsMx
  have hunlock : ∀ {r : State T n} {t : Fin n} {pc : Pc T}, r.mx = none → r.pc = s.pc →
      (s.pc t).holdsMx = true → pc.holdsMx = false →
      Mutex.Step s.mutex (r.setPc t pc).mutex := by
    intro r t pc hmx hr hin hout
    have hstep := Mutex.Step.unlock (s := s.mutex) t hin
    show Mutex.Step s.mutex ⟨r.mx, fun u => ((r.setPc t pc).pc u).holdsMx⟩
    rw [hmx, holdsMx_setPc, hr, hout]
    exact hstep
  cases h
  case locks t pc hmx hpc =>
    left
    have hin : pc.holdsMx = true := by
      rcases hpc with ⟨value, -, rfl⟩ | ⟨-, rfl⟩ | ⟨notified, -, rfl⟩ | ⟨-, rfl⟩ <;> rfl
    have hstep := Mutex.Step.lock (s := s.mutex) t hmx
    show Mutex.Step s.mutex ⟨some t, fun u => ((s.setPc t pc).pc u).holdsMx⟩
    rw [holdsMx_setPc, hin]
    exact hstep
  case sleeps t hpc => exact .inl (hunlock rfl rfl (by rw [hpc]; rfl) rfl)
  case unlocks t result hpc => exact .inl (hunlock rfl rfl (by rw [hpc]; rfl) rfl)
  case shutUnlocks t hpc => exact .inl (hunlock rfl rfl (by rw [hpc]; rfl) rfl)
  case calls t pc result hpc hnext ha =>
    refine .inr (hmove rfl (fun u => rfl) ?_)
    rcases hnext with ⟨value, rfl | rfl⟩ | rfl | rfl <;> (rw [hpc]; rfl)
  case notifiesAll t hpc =>
    exact .inr (hmove rfl (fun u => Pc.notify_holdsMx (s.pc u)) (by rw [hpc]; rfl))
  case enqueuesFor t u value hpc hu =>
    refine .inr (hmove rfl ?_ (by rw [hpc]; rfl))
    intro v
    rw [State.setPc_pc]
    split
    case isTrue heq => rw [heq, hu]; rfl
    case isFalse => rfl
  case pushThrows t value hpc | pushGoesOn t value hpc | waitReturns t notified hpc _ |
      waitBlocks t notified hpc _ _ | popThrows t notified hpc _ | popGoesOn t notified hpc _ |
      takes t notified value rest hpc _ | shutReturns t hpc | shutGoesOn t hpc | flags t hpc |
      enqueues t value hpc _ | wakes t hpc =>
    exact .inr (hmove rfl (fun u => rfl) (by rw [hpc]; rfl))

theorem exclusive_init : Mutex.Exclusive (init : State T n).mutex := by
  intro t
  simp [State.mutex, init, Pc.holdsMx]

theorem Step.exclusive (h : Step s a s') (hs : Mutex.Exclusive s.mutex) :
    Mutex.Exclusive s'.mutex := by
  rcases h.mutex with hstep | hsame
  · exact hstep.exclusive hs
  · rw [hsame]
    exact hs

/-- Two threads inside are one. -/
theorem eq_of_holdsMx (hs : Mutex.Exclusive s.mutex) {t u : Fin n}
    (ht : (s.pc t).holdsMx = true) (hu : (s.pc u).holdsMx = true) : t = u :=
  hs.unique ht hu

/-! ## A value for whoever takes one -/

/-- The thread takes a value, or will if it finds `_shutdown` clear, as it is now if it is not
`shutdown`. -/
def Pc.claims (shutdown : Bool) : Pc T → Bool
  | .taking _  => true
  | .popping _ => !shutdown
  | _          => false

theorem Pc.claims_of_true {pc : Pc T} {shutdown : Bool} (h : pc.claims true = true) :
    pc.claims shutdown = true := by
  cases pc with
  | taking => rfl
  | _ => cases h

theorem Pc.holdsMx_of_claims {pc : Pc T} {shutdown : Bool} (h : pc.claims shutdown = true) :
    pc.holdsMx = true := by
  cases pc with
  | taking => rfl
  | popping => rfl
  | _ => cases h

/-- Whoever takes a value finds one. -/
structure Filled (s : State T n) : Prop where
  exclusive : Mutex.Exclusive s.mutex
  queue : ∀ t, (s.pc t).claims s.shutdown = true → s.queue ≠ []

theorem filled_init : Filled (init : State T n) where
  exclusive := exclusive_init
  queue := by intro t h; cases h

theorem Filled.step (hs : Filled s) (h : Step s a s') : Filled s' where
  exclusive := h.exclusive hs.exclusive
  queue := by
    intro u hu
    cases h
    case calls t pc result hpc hnext ha =>
      refine hs.queue u (of_setPc (fun v => rfl) ?_ hu)
      rcases hnext with ⟨value, rfl | rfl⟩ | rfl | rfl <;> rfl
    case locks t pc hmx hpc =>
      refine hs.queue u (of_setPc (r := { s with mx := some t }) (fun v => rfl) ?_ hu)
      rcases hpc with ⟨value, -, rfl⟩ | ⟨-, rfl⟩ | ⟨notified, -, rfl⟩ | ⟨-, rfl⟩ <;> rfl
    case waitReturns t notified hpc htest =>
      rcases htest with hqueue | hshut
      · exact hqueue
      · refine hs.queue u (of_setPc (fun v => rfl) ?_ hu)
        rw [hshut]
        rfl
    case popGoesOn t notified hpc hopen => exact hs.queue t (by rw [hpc, hopen]; rfl)
    case takes t notified value rest hpc hq =>
      -- another thread that takes a value would be inside as well
      rw [State.setPc_pc] at hu
      split at hu
      case isTrue => cases hu
      case isFalse hut =>
        have heq := eq_of_holdsMx hs.exclusive (u := t) (Pc.holdsMx_of_claims hu)
          (by rw [hpc]; rfl)
        exact absurd heq hut
    case flags t hpc =>
      exact hs.queue u (Pc.claims_of_true (of_setPc (fun v => rfl) rfl hu))
    case notifiesAll t hpc =>
      refine hs.queue u (of_setPc ?_ rfl hu)
      intro v
      show (s.pc v).notify.claims s.shutdown = (s.pc v).claims s.shutdown
      cases s.pc v <;> rfl
    case enqueuesFor t v value hpc hv => simp
    case enqueues t value hpc hall => simp
    all_goals exact hs.queue u (of_setPc (fun v => rfl) rfl hu)

/-! ## The order of the values -/

/-- What has been popped, and then what is queued, is what has been pushed. -/
def State.InOrder (s : State T n) : Prop :=
  s.popped.map Prod.snd ++ s.queue = s.pushed.map Prod.snd

theorem Step.inOrder (h : Step s a s') (hs : s.InOrder) : s'.InOrder := by
  have henqueue : ∀ (t : Fin n) (value : T), s.popped.map Prod.snd ++ (s.queue ++ [value]) =
      (s.pushed ++ [(t, value)]).map Prod.snd := by
    intro t value
    rw [← List.append_assoc, hs, List.map_append]
    rfl
  cases h
  case takes t notified value rest hpc hq =>
    show (s.popped ++ [(t, value)]).map Prod.snd ++ rest = s.pushed.map Prod.snd
    rw [← hs, hq, List.map_append, List.append_assoc]
    rfl
  case enqueuesFor t u value hpc hu => exact henqueue t value
  case enqueues t value hpc hall => exact henqueue t value
  all_goals exact hs

/-- `_shutdown` is never cleared. -/
theorem Step.shutdown (h : Step s a s') (hs : s.shutdown = true) : s'.shutdown = true := by
  cases h
  case flags => rfl
  all_goals exact hs

/-- A thread in `pop` that has found `_shutdown` clear, and not taken the value yet. -/
def Pc.takes : Pc T → Bool
  | .taking _ => true
  | _         => false

@[simp] theorem Pc.notify_takes (pc : Pc T) : pc.notify.takes = pc.takes := by
  cases pc <;> rfl

/-- Whoever takes a value has tested `_shutdown` while it was clear. -/
theorem Step.takes_of (h : Step s a s') (hs : s.shutdown = true) {t : Fin n}
    (ht : (s'.pc t).takes = true) : (s.pc t).takes = true := by
  cases h
  case calls u pc result hpc hnext ha =>
    refine of_setPc (fun v => rfl) ?_ ht
    rcases hnext with ⟨value, rfl | rfl⟩ | rfl | rfl <;> rfl
  case locks u pc hmx hpc =>
    refine of_setPc (fun v => rfl) ?_ ht
    rcases hpc with ⟨value, -, rfl⟩ | ⟨-, rfl⟩ | ⟨notified, -, rfl⟩ | ⟨-, rfl⟩ <;> rfl
  case popGoesOn u notified hpc hopen =>
    rw [hs] at hopen
    cases hopen
  case notifiesAll u hpc => exact of_setPc (fun v => Pc.notify_takes (s.pc v)) rfl ht
  case enqueuesFor u v value hpc hv =>
    refine of_setPc ?_ rfl ht
    intro w
    rw [State.setPc_pc]
    split
    case isTrue heq => rw [heq, hv]; rfl
    case isFalse => rfl
  all_goals exact of_setPc (fun v => rfl) rfl ht

/-- Nothing is popped, or the thread that takes a value pops one and takes no other. -/
theorem Step.popped (h : Step s a s') (hexclusive : Mutex.Exclusive s.mutex) :
    s'.popped = s.popped ∨
      ∃ t value, (s.pc t).takes = true ∧ s'.popped = s.popped ++ [(t, value)] ∧
        ∀ u, (s'.pc u).takes = false := by
  cases h
  case takes t notified value rest hpc hq =>
    refine .inr ⟨t, value, by rw [hpc]; rfl, rfl, ?_⟩
    intro u
    rw [State.setPc_pc]
    split
    case isTrue => rfl
    case isFalse hut =>
      -- another thread that takes a value would be inside as well
      cases hu : s.pc u with
      | taking notified' =>
          have heq := eq_of_holdsMx hexclusive (t := u) (u := t) (by rw [hu]; rfl)
            (by rw [hpc]; rfl)
          exact absurd heq hut
      | _ => rfl
  all_goals exact .inl rfl

/-- What a run from a queue that is shut down can have popped since. -/
structure Drained (s s' : State T n) : Prop where
  exclusive : Mutex.Exclusive s'.mutex
  shutdown : s'.shutdown = true
  takes : ∀ t, (s'.pc t).takes = true → (s.pc t).takes = true
  popped : s'.popped = s.popped ∨
    ∃ t value, (s.pc t).takes = true ∧ s'.popped = s.popped ++ [(t, value)] ∧
      ∀ u, (s'.pc u).takes = false

theorem Drained.step {r : State T n} (hr : Drained r s) (h : Step s a s') : Drained r s' where
  exclusive := h.exclusive hr.exclusive
  shutdown := h.shutdown hr.shutdown
  takes := fun t ht => hr.takes t (h.takes_of hr.shutdown ht)
  popped := by
    rcases h.popped hr.exclusive with hsame | ⟨t, value, ht, hpopped, hnone⟩
    · rw [hsame]
      rcases hr.popped with hkept | ⟨t, value, ht, hone, hnone⟩
      · exact .inl hkept
      · refine .inr ⟨t, value, ht, hone, ?_⟩
        intro u
        by_contra htakes
        have hbefore := h.takes_of hr.shutdown (Bool.not_eq_false _ ▸ htakes)
        rw [hnone u] at hbefore
        cases hbefore
    · rcases hr.popped with hkept | ⟨t', value', -, -, hnone'⟩
      · rw [hkept] at hpopped
        exact .inr ⟨t, value, hr.takes t ht, hpopped, hnone⟩
      · rw [hnone' t] at ht
        cases ht

/-! ## What the calls return -/

/-- The calls thread `t` has begun. -/
def callsOf (t : Fin n) (h : List (Event T n)) : List (Call T) :=
  h.filterMap fun
    | .begins u call => if u = t then some call else none
    | _              => none

/-- How the calls of thread `t` have ended. -/
def resultsOf (t : Fin n) (h : List (Event T n)) : List (Result T) :=
  h.filterMap fun
    | .ends u result => if u = t then some result else none
    | _              => none

/-- The threads that have put a value into the queue, in the order of their critical sections. -/
def putters (h : List (Event T n)) : List (Fin n) :=
  h.filterMap fun
    | .puts t => some t
    | _       => none

/-- The threads that have taken a value, in the order of their critical sections. -/
def takers (h : List (Event T n)) : List (Fin n) :=
  h.filterMap fun
    | .takes t => some t
    | _        => none

def Result.pushed? : Result T → Option T
  | .pushed value => some value
  | _             => none

def Result.popped? : Result T → Option T
  | .popped value => some value
  | _             => none

/-- The result a thread has in its hands while it still holds the mutex. -/
def Pc.handing : Pc T → List (Result T)
  | .unlocking result => [result]
  | _                 => []

/-- What thread `t` has pushed. -/
def State.pushedBy (s : State T n) (t : Fin n) : List T :=
  (s.pushed.filter fun p => p.1 = t).map Prod.snd

/-- What thread `t` has popped. -/
def State.poppedBy (s : State T n) (t : Fin n) : List T :=
  (s.popped.filter fun p => p.1 = t).map Prod.snd

/-- The ends a call can have. -/
def Answers : Call T → Result T → Prop
  | .push value, .pushed value' => value' = value
  | .push _, .threw             => True
  | .pop, .popped _             => True
  | .pop, .threw                => True
  | .shutdown, .shut            => True
  | _, _                        => False

theorem callsOf_append (t : Fin n) (h h' : List (Event T n)) :
    callsOf t (h ++ h') = callsOf t h ++ callsOf t h' := List.filterMap_append

theorem resultsOf_append (t : Fin n) (h h' : List (Event T n)) :
    resultsOf t (h ++ h') = resultsOf t h ++ resultsOf t h' := List.filterMap_append

theorem filterMap_snoc {β : Type} (f : Result T → Option β) (l : List (Result T)) (r : Result T) :
    (l ++ [r]).filterMap f = l.filterMap f ++ (f r).toList := by
  rw [List.filterMap_append]
  cases hr : f r <;> simp [hr]

/-- What has been recorded as pushed and popped in a run in which `h` has happened. -/
structure Recorded (h : List (Event T n)) (s : State T n) : Prop where
  putters : s.pushed.map Prod.fst = putters h
  takers : s.popped.map Prod.fst = takers h
  calls : ∀ t, ∃ ended, callsOf t h = ended ++ (s.pc t).call.toList ∧
    List.Forall₂ Answers ended (resultsOf t h)
  pushed : ∀ t, s.pushedBy t = (resultsOf t h ++ (s.pc t).handing).filterMap Result.pushed?
  popped : ∀ t, s.poppedBy t = (resultsOf t h ++ (s.pc t).handing).filterMap Result.popped?

section

attribute [local grind =] events Action.call Action.actor Result.call Pc.call Pc.handing
  Result.pushed? Result.popped?
attribute [local grind] Answers

@[local grind =] theorem callsOf_singleton (t : Fin n) (e : Event T n) :
    callsOf t [e] = match e with
      | .begins u call => if u = t then [call] else []
      | _              => [] := by
  cases e with
  | begins u call => by_cases hut : u = t <;> simp [callsOf, hut]
  | _ => rfl

@[local grind =] theorem resultsOf_singleton (t : Fin n) (e : Event T n) :
    resultsOf t [e] = match e with
      | .ends u result => if u = t then [result] else []
      | _              => [] := by
  cases e with
  | ends u result => by_cases hut : u = t <;> simp [resultsOf, hut]
  | _ => rfl

@[local grind =] theorem putters_singleton (e : Event T n) :
    putters [e] = match e with
      | .puts u => [u]
      | _       => [] := by
  cases e <;> rfl

@[local grind =] theorem takers_singleton (e : Event T n) :
    takers [e] = match e with
      | .takes u => [u]
      | _        => [] := by
  cases e <;> rfl

@[local grind =] theorem putters_nil : putters ([] : List (Event T n)) = [] := rfl

@[local grind =] theorem takers_nil : takers ([] : List (Event T n)) = [] := rfl

@[local grind =] theorem callsOf_nil (t : Fin n) : callsOf t ([] : List (Event T n)) = [] := rfl

@[local grind =] theorem resultsOf_nil (t : Fin n) : resultsOf t ([] : List (Event T n)) = [] := rfl

attribute [local grind =] State.setPc_pc State.setPc_pushed State.setPc_popped

@[local grind =] theorem Pc.notify_call (pc : Pc T) : pc.notify.call = pc.call := by
  cases pc <;> rfl

@[local grind =] theorem Pc.notify_handing (pc : Pc T) : pc.notify.handing = pc.handing := by
  cases pc <;> rfl

theorem events_of_call {t : Fin n} {pc : Pc T}
    (ha : a.actor = t ∧ a.call = pc.call ∧ a.call ≠ none) :
    ∃ call, pc.call = some call ∧ events s a s' = [.begins t call] := by
  obtain ⟨rfl, hpc, hsome⟩ := ha
  obtain ⟨call, hcall⟩ := Option.ne_none_iff_exists'.mp hsome
  refine ⟨call, hpc.symm.trans hcall, ?_⟩
  cases a <;> cases hcall <;> rfl

theorem answers_call (result : Result T) : Answers result.call result := by
  cases result <;> simp [Answers, Result.call]

/-- A thread goes on with the call it is in or begins one, or its call ends. -/
theorem Step.goesOn (h : Step s a s') (t : Fin n) :
    (resultsOf t (events s a s') = [] ∧
      (s.pc t).call.toList ++ callsOf t (events s a s') = (s'.pc t).call.toList) ∨
    ∃ call result, (s.pc t).call = some call ∧ (s'.pc t).call = none ∧ Answers call result ∧
      callsOf t (events s a s') = [] ∧ resultsOf t (events s a s') = [result] := by
  cases h
  case calls u pc result hpc hnext ha =>
    obtain ⟨call, hcall, hevents⟩ := events_of_call ha
    rw [hevents]
    grind
  case unlocks u result hpc =>
    have hanswers := answers_call result
    grind
  all_goals grind

theorem pushedBy_append {r : State T n} {u : Fin n} {value : T}
    (hr : r.pushed = s.pushed ++ [(u, value)]) (t : Fin n) :
    r.pushedBy t = s.pushedBy t ++ if u = t then [value] else [] := by
  simp only [State.pushedBy, hr, List.filter_append, List.map_append]
  congr 1
  by_cases hut : u = t <;> simp [hut]

theorem poppedBy_append {r : State T n} {u : Fin n} {value : T}
    (hr : r.popped = s.popped ++ [(u, value)]) (t : Fin n) :
    r.poppedBy t = s.poppedBy t ++ if u = t then [value] else [] := by
  simp only [State.poppedBy, hr, List.filter_append, List.map_append]
  congr 1
  by_cases hut : u = t <;> simp [hut]

/-- What a call returns it has in its hands from the moment it changes the queue. -/
theorem Step.settles (h : Step s a s') (t : Fin n) :
    (resultsOf t (events s a s') ++ (s'.pc t).handing = (s.pc t).handing ∧
      s'.pushedBy t = s.pushedBy t ∧ s'.poppedBy t = s.poppedBy t) ∨
    ∃ result, resultsOf t (events s a s') ++ (s'.pc t).handing = (s.pc t).handing ++ [result] ∧
      s'.pushedBy t = s.pushedBy t ++ result.pushed?.toList ∧
      s'.poppedBy t = s.poppedBy t ++ result.popped?.toList := by
  -- the thread that moves gets its result, and with it the value is recorded
  have hgets : ∀ (u : Fin n) (result : Result T),
      s'.pushedBy t = s.pushedBy t ++ (if u = t then result.pushed?.toList else []) →
      s'.poppedBy t = s.poppedBy t ++ (if u = t then result.popped?.toList else []) →
      resultsOf t (events s a s') ++ (s'.pc t).handing =
        (s.pc t).handing ++ (if u = t then [result] else []) →
      (resultsOf t (events s a s') ++ (s'.pc t).handing = (s.pc t).handing ∧
        s'.pushedBy t = s.pushedBy t ∧ s'.poppedBy t = s.poppedBy t) ∨
      ∃ result, resultsOf t (events s a s') ++ (s'.pc t).handing = (s.pc t).handing ++ [result] ∧
        s'.pushedBy t = s.pushedBy t ++ result.pushed?.toList ∧
        s'.poppedBy t = s.poppedBy t ++ result.popped?.toList := by
    intro u result hpushed hpopped hresults
    by_cases hut : u = t
    · rw [if_pos hut] at hpushed hpopped hresults
      exact .inr ⟨result, hresults, hpushed, hpopped⟩
    · rw [if_neg hut, List.append_nil] at hpushed hpopped hresults
      exact .inl ⟨hresults, hpushed, hpopped⟩
  have hsame : ∀ (u : Fin n) (l : List T), l = l ++ if u = t then [] else [] := by simp
  cases h
  case pushThrows u value hpc => exact hgets u .threw (hsame u _) (hsame u _) (by grind)
  case popThrows u notified hpc hshut =>
    exact hgets u .threw (hsame u _) (hsame u _) (by grind)
  case shutReturns u hpc => exact hgets u .shut (hsame u _) (hsame u _) (by grind)
  case shutUnlocks u hpc => exact hgets u .shut (hsame u _) (hsame u _) (by grind)
  case enqueuesFor u v value hpc hv =>
    exact hgets u (.pushed value) (pushedBy_append rfl t) (hsame u _) (by grind)
  case enqueues u value hpc hall =>
    exact hgets u (.pushed value) (pushedBy_append rfl t) (hsame u _) (by grind)
  case takes u notified value rest hpc hq =>
    exact hgets u (.popped value) (hsame u _) (poppedBy_append rfl t) (by grind)
  case calls u pc result hpc hnext ha =>
    obtain ⟨call, hcall, hevents⟩ := events_of_call ha
    rw [hevents]
    exact .inl ⟨by grind, rfl, rfl⟩
  all_goals exact .inl ⟨by grind, rfl, rfl⟩

/-- A value is recorded in the critical section in which the queue changes. -/
theorem Step.sections (h : Step s a s') :
    s'.pushed.map Prod.fst = s.pushed.map Prod.fst ++ putters (events s a s') ∧
    s'.popped.map Prod.fst = s.popped.map Prod.fst ++ takers (events s a s') := by
  cases h
  case calls u pc result hpc hnext ha =>
    obtain ⟨call, hcall, hevents⟩ := events_of_call ha
    rw [hevents]
    grind
  all_goals grind

end

theorem recorded_init : Recorded [] (init : State T n) where
  putters := rfl
  takers := rfl
  calls := fun _ => ⟨[], rfl, .nil⟩
  pushed := fun _ => rfl
  popped := fun _ => rfl

theorem Recorded.step {past : List (Event T n)} (hs : Recorded past s) (h : Step s a s') :
    Recorded (past ++ events s a s') s' where
  putters := by
    rw [h.sections.1, hs.putters]
    exact List.filterMap_append.symm
  takers := by
    rw [h.sections.2, hs.takers]
    exact List.filterMap_append.symm
  calls := by
    intro t
    obtain ⟨ended, hcalls, hanswers⟩ := hs.calls t
    rw [callsOf_append, resultsOf_append, hcalls]
    rcases h.goesOn t with ⟨hresults, hcall⟩ | ⟨call, result, hcall, hcall', ha, hcalls', hresults⟩
    · exact ⟨ended, by rw [List.append_assoc, hcall], by rwa [hresults, List.append_nil]⟩
    · refine ⟨ended ++ [call], by rw [hcall, hcall', hcalls']; simp, ?_⟩
      rw [hresults]
      exact List.rel_append hanswers (.cons ha .nil)
  pushed := by
    intro t
    rw [resultsOf_append, List.append_assoc]
    rcases h.settles t with ⟨hresults, hpushed, -⟩ | ⟨result, hresults, hpushed, -⟩
    · rw [hresults, hpushed, hs.pushed t]
    · rw [hresults, hpushed, hs.pushed t, ← List.append_assoc, filterMap_snoc]
  popped := by
    intro t
    rw [resultsOf_append, List.append_assoc]
    rcases h.settles t with ⟨hresults, -, hpopped⟩ | ⟨result, hresults, -, hpopped⟩
    · rw [hresults, hpopped, hs.popped t]
    · rw [hresults, hpopped, hs.popped t, ← List.append_assoc, filterMap_snoc]

/-! ### After `shutdown()` -/

/-- The thread is in `pop`, has found `_shutdown` clear, and has not unlocked `_mx` since. -/
def Pc.committed : Pc T → Bool
  | .taking _              => true
  | .unlocking (.popped _) => true
  | _                      => false

theorem Pc.notify_committed (pc : Pc T) : pc.notify.committed = pc.committed := by
  cases pc <;> rfl

theorem Step.committed_of (h : Step s a s') (hs : s.shutdown = true) {t : Fin n}
    (ht : (s'.pc t).committed = true) : (s.pc t).committed = true := by
  cases h
  case calls u pc result hpc hnext ha =>
    refine of_setPc (fun v => rfl) ?_ ht
    rcases hnext with ⟨value, rfl | rfl⟩ | rfl | rfl <;> rfl
  case locks u pc hmx hpc =>
    refine of_setPc (fun v => rfl) ?_ ht
    rcases hpc with ⟨value, -, rfl⟩ | ⟨-, rfl⟩ | ⟨notified, -, rfl⟩ | ⟨-, rfl⟩ <;> rfl
  case popGoesOn u notified hpc hopen =>
    rw [hs] at hopen
    cases hopen
  case takes u notified value rest hpc hq =>
    rw [State.setPc_pc] at ht
    split at ht
    case isTrue htu => rw [htu, hpc]; rfl
    case isFalse => exact ht
  case notifiesAll u hpc => exact of_setPc (fun v => Pc.notify_committed (s.pc v)) rfl ht
  case enqueuesFor u v value hpc hv =>
    refine of_setPc ?_ rfl ht
    intro w
    rw [State.setPc_pc]
    split
    case isTrue heq => rw [heq, hv]; rfl
    case isFalse => rfl
  all_goals exact of_setPc (fun v => rfl) rfl ht

/-- A value is returned by a thread that has it in its hands. -/
theorem Step.committed_of_ends (h : Step s a s') {t : Fin n} {value : T}
    (hend : .ends t (.popped value) ∈ events s a s') : (s.pc t).committed = true := by
  cases h
  case calls u pc result hpc hnext ha =>
    obtain ⟨call, -, hevents⟩ := events_of_call ha
    rw [hevents] at hend
    simp at hend
  all_goals grind [events, Pc.committed, State.setPc_pc, Pc.notify]

/-- What a run from a queue that is shut down can have returned since. -/
structure Returned (s : State T n) (past : List (Event T n)) (s' : State T n) : Prop where
  shutdown : s'.shutdown = true
  committed : ∀ t, (s'.pc t).committed = true → (s.pc t).committed = true
  ended : ∀ t value, .ends t (.popped value) ∈ past → (s.pc t).committed = true

theorem Returned.step {r : State T n} {past : List (Event T n)} (hr : Returned r past s)
    (h : Step s a s') : Returned r (past ++ events s a s') s' where
  shutdown := h.shutdown hr.shutdown
  committed := fun t ht => hr.committed t (h.committed_of hr.shutdown ht)
  ended := by
    intro t value hmem
    rcases List.mem_append.mp hmem with hpast | hnow
    · exact hr.ended t value hpast
    · exact hr.committed t (h.committed_of_ends hnow)

/-- **The queue keeps the order**: in every state, what `pop` has taken, in order, and what is
queued are together what has been pushed, in order. The values pushed are those with which the
calls of `push` have returned, or are about to, thread by thread, and the values popped those that
the calls of `pop` have returned or are about to, both in the order of the critical sections, and
`front()` is never called on an empty queue. Once `_shutdown` is set, no thread comes to take a
value that had not tested it before, such a thread takes one value at most, and no other returns
one. -/
theorem queue_inOrder {as : List (Action T n)} (hrun : run step init as = some s) :
    s.popped.map Prod.snd ++ s.queue = s.pushed.map Prod.snd ∧
    Recorded (history init as) s ∧
    (∀ t notified, s.pc t = .taking notified → s.queue ≠ []) ∧
    (s.shutdown = true → ∀ bs s', run step s bs = some s' →
      (∀ t, (s'.pc t).takes = true → (s.pc t).takes = true) ∧
      (s'.popped = s.popped ∨
        ∃ t value, (s.pc t).takes = true ∧ s'.popped = s.popped ++ [(t, value)]) ∧
      ∀ t value, .ends t (.popped value) ∈ history s bs → (s.pc t).committed = true) := by
  have horder : s.InOrder :=
    run_invariant (fun _ _ _ hs h => (step_cases h).inOrder hs)
      (show (init : State T n).InOrder from rfl) hrun
  have hrecorded : Recorded (history init as) s :=
    run_collect (fun _ _ _ _ hs h => hs.step (step_cases h)) recorded_init hrun
  have hfilled : Filled s :=
    run_invariant (fun _ _ _ hs h => hs.step (step_cases h)) filled_init hrun
  refine ⟨horder, hrecorded, fun t notified ht => hfilled.queue t (by rw [ht]; rfl), ?_⟩
  intro hshut bs s' hbs
  have hstart : Drained s s := ⟨hfilled.exclusive, hshut, fun _ h => h, .inl rfl⟩
  have hdrained : Drained s s' :=
    run_invariant (fun _ _ _ hr h => hr.step (step_cases h)) hstart hbs
  have hnothing : Returned s [] s := ⟨hshut, fun _ h => h, by simp⟩
  have hreturned : Returned s (history s bs) s' :=
    run_collect (fun _ _ _ _ hr h => hr.step (step_cases h)) hnothing hbs
  refine ⟨hdrained.takes, ?_, hreturned.ended⟩
  rcases hdrained.popped with hkept | ⟨t, value, ht, hone, -⟩
  · exact .inl hkept
  · exact .inr ⟨t, value, ht, hone⟩

/-- A value is pushed, a second thread comes to take it, and a third shuts the queue down. -/
def shutWhileTaking : List (Action Nat 3) :=
  [.push 0 7 false, .thread 0, .enqueue 0 none, .thread 0, .pop 1, .thread 1, .thread 1, .thread 1,
    .shutdown 2, .thread 2, .thread 2]

/-- The second thread takes the value and returns it; a later `pop` of the first one throws. -/
def popTwiceAfterwards : List (Action Nat 3) :=
  [.thread 1, .thread 1, .pop 0, .thread 0, .thread 0, .thread 0, .thread 0]

theorem queue_inOrder_shutWhileTaking :
    ∃ s s' : State Nat 3, run step init shutWhileTaking = some s ∧ s.shutdown = true ∧
      run step s popTwiceAfterwards = some s' ∧ s'.popped.map Prod.snd ++ s'.queue = [7] ∧
      s'.pc 1 = .idle (some (.popped 7)) ∧ s'.pc 0 = .idle (some .threw) ∧
      s'.poppedBy 1 = [7] ∧ ∀ value, .ends 0 (.popped value) ∉ history s popTwiceAfterwards := by
  refine ⟨_, _, rfl, rfl, rfl, ?_, rfl, rfl, ?_, ?_⟩
  · exact (@queue_inOrder Nat 3 _ (shutWhileTaking ++ popTwiceAfterwards) rfl).1
  · exact (@queue_inOrder Nat 3 _ (shutWhileTaking ++ popTwiceAfterwards) rfl).2.1.popped 1
  · intro value hend
    have hcommitted := ((@queue_inOrder Nat 3 _ shutWhileTaking rfl).2.2.2 rfl popTwiceAfterwards _
      rfl).2.2 0 value hend
    cases hcommitted

end ConcurrentQueue

end ZControl
