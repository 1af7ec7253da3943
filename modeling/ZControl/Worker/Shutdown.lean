import ZControl.Lib.Mutex
import ZControl.Worker.Draining

/-!
# Shutting a `Worker` down

`close()` sets the flag, writes to the cancellation pipe, shuts the socket down and shuts the
queue down. A reader that polls is woken by the pipe, a handler that sleeps in `pop()` by the
queue, a thread in `wait()` by the flag. Here these wake-ups are shown to be enough: none of them
can be used up before the flag is visible.
-/

namespace ZControl

open Interaction Transition

namespace Worker

variable {n : Nat} {dirsToOverride : DirsToOverride} {s s' : State n} {a : Action n}

/-! ## The mutexes -/

/-- The thread stands between the lock and the unlock of `_mx`. -/
def ReaderPc.holdsMx : ReaderPc → Bool
  | .pushing _ => true
  | .notifying => true
  | _          => false

def HandlerPc.holdsMx : HandlerPc → Bool
  | .waiting  => true
  | .blocking => true
  | .popping  => true
  | _         => false

def CloserPc.holdsMx : CloserPc → Bool
  | .queueNotifying => true
  | _               => false

def State.holdsMx (s : State n) : Thread n → Bool
  | .reader    => s.reader.holdsMx
  | .handler i => (s.handler i).holdsMx
  | .waiter _  => false
  | .closer c  => (s.closer c).holdsMx

/-- `_mx` of the queue. -/
def State.mutex (s : State n) : Mutex.State (Thread n) := ⟨s.queueMx, s.holdsMx⟩

@[simp] theorem HandlerPc.wake_holdsMx (pc : HandlerPc) : pc.wake.holdsMx = pc.holdsMx := by
  cases pc <;> rfl

theorem mutex_eq (hmx : s'.queueMx = s.queueMx) (hreader : s'.reader.holdsMx = s.reader.holdsMx)
    (hhandler : ∀ i, (s'.handler i).holdsMx = (s.handler i).holdsMx)
    (hcloser : ∀ c, (s'.closer c).holdsMx = (s.closer c).holdsMx) : s'.mutex = s.mutex := by
  have hholds : s'.holdsMx = s.holdsMx := by
    funext T
    cases T with
    | reader => exact hreader
    | handler i => exact hhandler i
    | waiter w => rfl
    | closer c => exact hcloser c
  rw [State.mutex, hmx, hholds]
  rfl

/-- What changes when only the handler `i` moves. -/
theorem holdsMx_setHandler (s : State n) (i : Fin n) (pc : HandlerPc) :
    (s.setHandler i pc).holdsMx = Function.update s.holdsMx (.handler i) pc.holdsMx := by
  funext T
  by_cases hT : T = .handler i
  · subst hT
    simp [State.holdsMx]
  · rw [Function.update_of_ne hT]
    cases T with
    | handler j =>
        have hj : j ≠ i := fun heq => hT (by rw [heq])
        simp [State.holdsMx, hj]
    | _ => rfl

theorem holdsMx_setCloser (s : State n) (c : Nat) (pc : CloserPc) :
    (s.setCloser c pc).holdsMx = Function.update s.holdsMx (.closer c) pc.holdsMx := by
  funext T
  by_cases hT : T = .closer c
  · subst hT
    simp [State.holdsMx]
  · rw [Function.update_of_ne hT]
    cases T with
    | closer d =>
        have hd : d ≠ c := fun heq => hT (by rw [heq])
        simp [State.holdsMx, hd]
    | _ => rfl

theorem holdsMx_setReader (s : State n) (pc : ReaderPc) :
    { s with reader := pc }.holdsMx = Function.update s.holdsMx .reader pc.holdsMx := by
  funext T
  by_cases hT : T = .reader
  · subst hT
    rfl
  · rw [Function.update_of_ne hT]
    cases T with
    | reader => exact absurd rfl hT
    | _ => rfl

theorem Closing.mutex {c : Nat} (h : Closing s c s') :
    Mutex.Step s.mutex s'.mutex ∨ s'.mutex = s.mutex := by
  have hmove : ∀ {t : State n} {pc : CloserPc}, t.queueMx = s.queueMx → t.holdsMx = s.holdsMx →
      pc.holdsMx = (s.closer c).holdsMx → (t.setCloser c pc).mutex = s.mutex := by
    intro t pc hmx ht hpc
    have hholds : (t.setCloser c pc).holdsMx = s.holdsMx := by
      rw [holdsMx_setCloser, ht, hpc]
      exact Function.update_eq_self (Thread.closer c) s.holdsMx
    show (⟨t.queueMx, (t.setCloser c pc).holdsMx⟩ : Mutex.State (Thread n)) = s.mutex
    rw [hmx, hholds]
    rfl
  cases h
  case locks hpc hmx =>
    left
    have hstep := Mutex.Step.lock (s := s.mutex) (.closer c) hmx
    show Mutex.Step s.mutex ⟨some (.closer c), (s.setCloser c .queueNotifying).holdsMx⟩
    rw [holdsMx_setCloser]
    exact hstep
  case returns hpc =>
    left
    have hin : s.mutex.inside (.closer c) = true := by
      show (s.closer c).holdsMx = true
      rw [hpc]
      rfl
    have hstep := Mutex.Step.unlock (Thread.closer c) hin
    have hwake : s.notifyQueue.holdsMx = s.holdsMx := by
      funext T
      cases T with
      | handler i => exact HandlerPc.wake_holdsMx (s.handler i)
      | _ => rfl
    show Mutex.Step s.mutex ⟨none, (s.notifyQueue.setCloser c .returned).holdsMx⟩
    rw [holdsMx_setCloser, hwake]
    exact hstep
  case starts hpc | stores hpc | notifies hpc | pipes hpc | finds hpc _ | skips hpc _ |
      shuts hpc _ | releases hpc _ | clears hpc | returnsEarly hpc _ | goesOn hpc _ |
      flags hpc =>
    exact .inr (hmove rfl rfl (by rw [hpc]; rfl))

/-- Each step locks `_mx`, unlocks it or leaves it alone. -/
theorem Step.mutex (h : Step dirsToOverride s a s') :
    Mutex.Step s.mutex s'.mutex ∨ s'.mutex = s.mutex := by
  -- a handler moves
  have hmove : ∀ {t : State n} {i : Fin n} {pc : HandlerPc}, t.queueMx = s.queueMx →
      t.holdsMx = s.holdsMx → pc.holdsMx = (s.handler i).holdsMx →
      (t.setHandler i pc).mutex = s.mutex := by
    intro t i pc hmx ht hpc
    have hholds : (t.setHandler i pc).holdsMx = s.holdsMx := by
      rw [holdsMx_setHandler, ht, hpc]
      exact Function.update_eq_self (Thread.handler i) s.holdsMx
    show (⟨t.queueMx, (t.setHandler i pc).holdsMx⟩ : Mutex.State (Thread n)) = s.mutex
    rw [hmx, hholds]
    rfl
  have hunlock : ∀ {t : State n} {i : Fin n} {pc : HandlerPc}, t.queueMx = none →
      t.holdsMx = s.holdsMx → (s.handler i).holdsMx = true → pc.holdsMx = false →
      Mutex.Step s.mutex (t.setHandler i pc).mutex := by
    intro t i pc hmx ht hin hout
    have hstep := Mutex.Step.unlock (s := s.mutex) (.handler i) hin
    show Mutex.Step s.mutex ⟨t.queueMx, (t.setHandler i pc).holdsMx⟩
    rw [hmx, holdsMx_setHandler, ht, hout]
    exact hstep
  -- the reader moves
  have hread : ∀ {t : State n}, t.queueMx = s.queueMx → t.reader.holdsMx = s.reader.holdsMx →
      t.handler = s.handler → t.closer = s.closer → t.mutex = s.mutex := by
    intro t hmx hreader hhandler hcloser
    exact mutex_eq hmx hreader (fun i => by rw [hhandler]) fun c => by rw [hcloser]
  cases h
  case popLocks i hpc hmx =>
    left
    have hstep := Mutex.Step.lock (s := s.mutex) (.handler i) hmx
    show Mutex.Step s.mutex ⟨some (.handler i), (s.setHandler i .waiting).holdsMx⟩
    rw [holdsMx_setHandler]
    exact hstep
  case sleeps i hpc => exact .inl (hunlock rfl rfl (by rw [hpc]; rfl) rfl)
  case popThrows i e hpc hshut => exact .inl (hunlock rfl rfl (by rw [hpc]; rfl) rfl)
  case pops i c rest hpc hopen hq => exact .inl (hunlock rfl rfl (by rw [hpc]; rfl) rfl)
  case pushLocks c hr hmx =>
    left
    have hstep := Mutex.Step.lock (s := s.mutex) .reader hmx
    show Mutex.Step s.mutex ⟨some .reader, { s with reader := .pushing c }.holdsMx⟩
    rw [holdsMx_setReader]
    exact hstep
  case notifiesNone hr hall =>
    left
    have hin : s.mutex.inside .reader = true := by
      show s.reader.holdsMx = true
      rw [hr]
      rfl
    have hstep := Mutex.Step.unlock Thread.reader hin
    show Mutex.Step s.mutex ⟨none, { s with reader := .testing }.holdsMx⟩
    rw [holdsMx_setReader]
    exact hstep
  case notifiesOne i hr hi =>
    left
    have hin : s.mutex.inside .reader = true := by
      show s.reader.holdsMx = true
      rw [hr]
      rfl
    have hstep := Mutex.Step.unlock Thread.reader hin
    have hwoken : (s.setHandler i .woken).holdsMx = s.holdsMx := by
      rw [holdsMx_setHandler, show HandlerPc.woken.holdsMx = (s.handler i).holdsMx by rw [hi]; rfl]
      exact Function.update_eq_self (Thread.handler i) s.holdsMx
    show Mutex.Step s.mutex ⟨none, { s.setHandler i .woken with reader := .testing }.holdsMx⟩
    rw [holdsMx_setReader, hwoken]
    exact hstep
  case closes c hclose => exact hclose.mutex
  case reads ha hreading =>
    right
    have hout : s.reader.holdsMx = false := by
      rcases ha with ⟨-, hr, -⟩ | ⟨piece, stage, buffer, -, -, hr⟩ <;> (rw [hr]; rfl)
    cases hreading <;> exact hread rfl hout.symm rfl rfl
  case readFails e ha =>
    right
    have hout : s.reader.holdsMx = false := by
      rcases ha with ⟨stage, buffer, hr, -⟩ | ⟨stage, buffer, hr, -⟩ <;> (rw [hr]; rfl)
    exact hread rfl hout.symm rfl rfl
  case readerLeaves hr _ | cancelled hr _ | ready hr _ | pushes hr | readerCatches hr |
      readerNotifies hr =>
    exact .inr (hread rfl (by rw [hr]; rfl) rfl rfl)
  case enters | waitEnds | waitSleeps | waitWakes => exact .inr (hread rfl rfl rfl rfl)
  case leaves i hpc _ | loops i hpc _ | waitReturns i hpc _ | waitBlocks i hpc _ _ |
      performs i e c es p q world hpc _ _ _ | disconnects i e c es p q hpc _ _ |
      disconnectNotifies i c es p hpc | returns i c es m hpc | throws i c es e hpc |
      writeLocks i c es m hpc _ | sends i c es m hpc _ | sendFails i c es m e hpc |
      catches i e hpc | notifies i hpc | wakes i hpc =>
    exact .inr (hmove rfl rfl (by rw [hpc]; rfl))

/-! ## What stays as it is once `close()` has gone so far -/

/-- The reader is past its last `poll`, if the flag is set. -/
def ReaderPc.returning : ReaderPc → Bool
  | .testing    => true
  | .catching _ => true
  | .flagged    => true
  | .left       => true
  | _           => false

/-- The handler sleeps in `pop`, or is about to. -/
def HandlerPc.resting : HandlerPc → Bool
  | .sleeping => true
  | .blocking => true
  | _         => false

/-- The flag is never cleared. -/
theorem Step.stopped (h : Step dirsToOverride s a s') (hstop : s.world.shouldStop = true) :
    s'.world.shouldStop = true := by
  cases h
  case performs i e c es p q world hpc hresume hworld hop =>
    exact (step_shouldStop hworld hop).trans hstop
  case reads ha hread => cases hread <;> exact hstop
  case closes c hclose => cases hclose <;> first | exact hstop | rfl
  all_goals first | exact hstop | rfl

/-- Once it is set no call of `wait()` goes to sleep. -/
theorem Step.waiters (h : Step dirsToOverride s a s') (hstop : s.world.shouldStop = true)
    (hw : ∀ w, s.waiter w ≠ .sleeping) : ∀ w, s'.waiter w ≠ .sleeping := by
  intro v
  have hv := hw v
  have hwake : s.notifyStop.waiter v ≠ .sleeping := by
    show (s.waiter v).wake ≠ .sleeping
    cases hpc : s.waiter v <;> simp [WaiterPc.wake]
  cases h
  case waitSleeps w hpc hclear =>
    rw [hstop] at hclear
    cases hclear
  case enters w hpc | waitEnds w hpc _ | waitWakes w hpc =>
    rw [State.setWaiter_waiter]
    split
    · simp
    · exact hv
  case reads ha hread => cases hread <;> exact hv
  case closes c hclose => cases hclose <;> first | exact hv | exact hwake
  all_goals first | exact hv | exact hwake

/-- What wakes the reader is still in the pipe, or the reader has taken it and returns. -/
theorem Step.readerWoken (h : Step dirsToOverride s a s') (hstop : s.world.shouldStop = true)
    (hr : 0 < s.pipe ∨ s.reader.returning = true) :
    0 < s'.pipe ∨ s'.reader.returning = true := by
  have hpipe : s.reader.returning = false → 0 < s.pipe := by
    intro hout
    rcases hr with hpipe | hin
    · exact hpipe
    · rw [hout] at hin
      cases hin
  cases h
  case reads ha hread =>
    left
    rcases ha with ⟨-, -, hclear⟩ | ⟨piece, stage, buffer, -, -, hpc⟩
    · rw [hstop] at hclear
      cases hclear
    · cases hread <;> exact hpipe (by rw [hpc]; rfl)
  case ready hpc hempty =>
    have := hpipe (by rw [hpc]; rfl)
    omega
  case pushLocks hpc _ | pushes hpc => exact .inl (hpipe (by rw [hpc]; rfl))
  case readerLeaves | readFails | cancelled | notifiesOne | notifiesNone | readerCatches |
      readerNotifies => exact .inr rfl
  case closes c hclose =>
    cases hclose
    case pipes => exact .inl (Nat.succ_pos s.pipe)
    all_goals exact hr
  all_goals exact hr

/-- The queue is never opened again. -/
theorem Step.queueShut (h : Step dirsToOverride s a s') (hshut : s.queueShutdown = true) :
    s'.queueShutdown = true := by
  cases h
  case reads ha hread => cases hread <;> exact hshut
  case closes c hclose => cases hclose <;> first | exact hshut | rfl
  all_goals exact hshut

/-- Once it is shut down no handler goes to sleep in `pop`. -/
theorem Step.handlers (h : Step dirsToOverride s a s') (hshut : s.queueShutdown = true)
    (hrest : ∀ i, (s.handler i).resting = false) : ∀ i, (s'.handler i).resting = false := by
  intro j
  have hj := hrest j
  have hmove : ∀ {t : State n} {i : Fin n} {pc : HandlerPc}, t.handler = s.handler →
      pc.resting = false → ((t.setHandler i pc).handler j).resting = false := by
    intro t i pc ht hpc
    rw [State.setHandler_handler, ht]
    split
    · exact hpc
    · exact hj
  cases h
  case waitBlocks i hpc hempty hopen =>
    rw [hshut] at hopen
    cases hopen
  case sleeps i hpc =>
    have hi := hrest i
    rw [hpc] at hi
    cases hi
  case reads ha hread => cases hread <;> exact hj
  case closes c hclose =>
    cases hclose
    case returns =>
      show (s.handler j).wake.resting = false
      cases hpc : s.handler j <;> simp [HandlerPc.wake, HandlerPc.resting] at hj ⊢
      all_goals (rw [hpc] at hj; cases hj)
    all_goals exact hj
  case readerLeaves | readFails | cancelled | ready | pushLocks | pushes | notifiesNone |
      readerCatches | readerNotifies | enters | waitEnds | waitSleeps | waitWakes => exact hj
  all_goals exact hmove rfl rfl

/-! ## What the calls of `close()` have done -/

/-- How far a call of `close()` has come. -/
def CloserPc.stage : CloserPc → Nat
  | .idle           => 0
  | .storing        => 1
  | .notifying      => 2
  | .piping         => 3
  | .testing        => 4
  | .shutting       => 5
  | .closing        => 6
  | .clearing       => 7
  | .queueTesting   => 8
  | .queueFlagging  => 9
  | .queueLocking   => 10
  | .queueNotifying => 11
  | .returned       => 12

/-- Each call has done what lies behind it. A queue that is shut down has no sleepers, or a call
that has flagged it has yet to wake them. -/
structure Woken (s : State n) : Prop where
  exclusive : Mutex.Exclusive s.mutex
  stopped : ∀ c, 2 ≤ (s.closer c).stage → s.world.shouldStop = true
  waiters : ∀ c, 3 ≤ (s.closer c).stage → ∀ w, s.waiter w ≠ .sleeping
  reader : ∀ c, 4 ≤ (s.closer c).stage → 0 < s.pipe ∨ s.reader.returning = true
  queue : ∀ c, 10 ≤ (s.closer c).stage → s.queueShutdown = true
  handlers : s.queueShutdown = true →
    (∃ c, s.closer c = .queueLocking ∨ s.closer c = .queueNotifying) ∨
      ∀ i, (s.handler i).resting = false

theorem woken_init : Woken (init n) where
  exclusive := by
    intro T
    cases T <;> simp [State.mutex, State.holdsMx, init, ReaderPc.holdsMx, HandlerPc.holdsMx,
      CloserPc.holdsMx]
  stopped := by intro c hc; cases hc
  waiters := by intro c hc; cases hc
  reader := by intro c hc; cases hc
  queue := by intro c hc; cases hc
  handlers := by intro h; cases h

/-- With the mutex in its hands, a call of `close()` meets no handler that is about to sleep. -/
theorem Woken.notifyQueue (hs : Woken s) {c : Nat} (hpc : s.closer c = .queueNotifying)
    (i : Fin n) : (s.handler i).wake.resting = false := by
  cases hi : s.handler i with
  | blocking =>
      exfalso
      have hcloser : s.mutex.inside (.closer c) = true := by
        show (s.closer c).holdsMx = true
        rw [hpc]
        rfl
      have hhandler : s.mutex.inside (.handler i) = true := by
        show (s.handler i).holdsMx = true
        rw [hi]
        rfl
      cases hs.exclusive.unique hcloser hhandler
  | _ => rfl

@[simp] theorem WaiterPc.wake_ne_sleeping (pc : WaiterPc) : pc.wake ≠ .sleeping := by
  cases pc <;> simp [WaiterPc.wake]

/-- A call of `close()` moves no other. -/
theorem Closing.closer_other {c d : Nat} (h : Closing s c s') (hdc : d ≠ c) :
    s'.closer d = s.closer d := by
  cases h <;> exact (State.setCloser_closer ..).trans (if_neg hdc)

/-- What a call of `close()` has done when it comes to a stage. -/
theorem Closing.reaches {c : Nat} (h : Closing s c s') {d : Nat} :
    (¬ 2 ≤ (s.closer d).stage → 2 ≤ (s'.closer d).stage → s'.world.shouldStop = true) ∧
    (¬ 3 ≤ (s.closer d).stage → 3 ≤ (s'.closer d).stage → ∀ w, s'.waiter w ≠ .sleeping) ∧
    (¬ 4 ≤ (s.closer d).stage → 4 ≤ (s'.closer d).stage → 0 < s'.pipe) ∧
    (¬ 10 ≤ (s.closer d).stage → 10 ≤ (s'.closer d).stage → s'.queueShutdown = true) := by
  by_cases hdc : d = c
  · subst hdc
    cases h <;> simp_all [CloserPc.stage]
  · rw [h.closer_other hdc]
    exact ⟨fun h h' => absurd h' h, fun h h' => absurd h' h, fun h h' => absurd h' h,
      fun h h' => absurd h' h⟩

/-- A queue that a call of `close()` has flagged is not left with sleepers. -/
theorem Woken.closing_handlers (hs : Woken s) {c : Nat} (h : Closing s c s')
    (hshut : s'.queueShutdown = true) :
    (∃ d, s'.closer d = .queueLocking ∨ s'.closer d = .queueNotifying) ∨
      ∀ i, (s'.handler i).resting = false := by
  -- a call that has yet to notify is this one, or stays where it is
  have hother : ∀ {t : State n} {pc : CloserPc}, t.closer = s.closer → t.handler = s.handler →
      s.queueShutdown = true → s.closer c ≠ .queueLocking → s.closer c ≠ .queueNotifying →
      (∃ d, (t.setCloser c pc).closer d = .queueLocking ∨
        (t.setCloser c pc).closer d = .queueNotifying) ∨
        ∀ i, ((t.setCloser c pc).handler i).resting = false := by
    intro t pc hcloser hhandler hflag hlocking hnotifying
    rcases hs.handlers hflag with ⟨d, hd⟩ | hrest
    · left
      refine ⟨d, ?_⟩
      have hdc : d ≠ c := by
        rintro rfl
        rcases hd with hd | hd
        · exact hlocking hd
        · exact hnotifying hd
      rw [State.setCloser_closer, if_neg hdc, hcloser]
      exact hd
    · right
      intro i
      show (t.handler i).resting = false
      rw [hhandler]
      exact hrest i
  cases h
  case flags hpc => exact .inl ⟨c, by simp⟩
  case locks hpc hmx => exact .inl ⟨c, by simp⟩
  case returns hpc => exact .inr (hs.notifyQueue hpc)
  case starts hpc | stores hpc | notifies hpc | pipes hpc | finds hpc _ | skips hpc _ |
      shuts hpc _ | releases hpc _ | clears hpc | returnsEarly hpc _ | goesOn hpc _ =>
    exact hother rfl rfl hshut (by rw [hpc]; simp) (by rw [hpc]; simp)

theorem Woken.step (hs : Woken s) (h : Step dirsToOverride s a s') : Woken s' := by
  have hexclusive : Mutex.Exclusive s'.mutex := by
    rcases h.mutex with hstep | hsame
    · exact hstep.exclusive hs.exclusive
    · rw [hsame]
      exact hs.exclusive
  rcases h.outsideClose with ⟨-, hcloser, hqueue⟩ | ⟨c, rfl, hclose⟩
  · refine ⟨hexclusive, ?_, ?_, ?_, ?_, ?_⟩
    · intro d hd
      rw [hcloser] at hd
      exact h.stopped (hs.stopped d hd)
    · intro d hd
      rw [hcloser] at hd
      exact h.waiters (hs.stopped d (by omega)) (hs.waiters d hd)
    · intro d hd
      rw [hcloser] at hd
      exact h.readerWoken (hs.stopped d (by omega)) (hs.reader d hd)
    · intro d hd
      rw [hcloser] at hd
      rw [hqueue]
      exact hs.queue d hd
    · intro hshut
      rw [hqueue] at hshut
      rw [hcloser]
      rcases hs.handlers hshut with hcall | hrest
      · exact .inl hcall
      · exact .inr (h.handlers hshut hrest)
  · -- what a call has done before stays so, and what it does now is done
    have hreaches := fun d => hclose.reaches (d := d)
    refine ⟨hexclusive, ?_, ?_, ?_, ?_, hs.closing_handlers hclose⟩
    · intro d hd
      by_cases hold : 2 ≤ (s.closer d).stage
      · exact h.stopped (hs.stopped d hold)
      · exact (hreaches d).1 hold hd
    · intro d hd
      by_cases hold : 3 ≤ (s.closer d).stage
      · exact h.waiters (hs.stopped d (by omega)) (hs.waiters d hold)
      · exact (hreaches d).2.1 hold hd
    · intro d hd
      by_cases hold : 4 ≤ (s.closer d).stage
      · exact h.readerWoken (hs.stopped d (by omega)) (hs.reader d hold)
      · exact .inl ((hreaches d).2.2.1 hold hd)
    · intro d hd
      by_cases hold : 10 ≤ (s.closer d).stage
      · exact h.queueShut (hs.queue d hold)
      · exact (hreaches d).2.2.2 hold hd

/-! ## After the calls of `close()` -/

/-- At least one call of `close()` has returned, and none is running. -/
def State.Closed (s : State n) : Prop :=
  (∃ c, s.closer c = .returned) ∧ ∀ c, s.closer c = .idle ∨ s.closer c = .returned

/-- What holds from then on, also while it is called again. -/
structure Settled (s : State n) : Prop where
  stopped : s.world.shouldStop = true
  waiters : ∀ w, s.waiter w ≠ .sleeping
  reader : 0 < s.pipe ∨ s.reader.returning = true
  queue : s.queueShutdown = true
  handlers : ∀ i, (s.handler i).resting = false

theorem Woken.settled (hs : Woken s) (hclosed : s.Closed) : Settled s := by
  obtain ⟨⟨c, hc⟩, hall⟩ := hclosed
  have hstage : (s.closer c).stage = 12 := by rw [hc]; rfl
  have hqueue := hs.queue c (by omega)
  refine ⟨hs.stopped c (by omega), hs.waiters c (by omega), hs.reader c (by omega), hqueue, ?_⟩
  rcases hs.handlers hqueue with ⟨d, hd⟩ | hrest
  · rcases hall d with hidle | hreturned <;> rcases hd with hd | hd <;> simp_all
  · exact hrest

theorem Settled.step (hs : Settled s) (h : Step dirsToOverride s a s') : Settled s' where
  stopped := h.stopped hs.stopped
  waiters := h.waiters hs.stopped hs.waiters
  reader := h.readerWoken hs.stopped hs.reader
  queue := h.queueShut hs.queue
  handlers := h.handlers hs.queue hs.handlers

/-! ## How many steps a thread has left -/

/-- The steps the reader has left once the flag is set. -/
def ReaderPc.stepsLeft : ReaderPc → Nat
  | .left          => 0
  | .testing       => 1
  | .flagged       => 2
  | .notifying     => 2
  | .catching _    => 3
  | .pushing _     => 3
  | .received _    => 4
  | .polling _ _   => 4
  | .receiving _ _ => 5

/-- The handler ends within `k` of its own steps, once the flag is set and the queue shut down. -/
def HandlerPc.EndsWithin : HandlerPc → Nat → Prop
  | .left,           _ => True
  | .testing,        k => 1 ≤ k
  | .flagged,        k => 2 ≤ k
  | .catching _,     k => 3 ≤ k
  | .popping,        k => 4 ≤ k
  | .waiting,        k => 5 ≤ k
  | .locking,        k => 6 ≤ k
  | .woken,          k => 6 ≤ k
  | .sending _ _ _,  k => 4 ≤ k
  | .answering _ _ _, k => 5 ≤ k
  | .running _ _ p,  k => ∃ m, p.AtMost (fun _ => True) m ∧ 2 * m + 6 ≤ k
  | .stopping _ _ p, k => ∃ m, p.AtMost (fun _ => True) m ∧ 2 * m + 7 ≤ k
  | .blocking,       _ => False
  | .sleeping,       _ => False

/-- The thread of the worker ends within `k` of its own steps. -/
def State.EndsWithin (s : State n) : Thread n → Nat → Prop
  | .reader,    k => s.reader.stepsLeft ≤ k
  | .handler i, k => (s.handler i).EndsWithin k
  | _,          _ => False

theorem HandlerPc.wake_eq_self {pc : HandlerPc} (h : pc.resting = false) : pc.wake = pc := by
  cases pc <;> first | rfl | cases h

/-- A step of another thread leaves a thread of the worker where it stands. -/
theorem Settled.endsWithin_other (hs : Settled s) (h : Step dirsToOverride s a s')
    {T : Thread n} (hT : a.thread ≠ T) {k : Nat} (hk : s.EndsWithin T k) : s'.EndsWithin T k := by
  have hreader : a.thread ≠ .reader → s'.reader = s.reader := by
    intro ha
    cases h
    case reads haction hread =>
      rcases haction with ⟨rfl, -⟩ | ⟨_, _, _, rfl, -⟩ <;> exact absurd rfl ha
    case readFails haction =>
      rcases haction with ⟨_, _, -, rfl⟩ | ⟨_, _, -, rfl | rfl⟩ <;> exact absurd rfl ha
    case closes c hclose => cases hclose <;> rfl
    all_goals first | rfl | exact absurd rfl ha
  have hhandler : ∀ j, a.thread ≠ .handler j → s'.handler j = s.handler j := by
    intro j ha
    have hmove : ∀ {t : State n} {i : Fin n} {pc : HandlerPc}, t.handler = s.handler →
        j ≠ i → (t.setHandler i pc).handler j = s.handler j := by
      intro t i pc ht hji
      rw [State.setHandler_handler, if_neg hji, ht]
    cases h
    case reads haction hread => cases hread <;> rfl
    case notifiesOne i hr hi =>
      have hrest := hs.handlers i
      rw [hi] at hrest
      cases hrest
    case closes c hclose =>
      cases hclose
      case returns => exact HandlerPc.wake_eq_self (hs.handlers j)
      all_goals rfl
    case readerLeaves | readFails | cancelled | ready | pushLocks | pushes | notifiesNone |
        readerCatches | readerNotifies | enters | waitEnds | waitSleeps | waitWakes => rfl
    all_goals exact hmove rfl fun hji => ha (by rw [hji]; rfl)
  cases T with
  | reader =>
      show s'.reader.stepsLeft ≤ k
      rw [hreader hT]
      exact hk
  | handler j =>
      show (s'.handler j).EndsWithin k
      rw [hhandler j hT]
      exact hk
  | waiter w => exact hk
  | closer c => exact hk

/-- A step of the thread itself is one of those it has left. -/
theorem Settled.endsWithin_own (hs : Settled s) (h : Step dirsToOverride s a s') {k : Nat}
    (hk : s.EndsWithin a.thread k) : ∃ m, k = m + 1 ∧ s'.EndsWithin a.thread m := by
  -- the reader moves on
  have hread : ∀ {t : State n} {pc pc' : ReaderPc}, s.reader = pc → t.reader = pc' →
      pc'.stepsLeft < pc.stepsLeft → a.thread = .reader →
      ∃ m, k = m + 1 ∧ t.EndsWithin a.thread m := by
    intro t pc pc' hpc hpc' hlt ha
    rw [ha] at hk ⊢
    have hle : pc.stepsLeft ≤ k := by
      rw [← hpc]
      exact hk
    refine ⟨k - 1, by omega, ?_⟩
    show t.reader.stepsLeft ≤ k - 1
    rw [hpc']
    omega
  -- a handler moves on
  have hmove : ∀ {t : State n} {i : Fin n} {pc pc' : HandlerPc}, s.handler i = pc →
      (pc.EndsWithin k → ∃ m, k = m + 1 ∧ pc'.EndsWithin m) → a.thread = .handler i →
      ∃ m, k = m + 1 ∧ (t.setHandler i pc').EndsWithin a.thread m := by
    intro t i pc pc' hpc hnext ha
    rw [ha] at hk ⊢
    obtain ⟨m, hm, hend⟩ := hnext (by rw [← hpc]; exact hk)
    refine ⟨m, hm, ?_⟩
    show ((t.setHandler i pc').handler i).EndsWithin m
    rw [State.setHandler_handler, if_pos rfl]
    exact hend
  -- most of its steps are counted one by one
  have hcount : ∀ {pc pc' : HandlerPc} {l : Nat}, (∀ j, pc.EndsWithin j → l + 1 ≤ j) →
      (∀ j, l ≤ j → pc'.EndsWithin j) → pc.EndsWithin k → ∃ m, k = m + 1 ∧ pc'.EndsWithin m := by
    intro pc pc' l hpc hpc' hend
    have := hpc k hend
    exact ⟨k - 1, by omega, hpc' _ (by omega)⟩
  cases h
  case readerLeaves hr hstop => exact hread hr rfl (by simp [ReaderPc.stepsLeft]) rfl
  case reads haction hreading =>
    rcases haction with ⟨-, -, hclear⟩ | ⟨piece, stage, buffer, rfl, -, hr⟩
    · rw [hs.stopped] at hclear
      cases hclear
    · cases hreading <;> exact hread hr rfl (by simp [ReaderPc.stepsLeft]) rfl
  case readFails e haction =>
    rcases haction with ⟨stage, buffer, hr, rfl⟩ | ⟨stage, buffer, hr, rfl | rfl⟩ <;>
      exact hread hr rfl (by simp [ReaderPc.stepsLeft]) rfl
  case cancelled stage buffer e hr hpipe =>
    exact hread hr rfl (by simp [ReaderPc.stepsLeft]) rfl
  case ready stage buffer hr hempty =>
    rcases hs.reader with hpipe | hreturning
    · omega
    · rw [hr] at hreturning
      cases hreturning
  case pushLocks c hr hmx => exact hread hr rfl (by simp [ReaderPc.stepsLeft]) rfl
  case pushes c hr => exact hread hr rfl (by simp [ReaderPc.stepsLeft]) rfl
  case notifiesOne i hr hi => exact hread hr rfl (by simp [ReaderPc.stepsLeft]) rfl
  case notifiesNone hr hall => exact hread hr rfl (by simp [ReaderPc.stepsLeft]) rfl
  case readerCatches e hr => exact hread hr rfl (by simp [ReaderPc.stepsLeft]) rfl
  case readerNotifies hr => exact hread hr rfl (by simp [ReaderPc.stepsLeft]) rfl
  case leaves i hpc hstop => exact hmove hpc (@hcount _ _ 0 (fun j h => h) fun j h => trivial) rfl
  case loops i hpc hclear =>
    rw [hs.stopped] at hclear
    cases hclear
  case popLocks i hpc hmx =>
    rcases hpc with hpc | hpc <;>
      exact hmove hpc (@hcount _ _ 5 (fun j h => h) fun j h => h) rfl
  case waitReturns i hpc htest =>
    exact hmove hpc (@hcount _ _ 4 (fun j h => h) fun j h => h) rfl
  case waitBlocks i hpc hempty hopen =>
    rw [hs.queue] at hopen
    cases hopen
  case sleeps i hpc =>
    have hrest := hs.handlers i
    rw [hpc] at hrest
    cases hrest
  case popThrows i e hpc hshut =>
    exact hmove hpc (@hcount _ _ 3 (fun j h => h) fun j h => h) rfl
  case pops i c rest hpc hopen hq =>
    rw [hs.queue] at hopen
    cases hopen
  case performs i e c es p q world hpc hresume hworld hop =>
    refine hmove hpc ?_ rfl
    rintro ⟨l, hl, hle⟩
    obtain ⟨-, m, rfl, hq⟩ := hl.resume hresume
    exact ⟨k - 1, by omega, m, hq, by omega⟩
  case disconnects i e c es p q hpc hresume hop =>
    refine hmove hpc ?_ rfl
    rintro ⟨l, hl, hle⟩
    obtain ⟨-, m, rfl, hq⟩ := hl.resume hresume
    exact ⟨k - 1, by omega, m, hq, by omega⟩
  case disconnectNotifies i c es p hpc =>
    refine hmove hpc ?_ rfl
    rintro ⟨l, hl, hle⟩
    exact ⟨k - 1, by omega, l, hl, by omega⟩
  case returns i c es m hpc =>
    refine hmove hpc ?_ rfl
    rintro ⟨l, -, hle⟩
    exact ⟨k - 1, by omega, show 5 ≤ k - 1 by omega⟩
  case throws i c es e hpc =>
    refine hmove hpc ?_ rfl
    rintro ⟨l, -, hle⟩
    exact ⟨k - 1, by omega, show 3 ≤ k - 1 by omega⟩
  case writeLocks i c es m hpc hmx =>
    exact hmove hpc (@hcount _ _ 4 (fun j h => h) fun j h => h) rfl
  case sends i c es m hpc hconn =>
    refine hmove hpc (@hcount _ _ 1 ?_ fun j h => h) rfl
    intro j hj
    have hj : 4 ≤ j := hj
    omega
  case sendFails i c es m e hpc =>
    exact hmove hpc (@hcount _ _ 3 (fun j h => h) fun j h => h) rfl
  case catches i e hpc => exact hmove hpc (@hcount _ _ 2 (fun j h => h) fun j h => h) rfl
  case notifies i hpc => exact hmove hpc (@hcount _ _ 1 (fun j h => h) fun j h => h) rfl
  case wakes i hpc =>
    have hrest := hs.handlers i
    rw [hpc] at hrest
    cases hrest
  case enters | waitEnds | waitSleeps | waitWakes | closes => exact hk.elim

/-- Of its own steps a thread of the worker takes no more than it has left, however the others
move. -/
theorem Settled.endsWithin_run {T : Thread n} {as : List (Action n)} {k : Nat} (hs : Settled s)
    (hk : s.EndsWithin T k) (hrun : run (Worker.step dirsToOverride) s as = some s') :
    ∃ m, k = as.countP (fun a => decide (a.thread = T)) + m ∧ s'.EndsWithin T m := by
  induction as generalizing s k with
  | nil =>
      cases hrun
      exact ⟨k, by simp, hk⟩
  | cons a as ih =>
      obtain ⟨s₁, hstep, hrest⟩ := run_cons_iff.mp hrun
      have h := step_cases hstep
      by_cases ha : a.thread = T
      · subst ha
        obtain ⟨k', rfl, hk'⟩ := hs.endsWithin_own h hk
        obtain ⟨m, rfl, hm⟩ := ih (hs.step h) hk' hrest
        refine ⟨m, ?_, hm⟩
        rw [List.countP_cons_of_pos (by simp)]
        omega
      · obtain ⟨m, rfl, hm⟩ := ih (hs.step h) (hs.endsWithin_other h ha hk) hrest
        refine ⟨m, ?_, hm⟩
        rw [List.countP_cons_of_neg (by simpa using ha)]

/-- Every handler has only so many steps left, since every command is bounded. -/
theorem Settled.exists_endsWithin (hs : Settled s) (ht : Traced dirsToOverride s) (i : Fin n) :
    ∃ k, (s.handler i).EndsWithin k := by
  have hcommand : ∀ c es p, (s.handler i).work? = some (c, es, p) →
      ∃ k, p.AtMost (fun _ => True) k := by
    intro c es p hwork
    obtain ⟨k, hk⟩ := doCommand_atMost dirsToOverride c.item
    exact ⟨k, (hk.residual (ht.handler i c es p hwork)).imp fun op _ => trivial⟩
  have hrest := hs.handlers i
  cases hpc : s.handler i with
  | left => exact ⟨0, trivial⟩
  | testing => exact ⟨1, Nat.le_refl _⟩
  | flagged => exact ⟨2, Nat.le_refl _⟩
  | catching e => exact ⟨3, Nat.le_refl _⟩
  | popping => exact ⟨4, Nat.le_refl _⟩
  | waiting => exact ⟨5, Nat.le_refl _⟩
  | locking => exact ⟨6, Nat.le_refl _⟩
  | woken => exact ⟨6, Nat.le_refl _⟩
  | sending c es m => exact ⟨4, Nat.le_refl _⟩
  | answering c es m => exact ⟨5, Nat.le_refl _⟩
  | running c es p =>
      obtain ⟨k, hk⟩ := hcommand c es p (by rw [hpc]; rfl)
      exact ⟨2 * k + 6, k, hk, Nat.le_refl _⟩
  | stopping c es p =>
      obtain ⟨k, hk⟩ := hcommand c es p (by rw [hpc]; rfl)
      exact ⟨2 * k + 7, k, hk, Nat.le_refl _⟩
  | blocking =>
      rw [hpc] at hrest
      cases hrest
  | sleeping =>
      rw [hpc] at hrest
      cases hrest

/-! ## Who waits for whom -/

/-- The handler stands between the lock and the unlock of `_write_mx`. -/
def HandlerPc.holdsWriteMx : HandlerPc → Bool
  | .sending _ _ _ => true
  | _              => false

@[simp] theorem HandlerPc.wake_holdsWriteMx (pc : HandlerPc) :
    pc.wake.holdsWriteMx = pc.holdsWriteMx := by
  cases pc <;> rfl

/-- Whoever owns `_write_mx` is in `send`. -/
def WriteMxHeld (s : State n) : Prop :=
  ∀ j, s.writeMx = some j → (s.handler j).holdsWriteMx = true

theorem WriteMxHeld.step (hs : WriteMxHeld s) (h : Step dirsToOverride s a s') :
    WriteMxHeld s' := by
  intro j hj
  have hmove : ∀ {t : State n} {i : Fin n} {pc : HandlerPc}, t.writeMx = s.writeMx →
      t.handler = s.handler → t.writeMx = some j → (s.handler i).holdsWriteMx = false →
      ((t.setHandler i pc).handler j).holdsWriteMx = true := by
    intro t i pc hmx ht howner hout
    rw [hmx] at howner
    have hheld := hs j howner
    have hji : j ≠ i := by
      rintro rfl
      rw [hout] at hheld
      cases hheld
    rw [State.setHandler_handler, if_neg hji, ht]
    exact hheld
  cases h
  case reads ha hread => cases hread <;> exact hs j hj
  case closes c hclose =>
    cases hclose
    case returns =>
      have hheld := hs j hj
      show (s.handler j).wake.holdsWriteMx = true
      rw [HandlerPc.wake_holdsWriteMx]
      exact hheld
    all_goals exact hs j hj
  case writeLocks i c es m hpc hmx =>
    cases hj
    simp [HandlerPc.holdsWriteMx]
  case sends | sendFails => cases hj
  case popLocks i hpc hmx =>
    rcases hpc with hpc | hpc <;> exact hmove rfl rfl hj (by rw [hpc]; rfl)
  case notifiesOne i hr hi => exact hmove rfl rfl hj (by rw [hi]; rfl)
  case leaves i hpc _ | loops i hpc _ | waitReturns i hpc _ | waitBlocks i hpc _ _ |
      sleeps i hpc | popThrows i e hpc _ | pops i c rest hpc _ _ |
      performs i e c es p q world hpc _ _ _ | disconnects i e c es p q hpc _ _ |
      disconnectNotifies i c es p hpc | returns i c es m hpc | throws i c es e hpc |
      catches i e hpc | notifies i hpc | wakes i hpc =>
    exact hmove rfl rfl hj (by rw [hpc]; rfl)
  all_goals exact hs j hj

/-- The thread is at the lock of a mutex that the other one owns. -/
def State.Awaits (s : State n) : Thread n → Thread n → Prop
  | .reader,    U => (∃ c, s.reader = .received c) ∧ s.queueMx = some U
  | .handler i, U =>
      ((s.handler i = .locking ∨ s.handler i = .woken) ∧ s.queueMx = some U) ∨
        ((∃ c es m, s.handler i = .answering c es m) ∧ ∃ j, s.writeMx = some j ∧ U = .handler j)
  | _,          _ => False

/-- It can take a step of its own. -/
def State.CanStep (dirsToOverride : DirsToOverride) (s : State n) (T : Thread n) : Prop :=
  ∃ a, a.thread = T ∧ (step dirsToOverride s a).isSome = true

/-- The thread of the worker has returned. -/
def State.Left (s : State n) : Thread n → Prop
  | .reader    => s.reader = .left
  | .handler i => s.handler i = .left
  | _          => False

/-- The threads that `run()` starts. -/
def Thread.IsWorker : Thread n → Prop
  | .reader    => True
  | .handler _ => True
  | _          => False

/-- Inside `_mx` nothing is waited for. -/
theorem notifyOne_none (hr : s.reader = .notifying) (hnone : ∀ i, s.handler i ≠ .sleeping) :
    (s.notifyOne none).isSome = true := by
  unfold State.notifyOne
  rw [hr]
  refine congrArg Option.isSome (if_pos ?_)
  intro i
  cases hpc : s.handler i with
  | sleeping => exact absurd hpc (hnone i)
  | _ => rfl

theorem Settled.canStep_of_holdsMx (hs : Settled s) {T : Thread n} (hT : T.IsWorker)
    (hin : s.holdsMx T = true) : s.CanStep dirsToOverride T := by
  cases T with
  | waiter w => exact hT.elim
  | closer c => exact hT.elim
  | reader =>
      cases hr : s.reader with
      | pushing c => exact ⟨.reader, rfl, by simp [Worker.step, State.stepReader, hr]⟩
      | notifying =>
          refine ⟨.notifyOne none, rfl, notifyOne_none hr ?_⟩
          intro i hpc
          have hrest := hs.handlers i
          rw [hpc] at hrest
          cases hrest
      | _ =>
          rw [State.holdsMx, hr] at hin
          cases hin
  | handler i =>
      cases hpc : s.handler i with
      | waiting => exact ⟨.handler i, rfl, by simp [Worker.step, State.stepHandler, hpc]⟩
      | blocking => exact ⟨.handler i, rfl, by simp [Worker.step, State.stepHandler, hpc]⟩
      | popping => exact ⟨.handler i, rfl, by simp [Worker.step, State.stepHandler, hpc, hs.queue]⟩
      | _ =>
          rw [State.holdsMx, hpc] at hin
          cases hin

/-- A command that is running has a next operation, and the system an answer to it. -/
theorem canStep_of_running {i : Fin n} {c : Command} {es : Events} {p : WorkerProg Message}
    (hpc : s.handler i = .running c es p) : s.CanStep dirsToOverride (.handler i) := by
  cases p with
  | pure m => exact ⟨.handler i, rfl, by simp [step, State.stepHandler, hpc]⟩
  | throw e => exact ⟨.handler i, rfl, by simp [step, State.stepHandler, hpc]⟩
  | perform op k =>
      obtain ⟨x, world, hworld⟩ := World.step_total i s.world op
      have hresume : (Prog.perform op k).resume ⟨op, x⟩ = some (k x) :=
        Prog.resume_iff.mpr ⟨k, rfl, rfl⟩
      refine ⟨.op i ⟨op, x⟩, rfl, ?_⟩
      simp only [step, State.op, hpc, hresume, hworld, Option.bind_eq_bind, Option.bind_some]
      split <;> rfl

/-- **No thread of the worker is stuck**: as long as it has not returned, it can move, or it is at
the lock of a mutex whose owner can. -/
theorem Settled.progress (hs : Settled s) (hexclusive : Mutex.Exclusive s.mutex)
    (hwrite : WriteMxHeld s) (hclosed : s.Closed) {T : Thread n} (hT : T.IsWorker)
    (hleft : ¬ s.Left T) :
    s.CanStep dirsToOverride T ∨ ∃ U, s.Awaits T U ∧ s.CanStep dirsToOverride U := by
  -- the owner of `_mx` is no call of `close()`, for none is running
  have howner : ∀ U, s.queueMx = some U → s.CanStep dirsToOverride U := by
    intro U hU
    have hin : s.holdsMx U = true := (hexclusive U).mpr hU
    refine hs.canStep_of_holdsMx ?_ hin
    cases U with
    | reader => trivial
    | handler i => trivial
    | waiter w => cases hin
    | closer c =>
        have hin : (s.closer c).holdsMx = true := hin
        rcases hclosed.2 c with hc | hc <;> (rw [hc] at hin; cases hin)
  cases T with
  | waiter w => exact hT.elim
  | closer c => exact hT.elim
  | reader =>
      have hmove : s.stepReader.isSome = true → s.CanStep dirsToOverride .reader :=
        fun h => ⟨.reader, rfl, h⟩
      cases hr : s.reader with
      | left => exact absurd hr hleft
      | testing => exact .inl (hmove (by simp [State.stepReader, hr]))
      | polling stage buffer =>
          left
          refine ⟨.poll .pipeReadable, rfl, ?_⟩
          have hpipe : 0 < s.pipe := by
            rcases hs.reader with hpipe | hreturning
            · exact hpipe
            · rw [hr] at hreturning
              cases hreturning
          simp [Worker.step, State.poll, hr, hpipe]
      | receiving stage buffer =>
          exact .inl ⟨.recv none, rfl, by simp [Worker.step, State.recv, hr]⟩
      | received c =>
          cases hmx : s.queueMx with
          | none => exact .inl (hmove (by simp [State.stepReader, hr, hmx]))
          | some U => exact .inr ⟨U, ⟨⟨c, hr⟩, hmx⟩, howner U hmx⟩
      | pushing c => exact .inl (hmove (by simp [State.stepReader, hr]))
      | notifying =>
          have hin : s.holdsMx .reader = true := by
            rw [State.holdsMx, hr]
            rfl
          exact .inl (hs.canStep_of_holdsMx hT hin)
      | catching e => exact .inl (hmove (by simp [State.stepReader, hr]))
      | flagged => exact .inl (hmove (by simp [State.stepReader, hr]))
  | handler i =>
      have hmove : (s.stepHandler dirsToOverride i).isSome = true →
          s.CanStep dirsToOverride (.handler i) := fun h => ⟨.handler i, rfl, h⟩
      have hlock : s.handler i = .locking ∨ s.handler i = .woken →
          s.CanStep dirsToOverride (.handler i) ∨
            ∃ U, s.Awaits (.handler i) U ∧ s.CanStep dirsToOverride U := by
        intro hpc
        cases hmx : s.queueMx with
        | none =>
            left
            rcases hpc with hpc | hpc <;> exact hmove (by simp [State.stepHandler, hpc, hmx])
        | some U => exact .inr ⟨U, .inl ⟨hpc, hmx⟩, howner U hmx⟩
      have hmiddle : (s.handler i).holdsMx = true → s.CanStep dirsToOverride (.handler i) :=
        fun hin => hs.canStep_of_holdsMx hT hin
      cases hpc : s.handler i with
      | left => exact absurd hpc hleft
      | testing => exact .inl (hmove (by simp [State.stepHandler, hpc]))
      | locking => exact hlock (.inl hpc)
      | woken => exact hlock (.inr hpc)
      | waiting => exact .inl (hmiddle (by rw [hpc]; rfl))
      | blocking => exact .inl (hmiddle (by rw [hpc]; rfl))
      | popping => exact .inl (hmiddle (by rw [hpc]; rfl))
      | sleeping =>
          have hrest := hs.handlers i
          rw [hpc] at hrest
          cases hrest
      | running c es p => exact .inl (canStep_of_running hpc)
      | stopping c es p => exact .inl (hmove (by simp [State.stepHandler, hpc]))
      | answering c es m =>
          cases hmx : s.writeMx with
          | none =>
              exact .inl (hmove (by simp [State.stepHandler, hpc, MessageTransport.frame_eq, hmx]))
          | some j =>
              -- the owner is in `send`, which returns
              right
              refine ⟨.handler j, .inr ⟨⟨c, es, m, hpc⟩, j, hmx, rfl⟩, ?_⟩
              have hheld := hwrite j hmx
              cases hj : s.handler j with
              | sending c' es' m' =>
                  exact ⟨.send j (some transportClosed), rfl, by
                    simp [Worker.step, State.send, hj]⟩
              | _ =>
                  rw [hj] at hheld
                  cases hheld
      | sending c es m =>
          exact .inl ⟨.send i (some transportClosed), rfl, by simp [Worker.step, State.send, hpc]⟩
      | catching e => exact .inl (hmove (by simp [State.stepHandler, hpc]))
      | flagged => exact .inl (hmove (by simp [State.stepHandler, hpc]))

/-! ## The result -/

/-- `close()` has been enough: what sleeps has been woken, and what is left to do is bounded. -/
structure NoneStuck (dirsToOverride : DirsToOverride) (s : State n) : Prop where
  /-- A reader in `poll` finds the cancellation pipe readable. -/
  polling : ∀ stage buffer, s.reader = .polling stage buffer → 0 < s.pipe
  /-- No handler sleeps in `pop`. -/
  popping : ∀ i, s.handler i ≠ .sleeping
  /-- A thread of the worker that has not returned can move, or is at the lock of a mutex whose
  owner can. -/
  moving : ∀ T : Thread n, T.IsWorker → ¬ s.Left T →
    s.CanStep dirsToOverride T ∨ ∃ U, s.Awaits T U ∧ s.CanStep dirsToOverride U
  /-- It has a bounded number of its own steps left, whatever the others do, and has returned
  when it has taken them. -/
  returning : ∀ T : Thread n, T.IsWorker → ∃ k, ∀ as s',
    run (step dirsToOverride) s as = some s' →
      as.countP (fun a => decide (a.thread = T)) ≤ k ∧
      (as.countP (fun a => decide (a.thread = T)) = k → s'.Left T)
  /-- `wait()` returns without sleeping. -/
  waiting : ∀ as s', run (step dirsToOverride) s as = some s' → ∀ w,
    s'.waiter w ≠ .sleeping ∧
    (s'.waiter w = .entered ∨ s'.waiter w = .woken →
      step dirsToOverride s' (.waiter w) = some (s'.setWaiter w .returned))

theorem State.EndsWithin.left {T : Thread n} (hT : T.IsWorker) (h : s.EndsWithin T 0) :
    s.Left T := by
  cases T with
  | reader =>
      have hsteps : s.reader.stepsLeft ≤ 0 := h
      show s.reader = .left
      cases hr : s.reader <;> rw [hr] at hsteps <;> first | rfl | cases hsteps
  | handler i =>
      have hend : (s.handler i).EndsWithin 0 := h
      show s.handler i = .left
      cases hpc : s.handler i <;> rw [hpc] at hend <;> simp [HandlerPc.EndsWithin] at hend ⊢
  | waiter w => exact hT.elim
  | closer c => exact hT.elim

/-- **Shutdown leaves no stuck thread**: once a call of `close()` has returned and none is
running, whatever the threads were doing. -/
theorem noneStuck_of_closed {as : List (Action n)}
    (hrun : run (step dirsToOverride) (init n) as = some s) (hclosed : s.Closed) :
    NoneStuck dirsToOverride s := by
  have hwoken : Woken s :=
    run_invariant (fun _ _ _ hs h => hs.step (step_cases h)) woken_init hrun
  have htraced : Traced dirsToOverride s :=
    run_invariant (fun _ _ _ hs h => (step_cases h).traced hs) traced_init hrun
  have hwrite : WriteMxHeld s := by
    refine run_invariant (fun _ _ _ hs h => hs.step (step_cases h)) ?_ hrun
    intro j hj
    cases hj
  have hs := hwoken.settled hclosed
  refine ⟨?_, ?_, ?_, ?_, ?_⟩
  · intro stage buffer hr
    rcases hs.reader with hpipe | hreturning
    · exact hpipe
    · rw [hr] at hreturning
      cases hreturning
  · intro i hi
    have hrest := hs.handlers i
    rw [hi] at hrest
    cases hrest
  · intro T hT hleft
    exact hs.progress hwoken.exclusive hwrite hclosed hT hleft
  · intro T hT
    have hbound : ∃ k, s.EndsWithin T k := by
      cases T with
      | reader => exact ⟨s.reader.stepsLeft, Nat.le_refl _⟩
      | handler i => exact hs.exists_endsWithin htraced i
      | waiter w => exact hT.elim
      | closer c => exact hT.elim
    obtain ⟨k, hk⟩ := hbound
    refine ⟨k, ?_⟩
    intro bs s' hbs
    obtain ⟨m, rfl, hm⟩ := hs.endsWithin_run hk hbs
    refine ⟨by omega, ?_⟩
    intro heq
    obtain rfl : m = 0 := by omega
    exact hm.left hT
  · intro bs s' hbs w
    have hs' : Settled s' := run_invariant (fun _ _ _ hs h => hs.step (step_cases h)) hs hbs
    refine ⟨hs'.waiters w, ?_⟩
    rintro (hpc | hpc) <;> simp [step, State.stepWaiter, hpc, hs'.stopped]

/-- A call of `close()` that has not been made stays so. -/
theorem closer_eq_of_not_mem {c : Nat} {as : List (Action n)} (hc : Action.closer c ∉ as)
    (hrun : run (step dirsToOverride) s as = some s') : s'.closer c = s.closer c := by
  induction as generalizing s with
  | nil =>
      cases hrun
      rfl
  | cons a as ih =>
      obtain ⟨s₁, hstep, hrest⟩ := run_cons_iff.mp hrun
      rw [List.mem_cons, not_or] at hc
      rw [ih hc.2 hrest]
      rcases (step_cases hstep).outsideClose with ⟨-, hcloser, -⟩ | ⟨d, rfl, hclose⟩
      · rw [hcloser]
      · exact hclose.closer_other fun heq => hc.1 (by rw [heq])

/-- The reader polls, the handler and a call of `wait()` sleep, and then `close()` is called. -/
def closeWhileAsleep : List (Action 1) :=
  [.reader, .handler 0, .handler 0, .handler 0, .handler 0, .waiter 0, .waiter 0] ++
    List.replicate 12 (.closer 0)

/-- All of them have been woken. -/
theorem noneStuck_closeWhileAsleep :
    ∃ s : State 1, run (step []) (init 1) closeWhileAsleep = some s ∧
      s.reader = .polling .header [] ∧ s.waiter 0 = .woken ∧ NoneStuck [] s := by
  have hseen : (run (step []) (init 1) closeWhileAsleep).map (fun s =>
      (s.reader, s.waiter 0, s.closer 0)) = some (.polling .header [], .woken, .returned) := by
    decide +kernel
  obtain ⟨s, hrun, hs⟩ := Option.map_eq_some_iff.mp hseen
  simp only [Prod.mk.injEq] at hs
  obtain ⟨hreader, hwaiter, hcloser⟩ := hs
  have hothers : ∀ c, c ≠ 0 → s.closer c = .idle := by
    intro c hc
    refine closer_eq_of_not_mem ?_ hrun
    intro hmem
    simp [closeWhileAsleep, hc] at hmem
  have hclosed : s.Closed := by
    refine ⟨⟨0, hcloser⟩, ?_⟩
    intro c
    by_cases hc : c = 0
    · subst hc
      exact .inr hcloser
    · exact .inl (hothers c hc)
  exact ⟨s, hrun, hreader, hwaiter, noneStuck_of_closed hrun hclosed⟩

end Worker

end ZControl
