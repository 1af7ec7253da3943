import ZControl.Connection.Frames
import ZControl.Worker.Shutdown

/-!
# A worker that has work can move

While the transport works, and neither `close()` nor a `Disconnect` has come, some handler is awake
whenever there is a message in the queue: the wake-up of a `push` cannot be lost, since a handler
tests the queue and goes to sleep without releasing the mutex in between. So as long as a message
that was read has no answer, a thread can take a step.
-/

namespace ZControl

open Interaction Transition MessageTransport

namespace Worker

variable {n : Nat} {dirsToOverride : DirsToOverride} {s s' : State n} {a : Action n}

/-- A step of the worker's threads that needs nothing from outside but that its calls go well. -/
def Internal : Action n → Prop
  | .reader | .notifyOne _ | .handler _ | .op _ _ => True
  | .send _ failure                               => failure = none
  | _                                             => False

/-! ## The reader waits for bytes only where some are missing -/

def Hungry (s : State n) : Prop :=
  ∀ stage buffer, s.reader = .polling stage buffer ∨ s.reader = .receiving stage buffer →
    buffer.length < stage.count

theorem hungry_init : Hungry (init n) := by
  intro stage buffer hr
  rcases hr with hr | hr <;> cases hr

theorem hungry_readOn {stage : ReadStage} {buffer : Bytes} (hle : buffer.length ≤ stage.count) :
    Hungry (s.readOn stage buffer) := by
  have hreach := progress_reaches hle
  rw [readOn_progress]
  generalize progress stage buffer = p at hreach
  cases hreach with
  | waits stage' buffer' hbytes hlt =>
      intro stage'' buffer'' hr
      rcases hr with hr | hr <;> cases hr
      exact hlt
  | returns m hbytes hm =>
      intro stage'' buffer'' hr
      rcases hr with hr | hr <;> cases hr

theorem Hungry.step (hs : Hungry s) (h : Worker.step dirsToOverride s a = some s') :
    Hungry s' := by
  have hother : (∀ stage buffer, s'.reader ≠ .polling stage buffer ∧
      s'.reader ≠ .receiving stage buffer) → Hungry s' := by
    intro hne stage buffer hr
    rcases hr with hr | hr
    · exact absurd hr (hne stage buffer).1
    · exact absurd hr (hne stage buffer).2
  have hstep := step_cases h
  cases hstep
  case reads ha hread =>
    rcases ha with ⟨rfl, hr, hclear⟩ | ⟨piece, stage, buffer, rfl, hne, hr⟩
    · simp only [Worker.step, State.stepReader, hr, hclear, Bool.false_eq_true, if_false,
        Option.some.injEq] at h
      rw [← h]
      exact hungry_readOn (Nat.zero_le _)
    · simp only [Worker.step, State.recv, hr, if_neg hne] at h
      split at h
      case isTrue hle =>
        cases h
        exact hungry_readOn (by rw [List.length_append]; exact hle)
      case isFalse => cases h
  case ready stage buffer hr hpipe =>
    intro stage' buffer' hr'
    rcases hr' with hr' | hr' <;> cases hr'
    exact hs stage buffer (.inl hr)
  case closes c hclose => cases hclose <;> exact hs
  case readerLeaves | readFails | cancelled | pushLocks | pushes | notifiesOne | notifiesNone |
      readerCatches | readerNotifies =>
    refine hother fun stage buffer => ⟨?_, ?_⟩
    · intro hr
      cases hr
    · intro hr
      cases hr
  all_goals exact hs

/-! ## No wake-up is lost -/

/-- Nothing has been closed, and what is in the queue will be found: a handler is awake, or the
reader is about to wake one. -/
structure Wakeful (s : State n) : Prop where
  exclusive : Mutex.Exclusive s.mutex
  writeMx : WriteMxHeld s
  connected : s.socket = .connected
  closers : ∀ c, s.closer c = .idle
  awake : s.queue ≠ [] → s.reader = .notifying ∨ ∃ i, (s.handler i).resting = false
  popping : ∀ i, s.handler i = .popping → s.queue ≠ []

theorem wakeful_init : Wakeful (init n) where
  exclusive := woken_init.exclusive
  writeMx := by intro j hj; cases hj
  connected := rfl
  closers := fun _ => rfl
  awake := by intro h; exact absurd rfl h
  popping := by intro i h; cases h

/-- Only `close()` touches the socket and its own calls. -/
theorem Step.open_of_succeeds (h : Step dirsToOverride s a s') (hok : Succeeds s a) :
    s'.socket = s.socket ∧ s'.closer = s.closer := by
  cases h
  case closes c hclose => exact hok.elim
  case reads ha hread => cases hread <;> exact ⟨rfl, rfl⟩
  all_goals exact ⟨rfl, rfl⟩

/-- With the mutex in its hands, the reader meets no handler that is about to sleep. -/
theorem Wakeful.awake_of_notifying (hs : Wakeful s) (hr : s.reader = .notifying) {i : Fin n}
    (hi : s.handler i ≠ .sleeping) : (s.handler i).resting = false := by
  cases hpc : s.handler i with
  | sleeping => exact absurd hpc hi
  | blocking =>
      exfalso
      have hreader : s.mutex.inside .reader = true := by
        show s.reader.holdsMx = true
        rw [hr]
        rfl
      have hhandler : s.mutex.inside (.handler i) = true := by
        show (s.handler i).holdsMx = true
        rw [hpc]
        rfl
      cases hs.exclusive.unique hreader hhandler
  | _ => rfl

theorem Wakeful.awake_step (hn : 0 < n) (hs : Wakeful s) (h : Step dirsToOverride s a s')
    (hok : Succeeds s a) (hne : s'.queue ≠ []) :
    s'.reader = .notifying ∨ ∃ i, (s'.handler i).resting = false := by
  -- a handler that does not go to sleep
  have hawake : ∀ {t : State n} {i : Fin n} {pc : HandlerPc}, pc.resting = false →
      ∃ j, ((t.setHandler i pc).handler j).resting = false := by
    intro t i pc hpc
    refine ⟨i, ?_⟩
    rw [State.setHandler_handler, if_pos rfl]
    exact hpc
  cases h
  case pushes c hr => exact .inl rfl
  case notifiesNone hr hall =>
    right
    exact ⟨⟨0, hn⟩, hs.awake_of_notifying hr (hall _)⟩
  case waitBlocks i hpc hempty hopen => exact absurd hempty hne
  case sleeps i hpc =>
    rcases hs.awake hne with hr | ⟨j, hj⟩
    · exact .inl hr
    · right
      refine ⟨j, ?_⟩
      have hji : j ≠ i := by
        rintro rfl
        rw [hpc] at hj
        cases hj
      rw [State.setHandler_handler, if_neg hji]
      exact hj
  case closes c hclose => exact hok.elim
  case reads ha hread =>
    have hold : s.reader ≠ .notifying := by
      rcases ha with ⟨-, hr, -⟩ | ⟨_, _, _, -, -, hr⟩ <;> (rw [hr]; nofun)
    cases hread <;> exact .inr ((hs.awake hne).resolve_left hold)
  case readFails e ha =>
    have hold : s.reader ≠ .notifying := by
      rcases ha with ⟨_, _, hr, -⟩ | ⟨_, _, hr, -⟩ <;> (rw [hr]; nofun)
    exact .inr ((hs.awake hne).resolve_left hold)
  case readerLeaves hr _ | cancelled hr _ | ready hr _ | pushLocks hr _ | readerCatches hr |
      readerNotifies hr =>
    exact .inr ((hs.awake hne).resolve_left (by rw [hr]; nofun))
  case enters | waitEnds | waitSleeps | waitWakes => exact hs.awake hne
  all_goals exact .inr (hawake rfl)

/-- What a handler has found in the queue is not taken by another, which would need the mutex. -/
theorem Wakeful.popping_step (hs : Wakeful s) (h : Step dirsToOverride s a s')
    (hok : Succeeds s a) (hopen : s.queueShutdown = false) (i : Fin n)
    (hi : s'.handler i = .popping) : s'.queue ≠ [] := by
  have hmove : ∀ {t : State n} {j : Fin n} {pc : HandlerPc},
      (t.setHandler j pc).handler i = .popping → t.handler = s.handler → t.queue = s.queue →
      pc ≠ .popping → (t.setHandler j pc).queue ≠ [] := by
    intro t j pc hi ht hq hpc
    rw [State.setHandler_handler] at hi
    split at hi
    · exact absurd hi hpc
    · rw [State.setHandler_queue, hq]
      exact hs.popping i (by rw [← ht]; exact hi)
  cases h
  case waitReturns j hpc htest =>
    rcases htest with htest | hshut
    · exact htest
    · rw [hopen] at hshut
      cases hshut
  case pops j c rest hpc _ hq =>
    rw [State.setHandler_handler] at hi
    split at hi
    · cases hi
    · case _ hij =>
      exfalso
      have hinside : ∀ k, s.handler k = .popping → s.mutex.inside (.handler k) = true := by
        intro k hk
        show (s.handler k).holdsMx = true
        rw [hk]
        rfl
      have heq := hs.exclusive.unique (hinside i hi) (hinside j hpc)
      exact hij (by simpa using heq)
  case pushes c hr => simp
  case closes c hclose => exact hok.elim
  case reads ha hread => cases hread <;> exact hs.popping i hi
  case readerLeaves | readFails | cancelled | ready | pushLocks | notifiesNone | readerCatches |
      readerNotifies | enters | waitEnds | waitSleeps | waitWakes => exact hs.popping i hi
  all_goals exact hmove hi rfl rfl nofun

theorem Wakeful.step (hn : 0 < n) (hs : Wakeful s) (h : Step dirsToOverride s a s')
    (hok : Succeeds s a) (hopen : s.queueShutdown = false) : Wakeful s' := by
  obtain ⟨hsocket, hclosers⟩ := h.open_of_succeeds hok
  refine ⟨?_, hs.writeMx.step h, ?_, ?_, hs.awake_step hn h hok, hs.popping_step h hok hopen⟩
  · rcases h.mutex with hstep | hsame
    · exact hstep.exclusive hs.exclusive
    · rw [hsame]
      exact hs.exclusive
  · rw [hsocket]
    exact hs.connected
  · rw [hclosers]
    exact hs.closers

/-! ## Who can move -/

/-- Some thread can take a step of its own. -/
def State.CanMove (dirsToOverride : DirsToOverride) (s : State n) : Prop :=
  ∃ a, Internal a ∧ (step dirsToOverride s a).isSome = true

theorem canMove_handler {i : Fin n} (h : (s.stepHandler dirsToOverride i).isSome = true) :
    s.CanMove dirsToOverride := ⟨.handler i, trivial, h⟩

theorem canMove_reader (h : s.stepReader.isSome = true) : s.CanMove dirsToOverride :=
  ⟨.reader, trivial, h⟩

/-- A command in work has a next operation. -/
theorem canMove_of_running {i : Fin n} {c : Command} {es : Events} {p : WorkerProg Message}
    (hpc : s.handler i = .running c es p) : s.CanMove dirsToOverride := by
  have hcan : s.CanStep dirsToOverride (.handler i) := canStep_of_running hpc
  obtain ⟨a, ha, hstep⟩ := hcan
  refine ⟨a, ?_, hstep⟩
  cases a with
  | handler j | op j e => trivial
  | send j failure | wakeHandler j =>
      obtain rfl : j = i := by simpa [Action.thread] using ha
      simp [Worker.step, State.send, State.wakeHandler, hpc] at hstep
  | _ => cases ha

/-- Inside `_mx` nothing is waited for. -/
theorem Wakeful.canMove_of_holdsMx (hs : Wakeful s) {T : Thread n} (hin : s.holdsMx T = true) :
    s.CanMove dirsToOverride := by
  cases T with
  | waiter w => cases hin
  | closer c =>
      have hin : (s.closer c).holdsMx = true := hin
      rw [hs.closers c] at hin
      cases hin
  | reader =>
      cases hr : s.reader with
      | pushing c => exact canMove_reader (by simp [State.stepReader, hr])
      | notifying =>
          -- `notify_one` wakes a sleeping handler if there is one
          by_cases hsleeping : ∃ i, s.handler i = .sleeping
          · obtain ⟨i, hi⟩ := hsleeping
            exact ⟨.notifyOne (some i), trivial, by simp [Worker.step, State.notifyOne, hr, hi]⟩
          · refine ⟨.notifyOne none, trivial, notifyOne_none hr ?_⟩
            intro i hpc
            exact hsleeping ⟨i, hpc⟩
      | _ =>
          rw [State.holdsMx, hr] at hin
          cases hin
  | handler i =>
      cases hpc : s.handler i with
      | waiting => exact canMove_handler (i := i) (by simp [State.stepHandler, hpc])
      | blocking => exact canMove_handler (i := i) (by simp [State.stepHandler, hpc])
      | popping =>
          refine canMove_handler (i := i) ?_
          obtain ⟨c, rest, hq⟩ := List.exists_cons_of_ne_nil (hs.popping i hpc)
          simp only [State.stepHandler, hpc, hq]
          split <;> rfl
      | _ =>
          rw [State.holdsMx, hpc] at hin
          cases hin

/-- Nobody waits for `_mx` in vain. -/
theorem Wakeful.canMove_of_owned (hs : Wakeful s) {T : Thread n} (howner : s.queueMx = some T) :
    s.CanMove dirsToOverride :=
  hs.canMove_of_holdsMx ((hs.exclusive T).mpr howner)

theorem Wakeful.canMove_of_sending (hs : Wakeful s) {i : Fin n} {c : Command} {es : Events}
    {m : Message} (hpc : s.handler i = .sending c es m) : s.CanMove dirsToOverride :=
  ⟨.send i none, rfl, by simp [Worker.step, State.send, hpc, hs.connected]⟩

/-- A handler that does not sleep in `pop` can move, or another thread can. -/
theorem Wakeful.canMove_of_handler (hs : Wakeful s) (hc : Calm s)
    (hclear : s.world.shouldStop = false) {i : Fin n} (hi : s.handler i ≠ .sleeping) :
    s.CanMove dirsToOverride := by
  have hlock : s.handler i = .locking ∨ s.handler i = .woken → s.CanMove dirsToOverride := by
    intro hpc
    cases hmx : s.queueMx with
    | none =>
        refine canMove_handler (i := i) ?_
        rcases hpc with hpc | hpc <;> simp [State.stepHandler, hpc, hmx]
    | some T => exact hs.canMove_of_owned hmx
  have hmiddle : (s.handler i).holdsMx = true → s.CanMove dirsToOverride :=
    fun hin => hs.canMove_of_holdsMx (T := .handler i) hin
  cases hpc : s.handler i with
  | sleeping => exact absurd hpc hi
  | testing => exact canMove_handler (i := i) (by simp [State.stepHandler, hpc])
  | locking => exact hlock (.inl hpc)
  | woken => exact hlock (.inr hpc)
  | waiting => exact hmiddle (by rw [hpc]; rfl)
  | blocking => exact hmiddle (by rw [hpc]; rfl)
  | popping => exact hmiddle (by rw [hpc]; rfl)
  | running c es p => exact canMove_of_running hpc
  | stopping c es p => exact canMove_handler (i := i) (by simp [State.stepHandler, hpc])
  | answering c es m =>
      cases hmx : s.writeMx with
      | none => exact canMove_handler (i := i) (by simp [State.stepHandler, hpc, frame_eq, hmx])
      | some j =>
          -- the owner is in `send`, which returns
          have hheld := hs.writeMx j hmx
          cases hj : s.handler j with
          | sending c' es' m' => exact hs.canMove_of_sending hj
          | _ =>
              rw [hj] at hheld
              cases hheld
  | sending c es m => exact hs.canMove_of_sending hpc
  | catching e => exact absurd hpc (hc.catching i e)
  | flagged => exact absurd hpc (hc.flagged i)
  | left =>
      have hstop := hc.left i hpc
      rw [hclear] at hstop
      cases hstop

/-- So can the reader, unless it waits for bytes. -/
theorem Wakeful.canMove_of_reader (hs : Wakeful s) (hc : Calm s)
    (hclear : s.world.shouldStop = false) :
    s.CanMove dirsToOverride ∨
      ∃ stage buffer, s.reader = .polling stage buffer ∨ s.reader = .receiving stage buffer := by
  cases hr : s.reader with
  | polling stage buffer => exact .inr ⟨stage, buffer, .inl rfl⟩
  | receiving stage buffer => exact .inr ⟨stage, buffer, .inr rfl⟩
  | testing => exact .inl (canMove_reader (by simp [State.stepReader, hr]))
  | received c =>
      cases hmx : s.queueMx with
      | none => exact .inl (canMove_reader (by simp [State.stepReader, hr, hmx]))
      | some T => exact .inl (hs.canMove_of_owned hmx)
  | pushing c => exact .inl (canMove_reader (by simp [State.stepReader, hr]))
  | notifying => exact .inl (hs.canMove_of_holdsMx (T := .reader) (by rw [State.holdsMx, hr]; rfl))
  | catching e => exact absurd hr (hc.readerCatching e)
  | flagged => exact absurd hr hc.readerFlagged
  | left =>
      have hstop := hc.readerLeft hr
      rw [hclear] at hstop
      cases hstop

/-- As long as a message that was read is not answered, a thread of the worker can move. When none
can, the reader waits for bytes. -/
theorem Serving.canMove (hs : Serving dirsToOverride s) (hw : Wakeful s)
    (hclear : s.world.shouldStop = false) :
    s.CanMove dirsToOverride ∨
      (∃ stage buffer, s.reader = .polling stage buffer ∨ s.reader = .receiving stage buffer) ∧
        ∀ k < s.reads.length, s.Answered k := by
  rcases (hw.canMove_of_reader hs.calm hclear : s.CanMove dirsToOverride ∨ _) with
    hmove | ⟨stage, buffer, hr⟩
  · exact .inl hmove
  · by_cases hawake : ∃ i, s.handler i ≠ .sleeping
    · obtain ⟨i, hi⟩ := hawake
      exact .inl (hw.canMove_of_handler hs.calm hclear hi)
    · right
      have hsleeping : ∀ i, s.handler i = .sleeping := by simpa using hawake
      refine ⟨⟨stage, buffer, hr⟩, ?_⟩
      have hqueue : s.queue = [] := by
        by_contra hne
        rcases hw.awake hne with hnotify | ⟨i, hi⟩
        · rw [hnotify] at hr
          rcases hr with hr | hr <;> cases hr
        · rw [hsleeping i] at hi
          cases hi
      have hproducer : s.reader.command? = none := by
        rcases hr with hr | hr <;> (rw [hr]; rfl)
      -- so a message can only be among those that are finished
      obtain ⟨dequeued, hledger⟩ := hs.ledger
      intro k hk
      obtain ⟨p, t, hp, rfl⟩ := hledger.place_exists hk
      rw [answered_iff]
      cases p with
      | producer =>
          rw [show s.custody.at? .producer = s.reader.command? from rfl, hproducer] at hp
          cases hp
      | queue j =>
          rw [show s.custody.at? (.queue j) = s.queue[j]? from rfl, hqueue] at hp
          cases hp
      | consumer i =>
          rw [show s.custody.at? (.consumer i) = (s.handler i).command? from rfl, hsleeping i]
            at hp
          cases hp
      | finished j => exact ⟨t, List.mem_of_getElem? hp, rfl⟩

end Worker

end ZControl
