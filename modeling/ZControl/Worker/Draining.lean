import ZControl.Worker.Length
import ZControl.Worker.Replies
import ZControl.Worker.Steps

/-!
# Every command is answered once

While the transport works and nobody calls `close()`, the reader, the queue and the handlers are
a work queue: the reader is the producer, a handler is a consumer from the moment it has popped a
message until it has sent the answer. So every message is in exactly one place, and what was read
before a `Disconnect` that has been answered has been handled or is being handled.
-/

namespace ZControl

open Interaction Transition

namespace Worker

variable {n : Nat} {dirsToOverride : DirsToOverride} {s s' : State n} {a : Action n}

/-- The command a handler works on, what it has done so far and what is left of it. -/
def HandlerPc.work? : HandlerPc → Option (Command × Events × WorkerProg Message)
  | .running c es p   => some (c, es, p)
  | .stopping c es p  => some (c, es, p)
  | .answering c es m => some (c, es, .pure m)
  | .sending c es m   => some (c, es, .pure m)
  | _                 => none

def HandlerPc.command? (pc : HandlerPc) : Option Command := pc.work?.map Prod.fst

/-- The message the reader has read and not yet pushed. -/
def ReaderPc.command? : ReaderPc → Option Command
  | .received c => some c
  | .pushing c  => some c
  | _           => none

/-- Where the messages are. -/
def State.custody (s : State n) : WorkQueue.State (Fin n) Message where
  taken := s.reads
  producer := s.reader.command?
  queue := s.queue
  consumer i := (s.handler i).command?
  finished := s.answers.map Answer.command

@[simp] theorem HandlerPc.wake_work? (pc : HandlerPc) : pc.wake.work? = pc.work? := by
  cases pc <;> rfl

@[simp] theorem HandlerPc.wake_command? (pc : HandlerPc) : pc.wake.command? = pc.command? := by
  rw [command?, command?, wake_work?]

theorem custody_setHandler (s : State n) (i : Fin n) (pc : HandlerPc) :
    (s.setHandler i pc).custody =
      { s.custody with consumer := Function.update s.custody.consumer i pc.command? } := by
  have hconsumer : (s.setHandler i pc).custody.consumer =
      Function.update s.custody.consumer i pc.command? := by
    funext j
    by_cases hj : j = i
    · subst hj
      simp [State.custody]
    · simp [State.custody, hj]
  rw [← hconsumer]
  rfl

/-- A handler that keeps its command, or goes on without one. -/
theorem custody_setHandler_same {i : Fin n} {pc : HandlerPc}
    (h : pc.command? = (s.handler i).command?) : (s.setHandler i pc).custody = s.custody := by
  rw [custody_setHandler, h]
  show { s.custody with
    consumer := Function.update s.custody.consumer i (s.custody.consumer i) } = s.custody
  rw [Function.update_eq_self]

@[simp] theorem custody_notifyQueue (s : State n) : s.notifyQueue.custody = s.custody := by
  have hconsumer : s.notifyQueue.custody.consumer = s.custody.consumer := by
    funext i
    exact HandlerPc.wake_command? (s.handler i)
  show { s.custody with consumer := s.notifyQueue.custody.consumer } = s.custody
  rw [hconsumer]

theorem Closing.custody {c : Nat} (h : Closing s c s') : s'.custody = s.custody := by
  cases h
  case returns => exact custody_notifyQueue s
  all_goals rfl

/-- Each step is one of the work queue or does not move a message, unless the answer is lost: a
failing `send`, or a command that throws. -/
theorem Step.custody (h : Step dirsToOverride s a s') (hsend : ∀ i e, a ≠ .send i (some e))
    (hthrow : ∀ i c es e, s.handler i ≠ .running c es (.throw e)) :
    WorkQueue.Step s.custody s'.custody ∨ s'.custody = s.custody := by
  cases h
  case reads ha hread =>
    have hnone : s.custody.producer = none := by
      rcases ha with ⟨-, hr, -⟩ | ⟨piece, stage, buffer, -, -, hr⟩ <;>
        simp [State.custody, hr, ReaderPc.command?]
    cases hread with
    | polls stage buffer =>
        right
        show { s.custody with producer := none } = s.custody
        rw [← hnone]
    | receives m hm => exact .inl (.take m hnone)
  case pushes c hr =>
    have hsome : s.custody.producer = some c := by simp [State.custody, hr, ReaderPc.command?]
    exact .inl (.enqueue c hsome)
  case pops i c rest hpc hopen hq =>
    left
    have hnone : s.custody.consumer i = none := by
      show (s.handler i).command? = none
      rw [hpc]
      rfl
    rw [custody_setHandler]
    exact .dequeue i c rest hq hnone
  case sends i c es m hpc hconn =>
    left
    have hsome : s.custody.consumer i = some c := by
      show (s.handler i).command? = some c
      rw [hpc]
      rfl
    rw [custody_setHandler]
    have hfinish := WorkQueue.Step.finish i c hsome
    have hanswers : (s.answers ++ [Answer.mk c es m]).map Answer.command =
        s.custody.finished ++ [c] := by
      simp [State.custody]
    rw [← hanswers] at hfinish
    exact hfinish
  case throws i c es e hpc => exact absurd hpc (hthrow i c es e)
  case sendFails i c es m e hpc => exact absurd rfl (hsend i e)
  case closes c hclose => exact .inr hclose.custody
  all_goals right
  -- the reader moves, with what it holds
  case readerLeaves hr _ => simp [State.custody, hr, ReaderPc.command?]
  case readFails e ha =>
    have hnone : s.custody.producer = none := by
      rcases ha with ⟨stage, buffer, hr, -⟩ | ⟨stage, buffer, hr, -⟩ <;>
        simp [State.custody, hr, ReaderPc.command?]
    show { s.custody with producer := none } = s.custody
    rw [← hnone]
  case cancelled hr _ => simp [State.custody, hr, ReaderPc.command?]
  case ready hr _ => simp [State.custody, hr, ReaderPc.command?]
  case pushLocks hr _ => simp [State.custody, hr, ReaderPc.command?]
  case notifiesNone hr _ => simp [State.custody, hr, ReaderPc.command?]
  case readerCatches hr => simp [State.custody, State.stop, hr, ReaderPc.command?]
  case readerNotifies hr => simp [State.custody, State.notifyStop, hr, ReaderPc.command?]
  case notifiesOne i hr hi =>
    rw [custody_setHandler_same (by simp [hi, HandlerPc.command?, HandlerPc.work?])]
    simp [State.custody, hr, ReaderPc.command?]
  -- a call of `wait()` moves
  case enters | waitEnds | waitSleeps | waitWakes => rfl
  -- a handler moves, with what it holds
  case popLocks i hpc hmx =>
    rcases hpc with hpc | hpc
    · exact custody_setHandler_same (by simp [hpc, HandlerPc.command?, HandlerPc.work?])
    · exact custody_setHandler_same (by simp [hpc, HandlerPc.command?, HandlerPc.work?])
  case leaves i hpc _ | loops i hpc _ | waitReturns i hpc _ | waitBlocks i hpc _ _ | sleeps i hpc |
      popThrows i e hpc _ | performs i e c es p q world hpc _ _ _ |
      disconnects i e c es p q hpc _ _ | disconnectNotifies i c es p hpc | returns i c es m hpc |
      writeLocks i c es m hpc _ | catches i e hpc | notifies i hpc | wakes i hpc =>
    exact custody_setHandler_same (by
      simp [hpc, State.stop, State.notifyStop, HandlerPc.command?, HandlerPc.work?])

/-! ## What the handlers have done -/

/-- What a handler has left of its command is what `_do_command` leaves after the operations
performed, and an answer is what it returns after them. -/
structure Traced (dirsToOverride : DirsToOverride) (s : State n) : Prop where
  handler : ∀ i c es p, (s.handler i).work? = some (c, es, p) →
    (doCommand dirsToOverride c.item).residual es = some p
  answers : ∀ x ∈ s.answers,
    (doCommand dirsToOverride x.command.item).residual x.events = some (.pure x.response)

theorem traced_init : Traced dirsToOverride (init n) where
  handler := by intro i c es p h; cases h
  answers := by intro x hx; cases hx

/-- A handler moves; whatever else has changed, the others stand where they stood. -/
theorem Traced.setHandler (ht : Traced dirsToOverride s) {t : State n} {i : Fin n}
    {pc : HandlerPc} (hhandler : ∀ j, (t.handler j).work? = (s.handler j).work?)
    (hanswers : t.answers = s.answers)
    (hpc : ∀ c es p, pc.work? = some (c, es, p) →
      (doCommand dirsToOverride c.item).residual es = some p) :
    Traced dirsToOverride (t.setHandler i pc) where
  handler := by
    intro j c es p h
    rw [State.setHandler_handler] at h
    split at h
    · exact hpc c es p h
    · exact ht.handler j c es p (hhandler j ▸ h)
  answers := by
    intro x hx
    rw [State.setHandler_answers, hanswers] at hx
    exact ht.answers x hx

theorem Traced.of_eq (ht : Traced dirsToOverride s) {t : State n}
    (hhandler : ∀ j, (t.handler j).work? = (s.handler j).work?)
    (hanswers : t.answers = s.answers) : Traced dirsToOverride t where
  handler := by
    intro i c es p h
    exact ht.handler i c es p (hhandler i ▸ h)
  answers := by
    intro x hx
    exact ht.answers x (hanswers ▸ hx)

theorem Closing.traced {c : Nat} (h : Closing s c s') (ht : Traced dirsToOverride s) :
    Traced dirsToOverride s' := by
  cases h
  case returns => exact ht.of_eq (fun i => HandlerPc.wake_work? (s.handler i)) rfl
  all_goals exact ht.of_eq (fun _ => rfl) rfl

theorem Step.traced (h : Step dirsToOverride s a s') (ht : Traced dirsToOverride s) :
    Traced dirsToOverride s' := by
  -- the positions with no command
  have hnone : ∀ {t : State n} {i : Fin n} {pc : HandlerPc}, t.handler = s.handler →
      t.answers = s.answers → pc.work? = none → Traced dirsToOverride (t.setHandler i pc) := by
    intro t i pc hhandler hanswers hpc
    refine ht.setHandler (fun j => by rw [hhandler]) hanswers ?_
    intro c es p h
    rw [hpc] at h
    cases h
  -- the others
  have hsome : ∀ {t : State n} {i : Fin n} {pc : HandlerPc} {c : Command} {es : Events}
      {p : WorkerProg Message}, t.handler = s.handler → t.answers = s.answers →
      pc.work? = some (c, es, p) → (doCommand dirsToOverride c.item).residual es = some p →
      Traced dirsToOverride (t.setHandler i pc) := by
    intro t i pc c es p hhandler hanswers hpc hres
    refine ht.setHandler (fun j => by rw [hhandler]) hanswers ?_
    intro c' es' p' h
    rw [hpc] at h
    cases h
    exact hres
  cases h
  case reads ha hread => cases hread <;> exact ht.of_eq (fun _ => rfl) rfl
  case pops i c rest hpc hopen hq => exact hsome rfl rfl rfl rfl
  case performs i e c es p q world hpc hresume hworld hop =>
    have hres := ht.handler i c es p (by rw [hpc]; rfl)
    exact hsome rfl rfl rfl (Prog.residual_snoc hres hresume)
  case disconnects i e c es p q hpc hresume hop =>
    have hres := ht.handler i c es p (by rw [hpc]; rfl)
    exact hsome rfl rfl rfl (Prog.residual_snoc hres hresume)
  case disconnectNotifies i c es p hpc =>
    exact hsome rfl rfl rfl (ht.handler i c es p (by rw [hpc]; rfl))
  case returns i c es m hpc => exact hsome rfl rfl rfl (ht.handler i c es _ (by rw [hpc]; rfl))
  case writeLocks i c es m hpc hmx =>
    exact hsome rfl rfl rfl (ht.handler i c es _ (by rw [hpc]; rfl))
  case sends i c es m hpc hconn =>
    refine ⟨?_, ?_⟩
    · intro j c' es' p' h
      rw [State.setHandler_handler] at h
      split at h
      · cases h
      · exact ht.handler j c' es' p' h
    · intro x hx
      rcases List.mem_append.mp hx with hx | hx
      · exact ht.answers x hx
      · obtain rfl := List.mem_singleton.mp hx
        exact ht.handler i c es _ (by rw [hpc]; rfl)
  case closes c hclose => exact hclose.traced ht
  case readerLeaves | readFails | cancelled | ready | pushLocks | pushes | notifiesNone |
      readerCatches | readerNotifies | enters | waitEnds | waitSleeps | waitWakes =>
    exact ht.of_eq (fun _ => rfl) rfl
  all_goals exact hnone rfl rfl rfl

/-! ## `Disconnect` -/

def IsDisconnect (m : Message) : Prop := m.type = CommanderMessageType.disconnect.toUint8

instance (m : Message) : Decidable (IsDisconnect m) := inferInstanceAs (Decidable (_ = _))

theorem isDisconnect_of_ofUint8 {m : Message}
    (h : CommanderMessageType.ofUint8 m.type = some .disconnect) : IsDisconnect m := by
  have hfound := List.find?_some h
  simp only [decide_eq_true_eq] at hfound
  exact hfound.symm

/-- Only a `Disconnect` stores to the flag. -/
theorem Traced.isDisconnect (ht : Traced dirsToOverride s) {i : Fin n} {c : Command} {es : Events}
    {p q : WorkerProg Message} {e : Event WorkerOp WorkerOp.Ans}
    (hpc : s.handler i = .running c es p) (hresume : p.resume e = some q)
    (hop : e.1 = .setShouldStop) : IsDisconnect c.item := by
  obtain ⟨k, hk⟩ := doCommand_atMost dirsToOverride c.item
  have hres := ht.handler i c es p (by rw [hpc]; rfl)
  rcases ((hk.residual hres).resume hresume).1 with hleaves | htype
  · rw [hop] at hleaves
    cases hleaves
  · exact isDisconnect_of_ofUint8 htype

/-- No other operation changes the flag. -/
theorem step_shouldStop {t : ThreadId} {w w' : World} {op : WorkerOp} {x : op.Ans}
    (h : World.step t w op x = some w') (hop : op ≠ .setShouldStop) :
    w'.shouldStop = w.shouldStop := by
  cases op with
  | setShouldStop => exact absurd rfl hop
  | sys call =>
      have hafter : (w.handlesAfter call x).shouldStop = w.shouldStop := by
        unfold World.handlesAfter
        split <;> first | rfl | (split <;> rfl)
      simp only [World.step, World.sysStep] at h
      split at h
      · cases x with
        | ok v => cases h; exact hafter
        | error e => cases h; exact hafter
      · cases h
  | errno =>
      simp only [World.step] at h
      split at h
      · cases h; rfl
      · cases h
  | setErrno value => cases h; rfl
  | uninitStatvfs => cases h; rfl
  | file op =>
      obtain ⟨t', -, rfl⟩ := Option.map_eq_some_iff.mp h
      rfl
  | dir op =>
      obtain ⟨t', -, rfl⟩ := Option.map_eq_some_iff.mp h
      rfl
  | overridden op =>
      cases op with
      | emplace fdId entries =>
          simp only [World.step, World.overriddenStep] at h
          split at h <;> cases h <;> rfl
      | find fdId =>
          simp only [World.step, World.overriddenStep] at h
          split at h
          · cases h; rfl
          · cases h
      | erase fdId => cases h; rfl

/-! ## Runs without failures -/

/-- The step is not a failing read or write on the transport, nor one of `close()`. -/
def Succeeds (_ : State n) : Action n → Prop
  | .poll result    => result ≠ .failed
  | .recv result    => result ≠ none ∧ result ≠ some []
  | .send _ failure => failure = none
  | .closer _       => False
  | _               => True

instance (s : State n) : (a : Action n) → Decidable (Succeeds s a)
  | .poll result    => inferInstanceAs (Decidable (result ≠ .failed))
  | .recv result    => inferInstanceAs (Decidable (result ≠ none ∧ result ≠ some []))
  | .send _ failure => inferInstanceAs (Decidable (failure = none))
  | .closer _       => inferInstanceAs (Decidable False)
  | .reader | .notifyOne _ | .handler _ | .op _ _ | .wakeHandler _ | .waiter _ | .wakeWaiter _ =>
      inferInstanceAs (Decidable True)

/-- Nothing has been shut down, no thread is in a `catch` clause, and one that has left its loop
has seen the flag. -/
structure Calm (s : State n) : Prop where
  queueShutdown : s.queueShutdown = false
  pipe : s.pipe = 0
  readerCatching : ∀ e, s.reader ≠ .catching e
  readerFlagged : s.reader ≠ .flagged
  catching : ∀ i e, s.handler i ≠ .catching e
  flagged : ∀ i, s.handler i ≠ .flagged
  readerLeft : s.reader = .left → s.world.shouldStop = true
  left : ∀ i, s.handler i = .left → s.world.shouldStop = true

theorem calm_init : Calm (init n) := by
  constructor <;> simp [init]

theorem Step.calm (h : Step dirsToOverride s a s') (hok : Succeeds s a) (hc : Calm s)
    (hthrow : ∀ i c es e, s.handler i ≠ .running c es (.throw e)) : Calm s' := by
  obtain ⟨hshut, hpipe, hcatching, hflagged, hhandler, hhandlerFlagged, hleft, hhandlerLeft⟩ := hc
  cases h
  -- what does not happen in such a run
  case readFails e ha =>
    rcases ha with ⟨stage, buffer, -, rfl⟩ | ⟨stage, buffer, -, rfl | rfl⟩
    · exact absurd rfl hok
    · exact absurd rfl hok.1
    · exact absurd rfl hok.2
  case cancelled hr hpos => omega
  case readerCatches e hr => exact absurd hr (hcatching e)
  case readerNotifies hr => exact absurd hr hflagged
  case popThrows i e hpc hclosed => rw [hshut] at hclosed; cases hclosed
  case throws i c es e hpc => exact absurd hpc (hthrow i c es e)
  case sendFails i c es m e hpc => cases hok
  case catches i e hpc => exact absurd hpc (hhandler i e)
  case notifies i hpc => exact absurd hpc (hhandlerFlagged i)
  case closes c hclose => exact hok.elim
  case performs i e c es p q world hpc hresume hworld hop =>
    have := step_shouldStop hworld hop
    constructor <;> first | assumption | grind
  case reads ha hread => cases hread <;> constructor <;> first | assumption | grind
  all_goals constructor <;> first | assumption | grind

/-- The flag and the record of the commands that have stored to it change together. -/
theorem Step.stops (h : Step dirsToOverride s a s') (hok : Succeeds s a) (hc : Calm s) :
    (s'.disconnects = s.disconnects ∧ s'.world.shouldStop = s.world.shouldStop) ∨
      ∃ i c es p q e, s.handler i = .running c es p ∧ p.resume e = some q ∧
        e.1 = .setShouldStop ∧ s'.disconnects = s.disconnects ++ [c] := by
  cases h
  case readerCatches e hr => exact absurd hr (hc.readerCatching e)
  case catches i e hpc => exact absurd hpc (hc.catching i e)
  case closes c hclose => exact hok.elim
  case performs i e c es p q world hpc hresume hworld hop =>
    exact .inl ⟨rfl, step_shouldStop hworld hop⟩
  case disconnects i e c es p q hpc hresume hop =>
    exact .inr ⟨i, c, es, p, q, e, hpc, hresume, hop, rfl⟩
  case reads ha hread => cases hread <;> exact .inl ⟨rfl, rfl⟩
  all_goals exact .inl ⟨rfl, rfl⟩

/-- Messages are as short as their length prefix allows. -/
theorem Step.small (h : Step dirsToOverride s a s')
    (hs : ∀ m ∈ s.reads, m.data.length < 2 ^ 32) : ∀ m ∈ s'.reads, m.data.length < 2 ^ 32 := by
  cases h
  case reads ha hread =>
    cases hread with
    | polls stage buffer => exact hs
    | receives m hm =>
        intro m' hm'
        rcases List.mem_append.mp hm' with hm' | hm'
        · exact hs m' hm'
        · obtain rfl := List.mem_singleton.mp hm'
          exact hm
  case closes c hclose => cases hclose <;> exact hs
  all_goals exact hs

/-! ## The invariant -/

structure Serving (dirsToOverride : DirsToOverride) (s : State n) : Prop where
  traced : Traced dirsToOverride s
  ledger : ∃ dequeued, WorkQueue.Ledger s.custody dequeued
  small : ∀ m ∈ s.reads, m.data.length < 2 ^ 32
  calm : Calm s
  stopped : s.world.shouldStop = true → s.disconnects ≠ []
  disconnects : ∀ c ∈ s.disconnects, IsDisconnect c.item ∧ s.custody.Dequeued c

theorem serving_init : Serving dirsToOverride (init n) where
  traced := traced_init
  ledger := ⟨0, WorkQueue.ledger_start⟩
  small := by intro m hm; cases hm
  calm := calm_init
  stopped := by intro h; cases h
  disconnects := by intro c hc; cases hc

/-- What is left of a command will return an answer with its id. -/
theorem Serving.returns (hs : Serving dirsToOverride s) {i : Fin n} {c : Command} {es : Events}
    {p : WorkerProg Message} (hwork : (s.handler i).work? = some (c, es, p)) :
    p.Returns fun m => m.id = c.item.id := by
  obtain ⟨d, hledger⟩ := hs.ledger
  have hitem : s.reads[c.number]? = some c.item := by
    apply hledger.items (.consumer i)
    show (s.handler i).command? = some c
    rw [HandlerPc.command?, hwork]
    rfl
  have hsmall := hs.small c.item (List.mem_of_getElem? hitem)
  exact (doCommand_returns dirsToOverride hsmall).residual (hs.traced.handler i c es p hwork)

theorem Serving.not_throws (hs : Serving dirsToOverride s) (i : Fin n) (c : Command) (es : Events)
    (e : Fault) : s.handler i ≠ .running c es (.throw e) := by
  intro hpc
  exact hs.returns (i := i) (by rw [hpc]; rfl)

theorem Serving.step (hs : Serving dirsToOverride s) (hok : Succeeds s a)
    (h : Step dirsToOverride s a s') : Serving dirsToOverride s' := by
  have hsend : ∀ i e, a ≠ .send i (some e) := by
    rintro i e rfl
    cases hok
  have hcustody := h.custody hsend hs.not_throws
  have hdequeued : ∀ {c}, s.custody.Dequeued c → s'.custody.Dequeued c := by
    intro c hc
    rcases hcustody with hstep | heq
    · exact hstep.dequeued hc
    · rw [heq]
      exact hc
  obtain ⟨d, hledger⟩ := hs.ledger
  refine ⟨h.traced hs.traced, ?_, h.small hs.small, h.calm hok hs.calm hs.not_throws, ?_, ?_⟩
  · rcases hcustody with hstep | heq
    · exact hstep.ledger hledger
    · rw [heq]
      exact ⟨d, hledger⟩
  · intro hstop
    rcases h.stops hok hs.calm with ⟨hdis, hflag⟩ | ⟨i, c, es, p, q, e, -, -, -, hdis⟩
    · rw [hdis]
      exact hs.stopped (hflag ▸ hstop)
    · rw [hdis]
      simp
  · intro c hc
    rcases h.stops hok hs.calm with ⟨hdis, -⟩ | ⟨i, c', es, p, q, e, hpc, hresume, hop, hdis⟩
    · rw [hdis] at hc
      obtain ⟨htype, hc⟩ := hs.disconnects c hc
      exact ⟨htype, hdequeued hc⟩
    · rw [hdis] at hc
      rcases List.mem_append.mp hc with hc | hc
      · obtain ⟨htype, hc⟩ := hs.disconnects c hc
        exact ⟨htype, hdequeued hc⟩
      · obtain rfl := List.mem_singleton.mp hc
        refine ⟨hs.traced.isDisconnect hpc hresume hop, hdequeued (.inl ⟨i, ?_⟩)⟩
        show (s.handler i).command? = some c
        rw [hpc]
        rfl

theorem Serving.of_run {as : List (Action n)}
    (hok : AllSteps (Worker.step dirsToOverride) Succeeds (init n) as)
    (hrun : run (Worker.step dirsToOverride) (init n) as = some s) : Serving dirsToOverride s :=
  AllSteps.invariant (fun _ _ _ hok hs h => hs.step hok (step_cases h)) hok serving_init hrun

/-! ## The result -/

/-- The message with this number has been answered. -/
def State.Answered (s : State n) (k : Nat) : Prop := ∃ x ∈ s.answers, x.command.number = k

theorem answered_iff {k : Nat} : s.Answered k ↔ s.custody.Finished k := by
  constructor
  · rintro ⟨x, hx, rfl⟩
    exact ⟨x.command, List.mem_map_of_mem hx, rfl⟩
  · rintro ⟨c, hc, rfl⟩
    obtain ⟨x, hx, rfl⟩ := List.mem_map.mp hc
    exact ⟨x, hx, rfl⟩

/-- A handler that has left its loop holds nothing. -/
theorem custody_idle (hleft : ∀ i, s.handler i = .left) (i : Fin n) :
    s.custody.consumer i = none := by
  show (s.handler i).command? = none
  rw [hleft i]
  rfl

/-- Once all handlers have left, a `Disconnect` that was processed has been answered, and so has
everything read before it. -/
theorem Serving.drained (hs : Serving dirsToOverride s) (hleft : ∀ i, s.handler i = .left)
    {c : Command} (hc : c ∈ s.disconnects) {k : Nat} (hk : k ≤ c.number) : s.Answered k := by
  obtain ⟨d, hledger⟩ := hs.ledger
  rw [answered_iff]
  rcases (hs.disconnects c hc).2 with ⟨i, hi⟩ | hfin
  · rw [custody_idle hleft i] at hi
    cases hi
  · exact hledger.finished_of_le (custody_idle hleft) hfin hk

/-- The first `Disconnect` is not read after one that was processed. -/
theorem Serving.le_disconnect (hs : Serving dirsToOverride s) {c : Command}
    (hc : c ∈ s.disconnects) {k : Nat}
    (hfirst : ∀ j < k, ∀ m, s.reads[j]? = some m → ¬ IsDisconnect m) : k ≤ c.number := by
  obtain ⟨htype, hdequeued⟩ := hs.disconnects c hc
  obtain ⟨d, hledger⟩ := hs.ledger
  have hitem : s.reads[c.number]? = some c.item := by
    rcases hdequeued with ⟨i, hi⟩ | hfin
    · exact hledger.items (.consumer i) c hi
    · obtain ⟨j, hj⟩ := List.mem_iff_getElem?.mp hfin
      exact hledger.items (.finished j) c hj
  by_contra hlt
  exact hfirst c.number (by omega) c.item hitem htype

/-- **Each command is answered once, and `Disconnect` drains.** In every state of a run without
transport failures and without `close()`:
* each message read is in exactly one place, and what a place holds has been read;
* no message is answered twice;
* an answer is what `_do_command` returns for its message after the operations recorded, and
  carries its id;
* while `_should_stop` is clear no thread has left its loop or is about to, so what is in the
  queue will be popped;
* once all handlers have left after a `Disconnect` was processed, everything up to the first
  `Disconnect` read has been answered, and with at least one handler there was such a
  `Disconnect`. -/
theorem answered_once {as : List (Action n)}
    (hok : AllSteps (step dirsToOverride) Succeeds (init n) as)
    (hrun : run (step dirsToOverride) (init n) as = some s) :
    (∀ k m, s.reads[k]? = some m → ∃! p, s.custody.at? p = some ⟨k, m⟩) ∧
    (∀ p c, s.custody.at? p = some c → s.reads[c.number]? = some c.item) ∧
    (∀ (j k : Nat) (x y : Answer), s.answers[j]? = some x → s.answers[k]? = some y →
      x.command.number = y.command.number → j = k) ∧
    (∀ x ∈ s.answers,
      (doCommand dirsToOverride x.command.item).residual x.events = some (.pure x.response) ∧
        x.response.id = x.command.item.id) ∧
    (s.world.shouldStop = false → s.reader ≠ .left ∧ s.reader ≠ .flagged ∧
      (∀ e, s.reader ≠ .catching e) ∧
      ∀ i, s.handler i ≠ .left ∧ s.handler i ≠ .flagged ∧ ∀ e, s.handler i ≠ .catching e) ∧
    ((∀ i, s.handler i = .left) → s.disconnects ≠ [] →
      ∀ k < s.reads.length, (∀ j < k, ∀ m, s.reads[j]? = some m → ¬ IsDisconnect m) →
        s.Answered k) ∧
    ((∀ i, s.handler i = .left) → 0 < n → s.disconnects ≠ []) := by
  have hs := Serving.of_run hok hrun
  obtain ⟨d, hledger⟩ := hs.ledger
  refine ⟨?_, hledger.items, ?_, ?_, ?_, ?_, ?_⟩
  · intro k m hk
    exact hledger.place_existsUnique hk
  · intro j k x y hx hy heq
    have hplace : ∀ {l z}, s.answers[l]? = some z →
        s.custody.at? (.finished l) = some z.command := by
      intro l z hz
      show (s.answers.map Answer.command)[l]? = some z.command
      rw [List.getElem?_map, hz]
      rfl
    have hsame := hledger.place_unique (hplace hx) (hplace hy) heq
    cases hsame
    rfl
  · intro x hx
    have hres := hs.traced.answers x hx
    obtain ⟨j, hj⟩ := List.mem_iff_getElem?.mp
      (List.mem_map_of_mem (f := Answer.command) hx)
    have hitem := hledger.items (.finished j) x.command hj
    have hsmall := hs.small x.command.item (List.mem_of_getElem? hitem)
    exact ⟨hres, (doCommand_returns dirsToOverride hsmall).residual hres⟩
  · intro hclear
    have hleft : ∀ {P : Prop}, (P → s.world.shouldStop = true) → ¬ P := by
      intro P hP hp
      rw [hP hp] at hclear
      cases hclear
    refine ⟨hleft hs.calm.readerLeft, hs.calm.readerFlagged, hs.calm.readerCatching, ?_⟩
    intro i
    exact ⟨hleft (hs.calm.left i), hs.calm.flagged i, hs.calm.catching i⟩
  · intro hleft hne k hk hfirst
    obtain ⟨c, hc⟩ := List.exists_mem_of_ne_nil _ hne
    exact hs.drained hleft hc (hs.le_disconnect hc hfirst)
  · intro hleft hpos
    exact hs.stopped (hs.calm.left ⟨0, hpos⟩ (hleft ⟨0, hpos⟩))

/-- The reader takes a command that arrives as a header and a body. -/
def takes (header body : Bytes) : List (Action 2) :=
  [.reader, .poll .socketReadable, .recv (some header), .poll .socketReadable, .recv (some body),
    .reader, .reader, .notifyOne none]

/-- While the first handler is at work on its command, the second answers another and then the
`Disconnect`. -/
def disconnectWhileBusy : List (Action 2) :=
  takes [0, 0, 0, 0, 5, 0, 0, 0, 6] [0, 0, 0, 2, 47, 97] ++
  List.replicate 4 (Action.handler 0) ++ [Action.op 0 ⟨.sys (.unlink (ascii "/a")), .ok ()⟩] ++
  takes [0, 0, 0, 1, 5, 0, 0, 0, 6] [0, 0, 0, 2, 47, 98] ++
  [Action.reader, .poll .socketReadable, .recv (some [0, 0, 0, 2, 0, 0, 0, 0, 0]), .reader, .reader,
    .notifyOne none] ++
  List.replicate 4 (Action.handler 1) ++
  [Action.op 1 ⟨.sys (.unlink (ascii "/b")), .error 2⟩, .op 1 ⟨.errno, 2⟩, .handler 1, .handler 1,
    .send 1 none] ++
  List.replicate 4 (Action.handler 1) ++
  [Action.op 1 ⟨.setShouldStop, ()⟩, .handler 1, .handler 1, .handler 1, .send 1 none, .handler 1,
    .op 0 ⟨.errno, 0⟩, .handler 0, .handler 0, .send 0 none, .handler 0]

/-- Both handlers leave, and all three commands have been answered. -/
theorem answered_once_disconnectWhileBusy :
    ∃ s : State 2, run (step []) (init 2) disconnectWhileBusy = some s ∧
      (∀ i, s.handler i = .left) ∧ s.answers.map (fun x => x.command.number) = [1, 2, 0] ∧
      ∀ k < 3, s.Answered k := by
  have hseen : (run (step []) (init 2) disconnectWhileBusy).map (fun s =>
      (decide (∀ i, (s.handler i matches .left) = true), s.disconnects.length,
        s.reads.map Message.type, s.answers.map fun x => x.command.number)) =
      some (true, 1, [5, 5, 0], [1, 2, 0]) := by
    decide +kernel
  obtain ⟨s, hrun, hs⟩ := Option.map_eq_some_iff.mp hseen
  simp only [Prod.mk.injEq, decide_eq_true_eq] at hs
  obtain ⟨hhandler, hdisconnects, hreads, hanswers⟩ := hs
  have hleft : ∀ i, s.handler i = .left := by
    intro i
    have hi := hhandler i
    split at hi
    · assumption
    · cases hi
  have hne : s.disconnects ≠ [] := by
    intro h
    rw [h] at hdisconnects
    cases hdisconnects
  have hok : AllSteps (step []) Succeeds (init 2) disconnectWhileBusy := by decide +kernel
  obtain ⟨-, -, -, -, -, hdrained, -⟩ := answered_once hok hrun
  have hlength : s.reads.length = 3 := by
    rw [← List.length_map, hreads]
    rfl
  refine ⟨s, hrun, hleft, hanswers, ?_⟩
  intro k hk
  refine hdrained hleft hne k (by omega) ?_
  -- the third message is the first `Disconnect`
  intro j hj m hm htype
  have hat : ([5, 5, 0] : List UInt8)[j]? = some m.type := by
    rw [← hreads, List.getElem?_map, hm]
    rfl
  rw [htype] at hat
  have hcases : j = 0 ∨ j = 1 := by omega
  rcases hcases with rfl | rfl <;> cases hat

end Worker

end ZControl
