import Mathlib.Algebra.BigOperators.Fin
import ZControl.Connection.EndToEnd
import ZControl.Connection.Progress

/-!
# The work of a connection is bounded

What the threads at both ends have still to do is measured: each step that needs nothing from
outside takes something off. A byte on the way to the worker counts for all that may follow from
the message it completes, and a byte on the way back for what the commander's reader does with an
answer. So a connection that is left alone comes to rest, and then every call has ended.
-/

namespace ZControl

open Interaction MessageTransport Transition

/-! ## The worker -/

namespace Worker

variable {n : Nat} {dirsToOverride : DirsToOverride} {s s' : State n} {a : Action n}

/-- The work that the bytes of an answer make for the commander's reader. -/
def answerWork : Nat := 10 * (9 + 2 ^ 32)

/-- The work that a message in the queue makes. -/
def commandWork : Nat := 8 + answerWork + 2 * maxOps

/-- The work of a handler, with the answer it will send. -/
noncomputable def HandlerPc.work : HandlerPc → Nat
  | .sleeping        => 0
  | .blocking        => 1
  | .popping         => 2
  | .waiting         => 3
  | .woken           => 4
  | .locking         => 4
  | .testing         => 5
  | .sending _ _ _   => 6 + answerWork
  | .answering _ _ _ => 7 + answerWork
  | .running _ _ p   => 8 + answerWork + 2 * p.opsLeft
  | .stopping _ _ p  => 9 + answerWork + 2 * p.opsLeft
  | .catching _      => 0
  | .flagged         => 0
  | .left            => 0

/-- The work of the reader, with that of the handler it will wake and of the message it has. -/
def ReaderPc.work : ReaderPc → Nat
  | .receiving _ _ => 0
  | .polling _ _   => 1
  | .testing       => 2
  | .notifying     => 7
  | .pushing _     => 8 + commandWork
  | .received _    => 9 + commandWork
  | .catching _    => 0
  | .flagged       => 0
  | .left          => 0

noncomputable def State.work (s : State n) : Nat :=
  s.reader.work + commandWork * s.queue.length + ∑ i, (s.handler i).work

/-- What changes when only the handler `i` moves. -/
theorem work_setHandler (s : State n) (i : Fin n) (pc : HandlerPc) :
    (s.setHandler i pc).work + (s.handler i).work = s.work + pc.work := by
  have hsum : ∀ t : State n, (∀ j, j ≠ i → t.handler j = s.handler j) →
      ∑ j, (t.handler j).work =
        (t.handler i).work + ∑ j ∈ Finset.univ.erase i, (s.handler j).work := by
    intro t ht
    rw [← Finset.add_sum_erase _ _ (Finset.mem_univ i)]
    congr 1
    refine Finset.sum_congr rfl fun j hj => ?_
    rw [ht j (Finset.ne_of_mem_erase hj)]
  have hold := hsum s fun j _ => rfl
  have hnew := hsum (s.setHandler i pc) fun j hj => by rw [State.setHandler_handler, if_neg hj]
  rw [State.setHandler_handler, if_pos rfl] at hnew
  simp only [State.work, State.setHandler_reader, State.setHandler_queue]
  omega

/-- A command in work is bounded. -/
theorem Traced.bounded (ht : Traced dirsToOverride s) {i : Fin n} {c : Command} {es : Events}
    {p : WorkerProg Message} (hwork : (s.handler i).work? = some (c, es, p)) :
    p.AtMost (fun _ => True) maxOps :=
  ((doCommand_atMost_maxOps dirsToOverride c.item).residual (ht.handler i c es p hwork)).imp
    fun _ _ => trivial

/-- The work a step puts on the commander's side. -/
def Action.sentWork : Action n → Nat
  | .send _ _ => answerWork
  | _         => 0

/-- A step of a handler takes something off, and the answer it sends. -/
theorem Step.work_handler (hs : Serving dirsToOverride s) (h : Step dirsToOverride s a s')
    (ha : Internal a) (hreader : a.thread ≠ .reader) : s'.work + a.sentWork < s.work := by
  -- a handler moves, and nothing else changes
  have hmove : ∀ {t : State n} {i : Fin n} {pc pc' : HandlerPc} {k : Nat}, s.handler i = pc →
      t.reader = s.reader → t.queue = s.queue → t.handler = s.handler →
      pc'.work + k < pc.work → (t.setHandler i pc').work + k < s.work := by
    intro t i pc pc' k hpc hr hq ht hlt
    have hsame : t.work = s.work := by rw [State.work, State.work, hr, hq, ht]
    have hset := work_setHandler t i pc'
    rw [ht, hpc, hsame] at hset
    omega
  cases h
  case leaves i hpc _ | loops i hpc _ | sleeps i hpc | popThrows i e hpc _ |
      returns i c es m hpc | throws i c es e hpc | writeLocks i c es m hpc _ |
      disconnectNotifies i c es p hpc | waitBlocks i hpc _ _ | waitReturns i hpc _ =>
    exact hmove hpc rfl rfl rfl (by simp only [HandlerPc.work, Action.sentWork]; omega)
  case popLocks i hpc hmx =>
    rcases hpc with hpc | hpc <;>
      exact hmove hpc rfl rfl rfl (by simp only [HandlerPc.work, Action.sentWork]; omega)
  case pops i c rest hpc hopen hq =>
    have hops := (doCommand_atMost_maxOps dirsToOverride c.item).opsLeft_le
    have hset := work_setHandler { s with queueMx := none, queue := rest } i
      (.running c [] (doCommand dirsToOverride c.item))
    have hwork : { s with queueMx := none, queue := rest }.work + commandWork = s.work := by
      simp only [State.work, hq, List.length_cons, Nat.mul_succ]
      omega
    simp only [hpc, HandlerPc.work] at hset
    simp only [commandWork] at hwork
    simp only [Action.sentWork]
    omega
  case performs i e c es p q world hpc hresume hworld hop =>
    have hlt := (hs.traced.bounded (i := i) (by rw [hpc]; rfl)).opsLeft_resume hresume
    exact hmove hpc rfl rfl rfl (by simp only [HandlerPc.work, Action.sentWork]; omega)
  case disconnects i e c es p q hpc hresume hop =>
    have hlt := (hs.traced.bounded (i := i) (by rw [hpc]; rfl)).opsLeft_resume hresume
    exact hmove hpc rfl rfl rfl (by simp only [HandlerPc.work, Action.sentWork]; omega)
  case sends i c es m hpc hconn =>
    exact hmove hpc rfl rfl rfl (by simp only [HandlerPc.work, Action.sentWork]; omega)
  case sendFails i c es m e hpc => cases ha
  case catches i e hpc => exact absurd hpc (hs.calm.catching i e)
  case notifies i hpc => exact absurd hpc (hs.calm.flagged i)
  case reads haction _ =>
    rcases haction with ⟨rfl, -⟩ | ⟨_, _, _, rfl, -⟩ <;> exact absurd rfl hreader
  case readFails haction =>
    rcases haction with ⟨_, _, -, rfl⟩ | ⟨_, _, -, rfl | rfl⟩ <;> exact absurd rfl hreader
  case wakes | enters | waitEnds | waitSleeps | waitWakes | closes => exact ha.elim
  all_goals exact absurd rfl hreader

/-- A step of the reader takes something off. -/
theorem Step.work_reader (hc : Calm s) (h : Worker.step dirsToOverride s a = some s')
    (ha : Internal a) (hreader : a.thread = .reader) : s'.work < s.work := by
  have hmove : ∀ {t : State n} {pc pc' : ReaderPc}, s.reader = pc → t.reader = pc' →
      t.queue = s.queue → t.handler = s.handler → pc'.work < pc.work → t.work < s.work := by
    intro t pc pc' hpc hpc' hq ht hlt
    simp only [State.work, hpc, hpc', hq, ht]
    omega
  have hstep := step_cases h
  cases hstep
  case reads haction _ =>
    rcases haction with ⟨rfl, hr, hclear⟩ | ⟨_, _, _, rfl, -⟩
    · rw [Connection.polls_of_testing h hr hclear]
      exact hmove hr rfl rfl rfl (by simp [ReaderPc.work])
    · exact ha.elim
  case readFails haction =>
    rcases haction with ⟨_, _, -, rfl⟩ | ⟨_, _, -, rfl | rfl⟩ <;> exact ha.elim
  case readerLeaves hr _ | pushLocks c hr _ | notifiesNone hr _ =>
    exact hmove hr rfl rfl rfl (by simp [ReaderPc.work])
  case pushes c hr =>
    simp only [State.work, hr, ReaderPc.work, List.length_append, List.length_singleton,
      Nat.mul_add, Nat.mul_one]
    omega
  case notifiesOne i hr hi =>
    have hset := work_setHandler { s with queueMx := none, reader := .testing } i .woken
    have hwork : { s with queueMx := none, reader := ReaderPc.testing }.work + 5 = s.work := by
      simp only [State.work, hr, ReaderPc.work]
      omega
    simp only [hi, HandlerPc.work] at hset
    omega
  case readerCatches e hr => exact absurd hr (hc.readerCatching e)
  case readerNotifies hr => exact absurd hr hc.readerFlagged
  case cancelled | ready => exact ha.elim
  all_goals cases hreader

/-- `poll` returns. -/
theorem Step.work_ready (h : Step dirsToOverride s (.poll .socketReadable) s') :
    s'.work < s.work := by
  cases h
  case ready stage buffer hr hpipe =>
    simp only [State.work, hr, ReaderPc.work]
    omega
  case reads haction _ => rcases haction with ⟨ha, -⟩ | ⟨_, _, _, ha, -⟩ <;> cases ha
  case readFails haction => rcases haction with ⟨_, _, -, ha⟩ | ⟨_, _, -, ha | ha⟩ <;> cases ha

/-- What `recv` returns completes one message at most. -/
theorem Step.work_recv {piece : Bytes} (h : Step dirsToOverride s (.recv (some piece)) s') :
    s'.work ≤ s.work + 9 + commandWork := by
  cases h
  case reads haction hread =>
    rcases haction with ⟨ha, -⟩ | ⟨_, stage, buffer, -, -, hr⟩
    · cases ha
    · cases hread <;> simp only [State.work, hr, ReaderPc.work] <;> omega
  case readFails e haction =>
    have hcatch : { s with reader := ReaderPc.catching e }.work ≤ s.work := by
      simp only [State.work, ReaderPc.work]
      omega
    omega

end Worker

/-! ## The commander -/

namespace Commander

variable {s s' : State} {a : Action}

/-- The work that a byte makes on its way to the worker. -/
def requestWork : Nat := 10 + Worker.commandWork

/-- The work of a call, with the command it will send. -/
def CallPc.work : CallPc → Nat
  | .built msg      => 6 + requestWork * (frameOf msg).length
  | .holding msg    => 5 + requestWork * (frameOf msg).length
  | .tested msg     => 4 + requestWork * (frameOf msg).length
  | .registered msg => 3 + requestWork * (frameOf msg).length
  | .writing msg    => 2 + requestWork * (frameOf msg).length
  | .waiting _      => 1
  | .idle | .entered | .skipped | .returned _ _ | .threw _ _ | .cleared _ => 0

def ReaderPc.work : ReaderPc → Nat
  | .reading    => 0
  | .testing    => 1
  | .erased     => 2
  | .resolved _ => 3
  | .taken _ _  => 4
  | .locked _   => 5
  | .received _ => 6
  | .catching _ | .flagged _ | .sweeping _ _ | .left | .terminated => 0

/-- The calls that have been made are among `calls`. -/
def State.Among (s : State) (calls : Finset CallId) : Prop := ∀ c, c ∉ calls → s.pc c = .idle

def State.work (s : State) (calls : Finset CallId) : Nat :=
  s.reader.work + ∑ c ∈ calls, (s.pc c).work

variable {calls : Finset CallId}

theorem work_setPc (s : State) {c : CallId} (hc : c ∈ calls) (pc : CallPc) :
    (s.setPc c pc).work calls + (s.pc c).work = s.work calls + pc.work := by
  have hsum : ∀ t : State, (∀ d, d ≠ c → t.pc d = s.pc d) →
      ∑ d ∈ calls, (t.pc d).work = (t.pc c).work + ∑ d ∈ calls.erase c, (s.pc d).work := by
    intro t ht
    rw [← Finset.add_sum_erase _ _ hc]
    congr 1
    refine Finset.sum_congr rfl fun d hd => ?_
    rw [ht d (Finset.ne_of_mem_erase hd)]
  have hold := hsum s fun d _ => rfl
  have hnew := hsum (s.setPc c pc) fun d hd => by rw [State.setPc_pc, if_neg hd]
  rw [State.setPc_pc, if_pos rfl] at hnew
  simp only [State.work, State.setPc_reader]
  omega

theorem State.Among.mem (hs : s.Among calls) {c : CallId} (hc : s.pc c ≠ .idle) : c ∈ calls := by
  by_contra hnot
  exact hc (hs c hnot)

/-- A step that is none of a call of `disconnect()` makes no call busy that was idle. -/
theorem Step.among (h : Step s a s') (hs : s.Among calls) (ha : Internal a ∨ ∃ msg, a = .read msg) :
    s'.Among calls := by
  intro c hc
  have hidle := hs c hc
  cases h <;> grind [Internal]

/-- A step moves one call at most. -/
theorem Step.exists_among (h : Step s a s') (hs : s.Among calls) :
    ∃ calls : Finset CallId, s'.Among calls := by
  have hmove : ∀ {t : State} {c : CallId} {pc : CallPc}, t.pc = s.pc →
      ∃ calls : Finset CallId, (t.setPc c pc).Among calls := by
    intro t c pc ht
    refine ⟨insert c calls, ?_⟩
    intro d hd
    rw [Finset.mem_insert, not_or] at hd
    rw [State.setPc_pc, if_neg hd.1, ht]
    exact hs d hd.2
  cases h
  case enter | build | acquire | test | refuse | register | release | value | raise | clear |
      write | writeFails => exact hmove rfl
  all_goals exact ⟨calls, hs⟩

/-- Every step of the threads takes something off, and a write the bytes it sends. -/
theorem Step.work (h : Step s a s') (hs : Steady s) (hcalls : s.Among calls) (ha : Internal a) :
    (∃ c msg, a = .write c none ∧ s.pc c = .writing msg ∧
      s'.work calls + requestWork * (frameOf msg).length < s.work calls) ∨
    ((∀ c, a ≠ .write c none) ∧ s'.work calls < s.work calls) := by
  -- a call moves, and nothing else changes
  have hmove : ∀ {t : State} {c : CallId} {pc pc' : CallPc} {k : Nat}, s.pc c = pc →
      t.reader = s.reader → t.pc = s.pc → pc ≠ .idle → pc'.work + k < pc.work →
      (t.setPc c pc').work calls + k < s.work calls := by
    intro t c pc pc' k hpc hr ht hbusy hlt
    have hmem := hcalls.mem (c := c) (by rw [hpc]; exact hbusy)
    have hsame : t.work calls = s.work calls := by rw [State.work, State.work, hr, ht]
    have hset := work_setPc t hmem pc'
    rw [ht, hpc, hsame] at hset
    omega
  have hread : ∀ {t : State} {pc pc' : ReaderPc}, s.reader = pc → t.reader = pc' →
      t.pc = s.pc → pc'.work < pc.work → t.work calls < s.work calls := by
    intro t pc pc' hpc hpc' ht hlt
    simp only [State.work, hpc, hpc', ht]
    omega
  have hlooping := hs.looping
  cases h
  case write c msg hpc =>
    exact .inl ⟨c, msg, rfl, hpc, hmove hpc rfl rfl nofun (by simp only [CallPc.work]; omega)⟩
  case enter | build | read | readFails => exact ha.elim
  case writeFails => cases ha
  all_goals refine .inr ⟨nofun, ?_⟩
  case acquire c msg hpc _ | test c msg hpc _ | refuse c msg hpc _ | register c msg hpc |
      release c msg hpc | value c msg m hpc _ | raise c msg e hpc _ =>
    exact hmove (k := 0) hpc rfl rfl nofun (by simp only [CallPc.work]; omega)
  case clear c msg hpc htype =>
    have hcommand : (s.pc c).command = some msg := by
      rcases hpc with ⟨m, hpc⟩ | ⟨e, hpc⟩ <;> (rw [hpc]; rfl)
    exact absurd htype (hs.types c msg hcommand)
  case loop hr _ | leave hr _ | lock msg hr _ | take msg p hr _ | missing msg hr _ |
      resolve msg c hr _ | resolveFails msg p e hr _ | erase msg hr | unlock hr =>
    exact hread hr rfl rfl (by simp [ReaderPc.work])
  case flag e hr | lockSweep e hr _ | sweep e k ks c hr _ _ | sweepFails e k ks e' hr _ |
      swept e hr =>
    rw [hr] at hlooping
    cases hlooping

end Commander

/-! ## Both ends -/

namespace Connection

open Worker (ReadStage Command Answer)

variable {n : Nat} {dirsToOverride : DirsToOverride} {s s' : State n} {a : Action n}

/-- What is left to do. -/
noncomputable def State.work (s : State n) (calls : Finset Commander.CallId) : Nat :=
  s.commander.work calls + Commander.requestWork * s.requests.length + s.worker.work +
    10 * s.responses.length

/-- A step of an undisturbed connection that needs nothing from outside. -/
def Alone (s : State n) (a : Action n) : Prop := Undisturbed s a ∧ Internal s a

theorem Smooth.work_step {calls : Finset Commander.CallId} (hs : Smooth dirsToOverride s)
    (hcalls : s.commander.Among calls) (ha : Alone s a)
    (h : Connection.step dirsToOverride s a = some s') :
    s'.commander.Among calls ∧ s'.work calls < s.work calls := by
  obtain ⟨⟨hfits, hok⟩, hinternal⟩ := ha
  have hstep := step_cases h
  clear h
  cases hstep with
  | thread a t hsilent h =>
      have h := Commander.step_cases h
      refine ⟨h.among hcalls (.inl hinternal), ?_⟩
      rcases h.work hs.steady hcalls hinternal with ⟨c, msg, rfl, -⟩ | ⟨-, hlt⟩
      · exact hsilent.elim
      · simp only [State.work]
        omega
  | builds c type data t h => exact hinternal.elim
  | writes c msg hpc =>
      have h : Commander.Step s.commander (.write c none) (s.commander.setPc c (.waiting msg)) :=
        .write c msg hpc
      refine ⟨h.among hcalls (.inl hinternal), ?_⟩
      rcases h.work hs.steady hcalls hinternal with ⟨c', msg', heq, hpc', hlt⟩ | ⟨hne, -⟩
      · cases heq
        obtain rfl : msg = msg' := by simpa [hpc] using hpc'
        simp only [State.work, List.length_append, Nat.mul_add]
        omega
      · exact absurd rfl (hne c)
  | waits piece rest stage buffer hne hr hrest hbytes hlt =>
      refine ⟨hcalls, ?_⟩
      have hpos := List.length_pos_iff.mpr hne
      simp only [State.work, hrest, List.length_append]
      omega
  | returns piece rest m hne hr hrest hframe hsmall =>
      refine ⟨hcalls, ?_⟩
      have hpos := List.length_pos_iff.mpr hne
      simp only [State.work, Commander.State.work, hr, Commander.ReaderPc.work, hrest,
        List.length_append]
      omega
  | works a w hsilent h =>
      refine ⟨hcalls, ?_⟩
      have hlt : w.work < s.worker.work := by
        have hstep := Worker.step_cases h
        cases a with
        | poll result =>
            cases result with
            | socketReadable => exact hstep.work_ready
            | _ => exact hinternal.elim
        | recv result =>
            cases result with
            | some piece => exact hsilent.elim
            | none => exact hinternal.elim
        | reader | notifyOne woken => exact Worker.Step.work_reader hs.serving.calm h trivial rfl
        | handler i | op i e =>
            exact hstep.work_handler hs.serving trivial nofun
        | send i failure =>
            cases failure with
            | none => exact hsilent.elim
            | some e => cases hinternal
        | _ => exact hinternal.elim
      simp only [State.work]
      omega
  | arrives piece rest w hrest h =>
      refine ⟨hcalls, ?_⟩
      have hpos := List.length_pos_iff.mpr (show piece ≠ [] from hinternal)
      have hle := (Worker.step_cases h).work_recv
      have hpaid : Commander.requestWork ≤ Commander.requestWork * piece.length :=
        Nat.le_mul_of_pos_right _ hpos
      have hcost : Commander.requestWork = 10 + Worker.commandWork := rfl
      simp only [State.work, hrest, List.length_append, Nat.mul_add]
      omega
  | answers i c es m w hpc h hw =>
      refine ⟨hcalls, ?_⟩
      have hsmall : m.data.length < 2 ^ 32 := by simpa only [Fits, hpc] using hfits
      have hlt := (Worker.step_cases h).work_handler hs.serving rfl nofun
      have hframe := length_frameOf m
      have hcost : Worker.answerWork = 10 * (9 + 2 ^ 32) := rfl
      simp only [Worker.Action.sentWork] at hlt
      simp only [State.work, List.length_append, hframe]
      omega
  | cutsCommand | cutsResponse => exact hfits.elim

/-! ## Calls end -/

/-- Finitely many calls have been made. -/
theorem exists_among_of_run {as : List (Action n)}
    (hrun : run (step dirsToOverride) (init n) as = some s) :
    ∃ calls : Finset Commander.CallId, s.commander.Among calls := by
  refine run_invariant (I := fun s => ∃ calls : Finset Commander.CallId, s.commander.Among calls)
    ?_ ⟨∅, fun c _ => rfl⟩ hrun
  rintro s a s' ⟨calls, hcalls⟩ h
  have hstep := step_cases h
  clear h
  cases hstep with
  | thread a t ha h => exact (Commander.step_cases h).exists_among hcalls
  | builds c type data t h => exact (Commander.step_cases h).exists_among hcalls
  | writes c msg hpc => exact (Commander.Step.write c msg hpc).exists_among hcalls
  | cutsCommand c taken msg hpc => exact (Commander.Step.write c msg hpc).exists_among hcalls
  | waits | returns | works | arrives | answers | cutsResponse => exact ⟨calls, hcalls⟩

/-- **Calls end.** After a run in which no call on the transport fails or is short and neither
`close()` nor `disconnect()` is called, within the bounds of `Fits` and with a handler at least: if
nothing comes from outside any more, the threads of both ends take a bounded number of steps, in
whatever order; and when none of them can take another, every call that has built its command has
ended with what the worker's answer to it says. -/
theorem calls_end (hn : 0 < n) {as : List (Action n)}
    (hok : AllSteps (step dirsToOverride) Undisturbed (init n) as)
    (hrun : run (step dirsToOverride) (init n) as = some s) :
    ∃ k, ∀ bs s', AllSteps (step dirsToOverride) Alone s bs →
      run (step dirsToOverride) s bs = some s' →
      bs.length ≤ k ∧
        (¬ s'.CanMove dirsToOverride → ∀ c msg,
          (s'.commander.pc c).command = some msg → Ended s' c msg) := by
  have hhealthy : Healthy dirsToOverride s :=
    AllSteps.invariant (fun _ _ _ hok hs h => hs.step hn hok h) hok healthy_init hrun
  obtain ⟨calls, hcalls⟩ := exists_among_of_run hrun
  refine ⟨s.work calls, ?_⟩
  intro bs s' halone hbs
  constructor
  · have hle := AllSteps.length_add_le (f := fun s : State n => s.work calls)
      (I := fun s => Healthy dirsToOverride s ∧ s.commander.Among calls) ?_ halone
      ⟨hhealthy, hcalls⟩ hbs
    · exact Nat.le_of_add_right_le hle
    · rintro s a s' halone ⟨hs, hcalls⟩ h
      obtain ⟨S, -, -, -, hsmooth⟩ := id hs
      obtain ⟨hcalls', hlt⟩ := hsmooth.work_step hcalls halone h
      exact ⟨⟨hs.step hn halone.1 h, hcalls'⟩, hlt⟩
  · intro hrest c msg hc
    have hhealthy' : Healthy dirsToOverride s' :=
      AllSteps.invariant (fun _ _ _ hok hs h => hs.step hn hok.1 h) halone hhealthy hbs
    exact (hhealthy'.ended_or_canMove hc).resolve_right hrest

instance : (a : Commander.Action) → Decidable (Commander.Internal a)
  | .caller _ | .reader              => isTrue trivial
  | .write _ failure                 => inferInstanceAs (Decidable (failure = none))
  | .enter _ | .build _ _ _ | .read _ => isFalse id

instance : (a : Worker.Action n) → Decidable (Worker.Internal a)
  | .reader | .notifyOne _ | .handler _ | .op _ _ => isTrue trivial
  | .send _ failure => inferInstanceAs (Decidable (failure = none))
  | .poll _ | .recv _ | .wakeHandler _ | .waiter _ | .wakeWaiter _ | .closer _ => isFalse id

instance (s : State n) : (a : Action n) → Decidable (Internal s a)
  | .commander a                    => inferInstanceAs (Decidable (Commander.Internal a))
  | .receive _                      => isTrue trivial
  | .worker (.poll .socketReadable) => inferInstanceAs (Decidable (s.requests ≠ []))
  | .worker (.recv (some piece))    => inferInstanceAs (Decidable (piece ≠ []))
  | .worker (.poll .failed) | .worker (.poll .pipeReadable) | .worker (.recv none) => isFalse id
  | .worker .reader | .worker (.notifyOne _) | .worker (.handler _) | .worker (.op _ _) =>
      isTrue trivial
  | .worker (.send _ failure) => inferInstanceAs (Decidable (failure = none))
  | .worker (.wakeHandler _) | .worker (.waiter _) | .worker (.wakeWaiter _)
  | .worker (.closer _) => isFalse id
  | .shortWrite _ _ | .shortSend _ _ => isFalse id

instance (s : State n) (a : Action n) : Decidable (Alone s a) :=
  inferInstanceAs (Decidable (Undisturbed s a ∧ Internal s a))

/-- The call of `unlink` comes to its end within the bound. -/
theorem calls_end_unlink :
    ∃ s s' : State 1, ∃ k, run (step []) (init 1) sendUnlink = some s ∧
      run (step []) s handleUnlink = some s' ∧ handleUnlink.length ≤ k ∧
      (¬ s'.CanMove [] → Ended s' 0 ⟨0, 5, [0, 0, 0, 2, 47, 97]⟩) := by
  obtain ⟨-, s', hrun, hpc⟩ := oneUnlink_returns
  obtain ⟨s, hsend, hhandle⟩ := run_append_iff.mp hrun
  have hok : AllSteps (step []) Undisturbed (init 1) sendUnlink := by decide +kernel
  have halone : AllSteps (step []) Alone s handleUnlink := by
    have hall : (run (step []) (init 1) sendUnlink).map (fun s =>
        decide (AllSteps (step []) Alone s handleUnlink)) = some true := by decide +kernel
    rw [hsend] at hall
    exact of_decide_eq_true (Option.some.inj hall)
  obtain ⟨k, hk⟩ := calls_end (by decide) hok hsend
  obtain ⟨hle, hend⟩ := hk handleUnlink s' halone hhandle
  refine ⟨s, s', k, hsend, hhandle, hle, ?_⟩
  intro hrest
  exact hend hrest 0 _ (by rw [hpc]; rfl)

end Connection

end ZControl
