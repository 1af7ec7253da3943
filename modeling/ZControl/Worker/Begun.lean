import ZControl.Worker.Draining

/-!
# No command is begun twice

Whatever fails, and whoever calls `close()`: the handlers begin to work on the messages in the
order in which they were read, on each of them once. A message whose answer could not be sent is
lost, and nobody works on it again.
-/

namespace ZControl

open Interaction Transition

namespace Worker

variable {n : Nat} {dirsToOverride : DirsToOverride} {s s' : State n} {a : Action n}

/-- The message that a handler has popped in a step. -/
def State.begun (s s' : State n) : Action n → List Command
  | .handler i =>
      match s.handler i, s'.handler i with
      | .popping, .running c _ _ => [c]
      | _, _                     => []
  | _ => []

/-- What is begun has left the queue, and nothing else has. -/
theorem Step.begun (h : Step dirsToOverride s a s') :
    (s.begun s' a = [] ∧ s.queue.length ≤ s'.queue.length) ∨
      ∃ c, s.begun s' a = [c] ∧ s.queue = c :: s'.queue := by
  cases h
  case pops i c rest hpc hopen hq =>
    right
    exact ⟨c, by simp [State.begun, hpc], hq⟩
  case reads ha hread =>
    left
    have hqueue : s'.queue = s.queue := by cases hread <;> rfl
    refine ⟨?_, le_of_eq (by rw [hqueue])⟩
    rcases ha with ⟨rfl, -⟩ | ⟨piece, stage, buffer, rfl, -⟩ <;> rfl
  case readFails e ha =>
    left
    refine ⟨?_, le_rfl⟩
    rcases ha with ⟨stage, buffer, -, rfl⟩ | ⟨stage, buffer, -, rfl | rfl⟩ <;> rfl
  case closes c hclose =>
    left
    refine ⟨rfl, le_of_eq ?_⟩
    cases hclose <;> rfl
  case pushes c hr =>
    left
    exact ⟨rfl, by simp⟩
  case popLocks i hpc hmx =>
    left
    exact ⟨by rcases hpc with hpc | hpc <;> simp [State.begun, hpc], le_rfl⟩
  case leaves i hpc _ | loops i hpc _ | waitReturns i hpc _ | waitBlocks i hpc _ _ | sleeps i hpc |
      popThrows i e hpc _ | disconnectNotifies i c es p hpc | returns i c es m hpc |
      throws i c es e hpc | writeLocks i c es m hpc _ | catches i e hpc | notifies i hpc =>
    left
    exact ⟨by simp [State.begun, hpc], le_rfl⟩
  all_goals
    left
    exact ⟨rfl, le_rfl⟩

/-! ## The account

A message whose answer is lost counts as finished, so the ledger of the work queue stays in
balance when a `send` fails. -/

/-- The account of a run: `started` are the messages begun, `finished` those that are done with,
answered or not. -/
structure Account (dirsToOverride : DirsToOverride) (s : State n)
    (started finished : List Command) : Prop where
  ledger : WorkQueue.Ledger { s.custody with finished := finished } started.length
  answers : (s.answers.map Answer.command).Sublist finished
  numbers : started.map WorkQueue.Ticket.number = List.range started.length
  items : ∀ c ∈ started, s.reads[c.number]? = some c.item
  traced : Traced dirsToOverride s
  small : ∀ m ∈ s.reads, m.data.length < 2 ^ 32

theorem Account.init : Account dirsToOverride (init n) [] [] where
  ledger := WorkQueue.ledger_start
  answers := List.Sublist.refl _
  numbers := rfl
  items := by intro c hc; cases hc
  traced := traced_init
  small := by intro m hm; cases hm

variable {started finished : List Command}

/-- A command in work will be answered with its id. -/
theorem Account.returns (hs : Account dirsToOverride s started finished) {i : Fin n} {c : Command}
    {es : Events} {p : WorkerProg Message} (hwork : (s.handler i).work? = some (c, es, p)) :
    p.Returns fun m => m.id = c.item.id := by
  have hitem : s.reads[c.number]? = some c.item := by
    apply hs.ledger.items (.consumer i)
    show (s.handler i).command? = some c
    rw [HandlerPc.command?, hwork]
    rfl
  have hsmall := hs.small c.item (List.mem_of_getElem? hitem)
  exact (doCommand_returns dirsToOverride hsmall).residual (hs.traced.handler i c es p hwork)

theorem Step.reads_prefix (h : Step dirsToOverride s a s') : s.reads <+: s'.reads := by
  cases h
  case reads ha hread =>
    cases hread with
    | polls stage buffer => exact List.prefix_refl _
    | receives m hm => exact List.prefix_append _ _
  case closes c hclose => cases hclose <;> exact List.prefix_refl _
  all_goals exact List.prefix_refl _

/-- What is begun in a step has the next number, and the account stays in balance. -/
theorem Account.step (hs : Account dirsToOverride s started finished)
    (h : Step dirsToOverride s a s') :
    ∃ finished', Account dirsToOverride s' (started ++ s.begun s' a) finished' := by
  have hreads := h.reads_prefix
  have hitems : ∀ {c : Command}, s.reads[c.number]? = some c.item →
      s'.reads[c.number]? = some c.item := by
    intro c hc
    rw [← hc]
    exact (List.prefix_iff_getElem?.mp hreads c.number (List.getElem?_eq_some_iff.mp hc).1).trans
      (List.getElem?_eq_getElem _).symm
  have htraced := h.traced hs.traced
  have hsmall := h.small hs.small
  -- nothing is begun
  have hsame : ∀ {finished'}, s.begun s' a = [] →
      WorkQueue.Ledger { s'.custody with finished := finished' } started.length →
      (s'.answers.map Answer.command).Sublist finished' →
      Account dirsToOverride s' (started ++ s.begun s' a) finished' := by
    intro finished' hbegun hledger hanswers
    rw [hbegun, List.append_nil]
    exact ⟨hledger, hanswers, hs.numbers, fun c hc => hitems (hs.items c hc), htraced, hsmall⟩
  by_cases hlost : ∃ i e, a = .send i (some e)
  · obtain ⟨i, e, rfl⟩ := hlost
    cases h
    case reads ha _ => rcases ha with ⟨ha, -⟩ | ⟨_, _, _, ha, -⟩ <;> cases ha
    case readFails ha => rcases ha with ⟨_, _, -, ha⟩ | ⟨_, _, -, ha | ha⟩ <;> cases ha
    case sendFails c es m hpc =>
      have hsome : s.custody.consumer i = some c := by
        show (s.handler i).command? = some c
        rw [hpc]
        rfl
      refine ⟨finished ++ [c], hsame rfl ?_ (hs.answers.trans (List.sublist_append_left _ _))⟩
      rw [custody_setHandler]
      exact hs.ledger.finish i c hsome
  · have hnot : ∀ i c es e, s.handler i ≠ .running c es (.throw e) := by
      intro i c es e hpc
      exact hs.returns (i := i) (by rw [hpc]; rfl)
    rcases h.custody (fun i e ha => hlost ⟨i, e, ha⟩) hnot with hstep | heq
    · obtain ⟨finished', hanswers, hmoves⟩ := hstep.extend hs.ledger hs.answers
      refine ⟨finished', ?_⟩
      rcases hmoves with ⟨hlen, hledger⟩ | ⟨t, hq, hnumber, hledger⟩
      · rcases h.begun with ⟨hbegun, -⟩ | ⟨c, -, hq⟩
        · exact hsame hbegun hledger hanswers
        · rw [show s.custody.queue = c :: s'.custody.queue from hq, List.length_cons] at hlen
          omega
      · rcases h.begun with ⟨-, hlen⟩ | ⟨c, hbegun, hq'⟩
        · rw [show s.queue = t :: s'.queue from hq, List.length_cons] at hlen
          omega
        · obtain rfl : c = t := (List.cons.inj (hq'.symm.trans hq)).1
          have hitem : s.reads[c.number]? = some c.item :=
            hs.ledger.items (.queue 0) c (by simp [WorkQueue.State.at?, hq])
          rw [hbegun]
          refine ⟨by simpa using hledger, hanswers, ?_, ?_, htraced, hsmall⟩
          · rw [List.map_append, hs.numbers, List.length_append, List.length_singleton,
              List.range_succ, List.map_singleton, hnumber]
          · intro d hd
            rcases List.mem_append.mp hd with hd | hd
            · exact hitems (hs.items d hd)
            · obtain rfl := List.mem_singleton.mp hd
              exact hitems hitem
    · have hqueue : s'.queue = s.queue := congrArg WorkQueue.State.queue heq
      have hanswers : s'.answers.map Answer.command = s.answers.map Answer.command :=
        congrArg WorkQueue.State.finished heq
      refine ⟨finished, ?_⟩
      rcases h.begun with ⟨hbegun, -⟩ | ⟨c, -, hq⟩
      · exact hsame hbegun (by rw [heq]; exact hs.ledger) (by rw [hanswers]; exact hs.answers)
      · rw [hqueue] at hq
        exact absurd (congrArg List.length hq) (by simp)

/-! ## What the account says -/

/-- The messages begun are the first that were read, in their order. -/
theorem Account.started_eq (hs : Account dirsToOverride s started finished) :
    started.map WorkQueue.Ticket.item = s.reads.take started.length := by
  have hlen : started.length ≤ s.reads.length := by
    have := hs.ledger.total
    show started.length ≤ s.custody.taken.length
    simp only at this
    omega
  refine List.ext_getElem? fun k => ?_
  rcases Nat.lt_or_ge k started.length with hk | hk
  · obtain ⟨c, hc⟩ : ∃ c, started[k]? = some c := ⟨_, List.getElem?_eq_getElem hk⟩
    have hnumber : c.number = k := by
      have := congrArg (fun l => l[k]?) hs.numbers
      simpa [hc, List.getElem?_range hk] using this
    rw [List.getElem?_map, hc, List.getElem?_take_of_lt hk, ← hnumber]
    exact (hs.items c (List.mem_of_getElem? hc)).symm
  · rw [List.getElem?_eq_none (by simpa using hk), List.getElem?_eq_none (by simp; omega)]

/-- What a handler works on has been begun and not been answered. -/
theorem Account.not_answered (hs : Account dirsToOverride s started finished) {i : Fin n}
    {c : Command} (hc : (s.handler i).command? = some c) :
    s.reads[c.number]? = some c.item ∧ ∀ x ∈ s.answers, x.command.number ≠ c.number := by
  refine ⟨hs.ledger.items (.consumer i) c hc, ?_⟩
  intro x hx heq
  have hfinished : x.command ∈ finished := hs.answers.subset (List.mem_map_of_mem hx)
  exact hs.ledger.apart i c hc ⟨x.command, hfinished, heq⟩

/-- An answer is to a message that was read and begun. -/
theorem Account.answered (hs : Account dirsToOverride s started finished) {x : Answer}
    (hx : x ∈ s.answers) :
    s.reads[x.command.number]? = some x.command.item ∧ x.command.number < started.length := by
  have hfinished : x.command ∈ finished := hs.answers.subset (List.mem_map_of_mem hx)
  obtain ⟨k, hk⟩ := List.mem_iff_getElem?.mp hfinished
  exact ⟨hs.ledger.items (.finished k) x.command hk, hs.ledger.finished x.command hfinished⟩

end Worker

end ZControl
