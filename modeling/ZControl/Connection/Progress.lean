import ZControl.Commander.Progress
import ZControl.Connection.Simulation
import ZControl.Worker.Progress

/-!
# Calls over a connection end

In a run in which no call on the transport fails or is short and neither `close()` nor
`disconnect()` is called, the two ends cannot come to wait for each other: as long as a call has
built its command and not ended, some thread can take a step that needs nothing from outside. So
when all of them have stopped, the answer has come.
-/

namespace ZControl

open MessageTransport Transition

namespace Connection

open Worker (ReadStage Command Answer)

variable {n : Nat} {dirsToOverride : DirsToOverride}

/-- No write, read or `poll` fails, no `::send` is short, the worker is not closed, and
`disconnect()` is not called. -/
def Undisturbed (s : State n) (a : Action n) : Prop :=
  Fits s a ∧
    match a with
    | .commander a => Commander.Undisturbed a
    | .worker a    => Worker.Succeeds s.worker a
    | _            => True

instance (s : State n) : (a : Action n) → Decidable (Undisturbed s a)
  | .commander a => inferInstanceAs (Decidable (Fits s (.commander a) ∧ Commander.Undisturbed a))
  | .worker a    =>
      inferInstanceAs (Decidable (Fits s (.worker a) ∧ Worker.Succeeds s.worker a))
  | .receive p   => inferInstanceAs (Decidable (Fits s (.receive p) ∧ True))
  | .shortWrite c k => inferInstanceAs (Decidable (Fits s (.shortWrite c k) ∧ True))
  | .shortSend i k  => inferInstanceAs (Decidable (Fits s (.shortSend i k) ∧ True))

/-- A step of a thread at either end that needs nothing from outside: a `poll` returns when there
are bytes, and a `recv` with some of them. -/
def Internal (s : State n) : Action n → Prop
  | .commander a                    => Commander.Internal a
  | .receive _                      => True
  | .worker (.poll .socketReadable) => s.requests ≠ []
  | .worker (.recv (some piece))    => piece ≠ []
  | .worker a                       => Worker.Internal a
  | .shortWrite _ _ | .shortSend _ _ => False

/-- The call has ended with what the worker's answer to its command says. -/
def Ended (s : State n) (c : Commander.CallId) (msg : Message) : Prop :=
  ∃ x ∈ s.worker.answers, x.command.item = msg ∧
    (s.commander.pc c = .returned msg x.response ∨
      ∃ e, Commander.responseOf x.response = .error e ∧ s.commander.pc c = .threw msg e)

/-! ## What such a run keeps -/

structure Smooth (dirsToOverride : DirsToOverride) (s : State n) : Prop where
  serving : Worker.Serving dirsToOverride s.worker
  wakeful : Worker.Wakeful s.worker
  hungry : Worker.Hungry s.worker
  steady : Commander.Steady s.commander
  stage : s.buffer.length < s.stage.count
  sent : ∀ c msg, (s.commander.pc c).command = some msg → (s.commander.pc c).written →
    msg ∈ s.written
  types : ∀ m ∈ s.written, ¬ Worker.IsDisconnect m

theorem smooth_init : Smooth dirsToOverride (init n) where
  serving := Worker.serving_init
  wakeful := Worker.wakeful_init
  hungry := Worker.hungry_init
  steady := Commander.steady_init
  stage := by show 0 < 9; decide
  sent := by intro c msg hc; cases hc
  types := by intro m hm; cases hm

variable {s s' : State n} {a : Action n} {S : Commander.Session}

/-- What the worker does keeps what holds of the worker. -/
theorem Smooth.worker_step (hn : 0 < n) (hs : Smooth dirsToOverride s) {a : Worker.Action n}
    {w : Worker.State n} (hok : Worker.Succeeds s.worker a)
    (h : Worker.step dirsToOverride s.worker a = some w) :
    Worker.Serving dirsToOverride w ∧ Worker.Wakeful w ∧ Worker.Hungry w := by
  have hstep := Worker.step_cases h
  exact ⟨hs.serving.step hok hstep,
    hs.wakeful.step hn hstep hok hs.serving.calm.queueShutdown, hs.hungry.step h⟩

/-- A call that a step takes past its write has written. -/
theorem Smooth.sent_step (hs : Smooth dirsToOverride s) {a : Commander.Action}
    {t : Commander.State} (hok : Commander.Undisturbed a) (ha : ∀ c, a ≠ .write c none)
    (h : Commander.Step s.commander a t) {c : Commander.CallId} {msg : Message}
    (hc : (t.pc c).command = some msg) (hw : (t.pc c).written) : msg ∈ s.written := by
  have hsent := hs.sent c msg
  have hconn := hs.steady.connected
  cases h <;> grind [Commander.CallPc.command, Commander.CallPc.written, Commander.Undisturbed]

theorem Smooth.commander_step (hs : Smooth dirsToOverride s) (hm : Mirrors dirsToOverride s S)
    (hi : S.Inv) {a : Commander.Action} {t : Commander.State} (hok : Commander.Undisturbed a)
    (h : Commander.Step s.commander a t) : Commander.Steady t := by
  have hl : s.commander.Locks := hm.threads ▸ hi.threads.locks
  refine hs.steady.step hl h hok ?_
  by_cases ha : a = .reader
  · subst ha
    exact hi.not_catching (hm.threads.symm ▸ h)
  · intro e he
    have hlooping := hs.steady.looping
    cases h <;> simp_all [Commander.Undisturbed, Commander.ReaderPc.looping]

theorem Smooth.step (hn : 0 < n) (hs : Smooth dirsToOverride s) (hm : Mirrors dirsToOverride s S)
    (hi : S.Inv) (hok : Undisturbed s a) (h : step dirsToOverride s a = some s') :
    Smooth dirsToOverride s' := by
  obtain ⟨hfits, hok⟩ := hok
  have hstep := step_cases h
  clear h
  cases hstep with
  | thread a t ha h =>
      have h := Commander.step_cases h
      refine ⟨hs.serving, hs.wakeful, hs.hungry, hs.commander_step hm hi hok h, hs.stage, ?_,
        hs.types⟩
      intro c msg hc hw
      exact hs.sent_step hok (by rintro c rfl; exact ha) h hc hw
  | builds c type data t h =>
      have h := Commander.step_cases h
      refine ⟨hs.serving, hs.wakeful, hs.hungry, hs.commander_step hm hi hok h, hs.stage, ?_,
        hs.types⟩
      intro c msg hc hw
      exact hs.sent_step hok nofun h hc hw
  | writes c msg hpc =>
      have h : Commander.Step s.commander (.write c none) (s.commander.setPc c (.waiting msg)) :=
        .write c msg hpc
      refine ⟨hs.serving, hs.wakeful, hs.hungry, hs.commander_step hm hi hok h, hs.stage, ?_, ?_⟩
      · intro d m hd hw
        simp only [Commander.State.setPc_pc] at hd hw
        split at hd
        · cases hd
          exact List.mem_append_right _ (List.mem_singleton_self msg)
        · case _ hdc =>
          rw [if_neg hdc] at hw
          exact List.mem_append_left _ (hs.sent d m hd hw)
      · intro m hm'
        rcases List.mem_append.mp hm' with hm' | hm'
        · exact hs.types m hm'
        · rw [List.mem_singleton.mp hm']
          exact hs.steady.types c msg (by rw [hpc]; rfl)
  | waits piece rest stage buffer hne hr hrest hbytes hlt =>
      exact ⟨hs.serving, hs.wakeful, hs.hungry, hs.steady, hlt, hs.sent, hs.types⟩
  | returns piece rest m hne hr hrest hframe hsmall =>
      have hread : Commander.Undisturbed (.read (.ok m)) := trivial
      have h : Commander.Step s.commander (.read (.ok m)) _ := .read m hr
      refine ⟨hs.serving, hs.wakeful, hs.hungry, hs.commander_step hm hi hread h, ?_, hs.sent,
        hs.types⟩
      show 0 < 9
      decide
  | works a w ha h =>
      obtain ⟨hserving, hwakeful, hhungry⟩ := hs.worker_step hn hok h
      exact ⟨hserving, hwakeful, hhungry, hs.steady, hs.stage, hs.sent, hs.types⟩
  | arrives piece rest w hrest h =>
      obtain ⟨hserving, hwakeful, hhungry⟩ := hs.worker_step hn hok h
      exact ⟨hserving, hwakeful, hhungry, hs.steady, hs.stage, hs.sent, hs.types⟩
  | answers i c es m w hpc h hw =>
      obtain ⟨hserving, hwakeful, hhungry⟩ := hs.worker_step hn hok h
      exact ⟨hserving, hwakeful, hhungry, hs.steady, hs.stage, hs.sent, hs.types⟩
  | cutsCommand | cutsResponse => exact hfits.elim

/-- What such a run comes to, with the session as which it is seen. -/
def Healthy (dirsToOverride : DirsToOverride) (s : State n) : Prop :=
  ∃ S, Reaches Commander.Session.step Commander.Session.init S ∧
    Mirrors dirsToOverride s S ∧ S.Inv ∧ Smooth dirsToOverride s

theorem healthy_init : Healthy dirsToOverride (init n) :=
  ⟨.init, .refl _, .init, .init, smooth_init⟩

theorem Healthy.step (hn : 0 < n) (hs : Healthy dirsToOverride s) (hok : Undisturbed s a)
    (h : Connection.step dirsToOverride s a = some s') : Healthy dirsToOverride s' := by
  obtain ⟨S, hreaches, hm, hi, hs⟩ := hs
  obtain ⟨S', hmore, hm', hi'⟩ := hm.step hok.1 hi h
  exact ⟨S', hreaches.trans hmore, hm', hi', hs.step hn hm hi hok h⟩

/-! ## Who can move -/

/-- Some thread can take a step of its own. -/
def State.CanMove (dirsToOverride : DirsToOverride) (s : State n) : Prop :=
  ∃ a, Internal s a ∧ (step dirsToOverride s a).isSome = true

theorem canMove_commander (h : s.commander.CanMove) : s.CanMove dirsToOverride := by
  obtain ⟨a, ha, hstep⟩ := h
  refine ⟨.commander a, ha, ?_⟩
  obtain ⟨t, ht⟩ := Option.isSome_iff_exists.mp hstep
  simp only [Connection.step, ht, Option.bind_some]
  cases a with
  | caller c | reader => rfl
  | enter c | build c type data | read result => exact ha.elim
  | write c failure =>
      obtain rfl : failure = none := ha
      simp only [Commander.step] at ht
      split at ht
      case h_1 msg hpc hfailure => simp [State.commanderStep, hpc, frame_eq]
      case h_2 msg e hpc hfailure => cases hfailure
      case h_3 => cases ht

theorem canMove_worker (h : s.worker.CanMove dirsToOverride) : s.CanMove dirsToOverride := by
  obtain ⟨a, ha, hstep⟩ := h
  obtain ⟨w, hw⟩ := Option.isSome_iff_exists.mp hstep
  refine ⟨.worker a, ?_, ?_⟩
  · cases a with
    | poll result | recv result => exact ha.elim
    | _ => exact ha
  · simp only [Connection.step, hw, Option.bind_some]
    cases a with
    | poll result | recv result => exact ha.elim
    | send i failure =>
        obtain rfl : failure = none := ha
        simp only [Worker.step, Worker.State.send] at hw
        split at hw
        case h_1 c es m hpc hfailure => simp [State.workerStep, hpc, frame_eq]
        case h_2 c es m e hpc hfailure => cases hfailure
        case h_3 => cases hw
    | _ => rfl

/-- A worker that waits for bytes takes the next one. -/
theorem Smooth.canMove_of_requests (hs : Smooth dirsToOverride s) {stage : ReadStage}
    {buffer : Bytes}
    (hr : s.worker.reader = .polling stage buffer ∨ s.worker.reader = .receiving stage buffer)
    (hne : s.requests ≠ []) : s.CanMove dirsToOverride := by
  obtain ⟨b, rest, hrequests⟩ := List.exists_cons_of_ne_nil hne
  have hlt := hs.hungry stage buffer hr
  rcases hr with hr | hr
  · refine ⟨.worker (.poll .socketReadable), hne, ?_⟩
    simp [Connection.step, Worker.step, Worker.State.poll, hr, hs.serving.calm.pipe,
      State.workerStep]
  · refine ⟨.worker (.recv (some [b])), List.cons_ne_nil b [], ?_⟩
    have hle : buffer.length + [b].length ≤ stage.count := hlt
    have hnext : [b] <+: s.requests := ⟨rest, hrequests.symm⟩
    simp only [Connection.step, Worker.step, Worker.State.recv, hr]
    rw [if_neg (List.cons_ne_nil b []), if_pos hle]
    simp only [Option.bind_some, State.workerStep]
    rw [if_pos hnext]
    rfl

/-- And so does the commander's reader. -/
theorem Smooth.canMove_of_responses (hs : Smooth dirsToOverride s)
    (hr : s.commander.reader = .reading) (hne : s.responses ≠ []) : s.CanMove dirsToOverride := by
  obtain ⟨b, rest, hresponses⟩ := List.exists_cons_of_ne_nil hne
  refine ⟨.receive [b], trivial, ?_⟩
  have hle : s.buffer.length + [b].length ≤ s.stage.count := hs.stage
  have hnext : [b] <+: s.responses := ⟨rest, hresponses.symm⟩
  simp only [Connection.step, State.receive]
  rw [if_pos ⟨hr, List.cons_ne_nil b [], hnext, hle⟩]
  cases progress s.stage (s.buffer ++ [b]) with
  | waits stage buffer => rfl
  | returns m => simp [Commander.step, hr]
  | throws e => simp [Commander.step, hr]

/-! ## The result -/

/-- `_should_stop` is clear, for the worker has been sent no `Disconnect`. -/
theorem Smooth.shouldStop (hs : Smooth dirsToOverride s) (hm : Mirrors dirsToOverride s S) :
    s.worker.world.shouldStop = false := by
  by_contra hstop
  have hne := hs.serving.stopped (by simpa using hstop)
  obtain ⟨c, hc⟩ := List.exists_mem_of_ne_nil _ hne
  obtain ⟨htype, hdequeued⟩ := hs.serving.disconnects c hc
  obtain ⟨dequeued, hledger⟩ := hs.serving.ledger
  have hitem : s.worker.reads[c.number]? = some c.item := by
    rcases hdequeued with ⟨i, hi⟩ | hfinished
    · exact hledger.items (.consumer i) c hi
    · obtain ⟨k, hk⟩ := List.mem_iff_getElem?.mp hfinished
      exact hledger.items (.finished k) c hk
  obtain ⟨pending, hwritten, -⟩ := hm.outgoing
  refine hs.types c.item ?_ htype
  rw [hwritten]
  exact List.mem_append_left _ (List.mem_of_getElem? hitem)

/-- When nobody can move, every command written has been answered. -/
theorem Smooth.all_answered (hs : Smooth dirsToOverride s) (hm : Mirrors dirsToOverride s S)
    (hstuck : ¬ s.CanMove dirsToOverride) {msg : Message} (hmsg : msg ∈ s.written) :
    ∃ x ∈ s.worker.answers, x.command.item = msg := by
  rcases hs.serving.canMove hs.wakeful (hs.shouldStop hm) with
    hmove | ⟨⟨stage, buffer, hr⟩, hanswered⟩
  · exact absurd (canMove_worker hmove) hstuck
  · have hrequests : s.requests = [] := by
      by_contra hne
      exact hstuck (hs.canMove_of_requests hr hne)
    obtain ⟨pending, hwritten, hpending, hbytes⟩ := hm.outgoing
    -- what the worker has received of a message is not all of it
    have hread : pending = [] := by
      have hdeaf : ¬ WorkerDeaf s.worker := by
        rcases hr with hr | hr <;> simp [WorkerDeaf, hr]
      have hpart : partOf s.worker.reader = received stage buffer := by
        rcases hr with hr | hr <;> (rw [hr]; rfl)
      have hbytes := hbytes.resolve_left hdeaf
      rw [hrequests, List.append_nil, hpart] at hbytes
      exact streamOf_eq_received (hs.hungry stage buffer hr) hpending hbytes
    rw [hwritten, hread, List.append_nil] at hmsg
    obtain ⟨k, hk⟩ := List.mem_iff_getElem?.mp hmsg
    obtain ⟨x, hx, hnumber⟩ := hanswered k (List.getElem?_eq_some_iff.mp hk).1
    refine ⟨x, hx, ?_⟩
    obtain ⟨dequeued, hledger⟩ := hs.serving.ledger
    obtain ⟨j, hj⟩ := List.mem_iff_getElem?.mp (List.mem_map_of_mem (f := Answer.command) hx)
    have hitem := hledger.items (.finished j) x.command hj
    rw [hnumber, show s.worker.custody.taken = s.worker.reads from rfl, hk] at hitem
    exact (Option.some.inj hitem).symm

/-- And every answer has been delivered. -/
theorem Smooth.all_delivered (hs : Smooth dirsToOverride s) (hm : Mirrors dirsToOverride s S)
    (hi : S.Inv) (hstuck : ¬ s.CanMove dirsToOverride) :
    S.answered.map Prod.snd = S.deliveries.map Prod.fst := by
  have hr : s.commander.reader = .reading :=
    hs.steady.canMove_of_reader.resolve_left fun hmove => hstuck (canMove_commander hmove)
  have hresponses : s.responses = [] := by
    by_contra hne
    exact hstuck (hs.canMove_of_responses hr hne)
  obtain ⟨hbytes, hsmall⟩ := hm.incoming.resolve_left fun hdeaf => hdeaf.not_reading hr
  rw [hresponses, List.append_nil] at hbytes
  have htransit := streamOf_eq_received hs.stage hsmall hbytes
  have horder := hi.answers.order
  rw [hm.threads, hr, htransit] at horder
  simpa [Commander.ReaderPc.inHand] using horder

/-- The result of a call whose command was answered. -/
theorem shared_of_answered (hi : S.Inv) (hresolved : S.Resolved)
    (hall : S.answered.map Prod.snd = S.deliveries.map Prod.fst) {c : Commander.CallId}
    {msg m : Message} (hc : (S.threads.pc c).command = some msg) (hm : (msg, m) ∈ S.answered) :
    S.threads.shared c = some (Commander.responseOf m) := by
  have hmem : m ∈ S.deliveries.map Prod.fst := hall ▸ List.mem_map_of_mem (f := Prod.snd) hm
  obtain ⟨⟨m', d⟩, hdelivery, rfl⟩ := List.mem_map.mp hmem
  obtain ⟨command, hanswered, hcommand⟩ := hi.answers.delivered m' d hdelivery
  have hid : msg.id = command.id := by
    rw [← hi.answers.sameId _ _ hm, ← hi.answers.sameId _ _ hanswered]
  obtain rfl : c = d := hi.ids.unique c d msg command hc hcommand hid
  exact hresolved m' c hdelivery

/-- **Calls do not get stuck.** A call that has built its command has ended with what the worker
answered to it, or some thread can take a step that needs nothing from outside. -/
theorem Healthy.ended_or_canMove (hs : Healthy dirsToOverride s) {c : Commander.CallId}
    {msg : Message} (hc : (s.commander.pc c).command = some msg) :
    Ended s c msg ∨ s.CanMove dirsToOverride := by
  obtain ⟨S, hreaches, hm, hi, hs⟩ := hs
  have hfew : S.commands < 2 ^ 32 := by
    rw [hm.commands]
    exact hm.few
  have hresolved := Commander.Session.Resolved.of_reaches hreaches hfew
  by_cases hstuck : s.CanMove dirsToOverride
  · exact .inr hstuck
  · left
    have hcall := hs.steady.canMove_of_call hc
    have hwritten : (s.commander.pc c).written := by
      rcases hcall with hmove | ⟨hpc, -⟩ | ⟨m, hpc⟩ | ⟨e, hpc⟩
      · exact absurd (canMove_commander hmove) hstuck
      · rw [hpc]; trivial
      · rw [hpc]; trivial
      · rw [hpc]; trivial
    obtain ⟨x, hx, hitem⟩ := hs.all_answered hm hstuck (hs.sent c msg hc hwritten)
    have hanswered : (msg, x.response) ∈ S.answered := by
      rw [hm.answered]
      exact List.mem_map.mpr ⟨x, hx, by rw [hitem]⟩
    have hall := hs.all_delivered hm hi hstuck
    have hshared : s.commander.shared c = some (Commander.responseOf x.response) := by
      rw [← hm.threads]
      exact shared_of_answered hi hresolved hall (by rw [hm.threads]; exact hc) hanswered
    refine ⟨x, hx, hitem, ?_⟩
    rcases hcall with hmove | ⟨-, hnone⟩ | ⟨m, hpc⟩ | ⟨e, hpc⟩
    · exact absurd (canMove_commander hmove) hstuck
    · rw [hshared] at hnone
      cases hnone
    · left
      have hreturned := hi.returned c msg m (by rw [hm.threads]; exact hpc)
      rw [hm.threads, hshared] at hreturned
      rw [← (Commander.responseOf_ok (Option.some.inj hreturned)).1]
      exact hpc
    · right
      have hthrew := hs.steady.threw c msg e hpc
      rw [hshared] at hthrew
      exact ⟨e, Option.some.inj hthrew, hpc⟩

end Connection

end ZControl
