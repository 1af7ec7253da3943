import ZControl.Connection.Simulation
import ZControl.Rpc

/-!
# Calls over a connection

What a method of the `Commander` returns is what it returns when the worker handles its command in
one go, however the threads of both ends and the pieces of the streams were interleaved, and
whatever else failed, as long as no `::send` was short. `Remote` is the method run so.
-/

namespace ZControl

open Interaction MessageTransport Transition

namespace Connection

open Worker (Command Answer)

variable {n : Nat} {dirsToOverride : DirsToOverride}

/-! ## A method and its answer -/

/-- A method that sends one command goes on as `Remote` does when the worker has performed its
operations. -/
theorem remote_residual {α : Type} {p q : CommanderProg α} {msg m : Message} {es : Worker.Events}
    (hp : p.residual [⟨.nextCommandId, msg.id⟩, ⟨.sendCommand msg, .ok m⟩] = some q)
    (hm : m.type = WorkerMessageType.commandResult.toUint8)
    (hes : (Worker.doCommand dirsToOverride msg).residual es = some (.pure m)) :
    (Remote dirsToOverride msg.id p).residual es = some (Remote dirsToOverride msg.id q) := by
  obtain ⟨p₁, hp₁, hp⟩ := Option.bind_eq_some_iff.mp hp
  obtain ⟨p₂, hp₂, hp⟩ := Option.bind_eq_some_iff.mp hp
  obtain rfl : p₂ = q := Option.some.inj hp
  obtain ⟨k, rfl, rfl⟩ := Prog.resume_iff.mp hp₁
  obtain ⟨k', hk, rfl⟩ := Prog.resume_iff.mp hp₂
  have hresponse : Commander.responseOf m = .ok m := by rw [Commander.responseOf, if_pos hm]
  have hremote : Remote dirsToOverride msg.id (.perform .nextCommandId k) =
      Worker.doCommand dirsToOverride msg >>= fun workerMsg =>
        Remote dirsToOverride msg.id (k' (Commander.responseOf workerMsg)) := by
    show Remote dirsToOverride msg.id (k msg.id) = _
    rw [hk]
    simp [Remote, remote, Prog.bind_assoc]
  rw [hremote, Prog.residual_bind hes, ← hresponse]
  rfl

/-! ## Answers -/

section

variable {s : State n} {S : Commander.Session}

/-- The commands of a connection are told apart by their ids: two answers to one id are one. -/
theorem Mirrors.answer_unique (hm : Mirrors dirsToOverride s S) (hi : S.Inv) {x y : Answer}
    (hx : x ∈ s.worker.answers) (hy : y ∈ s.worker.answers)
    (hid : x.command.item.id = y.command.item.id) : x = y := by
  obtain ⟨finished, haccount⟩ := hm.account
  obtain ⟨pending, hwritten, -⟩ := hm.outgoing
  have hat : ∀ {z : Answer}, z ∈ s.worker.answers →
      (s.written.map Message.id)[z.command.number]? = some z.command.item.id := by
    intro z hz
    have hread := (haccount.answered hz).1
    rw [List.getElem?_map, hwritten,
      List.getElem?_append_left (List.getElem?_eq_some_iff.mp hread).1, hread]
    rfl
  have hnumber : x.command.number = y.command.number := by
    refine (List.getElem?_inj (List.getElem?_eq_some_iff.mp (hat hx)).1 (hm.nodup_written hi)).mp ?_
    rw [hat hx, hat hy, hid]
  have hnodup : ((s.worker.answers.map Answer.command).map WorkQueue.Ticket.number).Nodup :=
    haccount.ledger.finishedNodup.sublist (haccount.answers.map _)
  rw [List.map_map] at hnodup
  exact List.inj_on_of_nodup_map hnodup hx hy hnumber

theorem Mirrors.answer_of_returned (hm : Mirrors dirsToOverride s S) (hi : S.Inv)
    {c : Commander.CallId} {msg m : Message} (hpc : s.commander.pc c = .returned msg m) :
    m.type = WorkerMessageType.commandResult.toUint8 ∧
      ∃ x ∈ s.worker.answers, x.command.item = msg ∧ x.response = m := by
  have hpc' : S.threads.pc c = .returned msg m := by rw [hm.threads]; exact hpc
  obtain ⟨hdelivery, htype⟩ := hi.results c m (hi.returned c msg m hpc')
  obtain ⟨command, hanswered, hcommand⟩ := hi.answers.delivered m c hdelivery
  obtain rfl : msg = command := by simpa [hpc', Commander.CallPc.command] using hcommand
  rw [hm.answered] at hanswered
  obtain ⟨x, hx, heq⟩ := List.mem_map.mp hanswered
  exact ⟨htype, x, hx, congrArg Prod.fst heq, congrArg Prod.snd heq⟩

end

/-- **A call returns what the worker did for it.** In every run of a connection in which each
`::send` that returns has taken its whole buffer (and whose commands and messages `Fits` bounds),
whatever fails and however the streams are cut: if a call has returned then the worker has answered
its command, and no other of that id; and any method that sent this command and got this answer goes
on as `Remote` does after the operations that the worker performed for it. -/
theorem returned_remote {as : List (Action n)} {s : State n}
    (hfits : AllSteps (step dirsToOverride) Fits (init n) as)
    (hrun : run (step dirsToOverride) (init n) as = some s) {c : Commander.CallId}
    {msg m : Message} (hpc : s.commander.pc c = .returned msg m) :
    ∃ x ∈ s.worker.answers, x.command.item = msg ∧ x.response = m ∧
      (∀ y ∈ s.worker.answers, y.command.item.id = msg.id → y = x) ∧
      ∀ {α : Type} (p q : CommanderProg α),
        p.residual [⟨.nextCommandId, msg.id⟩, ⟨.sendCommand msg, .ok m⟩] = some q →
        (Remote dirsToOverride msg.id p).residual x.events =
          some (Remote dirsToOverride msg.id q) := by
  obtain ⟨S, -, hm, hi⟩ := simulates hfits hrun
  obtain ⟨htype, x, hx, rfl, rfl⟩ := hm.answer_of_returned hi hpc
  obtain ⟨finished, haccount⟩ := hm.account
  refine ⟨x, hx, rfl, rfl, ?_, ?_⟩
  · intro y hy hid
    exact hm.answer_unique hi hy hx hid
  · intro α p q hp
    exact remote_residual hp htype (haccount.traced.answers x hx)

/-- A call of `unlink` that has written its command. -/
def sendUnlink : List (Action 1) :=
  (Commander.issue 0 .unlink [0, 0, 0, 2, 47, 97]).map Action.commander

/-- The command is handled and the call returns; the frames arrive in pieces. -/
def handleUnlink : List (Action 1) :=
  [Action.worker .reader, .worker (.poll .socketReadable), .worker (.recv (some [0, 0, 0, 0, 5])),
    .worker (.poll .socketReadable), .worker (.recv (some [0, 0, 0, 6])),
    .worker (.poll .socketReadable), .worker (.recv (some [0, 0, 0, 2, 47, 97])),
    .worker .reader, .worker .reader, .worker (.notifyOne none)] ++
  List.replicate 4 (Action.worker (.handler 0)) ++
  [Action.worker (.op 0 ⟨.sys (.unlink (ascii "/a")), .ok ()⟩), .worker (.op 0 ⟨.errno, 0⟩),
    .worker (.handler 0), .worker (.handler 0), .worker (.send 0 none), .commander .reader,
    .receive [0, 0, 0, 0, 0, 0, 0, 0], .receive [5], .receive [1, 0, 0, 0, 0]] ++
  (List.replicate 5 Commander.Action.reader).map Action.commander ++
  [Action.commander (.caller 0)]

def oneUnlink : List (Action 1) := sendUnlink ++ handleUnlink

theorem oneUnlink_returns :
    AllSteps (step []) Fits (init 1) oneUnlink ∧
      ∃ s, run (step []) (init 1) oneUnlink = some s ∧
        s.commander.pc 0 = .returned ⟨0, 5, [0, 0, 0, 2, 47, 97]⟩ ⟨0, 0, [1, 0, 0, 0, 0]⟩ := by
  refine ⟨by decide +kernel, ?_⟩
  have hends : (run (step []) (init 1) oneUnlink).map (fun s => s.commander.pc 0) =
      some (.returned ⟨0, 5, [0, 0, 0, 2, 47, 97]⟩ ⟨0, 0, [1, 0, 0, 0, 0]⟩) := by
    decide +kernel
  exact Option.map_eq_some_iff.mp hends

theorem returned_remote_unlink :
    ∃ s : State 1, run (step []) (init 1) oneUnlink = some s ∧
      ∃ x ∈ s.worker.answers,
        (Local.status (.unlink (ascii "/a"))).residual x.events = some (.pure (true, 0)) := by
  obtain ⟨hfits, s, hrun, hpc⟩ := oneUnlink_returns
  obtain ⟨x, hx, -, -, -, hremote⟩ := returned_remote hfits hrun hpc
  have hresult := hremote (Commander.unlink (ascii "/a")) (.pure (true, 0)) rfl
  rw [remote_unlink (by decide) (by decide)] at hresult
  exact ⟨s, hrun, x, hx, hresult⟩

/-! ## What the worker works on -/

/-- **Commands are begun in order and once.** In every run of a connection whose steps all `Fits`,
whatever fails: the commands that handlers have begun to work on are the first of those written, in
the order in which they were written, and no two have the same id; each was written by a call; and
the command of a call that has returned is among them. -/
theorem begun_once {as : List (Action n)} {s : State n}
    (hfits : AllSteps (step dirsToOverride) Fits (init n) as)
    (hrun : run (step dirsToOverride) (init n) as = some s) :
    s.started.map WorkQueue.Ticket.item <+: s.written ∧
      (s.written.map Message.id).Nodup ∧
      (∀ m ∈ s.written, ∃ c, (s.commander.pc c).command = some m ∧ (s.commander.pc c).written) ∧
      ∀ c msg m, s.commander.pc c = .returned msg m →
        msg ∈ s.started.map WorkQueue.Ticket.item := by
  obtain ⟨S, -, hm, hi⟩ := simulates hfits hrun
  obtain ⟨finished, haccount⟩ := hm.account
  obtain ⟨pending, hwritten, -⟩ := hm.outgoing
  refine ⟨?_, hm.nodup_written hi, ?_, ?_⟩
  · rw [haccount.started_eq, hwritten]
    exact (List.take_prefix _ _).trans (List.prefix_append _ _)
  · intro m hmem
    rw [← hm.threads]
    exact hi.seen.written m (hm.seen.mem_iff.mpr hmem)
  · intro c msg m hpc
    obtain ⟨-, x, hx, rfl, -⟩ := hm.answer_of_returned hi hpc
    obtain ⟨hread, hlt⟩ := haccount.answered hx
    rw [haccount.started_eq]
    refine List.mem_of_getElem? (i := x.command.number) ?_
    rw [List.getElem?_take_of_lt hlt]
    exact hread

theorem begun_once_unlink :
    ∃ s : State 1, run (step []) (init 1) oneUnlink = some s ∧
      (⟨0, 5, [0, 0, 0, 2, 47, 97]⟩ : Message) ∈ s.started.map WorkQueue.Ticket.item := by
  obtain ⟨hfits, s, hrun, hpc⟩ := oneUnlink_returns
  exact ⟨s, hrun, (begun_once hfits hrun).2.2.2 0 _ _ hpc⟩

end Connection

end ZControl
