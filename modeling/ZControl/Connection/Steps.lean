import ZControl.Connection.Machine
import ZControl.Worker.Shutdown

/-!
# What a step of a connection does

One case for each way in which the two ends and the bytes between them can move together.
-/

namespace ZControl

open MessageTransport

namespace Connection

open Worker (ReadStage Command Answer)

variable {n : Nat} {dirsToOverride : DirsToOverride}

/-- A step of the commander's threads that sends nothing, builds nothing and ends no read. -/
def Silent : Commander.Action → Prop
  | .read (.ok _) => False
  | .build _ _ _  => False
  | .write _ none => False
  | _             => True

/-- A step of the worker's threads that neither sends nor receives. -/
def WorkerSilent : Worker.Action n → Prop
  | .recv (some _) => False
  | .send _ none   => False
  | _              => True

inductive Step (dirsToOverride : DirsToOverride) (s : State n) : Action n → State n → Prop where
  | thread (a : Commander.Action) (t : Commander.State) (ha : Silent a)
      (h : Commander.step s.commander a = some t) :
      Step dirsToOverride s (.commander a) { s with commander := t }
  | builds (c : Commander.CallId) (type : UInt8) (data : Bytes) (t : Commander.State)
      (h : Commander.step s.commander (.build c type data) = some t) :
      Step dirsToOverride s (.commander (.build c type data))
        { s with commander := t, commands := s.commands + 1 }
  | writes (c : Commander.CallId) (msg : Message) (hpc : s.commander.pc c = .writing msg) :
      Step dirsToOverride s (.commander (.write c none))
        { s with
          commander := s.commander.setPc c (.waiting msg)
          requests := s.requests ++ frameOf msg
          written := s.written ++ [msg] }
  | waits (piece rest : Bytes) (stage : ReadStage) (buffer : Bytes) (hne : piece ≠ [])
      (hr : s.commander.reader = .reading) (hrest : s.responses = piece ++ rest)
      (hbytes : received stage buffer = received s.stage s.buffer ++ piece)
      (hlt : buffer.length < stage.count) :
      Step dirsToOverride s (.receive piece)
        { s with responses := rest, stage := stage, buffer := buffer }
  | returns (piece rest : Bytes) (m : Message) (hne : piece ≠ [])
      (hr : s.commander.reader = .reading) (hrest : s.responses = piece ++ rest)
      (hframe : frameOf m = received s.stage s.buffer ++ piece) (hm : m.data.length < 2 ^ 32) :
      Step dirsToOverride s (.receive piece)
        { s with
          commander := { s.commander with reader := .received m }
          responses := rest
          stage := .header
          buffer := [] }
  | works (a : Worker.Action n) (w : Worker.State n) (ha : WorkerSilent a)
      (h : Worker.step dirsToOverride s.worker a = some w) :
      Step dirsToOverride s (.worker a)
        { s with worker := w, started := s.started ++ s.worker.begun w a }
  | arrives (piece rest : Bytes) (w : Worker.State n) (hrest : s.requests = piece ++ rest)
      (h : Worker.step dirsToOverride s.worker (.recv (some piece)) = some w) :
      Step dirsToOverride s (.worker (.recv (some piece))) { s with worker := w, requests := rest }
  | answers (i : Fin n) (c : Command) (es : Worker.Events) (m : Message) (w : Worker.State n)
      (hpc : s.worker.handler i = .sending c es m)
      (h : Worker.step dirsToOverride s.worker (.send i none) = some w)
      (hw : w = { s.worker with
        writeMx := none
        answers := s.worker.answers ++ [Answer.mk c es m] }.setHandler i .testing) :
      Step dirsToOverride s (.worker (.send i none))
        { s with worker := w, responses := s.responses ++ frameOf m }
  | cutsCommand (c : Commander.CallId) (taken : Nat) (msg : Message)
      (hpc : s.commander.pc c = .writing msg) (hlt : taken < (frameOf msg).length) :
      Step dirsToOverride s (.shortWrite c taken)
        { s with
          commander := s.commander.setPc c (.waiting msg)
          requests := s.requests ++ (frameOf msg).take taken }
  | cutsResponse (i : Fin n) (taken : Nat) (c : Command) (es : Worker.Events) (m : Message)
      (w : Worker.State n) (hpc : s.worker.handler i = .sending c es m)
      (hlt : taken < (frameOf m).length)
      (h : Worker.step dirsToOverride s.worker (.send i none) = some w)
      (hw : w = { s.worker with
        writeMx := none
        answers := s.worker.answers ++ [Answer.mk c es m] }.setHandler i .testing) :
      Step dirsToOverride s (.shortSend i taken)
        { s with worker := w, responses := s.responses ++ (frameOf m).take taken }

variable {s s' : State n} {a : Action n}

theorem state_of_write {s t : Commander.State} {c : Commander.CallId} {msg : Message}
    (hpc : s.pc c = .writing msg) (h : Commander.step s (.write c none) = some t) :
    t = s.setPc c (.waiting msg) := by
  simpa [Commander.step, hpc] using h.symm

theorem commanderStep_cases {a : Commander.Action}
    (h : ((Commander.step s.commander a).bind fun t => s.commanderStep t a) = some s') :
    Step dirsToOverride s (.commander a) s' := by
  obtain ⟨t, ht, h'⟩ := Option.bind_eq_some_iff.mp h
  clear h
  unfold State.commanderStep at h'
  split at h'
  case h_1 => cases h'
  case h_2 c type data =>
    cases h'
    exact .builds c type data t ht
  case h_3 c =>
    split at h'
    case h_1 msg hpc =>
      rw [frame_eq] at h'
      cases h'
      rw [state_of_write hpc ht]
      exact .writes c msg hpc
    case h_2 => cases h'
  case h_4 hread hbuild hwrite =>
    cases h'
    refine .thread a t ?_ ht
    unfold Silent
    split
    · exact hread _ rfl
    · exact hbuild _ _ _ rfl
    · exact hwrite _ rfl
    · trivial

theorem receive_cases {piece : Bytes} (h : s.receive piece = some s') :
    Step dirsToOverride s (.receive piece) s' := by
  unfold State.receive at h
  split at h
  case isFalse => cases h
  case isTrue hcond =>
    obtain ⟨hr, hne, ⟨rest, hrest⟩, hle⟩ := hcond
    have hdrop : s.responses.drop piece.length = rest := by rw [← hrest, List.drop_left]
    have hreach : Reaches (received s.stage (s.buffer ++ piece))
        (progress s.stage (s.buffer ++ piece)) :=
      progress_reaches (by rw [List.length_append]; exact hle)
    rw [received_append] at hreach
    rw [hdrop] at h
    generalize progress s.stage (s.buffer ++ piece) = p at h hreach
    cases hreach with
    | waits stage buffer hbytes hlt =>
        cases h
        exact .waits piece rest stage buffer hne hr hrest.symm hbytes hlt
    | returns m hbytes hm =>
        obtain ⟨t, ht, rfl⟩ := Option.map_eq_some_iff.mp h
        cases Commander.step_cases ht
        exact .returns piece rest m hne hr hrest.symm hbytes hm

theorem state_of_send {s w : Worker.State n} {i : Fin n} {c : Command} {es : Worker.Events}
    {m : Message} (hpc : s.handler i = .sending c es m)
    (h : Worker.step dirsToOverride s (.send i none) = some w) :
    w = { s with
      writeMx := none
      answers := s.answers ++ [Answer.mk c es m] }.setHandler i .testing := by
  simp only [Worker.step, Worker.State.send, hpc] at h
  split at h
  case isTrue => cases h; rfl
  case isFalse => cases h

theorem workerStep_cases {a : Worker.Action n}
    (h : ((Worker.step dirsToOverride s.worker a).bind fun w => s.workerStep w a) = some s') :
    Step dirsToOverride s (.worker a) s' := by
  obtain ⟨w, hw, h'⟩ := Option.bind_eq_some_iff.mp h
  clear h
  unfold State.workerStep at h'
  split at h'
  case h_1 piece =>
    split at h'
    case isFalse => cases h'
    case isTrue hpre =>
      cases h'
      obtain ⟨rest, hrest⟩ := hpre
      rw [← hrest, List.drop_left]
      exact .arrives piece rest w hrest.symm hw
  case h_2 i =>
    split at h'
    case h_1 c es m hpc =>
      rw [frame_eq] at h'
      cases h'
      exact .answers i c es m w hpc hw (state_of_send hpc hw)
    case h_2 => cases h'
  case h_3 hrecv hsend =>
    cases h'
    refine .works a w ?_ hw
    unfold WorkerSilent
    split
    · exact hrecv _ rfl
    · exact hsend _ rfl
    · trivial

theorem shortWrite_cases {c : Commander.CallId} {taken : Nat}
    (h : ((Commander.step s.commander (.write c none)).bind fun t => s.shortWrite t c taken) =
      some s') :
    Step dirsToOverride s (.shortWrite c taken) s' := by
  obtain ⟨t, ht, h'⟩ := Option.bind_eq_some_iff.mp h
  clear h
  unfold State.shortWrite at h'
  split at h'
  case h_1 msg hpc =>
    rw [frame_eq] at h'
    dsimp only at h'
    split at h'
    case isTrue hlt =>
      cases h'
      rw [state_of_write hpc ht]
      exact .cutsCommand c taken msg hpc hlt
    case isFalse => cases h'
  case h_2 => cases h'

theorem shortSend_cases {i : Fin n} {taken : Nat}
    (h : ((Worker.step dirsToOverride s.worker (.send i none)).bind fun w =>
      s.shortSend w i taken) = some s') :
    Step dirsToOverride s (.shortSend i taken) s' := by
  obtain ⟨w, hw, h'⟩ := Option.bind_eq_some_iff.mp h
  clear h
  unfold State.shortSend at h'
  split at h'
  case h_1 c es m hpc =>
    rw [frame_eq] at h'
    dsimp only at h'
    split at h'
    case isTrue hlt =>
      cases h'
      exact .cutsResponse i taken c es m w hpc hlt hw (state_of_send hpc hw)
    case isFalse => cases h'
  case h_2 => cases h'

theorem step_cases (h : step dirsToOverride s a = some s') : Step dirsToOverride s a s' := by
  cases a with
  | commander a => exact commanderStep_cases h
  | receive piece => exact receive_cases h
  | worker a => exact workerStep_cases h
  | shortWrite c taken => exact shortWrite_cases h
  | shortSend i taken => exact shortSend_cases h

end Connection

end ZControl
