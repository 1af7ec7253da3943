import ZControl.Commander.Correlation
import ZControl.Connection.Frames
import ZControl.Worker.Begun

/-!
# A `Commander` and its worker

The threads of a `Commander` and those of the worker at the other end of its connection, with the
bytes on the way in both directions. What one end sends is the frame that `write` makes of the
message, put on the stream by one `::send`; what the other end receives comes in pieces of any size.
A call on the transport may fail at any time, and a failing `::send` puts nothing on the stream. A
`::send` may also take only the first bytes of the frame and return: the thread that sent goes on as
if it had taken them all.
-/

namespace ZControl

open MessageTransport

namespace Connection

open Worker (ReadStage Command)

/-- Both ends and what is between them, and, for the record, how many commands have been built,
which messages were sent whole to the worker, and which a handler has begun to work on. -/
structure State (n : Nat) where
  commander : Commander.State
  worker : Worker.State n
  requests : Bytes          -- sent and not received by the worker yet
  responses : Bytes         -- sent and not received by the commander yet
  stage : ReadStage         -- where the commander stands in `_transport.read()`
  buffer : Bytes
  commands : Nat
  written : List Message
  started : List Command

def init (n : Nat) : State n where
  commander := Commander.init
  worker := Worker.init n
  requests := []
  responses := []
  stage := .header
  buffer := []
  commands := 0
  written := []
  started := []

inductive Action (n : Nat) where
  | commander (a : Commander.Action)   -- any step but the end of a successful read
  | receive (piece : Bytes)            -- the commander's `_socket.recv` returns
  | worker (a : Worker.Action n)
  | shortWrite (c : Commander.CallId) (taken : Nat)  -- `::send` takes less than the command
  | shortSend (i : Fin n) (taken : Nat)              -- or less than the response

namespace State

variable {n : Nat} (s : State n)

/-- The commander goes on; `t` is its state then. -/
def commanderStep (t : Commander.State) : Commander.Action → Option (State n)
  | .read (.ok _)  => none
  | .build _ _ _   => some { s with commander := t, commands := s.commands + 1 }
  | .write c none  =>
      match s.commander.pc c with
      | .writing msg =>
          match frame msg with
          | .ok bytes =>
              some { s with
                commander := t
                requests := s.requests ++ bytes
                written := s.written ++ [msg] }
          | .error _ => none
      | _ => none
  | _ => some { s with commander := t }

/-- The call goes on to wait, but only the first bytes of its command are on the way. -/
def shortWrite (t : Commander.State) (c : Commander.CallId) (taken : Nat) : Option (State n) :=
  match s.commander.pc c with
  | .writing msg =>
      match frame msg with
      | .ok bytes =>
          if taken < bytes.length then
            some { s with commander := t, requests := s.requests ++ bytes.take taken }
          else none
      | .error _ => none
  | _ => none

/-- `recv` returns with `piece` in `_transport.read()`. -/
def receive (piece : Bytes) : Option (State n) :=
  if s.commander.reader = .reading ∧ piece ≠ [] ∧ piece <+: s.responses ∧
      s.buffer.length + piece.length ≤ s.stage.count then
    let s' := { s with responses := s.responses.drop piece.length }
    match progress s.stage (s.buffer ++ piece) with
    | .waits stage buffer => some { s' with stage := stage, buffer := buffer }
    | .returns m =>
        (Commander.step s.commander (.read (.ok m))).map fun t =>
          { s' with commander := t, stage := .header, buffer := [] }
    | .throws e =>
        (Commander.step s.commander (.read (.error e))).map fun t => { s' with commander := t }
  else none

/-- The worker goes on; `w` is its state then. -/
def workerStep (w : Worker.State n) : Worker.Action n → Option (State n)
  | .recv (some piece) =>
      if piece <+: s.requests then
        some { s with worker := w, requests := s.requests.drop piece.length }
      else none
  | .send i none =>
      match s.worker.handler i with
      | .sending _ _ m =>
          match frame m with
          | .ok bytes => some { s with worker := w, responses := s.responses ++ bytes }
          | .error _  => none
      | _ => none
  | a => some { s with worker := w, started := s.started ++ s.worker.begun w a }

/-- The handler goes on, but only the first bytes of its response are on the way. -/
def shortSend (w : Worker.State n) (i : Fin n) (taken : Nat) : Option (State n) :=
  match s.worker.handler i with
  | .sending _ _ m =>
      match frame m with
      | .ok bytes =>
          if taken < bytes.length then
            some { s with worker := w, responses := s.responses ++ bytes.take taken }
          else none
      | .error _ => none
  | _ => none

end State

def step {n : Nat} (dirsToOverride : DirsToOverride) (s : State n) : Action n → Option (State n)
  | .commander a => (Commander.step s.commander a).bind fun t => s.commanderStep t a
  | .receive piece => s.receive piece
  | .worker a => (Worker.step dirsToOverride s.worker a).bind fun w => s.workerStep w a
  | .shortWrite c taken =>
      (Commander.step s.commander (.write c none)).bind fun t => s.shortWrite t c taken
  | .shortSend i taken =>
      (Worker.step dirsToOverride s.worker (.send i none)).bind fun w => s.shortSend w i taken

end Connection

end ZControl
