import ZControl.Common.MessageTransport
import ZControl.Lib.WorkQueue
import ZControl.Worker.Worker

/-!
# The threads of a `Worker`

One thread runs `_read_messages`, `n` threads run `_handle_messages`; any other threads call
`wait()` and `close()`, each call being one of them. Between two accesses to what they share (the
flag, the queue and its mutex, the cancellation pipe, the socket, the write mutex, the members of
the handlers) any other thread may move. The steps of a thread are numbered by where it stands.
What the system does, the arrival of bytes and the failure of calls included, is chosen by the
environment, and so is the thread a `notify_one` wakes.

`pop` leaves its mutex while it sleeps, and `close` shuts the queue down without taking it first,
so sleeping, notifying and the tests of the two flags are steps of their own.
-/

namespace ZControl

open Interaction

namespace Worker

/-- A message, with its number in the order in which they are read. -/
abbrev Command := WorkQueue.Ticket Message

/-- What `_read_exactly` is called for. -/
inductive ReadStage where
  | header
  | body (id : UInt32) (type : UInt8) (dataSize : UInt32)
  deriving DecidableEq

/-- Its argument `count`. -/
def ReadStage.count : ReadStage → Nat
  | .header            => 9
  | .body _ _ dataSize => dataSize.toNat

/-- Where the reader thread stands in `_read_messages`. -/
inductive ReaderPc where
  | testing                                          -- at `while (!_should_stop)`
  | polling (stage : ReadStage) (buffer : Bytes)     -- in `_socket.poll`
  | receiving (stage : ReadStage) (buffer : Bytes)   -- in `_socket.recv`
  | received (c : Command)                           -- before the lock of `push`
  | pushing (c : Command)                            -- holds `_mx`
  | notifying                                        -- holds it, before `notify_one`
  | catching (e : Fault)                             -- before `_should_stop = true`
  | flagged                                          -- before `notify_all`
  | left
  deriving DecidableEq

abbrev Events := List (Event WorkerOp WorkerOp.Ans)

/-- Where a handler thread stands in `_handle_messages`. A thread that has not started yet stands
at the test. `events` is what the command has done so far. -/
inductive HandlerPc where
  | testing                                          -- at `while (!_should_stop)`
  | locking                                          -- before the lock of `pop`
  | waiting                                          -- holds `_mx`, before the test of `wait`
  | blocking                                         -- holds it, the test was false
  | sleeping                                         -- in `wait`, without `_mx`
  | woken                                            -- before `wait` locks again
  | popping                                          -- holds `_mx`, `wait` has returned
  | running (c : Command) (events : Events) (p : WorkerProg Message)   -- in `_do_command`
  | stopping (c : Command) (events : Events) (p : WorkerProg Message)  -- in `_disconnect`,
                                                     -- before `notify_all`
  | answering (c : Command) (events : Events) (m : Message)            -- before `_write_mx`
  | sending (c : Command) (events : Events) (m : Message)              -- holds `_write_mx`
  | catching (e : Fault)                             -- before `_should_stop = true`
  | flagged                                          -- before `notify_all`
  | left

/-- Where a call of `wait()` stands. -/
inductive WaiterPc where
  | idle
  | entered
  | sleeping
  | woken
  | returned
  deriving DecidableEq

/-- Where a call of `close()` stands. -/
inductive CloserPc where
  | idle
  | storing          -- before `_should_stop = true`
  | notifying        -- before `notify_all`
  | piping           -- before `_poll_canceling_pipe.notify()`
  | testing          -- at `if (_socket != -1)`
  | shutting         -- before `::shutdown`
  | closing          -- before `::close`
  | clearing         -- before `_socket = -1`
  | queueTesting     -- at `if (_shutdown)`
  | queueFlagging    -- before `_shutdown = true`
  | queueLocking     -- before its lock
  | queueNotifying   -- holds `_mx`, before `notify_all`
  | returned
  deriving DecidableEq

/-- The connection behind `_socket`. -/
inductive Connection where
  | connected
  | shutDown
  | released         -- closed, `_socket` still holds the number
  | cleared          -- `_socket == -1`
  deriving DecidableEq

inductive Thread (n : Nat) where
  | reader
  | handler (i : Fin n)
  | waiter (w : Nat)
  | closer (c : Nat)
  deriving DecidableEq

/-- A response written, the command it answers and what the command did. -/
structure Answer where
  command : Command
  events : Events
  response : Message

/-- The members of a `Worker` and its threads, and, for the record, what was read, which commands
have stored to the flag, and what was answered. `_should_stop` and the members of the two handlers
are in `world`. -/
structure State (n : Nat) where
  world : World
  reader : ReaderPc
  handler : Fin n → HandlerPc
  waiter : Nat → WaiterPc
  closer : Nat → CloserPc
  pipe : Nat                          -- bytes in the cancellation pipe
  socket : Connection
  writeMx : Option (Fin n)
  queue : List Command
  queueMx : Option (Thread n)
  queueShutdown : Bool
  reads : List Message
  disconnects : List Command
  answers : List Answer

def init (n : Nat) : State n where
  world := .new
  reader := .testing
  handler := fun _ => .testing
  waiter := fun _ => .idle
  closer := fun _ => .idle
  pipe := 0
  socket := .connected
  writeMx := none
  queue := []
  queueMx := none
  queueShutdown := false
  reads := []
  disconnects := []
  answers := []

def HandlerPc.wake : HandlerPc → HandlerPc
  | .sleeping => .woken
  | pc        => pc

def WaiterPc.wake : WaiterPc → WaiterPc
  | .sleeping => .woken
  | pc        => pc

namespace State

variable {n : Nat} (s : State n)

@[simps world reader waiter closer pipe socket writeMx queue queueMx queueShutdown reads
  disconnects answers]
def setHandler (i : Fin n) (pc : HandlerPc) : State n :=
  { s with handler := Function.update s.handler i pc }

@[simps world reader handler closer pipe socket writeMx queue queueMx queueShutdown reads
  disconnects answers]
def setWaiter (w : Nat) (pc : WaiterPc) : State n :=
  { s with waiter := Function.update s.waiter w pc }

@[simps world reader handler waiter pipe socket writeMx queue queueMx queueShutdown reads
  disconnects answers]
def setCloser (c : Nat) (pc : CloserPc) : State n :=
  { s with closer := Function.update s.closer c pc }

/-- `_should_stop = true`. -/
@[simps]
def stop : State n := { s with world := { s.world with shouldStop := true } }

/-- `_should_stop.notify_all()`. -/
@[simps]
def notifyStop : State n := { s with waiter := fun w => (s.waiter w).wake }

/-- `_cv.notify_all()`. -/
@[simps]
def notifyQueue : State n := { s with handler := fun i => (s.handler i).wake }

/-! ## The reader -/

/-- The last part of `read`: the body, which takes no `poll` if it is empty. -/
def readBody (id : UInt32) (type : UInt8) (dataSize : UInt32) (buffer : Bytes) : State n :=
  if buffer.length < dataSize.toNat then
    { s with reader := .polling (.body id type dataSize) buffer }
  else
    match BinaryDeserializer.deserialize buffer
        (BinaryDeserializer.deserializeByteVectorOf dataSize) with
    | .ok data =>
        { s with
          reader := .received ⟨s.reads.length, ⟨id, type, data⟩⟩
          reads := s.reads ++ [⟨id, type, data⟩] }
    | .error e => { s with reader := .catching e }

/-- `read`, after `buffer` has been received of what `_read_exactly` was called for. -/
def readOn (stage : ReadStage) (buffer : Bytes) : State n :=
  match stage with
  | .body id type dataSize => s.readBody id type dataSize buffer
  | .header =>
      if buffer.length < ReadStage.header.count then
        { s with reader := .polling .header buffer }
      else
        match BinaryDeserializer.deserialize buffer MessageTransport.readHeader with
        | .ok (id, type, dataSize) => s.readBody id type dataSize []
        | .error e                 => { s with reader := .catching e }

/-- The steps of `_read_messages` that involve no outside choice. -/
def stepReader : Option (State n) :=
  match s.reader with
  | .testing =>
      some (if s.world.shouldStop then { s with reader := .left } else s.readOn .header [])
  | .received c =>
      match s.queueMx with
      | none   => some { s with queueMx := some .reader, reader := .pushing c }
      | some _ => none
  | .pushing c  => some { s with queue := s.queue ++ [c], reader := .notifying }
  | .catching _ => some { s.stop with reader := .flagged }
  | .flagged    => some { s.notifyStop with reader := .testing }
  | _ => none

/-- `::poll` returns. The pipe is looked at before the socket, and what it holds is taken out, up
to the 64 bytes of the buffer. -/
def poll (result : PollResult) : Option (State n) :=
  match s.reader, result with
  | .polling _ _, .failed => some { s with reader := .catching (systemError "Failed to poll") }
  | .polling _ _, .pipeReadable =>
      if 0 < s.pipe then
        some { s with
          pipe := s.pipe - 64
          reader := .catching (.exception .cancellation (ascii "Poll was cancelled")) }
      else none
  | .polling stage buffer, .socketReadable =>
      if s.pipe = 0 then some { s with reader := .receiving stage buffer } else none
  | _, _ => none

/-- `::recv` returns: `none` for a failure, no byte at the end of the stream. -/
def recv (result : Option Bytes) : Option (State n) :=
  match s.reader, result with
  | .receiving _ _, none =>
      some { s with reader := .catching (systemError "Failed to recv") }
  | .receiving stage buffer, some piece =>
      if piece = [] then some { s with reader := .catching transportClosed }
      else if buffer.length + piece.length ≤ stage.count then
        some (s.readOn stage (buffer ++ piece))
      else none
  | _, _ => none

/-- `_cv.notify_one()`, which wakes a sleeping thread if there is one, and the end of `push`. -/
def notifyOne (woken : Option (Fin n)) : Option (State n) :=
  match s.reader, woken with
  | .notifying, some i =>
      match s.handler i with
      | .sleeping =>
          some ({ s with queueMx := none, reader := .testing }.setHandler i .woken)
      | _ => none
  | .notifying, none =>
      if ∀ i, (s.handler i matches .sleeping) = false then
        some { s with queueMx := none, reader := .testing }
      else none
  | _, _ => none

/-! ## The handlers -/

/-- The steps of `_handle_messages` that involve no outside choice. -/
def stepHandler (dirsToOverride : DirsToOverride) (i : Fin n) : Option (State n) :=
  match s.handler i with
  | .testing => some (s.setHandler i (if s.world.shouldStop then .left else .locking))
  | .locking | .woken =>
      match s.queueMx with
      | none   => some ({ s with queueMx := some (.handler i) }.setHandler i .waiting)
      | some _ => none
  | .waiting =>
      some (s.setHandler i (if s.queue ≠ [] ∨ s.queueShutdown then .popping else .blocking))
  | .blocking => some ({ s with queueMx := none }.setHandler i .sleeping)
  | .popping =>
      if s.queueShutdown then
        some ({ s with queueMx := none }.setHandler i
          (.catching (.exception .queueShutdown (ascii "Queue Shutdown"))))
      else
        match s.queue with
        | c :: rest =>
            some ({ s with queueMx := none, queue := rest }.setHandler i
              (.running c [] (doCommand dirsToOverride c.item)))
        | [] => none
  | .running c es (.pure m) => some (s.setHandler i (.answering c es m))
  | .running _ _ (.throw e) => some (s.setHandler i (.catching e))
  | .stopping c es p => some (s.notifyStop.setHandler i (.running c es p))
  | .answering c es m =>
      -- the message is serialized before the lock
      match MessageTransport.frame m, s.writeMx with
      | .ok _, none    => some ({ s with writeMx := some i }.setHandler i (.sending c es m))
      | .ok _, some _  => none
      | .error e, _    => some (s.setHandler i (.catching e))
  | .catching _ => some (s.stop.setHandler i .flagged)
  | .flagged    => some (s.notifyStop.setHandler i .testing)
  | _ => none

/-- The next operation of a command. The store of `_disconnect` is followed by its
`notify_all`. -/
def op (i : Fin n) (e : Event WorkerOp WorkerOp.Ans) : Option (State n) :=
  match s.handler i with
  | .running c es p => do
      let q ← p.resume e
      let world ← World.step i s.world e.1 e.2
      if e.1 = .setShouldStop then
        return { s with world := world, disconnects := s.disconnects ++ [c] }.setHandler i
          (.stopping c (es ++ [e]) q)
      else
        return { s with world := world }.setHandler i (.running c (es ++ [e]) q)
  | _ => none

/-- `::send` returns, and the mutex is released. -/
def send (i : Fin n) (failure : Option Fault) : Option (State n) :=
  match s.handler i, failure with
  | .sending c es m, none =>
      if s.socket = .connected then
        some ({ s with
          writeMx := none
          answers := s.answers ++ [Answer.mk c es m] }.setHandler i .testing)
      else none
  | .sending _ _ _, some e => some ({ s with writeMx := none }.setHandler i (.catching e))
  | _, _ => none

/-- `wait` may wake up without having been notified. -/
def wakeHandler (i : Fin n) : Option (State n) :=
  match s.handler i with
  | .sleeping => some (s.setHandler i .woken)
  | _         => none

/-! ## `wait()` and `close()` -/

def stepWaiter (w : Nat) : Option (State n) :=
  match s.waiter w with
  | .idle             => some (s.setWaiter w .entered)
  | .entered | .woken => some (s.setWaiter w (if s.world.shouldStop then .returned else .sleeping))
  | _                 => none

def wakeWaiter (w : Nat) : Option (State n) :=
  match s.waiter w with
  | .sleeping => some (s.setWaiter w .woken)
  | _         => none

def stepCloser (c : Nat) : Option (State n) :=
  match s.closer c with
  | .idle      => some (s.setCloser c .storing)
  | .storing   => some (s.stop.setCloser c .notifying)
  | .notifying => some (s.notifyStop.setCloser c .piping)
  | .piping    => some ({ s with pipe := s.pipe + 1 }.setCloser c .testing)
  | .testing   => some (s.setCloser c (if s.socket = .cleared then .queueTesting else .shutting))
  | .shutting =>
      -- on a number that has been closed in the meantime the call does nothing
      let socket : Connection := if s.socket = .connected then .shutDown else s.socket
      some ({ s with socket := socket }.setCloser c .closing)
  | .closing =>
      let socket : Connection := if s.socket = .cleared then .cleared else .released
      some ({ s with socket := socket }.setCloser c .clearing)
  | .clearing       => some ({ s with socket := .cleared }.setCloser c .queueTesting)
  | .queueTesting   => some (s.setCloser c (if s.queueShutdown then .returned else .queueFlagging))
  | .queueFlagging  => some ({ s with queueShutdown := true }.setCloser c .queueLocking)
  | .queueLocking =>
      match s.queueMx with
      | none   => some ({ s with queueMx := some (.closer c) }.setCloser c .queueNotifying)
      | some _ => none
  | .queueNotifying => some ({ s.notifyQueue with queueMx := none }.setCloser c .returned)
  | .returned       => none

end State

inductive Action (n : Nat) where
  | reader
  | poll (result : PollResult)
  | recv (result : Option Bytes)
  | notifyOne (woken : Option (Fin n))
  | handler (i : Fin n)
  | op (i : Fin n) (e : Event WorkerOp WorkerOp.Ans)
  | send (i : Fin n) (failure : Option Fault)
  | wakeHandler (i : Fin n)
  | waiter (w : Nat)
  | wakeWaiter (w : Nat)
  | closer (c : Nat)

/-- The thread whose step it is. -/
def Action.thread {n : Nat} : Action n → Thread n
  | .reader | .poll _ | .recv _ | .notifyOne _             => .reader
  | .handler i | .op i _ | .send i _ | .wakeHandler i      => .handler i
  | .waiter w | .wakeWaiter w                              => .waiter w
  | .closer c                                              => .closer c

def step {n : Nat} (dirsToOverride : DirsToOverride) (s : State n) :
    Action n → Option (State n)
  | .reader          => s.stepReader
  | .poll result     => s.poll result
  | .recv result     => s.recv result
  | .notifyOne woken => s.notifyOne woken
  | .handler i       => s.stepHandler dirsToOverride i
  | .op i e          => s.op i e
  | .send i failure  => s.send i failure
  | .wakeHandler i   => s.wakeHandler i
  | .waiter w        => s.stepWaiter w
  | .wakeWaiter w    => s.wakeWaiter w
  | .closer c        => s.stepCloser c

end Worker

end ZControl
