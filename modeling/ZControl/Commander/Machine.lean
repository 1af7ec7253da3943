import ZControl.Common.MessageTransport
import Mathlib.Data.List.AList

/-!
# The threads of a `Commander`

Any number of threads run `_send_command` (each command method and `disconnect()` is one call of
it), one thread runs `_read_responses`. Between two accesses to what they share (the flag, the id
counter, the map, the mutex, the promises, the transport) any other thread may move. The steps of
a thread are numbered by where it stands; the transport's part, whether a write fails and what
the next read brings, is chosen by the environment without restriction.
-/

namespace ZControl

namespace Commander

/-- `_set_response_exception` and the branch around it: what a response resolves its promise to. -/
def responseOf (workerMsg : Message) : Except Fault Message :=
  if workerMsg.type = WorkerMessageType.commandResult.toUint8 then .ok workerMsg
  else if workerMsg.type = WorkerMessageType.commandError.toUint8 then
    match BinaryDeserializer.deserialize workerMsg.data BinaryDeserializer.deserializeStr with
    | .ok what => .error (.exception .remoteWorker what)
    | .error e => .error e
  else if workerMsg.type = WorkerMessageType.commandUnknown.toUint8 then
    .error (.exception .remoteWorker (ascii "Unknown command"))
  else .error (.exception .runtimeError (ascii "Unknown response message type"))

/-- One call of `_send_command`, from the moment a command method or `disconnect()` is entered. -/
abbrev CallId := Nat

/-- A `std::promise<Message>`: the call whose future shares its state; `none` once moved from. -/
abbrev Promise := Option CallId

/-! The texts of the errors of futures are given without the `std::future_error: ` that the library
puts before them. No result depends on them. -/

def noState : Fault := .exception .futureError (ascii "No associated state")

def alreadySatisfied : Fault := .exception .futureError (ascii "Promise already satisfied")

def brokenPromise : Fault := .exception .futureError (ascii "Broken promise")

def disconnected : Fault := .exception .remoteWorker (ascii "Disconnected")

def outOfRange : Fault := .exception .outOfRange (ascii "map::at")

/-- Where a call stands. The message is the `commander_msg` of the call. -/
inductive CallPc where
  | idle
  | entered                                 -- `disconnect()` has found `_connected` set
  | skipped                                 -- `disconnect()` has found it cleared and returned
  | built (msg : Message)                   -- `_next_command_id++` done
  | holding (msg : Message)                 -- holds `_promises_mx`
  | tested (msg : Message)                  -- holds it, `_connected` was set
  | registered (msg : Message)              -- holds it, the promise is in the map
  | writing (msg : Message)                 -- mutex released, before `_transport.write`
  | waiting (msg : Message)                 -- in `future.get()`
  | returned (msg : Message) (result : Message)
  | threw (msg : Message) (e : Fault)
  | cleared (msg : Message)                 -- `disconnect()` has stored `_connected = false`
  deriving DecidableEq

/-- Where the reader thread stands in `_read_responses`. -/
inductive ReaderPc where
  | testing                                 -- at `while (_connected)`
  | reading                                 -- in `_transport.read()`
  | received (msg : Message)                -- before the lock
  | locked (msg : Message)                  -- before `at(msg_id)`
  | taken (msg : Message) (p : Promise)     -- `resp_promise` moved out of the map
  | resolved (msg : Message)                -- before `erase(msg_id)`
  | erased                                  -- before the release of the mutex
  | catching (e : Fault)                    -- in the handler, before `_connected = false`
  | flagged (e : Fault)                     -- before the handler's lock
  | sweeping (e : Fault) (keys : List UInt32)  -- entries still to be given the exception
  | left                                    -- the loop has ended
  | terminated                              -- an exception has left the handler
  deriving DecidableEq

inductive Owner where
  | caller (c : CallId)
  | reader
  deriving DecidableEq

/-- The members of a `Commander`, the shared states of its promises and its threads. -/
structure State where
  connected : Bool
  nextCommandId : UInt32
  responsesPromises : AList (fun _ : UInt32 => Promise)
  promisesMx : Option Owner
  shared : CallId → Option (Except Fault Message)
  pc : CallId → CallPc
  reader : ReaderPc

def init : State where
  connected := true
  nextCommandId := 0
  responsesPromises := ∅
  promisesMx := none
  shared := fun _ => none
  pc := fun _ => .idle
  reader := .testing

/-- `set_value` and `set_exception`: only a promise with an unresolved shared state takes one. -/
def setResult (shared : CallId → Option (Except Fault Message)) (p : Promise)
    (r : Except Fault Message) : Except Fault (CallId → Option (Except Fault Message)) :=
  match p with
  | none => .error noState
  | some c =>
      match shared c with
      | some _ => .error alreadySatisfied
      | none   => .ok (Function.update shared c (some r))

/-- What assigning over the map entry `old` does to the shared state it held: an unresolved one
is abandoned and gets `broken_promise`. -/
def abandon (shared : CallId → Option (Except Fault Message)) (old : Option Promise) :
    CallId → Option (Except Fault Message) :=
  match old with
  | some (some c) =>
      match shared c with
      | some _ => shared
      | none   => Function.update shared c (some (.error brokenPromise))
  | _ => shared

namespace State

def setPc (s : State) (c : CallId) (pc : CallPc) : State :=
  { s with pc := Function.update s.pc c pc }

/-- The steps of `_send_command` and `disconnect()` that involve no outside choice. -/
def stepCaller (s : State) (c : CallId) : Option State :=
  match s.pc c with
  | .built msg =>
      match s.promisesMx with
      | none   => some ({ s with promisesMx := some (.caller c) }.setPc c (.holding msg))
      | some _ => none
  | .holding msg =>
      if s.connected then some (s.setPc c (.tested msg))
      else some ({ s with promisesMx := none }.setPc c (.threw msg disconnected))
  | .tested msg =>
      some ({ s with
        shared := abandon s.shared (s.responsesPromises.lookup msg.id)
        responsesPromises := s.responsesPromises.insert msg.id (some c) }.setPc c (.registered msg))
  | .registered msg => some ({ s with promisesMx := none }.setPc c (.writing msg))
  | .waiting msg =>
      match s.shared c with
      | some (.ok m)    => some (s.setPc c (.returned msg m))
      | some (.error e) => some (s.setPc c (.threw msg e))
      | none            => none
  | .returned msg _ =>
      if msg.type = CommanderMessageType.disconnect.toUint8 then
        some ({ s with connected := false }.setPc c (.cleared msg))
      else none
  | .threw msg _ =>
      if msg.type = CommanderMessageType.disconnect.toUint8 then
        some ({ s with connected := false }.setPc c (.cleared msg))
      else none
  | _ => none

/-- The steps of `_read_responses` other than the read itself. -/
def stepReader (s : State) : Option State :=
  match s.reader with
  | .testing => some { s with reader := if s.connected then .reading else .left }
  | .received msg =>
      match s.promisesMx with
      | none   => some { s with promisesMx := some .reader, reader := .locked msg }
      | some _ => none
  | .locked msg =>
      match s.responsesPromises.lookup msg.id with
      | some p =>
          some { s with
            responsesPromises := s.responsesPromises.insert msg.id none
            reader := .taken msg p }
      | none => some { s with promisesMx := none, reader := .catching outOfRange }
  | .taken msg p =>
      match setResult s.shared p (responseOf msg) with
      | .ok shared => some { s with shared := shared, reader := .resolved msg }
      | .error e   => some { s with promisesMx := none, reader := .catching e }
  | .resolved msg =>
      some { s with responsesPromises := s.responsesPromises.erase msg.id, reader := .erased }
  | .erased => some { s with promisesMx := none, reader := .testing }
  | .catching e => some { s with connected := false, reader := .flagged e }
  | .flagged e =>
      match s.promisesMx with
      | none =>
          some { s with
            promisesMx := some .reader
            reader := .sweeping e s.responsesPromises.keys }
      | some _ => none
  | .sweeping e (k :: ks) =>
      match setResult s.shared ((s.responsesPromises.lookup k).getD none) (.error e) with
      | .ok shared => some { s with shared := shared, reader := .sweeping e ks }
      | .error _   => some { s with promisesMx := none, reader := .terminated }
  | .sweeping _ [] => some { s with promisesMx := none, reader := .testing }
  | _ => none

end State

inductive Action where
  | enter (c : CallId)                            -- `disconnect()` tests `_connected`
  | build (c : CallId) (type : UInt8) (data : Bytes)  -- `Message(_next_command_id++, ...)`
  | caller (c : CallId)
  | write (c : CallId) (failure : Option Fault)   -- `_transport.write(commander_msg)`
  | read (result : Except Fault Message)          -- `_transport.read()`
  | reader
  deriving DecidableEq

def step (s : State) : Action → Option State
  | .enter c =>
      match s.pc c with
      | .idle => some (s.setPc c (if s.connected then .entered else .skipped))
      | _     => none
  | .build c type data =>
      let built := { s with nextCommandId := s.nextCommandId + 1 }.setPc c
        (.built ⟨s.nextCommandId, type, data⟩)
      match s.pc c with
      | .idle    => if type ≠ CommanderMessageType.disconnect.toUint8 then some built else none
      | .entered =>
          if type = CommanderMessageType.disconnect.toUint8 ∧ data = [] then some built else none
      | _        => none
  | .caller c => s.stepCaller c
  | .write c failure =>
      match s.pc c, failure with
      | .writing msg, none   => some (s.setPc c (.waiting msg))
      | .writing msg, some e => some (s.setPc c (.threw msg e))
      | _, _ => none
  | .read result =>
      match s.reader, result with
      | .reading, .ok msg  => some { s with reader := .received msg }
      | .reading, .error e => some { s with reader := .catching e }
      | _, _ => none
  | .reader => s.stepReader

end Commander
end ZControl
