import ZControl.Connection.EndToEnd
import ZControl.Zcfs.Transparency

/-!
# The mount and its workers

All of it together: the calls that the threads of the mount run, the registry of the server, and
behind every connection it has accepted a worker, both ends with their threads and the bytes
between them. Between two operations of a call anything else may move: other calls, the acceptor,
any thread at any end of any connection. How many threads a worker has and which directories it
overrides is up to the worker.
-/

namespace ZControl

open Interaction

deriving instance DecidableEq for ZcfsOp

abbrev ZcfsEvent := Event ZcfsOp ZcfsOp.Ans

namespace Network

open Zcfs

/-! ## The calls of the mount -/

inductive Call where
  | fixed (c : FixedCall)
  | read (path buf : Bytes) (size : UInt64) (offset : Int64) (fh : UInt64)
  | readdir (n : Nat) (path : Bytes) (fh : UInt64)

namespace Call

@[reducible] def Result : Call → Type
  | .fixed c        => c.Result
  | .read _ _ _ _ _ => Int32 × Bytes
  | .readdir _ _ _  => Option Int32

def program : (c : Call) → ZcfsProg c.Result
  | .fixed c                      => c.program
  | .read path buf size offset fh => Zcfs.read path buf size offset fh
  | .readdir n path fh            => Zcfs.readdir n path fh

def path : Call → Bytes
  | .fixed c           => c.path
  | .read path _ _ _ _ => path
  | .readdir _ path _  => path

/-- The worker's name in the path. -/
def client (c : Call) : Bytes := (splitPath c.path).1

end Call

/-- A call in progress: what is left of it, the call of `_send_command` it is in, and, for the
record, its operations and their answers so far. -/
structure Running where
  call : Call
  rest : ZcfsProg call.Result
  sending : Option (ConnId × Commander.CallId)
  events : List ZcfsEvent

def Running.begin (call : Call) : Running := ⟨call, call.program, none, []⟩

/-- Go on after an operation has been answered. -/
def Running.resume (r : Running) (e : ZcfsEvent) (sending : Option (ConnId × Commander.CallId)) :
    Option Running :=
  (r.rest.resume e).map fun rest => ⟨r.call, rest, sending, r.events ++ [e]⟩

/-- The command that a program sends next. -/
def nextCommand {α : Type} : ZcfsProg α → Option (ConnId × Message)
  | .perform (.commander conn (.sendCommand commanderMsg)) _ => some (conn, commanderMsg)
  | _ => none

/-- The step numbers a command other than that of `disconnect()`. -/
def begins {n : Nat} : Connection.Action n → Bool
  | .commander (.build _ type _) => type ≠ CommanderMessageType.disconnect.toUint8
  | _ => false

/-! ## The system -/

variable {n : ConnId → Nat}

/-- For the record, under which name a connection was accepted and which call of the mount
numbered a command. -/
structure State (n : ConnId → Nat) where
  commanders : OrderedMap Bytes ConnId
  accepted : Nat
  conns : (conn : ConnId) → Connection.State (n conn)
  calls : Nat → Option Running
  origin : ConnId → Bytes
  owner : ConnId → Commander.CallId → Option Nat

def init (n : ConnId → Nat) : State n where
  commanders := .empty
  accepted := 0
  conns := fun conn => Connection.init (n conn)
  calls := fun _ => none
  origin := fun _ => []
  owner := fun _ _ => none

inductive Action (n : ConnId → Nat) where
  | accept (ip : UInt32) (port : UInt16)
  | connection (conn : ConnId) (a : Connection.Action (n conn))  -- any step but the number of a
                                                                 -- call
  | start (t : Nat) (call : Call)
  | perform (t : Nat) (e : ZcfsEvent)                            -- any operation but those of a
                                                                 -- `Commander`
  | number (t : Nat) (conn : ConnId) (c : Commander.CallId)      -- `_next_command_id++`
  | finish (t : Nat)                                             -- `_send_command` has ended

namespace State

variable (s : State n)

/-- The registry, with the flag of each `Commander`. -/
def server : Server where
  commanders := s.commanders
  connected := fun conn => conn < s.accepted && (s.conns conn).commander.connected
  accepted := s.accepted

@[simps commanders accepted conns origin owner]
def setCall (t : Nat) (r : Running) : State n :=
  { s with calls := Function.update s.calls t (some r) }

@[simps commanders accepted calls origin owner]
def setConn (conn : ConnId) (x : Connection.State (n conn)) : State n :=
  { s with conns := Function.update s.conns conn x }

/-- The answer to an operation that is not one of a `Commander`. -/
def answer : ZcfsEvent → Option (State n)
  | ⟨.getCommander client, conn⟩ =>
      if conn = (s.server.getCommander client).1 then
        some { s with commanders := (s.server.getCommander client).2.commanders }
      else none
  | ⟨.getClients, clients⟩ => if clients = s.server.getClients then some s else none
  | ⟨.filler _ _, _⟩       => some s
  | ⟨.commander _ _, _⟩    => none

/-- What a call of `_send_command` has come to. -/
def outcome (conn : ConnId) (c : Commander.CallId) : Option (Message × Except Fault Message) :=
  match (s.conns conn).commander.pc c with
  | .returned msg m => some (msg, .ok m)
  | .threw msg e    => some (msg, .error e)
  | _               => none

end State

/-- The command that a call numbers, which has the number in it, and the call after that. -/
def State.numbering (s : State n) (r : Running) (conn : ConnId) (c : Commander.CallId) :
    Option (Running × Message) := do
  let id := (s.conns conn).commander.nextCommandId
  let r' ← r.resume ⟨.commander conn .nextCommandId, id⟩ (some (conn, c))
  let (conn', msg) ← nextCommand r'.rest
  if conn' = conn ∧ msg.id = id then some (r', msg) else none

def step (dirsToOverride : ConnId → DirsToOverride) (s : State n) : Action n → Option (State n)
  | .accept ip port =>
      some { s with
        commanders := (s.server.acceptConnection ip port).commanders
        accepted := s.accepted + 1
        origin := Function.update s.origin s.accepted (formatConnection ip port) }
  | .connection conn a =>
      if conn < s.accepted ∧ begins a = false then
        (Connection.step (dirsToOverride conn) (s.conns conn) a).map (s.setConn conn)
      else none
  | .start t call =>
      match s.calls t with
      | none   => some (s.setCall t (.begin call))
      | some _ => none
  | .perform t e => do
      let r ← s.calls t
      let r' ← r.resume e none
      let s' ← s.answer e
      return s'.setCall t r'
  | .number t conn c => do
      let r ← s.calls t
      let (r', msg) ← s.numbering r conn c
      let x ← Connection.step (dirsToOverride conn) (s.conns conn)
        (.commander (.build c msg.type msg.data))
      return { (s.setConn conn x).setCall t r' with
        owner := Function.update s.owner conn (Function.update (s.owner conn) c (some t)) }
  | .finish t => do
      let r ← s.calls t
      let (conn, c) ← r.sending
      let (msg, answer) ← s.outcome conn c
      let r' ← r.resume ⟨.commander conn (.sendCommand msg), answer⟩ none
      return s.setCall t r'

/-- What every connection asks of its own steps: whole `::send`s, fewer than `2 ^ 32` commands, and
messages below `2 ^ 32` bytes. -/
def Fits (s : State n) : Action n → Prop
  | .connection conn a => Connection.Fits (s.conns conn) a
  | .number t conn c =>
      match (s.calls t).bind fun r => s.numbering r conn c with
      | some (_, msg) => Connection.Fits (s.conns conn) (.commander (.build c msg.type msg.data))
      | none          => True
  | _ => True

instance (s : State n) : (a : Action n) → Decidable (Fits s a)
  | .connection conn a => inferInstanceAs (Decidable (Connection.Fits (s.conns conn) a))
  | .number t conn c =>
      match h : (s.calls t).bind fun r => s.numbering r conn c with
      | some (_, msg) =>
          decidable_of_iff
            (Connection.Fits (s.conns conn) (.commander (.build c msg.type msg.data)))
            (by simp [Fits, h])
      | none => isTrue (by simp [Fits, h])
  | .accept _ _ | .start _ _ | .perform _ _ | .finish _ => isTrue trivial

end Network

end ZControl
