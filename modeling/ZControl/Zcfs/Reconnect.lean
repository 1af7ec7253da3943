import ZControl.Zcfs.FileCalls

/-!
# File handles across reconnects

What `fi->fh` holds is an id of the table of one worker, and every call looks the worker up anew
by the name of its client. The threads of the mount run the file operations; between two
operations of a call any other thread may move, a connection may be lost and another one be
accepted. Every worker begins with an empty table. It handles its requests one after the other;
`Worker.Overlap` is about those that overlap.
-/

namespace ZControl

open Interaction Transition

namespace Zcfs

namespace Reconnect

/-! ## The mount and its workers -/

/-- A file that a worker opened, numbered in the order in which it opened its files. -/
structure RemoteFile where
  conn : ConnId
  serial : Nat
  deriving DecidableEq

/-- What a successful `zcfs_open` or `zcfs_create` leaves: the name in its path, what it stored in
`fi->fh`, and, for the record, the file it opened. -/
structure Handle where
  client : Bytes
  fh : UInt64
  file : Option RemoteFile
  deriving DecidableEq

/-- A call in progress: what it was called with, what is left of it, and, for the record, the files
it has acted on and those it has opened. -/
structure Running where
  call : FileCall
  handle : Option Handle        -- for the calls that are given one
  fh : UInt64
  rest : ZcfsProg (Int32 × UInt64)
  acted : List RemoteFile
  opened : List RemoteFile

structure State where
  server : Server
  nextCommandId : ConnId → UInt32
  worker : ConnId → Worker.Session
  handles : List Handle
  running : ThreadId → Option Running

def init : State where
  server := .init
  nextCommandId := fun _ => 0
  worker := fun _ => .new
  handles := []
  running := fun _ => none

/-- What becomes of a command: `_send_command` throws, or the worker handles what reaches it. -/
inductive Delivery where
  | fails (kind : ExceptionKind) (what : Bytes)
  | handled (request : Worker.Request) (answer : Except Fault Message)

inductive Action where
  | accept (ip : UInt32) (port : UInt16)
  | lose (conn : ConnId)
  | open (t : ThreadId) (call : FileCall) (fh : UInt64)
  | use (t : ThreadId) (call : FileCall) (h : Handle)
  | getCommander (t : ThreadId)
  | nextCommandId (t : ThreadId)
  | sendCommand (t : ThreadId) (d : Delivery)
  | return (t : ThreadId)

instance (m : Message) : Decidable (FramedTruly m) := decidable_of_iff _ (framedTruly_iff m).symm

/-- What `_send_command` may come to when the worker has answered so. The answer may be lost on
the way, which is an exception; one that is not framed truly may arrive as anything. -/
def answers (result : Except Fault Message) : Except Fault Message → Bool
  | .error (.exception _ _) => true
  | answer =>
      match result with
      | .ok response => FramedTruly response → answer = Commander.responseOf response
      | .error _     => false

/-- The open files that the calls of a request act on. -/
def actedOn (conn : ConnId) (w : World) (es : List WorkerEvent) : List RemoteFile :=
  (es.filterMap fun e => e.1.fd?.bind w.files.serial).map (RemoteFile.mk conn)

/-- The file that a request opens. -/
def openedBy (conn : ConnId) (w : World) (es : List WorkerEvent) : List RemoteFile :=
  if es.any WorkerEvent.opensFile then [⟨conn, w.files.created⟩] else []

/-- What a call leaves that has returned. -/
def Running.stores (r : Running) (result : Int32) (fh : UInt64) : List Handle :=
  if r.call.opens ∧ result = 0 then [⟨r.call.client, fh, r.opened.head?⟩] else []

namespace State

variable (s : State)

@[simps server nextCommandId worker handles]
def setRunning (t : ThreadId) (r : Option Running) : State :=
  { s with running := Function.update s.running t r }

/-- The command reaches the worker, which handles it. -/
def handle (dirsToOverride : DirsToOverride) (t : ThreadId) (r : Running) (conn : ConnId)
    (commanderMsg : Message) (k : Except Fault Message → ZcfsProg (Int32 × UInt64))
    (request : Worker.Request) (answer : Except Fault Message) : Option State :=
  if s.server.connected conn ∧ (FramedTruly commanderMsg → request.message = commanderMsg) ∧
      request.events.all FileCall.positiveErrno ∧ answers request.result answer then
    ((s.worker conn).step dirsToOverride request).map fun session =>
      { s with worker := Function.update s.worker conn session }.setRunning t
        (some { r with
          rest := k answer
          acted := r.acted ++ actedOn conn (s.worker conn).world request.events
          opened := r.opened ++ openedBy conn (s.worker conn).world request.events })
  else none

end State

def step (dirsToOverride : DirsToOverride) (s : State) : Action → Option State
  | .accept ip port => some { s with server := s.server.acceptConnection ip port }
  | .lose conn      => some { s with server := s.server.perform (.disconnected conn) }
  | .open t call fh =>
      match s.running t with
      | some _ => none
      | none   =>
          if call.opens then
            some (s.setRunning t (some ⟨call, none, fh, call.program fh, [], []⟩))
          else none
  | .use t call h =>
      match s.running t with
      | some _ => none
      | none   =>
          if call.opens = false ∧ h ∈ s.handles ∧ call.client = h.client then
            some (s.setRunning t (some ⟨call, some h, h.fh, call.program h.fh, [], []⟩))
          else none
  | .getCommander t =>
      match s.running t with
      | some r =>
          match r.rest with
          | .perform (.getCommander client) k =>
              some ({ s with server := (s.server.getCommander client).2 }.setRunning t
                (some { r with rest := k (s.server.getCommander client).1 }))
          | _ => none
      | none => none
  | .nextCommandId t =>
      match s.running t with
      | some r =>
          match r.rest with
          | .perform (.commander conn .nextCommandId) k =>
              some ({ s with
                nextCommandId :=
                  Function.update s.nextCommandId conn (s.nextCommandId conn + 1) }.setRunning t
                    (some { r with rest := k (s.nextCommandId conn) }))
          | _ => none
      | none => none
  | .sendCommand t d =>
      match s.running t with
      | some r =>
          match r.rest, d with
          | .perform (.commander _ (.sendCommand _)) k, .fails kind what =>
              some (s.setRunning t (some { r with rest := k (.error (.exception kind what)) }))
          | .perform (.commander conn (.sendCommand commanderMsg)) k, .handled request answer =>
              s.handle dirsToOverride t r conn commanderMsg k request answer
          | _, _ => none
      | none => none
  | .return t =>
      match s.running t with
      | some r =>
          match r.rest with
          | .pure (result, fh) =>
              some ({ s with handles := s.handles ++ r.stores result fh }.setRunning t none)
          | _ => none
      | none => none

/-! ## What a step does -/

/-- The effects of an action that is possible. -/
inductive Step (dirsToOverride : DirsToOverride) (s : State) : Action → State → Prop where
  | accepts (ip : UInt32) (port : UInt16) :
      Step dirsToOverride s (.accept ip port) { s with server := s.server.acceptConnection ip port }
  | loses (conn : ConnId) :
      Step dirsToOverride s (.lose conn)
        { s with server := s.server.perform (.disconnected conn) }
  | opens (t : ThreadId) (call : FileCall) (fh : UInt64) (hcall : call.opens = true) :
      Step dirsToOverride s (.open t call fh)
        (s.setRunning t (some ⟨call, none, fh, call.program fh, [], []⟩))
  | uses (t : ThreadId) (call : FileCall) (h : Handle) (hcall : call.opens = false)
      (hh : h ∈ s.handles) :
      Step dirsToOverride s (.use t call h)
        (s.setRunning t (some ⟨call, some h, h.fh, call.program h.fh, [], []⟩))
  | looksUp (t : ThreadId) (r : Running) (client : Bytes)
      (k : Option ConnId → ZcfsProg (Int32 × UInt64)) (ht : s.running t = some r)
      (hrest : r.rest = .perform (.getCommander client) k) :
      Step dirsToOverride s (.getCommander t)
        ({ s with server := (s.server.getCommander client).2 }.setRunning t
          (some { r with rest := k (s.server.getCommander client).1 }))
  | numbers (t : ThreadId) (r : Running) (conn : ConnId)
      (k : UInt32 → ZcfsProg (Int32 × UInt64)) (nextCommandId : ConnId → UInt32)
      (ht : s.running t = some r) (hrest : r.rest = .perform (.commander conn .nextCommandId) k) :
      Step dirsToOverride s (.nextCommandId t)
        ({ s with nextCommandId := nextCommandId }.setRunning t
          (some { r with rest := k (s.nextCommandId conn) }))
  | fails (t : ThreadId) (r : Running) (conn : ConnId) (commanderMsg : Message)
      (k : Except Fault Message → ZcfsProg (Int32 × UInt64)) (kind : ExceptionKind) (what : Bytes)
      (ht : s.running t = some r)
      (hrest : r.rest = .perform (.commander conn (.sendCommand commanderMsg)) k) :
      Step dirsToOverride s (.sendCommand t (.fails kind what))
        (s.setRunning t (some { r with rest := k (.error (.exception kind what)) }))
  | handles (t : ThreadId) (r : Running) (conn : ConnId) (commanderMsg : Message)
      (k : Except Fault Message → ZcfsProg (Int32 × UInt64)) (request : Worker.Request)
      (answer : Except Fault Message) (session : Worker.Session) (ht : s.running t = some r)
      (hrest : r.rest = .perform (.commander conn (.sendCommand commanderMsg)) k)
      (harrives : FramedTruly commanderMsg → request.message = commanderMsg)
      (hpos : request.events.all FileCall.positiveErrno = true)
      (hanswer : answers request.result answer = true)
      (hsession : (s.worker conn).step dirsToOverride request = some session) :
      Step dirsToOverride s (.sendCommand t (.handled request answer))
        ({ s with worker := Function.update s.worker conn session }.setRunning t
          (some { r with
            rest := k answer
            acted := r.acted ++ actedOn conn (s.worker conn).world request.events
            opened := r.opened ++ openedBy conn (s.worker conn).world request.events }))
  | returns (t : ThreadId) (r : Running) (result : Int32) (fh : UInt64)
      (ht : s.running t = some r) (hrest : r.rest = .pure (result, fh)) :
      Step dirsToOverride s (.return t)
        ({ s with handles := s.handles ++ r.stores result fh }.setRunning t none)

variable {dirsToOverride : DirsToOverride} {s s' : State} {a : Action}

theorem step_cases (h : step dirsToOverride s a = some s') : Step dirsToOverride s a s' := by
  cases a with
  | accept ip port =>
      cases h
      exact .accepts ip port
  | lose conn =>
      cases h
      exact .loses conn
  | «open» t call fh =>
      simp only [step] at h
      split at h
      case h_1 => cases h
      case h_2 =>
        split at h
        case isFalse => cases h
        case isTrue hcall =>
          cases h
          exact .opens t call fh hcall
  | use t call h' =>
      simp only [step] at h
      split at h
      case h_1 => cases h
      case h_2 =>
        split at h
        case isFalse => cases h
        case isTrue hcall =>
          cases h
          exact .uses t call h' hcall.1 hcall.2.1
  | getCommander t =>
      simp only [step] at h
      split at h
      case h_2 => cases h
      case h_1 r ht =>
        split at h
        case h_2 => cases h
        case h_1 client k hrest =>
          cases h
          exact .looksUp t r client k ht hrest
  | nextCommandId t =>
      simp only [step] at h
      split at h
      case h_2 => cases h
      case h_1 r ht =>
        split at h
        case h_2 => cases h
        case h_1 conn k hrest =>
          cases h
          exact .numbers t r conn k _ ht hrest
  | sendCommand t d =>
      simp only [step] at h
      split at h
      case h_2 => cases h
      case h_1 r ht =>
        split at h
        case h_1 conn commanderMsg k kind what hrest =>
          cases h
          exact .fails t r conn commanderMsg k kind what ht hrest
        case h_2 conn commanderMsg k request answer hrest =>
          unfold State.handle at h
          split at h
          case isFalse => cases h
          case isTrue hguard =>
            obtain ⟨-, harrives, hpos, hanswer⟩ := hguard
            obtain ⟨session, hsession, rfl⟩ := Option.map_eq_some_iff.mp h
            exact .handles t r conn commanderMsg k request answer session ht hrest harrives hpos
              hanswer hsession
        case h_3 => cases h
  | «return» t =>
      simp only [step] at h
      split at h
      case h_2 => cases h
      case h_1 r ht =>
        split at h
        case h_2 => cases h
        case h_1 result fh hrest =>
          cases h
          exact .returns t r result fh ht hrest

end Reconnect

end Zcfs

end ZControl
