import ZControl.Commander.Disconnection
import ZControl.Commander.Server
import ZControl.Lib.Mutex
import ZControl.Lib.Transition

/-!
# The threads of a `Server`

The acceptor and any number of client threads share the map of commanders under `_commanders_mx`.
What the map holds are `shared_ptr`s, and `get_commander` hands out copies. Whoever drops the last
one runs `~Commander`, which calls `disconnect()`, under whatever locks it holds. Each commander
has the threads of `Commander`, and its worker may answer or not.
-/

namespace ZControl

open Transition

/-- The call of `_send_command` or `disconnect()` is over. -/
def Commander.CallPc.ended : CallPc → Bool
  | .skipped          => true
  | .cleared _        => true
  | .returned msg _   => msg.type ≠ CommanderMessageType.disconnect.toUint8
  | .threw msg _      => msg.type ≠ CommanderMessageType.disconnect.toUint8
  | _                 => false

/-- The call that takes the step; none if it is the reader. -/
def Commander.Action.call? : Action → Option CallId
  | .enter c     => some c
  | .build c _ _ => some c
  | .caller c    => some c
  | .write c _   => some c
  | .read _      => none
  | .reader      => none

namespace ServerThreads

open Commander (CallId)

inductive Thread (n : Nat) where
  | acceptor
  | client (u : Fin n)
  deriving DecidableEq

/-- Where `~Commander` stands. -/
inductive DestructorPc where
  | testing                        -- in `disconnect()`, at `if (!_connected)`
  | disconnecting (c : CallId)     -- in the rest of it
  | closing                        -- before `_transport.close()`
  | joining                        -- in `_responses_reader.join()`
  deriving DecidableEq

/-- Where the acceptor stands in `_accept_connections`. -/
inductive AcceptorPc where
  | accepting                      -- in `_server.accept()`
  | locking (connName : Bytes)     -- before the lock
  | erasing (connName : Bytes)     -- holds `_commanders_mx`, before `erase`
  | destroying (connName : Bytes) (conn : ConnId) (pc : DestructorPc)   -- holds it, in `erase`
  | emplacing (connName : Bytes)   -- holds it, before `emplace`
  | unlocking                      -- holds it, at the end of the turn
  deriving DecidableEq

/-- Where a client thread stands. -/
inductive ClientPc where
  | idle
  | locking (client : Bytes)                  -- in `get_commander`, before the lock
  | finding (client : Bytes)                  -- holds `_commanders_mx`, before `find`
  | testing (client : Bytes) (conn : ConnId)  -- holds it, before `is_connected()`
  | erasing (client : Bytes) (conn : ConnId)  -- holds it, before `erase`
  | destroying (conn : ConnId) (pc : DestructorPc)      -- holds it, in `erase`
  | unlocking (result : Option ConnId)        -- holds it, returning
  | using (conn : ConnId)                     -- outside, with a `shared_ptr`
  | calling (conn : ConnId) (c : CallId)      -- in a call of the commander
  | dropping (conn : ConnId) (pc : DestructorPc)        -- in the destructor of that `shared_ptr`
  | listing                                   -- in `get_clients`, before the lock
  | scanning (rest : List (Bytes × ConnId)) (clients : List Bytes)  -- holds it, in the loop

/-- The `shared_ptr` it has. -/
def ClientPc.holds : ClientPc → Option ConnId
  | .unlocking result => result
  | .using conn       => some conn
  | .calling conn _   => some conn
  | _                 => none

/-- The members of a `Server`, the commanders and the threads. A commander that has not been
constructed stands as its constructor will leave it. -/
structure State (n : Nat) where
  commanders : OrderedMap Bytes ConnId
  accepted : Nat
  commander : ConnId → Commander.State
  commandersMx : Option (Thread n)
  acceptor : AcceptorPc
  client : Fin n → ClientPc

def init (n : Nat) : State n where
  commanders := .empty
  accepted := 0
  commander := fun _ => Commander.init
  commandersMx := none
  acceptor := .accepting
  client := fun _ => .idle

inductive DestructorAction where
  | test (c : CallId)
  | call (a : Commander.Action)
  | close
  | join

/-- The destructor moves; where it ends is `none`. -/
def DestructorPc.step (k : Commander.State) :
    DestructorPc → DestructorAction → Option (Commander.State × Option DestructorPc)
  | .testing, .test c =>
      (Commander.step k (.enter c)).map fun k' =>
        (k', some (if (k'.pc c).ended then .closing else .disconnecting c))
  | .disconnecting c, .call a =>
      if a.call? = some c then
        (Commander.step k a).map fun k' =>
          (k', some (if (k'.pc c).ended then .closing else .disconnecting c))
      else none
  | .closing, .close => some (k, some .joining)
  | .joining, .join  => if k.reader = .left then some (k, none) else none
  | _, _ => none

namespace State

variable {n : Nat} (s : State n)

@[simps commanders accepted commander commandersMx acceptor]
def setClient (u : Fin n) (pc : ClientPc) : State n :=
  { s with client := Function.update s.client u pc }

@[simps commanders accepted commandersMx acceptor client]
def setCommander (conn : ConnId) (k : Commander.State) : State n :=
  { s with commander := Function.update s.commander conn k }

/-- Some client has a `shared_ptr` to the commander. -/
def Shared (conn : ConnId) : Prop := ∃ u, (s.client u).holds = some conn

instance (conn : ConnId) : Decidable (s.Shared conn) :=
  inferInstanceAs (Decidable (∃ u, (s.client u).holds = some conn))

/-- The steps of `_accept_connections` on the members of the server. -/
def stepAcceptor : Option (State n) :=
  match s.acceptor with
  | .locking connName =>
      match s.commandersMx with
      | none   => some { s with commandersMx := some .acceptor, acceptor := .erasing connName }
      | some _ => none
  | .erasing connName =>
      match s.commanders.find? connName with
      | none      => some { s with acceptor := .emplacing connName }
      | some conn =>
          some { s with
            commanders := s.commanders.erase connName
            acceptor :=
              if s.Shared conn then .emplacing connName else .destroying connName conn .testing }
  | .emplacing connName =>
      some { s with
        commanders := s.commanders.emplace connName s.accepted
        accepted := s.accepted + 1
        acceptor := .unlocking }
  | .unlocking => some { s with commandersMx := none, acceptor := .accepting }
  | _ => none

/-- The steps of `get_commander` and `get_clients`. -/
def stepClient (u : Fin n) : Option (State n) :=
  match s.client u with
  | .locking client =>
      match s.commandersMx with
      | none   => some ({ s with commandersMx := some (.client u) }.setClient u (.finding client))
      | some _ => none
  | .finding client =>
      match s.commanders.find? client with
      | none      => some (s.setClient u (.unlocking none))
      | some conn => some (s.setClient u (.testing client conn))
  | .testing client conn =>
      some (s.setClient u (if (s.commander conn).connected then .unlocking (some conn)
        else .erasing client conn))
  | .erasing client conn =>
      some ({ s with commanders := s.commanders.erase client }.setClient u
        (if s.Shared conn then .unlocking none else .destroying conn .testing))
  | .unlocking none        => some ({ s with commandersMx := none }.setClient u .idle)
  | .unlocking (some conn) => some ({ s with commandersMx := none }.setClient u (.using conn))
  | .listing =>
      match s.commandersMx with
      | none   => some ({ s with commandersMx := some (.client u) }.setClient u
          (.scanning s.commanders.entries []))
      | some _ => none
  | .scanning ((name, conn) :: rest) clients =>
      some (s.setClient u (.scanning rest
        (if (s.commander conn).connected then clients ++ [name] else clients)))
  | .scanning [] _ => some ({ s with commandersMx := none }.setClient u .idle)
  | _ => none

/-- A client begins a call of the commander it has, or goes on with it. -/
def call (u : Fin n) (a : Commander.Action) : Option (State n) :=
  match s.client u, a.call? with
  | .using conn, some c =>
      if (s.commander conn).pc c = .idle then
        (Commander.step (s.commander conn) a).map fun k =>
          (s.setCommander conn k).setClient u
            (if (k.pc c).ended then .using conn else .calling conn c)
      else none
  | .calling conn c, some c' =>
      if c' = c then
        (Commander.step (s.commander conn) a).map fun k =>
          (s.setCommander conn k).setClient u
            (if (k.pc c).ended then .using conn else .calling conn c)
      else none
  | _, _ => none

/-- A client drops its `shared_ptr`. -/
def drop (u : Fin n) : Option (State n) :=
  match s.client u with
  | .using conn =>
      let dropped := s.setClient u .idle
      some (if dropped.Shared conn ∨ dropped.commanders.entries.any (fun e => e.2 == conn) then
        dropped else s.setClient u (.dropping conn .testing))
  | _ => none

/-- A destructor goes on. -/
def destroy (T : Thread n) (d : DestructorAction) : Option (State n) :=
  match T with
  | .acceptor =>
      match s.acceptor with
      | .destroying connName conn pc =>
          (pc.step (s.commander conn) d).map fun (k, pc') =>
            { s.setCommander conn k with
              acceptor := match pc' with
                | some pc' => .destroying connName conn pc'
                | none     => .emplacing connName }
      | _ => none
  | .client u =>
      match s.client u with
      | .destroying conn pc =>
          (pc.step (s.commander conn) d).map fun (k, pc') =>
            (s.setCommander conn k).setClient u (match pc' with
              | some pc' => .destroying conn pc'
              | none     => .unlocking none)
      | .dropping conn pc =>
          (pc.step (s.commander conn) d).map fun (k, pc') =>
            (s.setCommander conn k).setClient u (match pc' with
              | some pc' => .dropping conn pc'
              | none     => .idle)
      | _ => none

end State

inductive Action (n : Nat) where
  | accept (ip : UInt32) (port : UInt16)      -- `_server.accept()` returns
  | acceptor
  | getCommander (u : Fin n) (client : Bytes)
  | getClients (u : Fin n)
  | client (u : Fin n)
  | call (u : Fin n) (a : Commander.Action)
  | drop (u : Fin n)
  | destroy (T : Thread n) (d : DestructorAction)
  | reader (conn : ConnId) (a : Commander.Action)   -- the reader of a commander

def step {n : Nat} (s : State n) : Action n → Option (State n)
  | .accept ip port =>
      match s.acceptor with
      | .accepting => some { s with acceptor := .locking (formatConnection ip port) }
      | _          => none
  | .acceptor => s.stepAcceptor
  | .getCommander u client =>
      match s.client u with
      | .idle => some (s.setClient u (.locking client))
      | _     => none
  | .getClients u =>
      match s.client u with
      | .idle => some (s.setClient u .listing)
      | _     => none
  | .client u => s.stepClient u
  | .call u a => s.call u a
  | .drop u => s.drop u
  | .destroy T d => s.destroy T d
  | .reader conn a =>
      if conn < s.accepted ∧ a.call? = none then
        (Commander.step (s.commander conn) a).map fun k => s.setCommander conn k
      else none

/-! ## The steps, one case each -/

@[simp] theorem State.setClient_client {n : Nat} (s : State n) (u v : Fin n) (pc : ClientPc) :
    (s.setClient u pc).client v = if v = u then pc else s.client v := by
  simp [State.setClient, Function.update_apply]

@[simp] theorem State.setCommander_commander {n : Nat} (s : State n) (conn conn' : ConnId)
    (k : Commander.State) :
    (s.setCommander conn k).commander conn' = if conn' = conn then k else s.commander conn' := by
  simp [State.setCommander, Function.update_apply]

/-- Where a destructor that has ended leaves the acceptor. -/
def AcceptorPc.after (connName : Bytes) (conn : ConnId) : Option DestructorPc → AcceptorPc
  | some pc => .destroying connName conn pc
  | none    => .emplacing connName

def ClientPc.afterErase (conn : ConnId) : Option DestructorPc → ClientPc
  | some pc => .destroying conn pc
  | none    => .unlocking none

def ClientPc.afterDrop (conn : ConnId) : Option DestructorPc → ClientPc
  | some pc => .dropping conn pc
  | none    => .idle

variable {n : Nat} {s s' : State n} {a : Action n}

/-- Everything a step can be. -/
inductive Step (s : State n) : Action n → State n → Prop where
  | accepts (ip : UInt32) (port : UInt16) (hpc : s.acceptor = .accepting) :
      Step s (.accept ip port) { s with acceptor := .locking (formatConnection ip port) }
  | acceptorLocks (connName : Bytes) (hpc : s.acceptor = .locking connName)
      (hmx : s.commandersMx = none) :
      Step s .acceptor { s with commandersMx := some .acceptor, acceptor := .erasing connName }
  | erasesNothing (connName : Bytes) (hpc : s.acceptor = .erasing connName) :
      Step s .acceptor { s with acceptor := .emplacing connName }
  | erases (connName : Bytes) (conn : ConnId) (pc : AcceptorPc)
      (hpc : s.acceptor = .erasing connName)
      (hnext : pc = .emplacing connName ∨ pc = .destroying connName conn .testing) :
      Step s .acceptor
        { s with commanders := s.commanders.erase connName, acceptor := pc }
  | emplaces (connName : Bytes) (hpc : s.acceptor = .emplacing connName) :
      Step s .acceptor
        { s with
          commanders := s.commanders.emplace connName s.accepted
          accepted := s.accepted + 1
          acceptor := .unlocking }
  | acceptorUnlocks (hpc : s.acceptor = .unlocking) :
      Step s .acceptor { s with commandersMx := none, acceptor := .accepting }
  | enters (a : Action n) (u : Fin n) (pc : ClientPc) (hpc : s.client u = .idle)
      (hnext : (∃ client, pc = .locking client) ∨ pc = .listing) :
      Step s a (s.setClient u pc)
  | clientLocks (u : Fin n) (pc : ClientPc) (hmx : s.commandersMx = none)
      (hpc : (∃ client, s.client u = .locking client ∧ pc = .finding client) ∨
        (s.client u = .listing ∧ pc = .scanning s.commanders.entries [])) :
      Step s (.client u) ({ s with commandersMx := some (.client u) }.setClient u pc)
  | findsNothing (u : Fin n) (client : Bytes) (hpc : s.client u = .finding client) :
      Step s (.client u) (s.setClient u (.unlocking none))
  | finds (u : Fin n) (client : Bytes) (conn : ConnId) (hpc : s.client u = .finding client) :
      Step s (.client u) (s.setClient u (.testing client conn))
  | findsConnected (u : Fin n) (client : Bytes) (conn : ConnId)
      (hpc : s.client u = .testing client conn) (hconn : (s.commander conn).connected = true) :
      Step s (.client u) (s.setClient u (.unlocking (some conn)))
  | findsLost (u : Fin n) (client : Bytes) (conn : ConnId)
      (hpc : s.client u = .testing client conn) (hlost : (s.commander conn).connected = false) :
      Step s (.client u) (s.setClient u (.erasing client conn))
  | removes (u : Fin n) (client : Bytes) (conn : ConnId) (pc : ClientPc)
      (hpc : s.client u = .erasing client conn)
      (hnext : pc = .unlocking none ∨ pc = .destroying conn .testing) :
      Step s (.client u) ({ s with commanders := s.commanders.erase client }.setClient u pc)
  | clientUnlocks (u : Fin n) (pc : ClientPc)
      (hpc : (s.client u = .unlocking none ∧ pc = .idle) ∨
        (∃ conn, s.client u = .unlocking (some conn) ∧ pc = .using conn) ∨
        (∃ clients, s.client u = .scanning [] clients ∧ pc = .idle)) :
      Step s (.client u) ({ s with commandersMx := none }.setClient u pc)
  | scans (u : Fin n) (e : Bytes × ConnId) (rest : List (Bytes × ConnId)) (clients : List Bytes)
      (clients' : List Bytes) (hpc : s.client u = .scanning (e :: rest) clients) :
      Step s (.client u) (s.setClient u (.scanning rest clients'))
  | calls (u : Fin n) (a : Commander.Action) (conn : ConnId) (c : CallId) (k : Commander.State)
      (pc : ClientPc) (hpc : s.client u = .using conn ∨ s.client u = .calling conn c)
      (hstep : Commander.step (s.commander conn) a = some k)
      (hnext : pc = .using conn ∨ pc = .calling conn c) :
      Step s (.call u a) ((s.setCommander conn k).setClient u pc)
  | drops (u : Fin n) (conn : ConnId) (pc : ClientPc) (hpc : s.client u = .using conn)
      (hnext : pc = .idle ∨ pc = .dropping conn .testing) :
      Step s (.drop u) (s.setClient u pc)
  | acceptorDestroys (d : DestructorAction) (connName : Bytes) (conn : ConnId) (pc : DestructorPc)
      (k : Commander.State) (pc' : Option DestructorPc)
      (hpc : s.acceptor = .destroying connName conn pc)
      (hstep : pc.step (s.commander conn) d = some (k, pc')) :
      Step s (.destroy .acceptor d)
        { s.setCommander conn k with acceptor := .after connName conn pc' }
  | clientDestroys (u : Fin n) (d : DestructorAction) (conn : ConnId) (pc : DestructorPc)
      (k : Commander.State) (pc' : Option DestructorPc) (hpc : s.client u = .destroying conn pc)
      (hstep : pc.step (s.commander conn) d = some (k, pc')) :
      Step s (.destroy (.client u) d)
        ((s.setCommander conn k).setClient u (.afterErase conn pc'))
  | clientDrops (u : Fin n) (d : DestructorAction) (conn : ConnId) (pc : DestructorPc)
      (k : Commander.State) (pc' : Option DestructorPc) (hpc : s.client u = .dropping conn pc)
      (hstep : pc.step (s.commander conn) d = some (k, pc')) :
      Step s (.destroy (.client u) d)
        ((s.setCommander conn k).setClient u (.afterDrop conn pc'))
  | reads (conn : ConnId) (a : Commander.Action) (k : Commander.State)
      (hstep : Commander.step (s.commander conn) a = some k) :
      Step s (.reader conn a) (s.setCommander conn k)

theorem stepAcceptor_cases (h : s.stepAcceptor = some s') : Step s .acceptor s' := by
  unfold State.stepAcceptor at h
  split at h
  case h_1 connName hpc =>
    split at h
    case h_1 hmx => cases h; exact .acceptorLocks connName hpc hmx
    case h_2 => cases h
  case h_2 connName hpc =>
    split at h
    case h_1 => cases h; exact .erasesNothing connName hpc
    case h_2 conn hfind =>
      cases h
      refine .erases connName conn _ hpc ?_
      split
      · exact .inl rfl
      · exact .inr rfl
  case h_3 connName hpc => cases h; exact .emplaces connName hpc
  case h_4 hpc => cases h; exact .acceptorUnlocks hpc
  case h_5 => cases h

theorem stepClient_cases {u : Fin n} (h : s.stepClient u = some s') : Step s (.client u) s' := by
  unfold State.stepClient at h
  split at h
  case h_1 client hpc =>
    split at h
    case h_1 hmx => cases h; exact .clientLocks u _ hmx (.inl ⟨client, hpc, rfl⟩)
    case h_2 => cases h
  case h_2 client hpc =>
    split at h
    case h_1 => cases h; exact .findsNothing u client hpc
    case h_2 conn hfind => cases h; exact .finds u client conn hpc
  case h_3 client conn hpc =>
    cases hconn : (s.commander conn).connected with
    | true =>
        simp only [hconn, if_true, Option.some.injEq] at h
        subst h
        exact .findsConnected u client conn hpc hconn
    | false =>
        simp only [hconn, Bool.false_eq_true, if_false, Option.some.injEq] at h
        subst h
        exact .findsLost u client conn hpc hconn
  case h_4 client conn hpc =>
    cases h
    refine .removes u client conn _ hpc ?_
    split
    · exact .inl rfl
    · exact .inr rfl
  case h_5 hpc => cases h; exact .clientUnlocks u _ (.inl ⟨hpc, rfl⟩)
  case h_6 conn hpc => cases h; exact .clientUnlocks u _ (.inr (.inl ⟨conn, hpc, rfl⟩))
  case h_7 hpc =>
    split at h
    case h_1 hmx => cases h; exact .clientLocks u _ hmx (.inr ⟨hpc, rfl⟩)
    case h_2 => cases h
  case h_8 name conn rest clients hpc => cases h; exact .scans u _ rest clients _ hpc
  case h_9 clients hpc => cases h; exact .clientUnlocks u _ (.inr (.inr ⟨clients, hpc, rfl⟩))
  case h_10 => cases h

theorem call_cases {u : Fin n} {a : Commander.Action} (h : s.call u a = some s') :
    Step s (.call u a) s' := by
  have hend : ∀ {conn : ConnId} {c : CallId},
      s.client u = .using conn ∨ s.client u = .calling conn c →
      ((Commander.step (s.commander conn) a).map fun k =>
        (s.setCommander conn k).setClient u
          (if (k.pc c).ended then .using conn else .calling conn c)) = some s' →
      Step s (.call u a) s' := by
    intro conn c hpc h
    obtain ⟨k, hstep, rfl⟩ := Option.map_eq_some_iff.mp h
    refine .calls u a conn c k _ hpc hstep ?_
    split
    · exact .inl rfl
    · exact .inr rfl
  unfold State.call at h
  split at h
  case h_1 conn c hpc hcall =>
    split at h
    case isTrue => exact hend (.inl hpc) h
    case isFalse => cases h
  case h_2 conn c c' hpc hcall =>
    split at h
    case isTrue => exact hend (.inr hpc) h
    case isFalse => cases h
  case h_3 => cases h

theorem drop_cases {u : Fin n} (h : s.drop u = some s') : Step s (.drop u) s' := by
  unfold State.drop at h
  split at h
  case h_1 conn hpc =>
    simp only [Option.some.injEq] at h
    subst h
    split
    · exact .drops u conn _ hpc (.inl rfl)
    · exact .drops u conn _ hpc (.inr rfl)
  case h_2 => cases h

theorem destroy_cases {T : Thread n} {d : DestructorAction} (h : s.destroy T d = some s') :
    Step s (.destroy T d) s' := by
  unfold State.destroy at h
  split at h
  case h_1 =>
    split at h
    case h_1 connName conn pc hpc =>
      obtain ⟨⟨k, pc'⟩, hstep, rfl⟩ := Option.map_eq_some_iff.mp h
      have hstep := Step.acceptorDestroys d connName conn pc k pc' hpc hstep
      cases pc' <;> exact hstep
    case h_2 => cases h
  case h_2 u =>
    split at h
    case h_1 conn pc hpc =>
      obtain ⟨⟨k, pc'⟩, hstep, rfl⟩ := Option.map_eq_some_iff.mp h
      have hstep := Step.clientDestroys u d conn pc k pc' hpc hstep
      cases pc' <;> exact hstep
    case h_2 conn pc hpc =>
      obtain ⟨⟨k, pc'⟩, hstep, rfl⟩ := Option.map_eq_some_iff.mp h
      have hstep := Step.clientDrops u d conn pc k pc' hpc hstep
      cases pc' <;> exact hstep
    case h_3 => cases h

/-- The step function read backwards. -/
theorem step_cases (h : step s a = some s') : Step s a s' := by
  cases a with
  | accept ip port =>
      simp only [step] at h
      split at h
      case h_1 hpc => cases h; exact .accepts ip port hpc
      case h_2 => cases h
  | acceptor => exact stepAcceptor_cases h
  | getCommander u client =>
      simp only [step] at h
      split at h
      case h_1 hpc => cases h; exact .enters _ u _ hpc (.inl ⟨client, rfl⟩)
      case h_2 => cases h
  | getClients u =>
      simp only [step] at h
      split at h
      case h_1 hpc => cases h; exact .enters _ u _ hpc (.inr rfl)
      case h_2 => cases h
  | client u => exact stepClient_cases h
  | call u a => exact call_cases h
  | drop u => exact drop_cases h
  | destroy T d => exact destroy_cases h
  | reader conn a =>
      simp only [step] at h
      split at h
      case isTrue =>
        obtain ⟨k, hstep, rfl⟩ := Option.map_eq_some_iff.mp h
        exact .reads conn a k hstep
      case isFalse => cases h

/-! ## The lock of the registry -/

def AcceptorPc.holdsMx : AcceptorPc → Bool
  | .erasing _        => true
  | .destroying _ _ _ => true
  | .emplacing _      => true
  | .unlocking        => true
  | _                 => false

def ClientPc.holdsMx : ClientPc → Bool
  | .finding _      => true
  | .testing _ _    => true
  | .erasing _ _    => true
  | .destroying _ _ => true
  | .unlocking _    => true
  | .scanning _ _   => true
  | _               => false

/-- The thread stands between the lock and the unlock of `_commanders_mx`. -/
def State.holdsMx (s : State n) : Thread n → Bool
  | .acceptor => s.acceptor.holdsMx
  | .client u => (s.client u).holdsMx

def State.mutex (s : State n) : Mutex.State (Thread n) := ⟨s.commandersMx, s.holdsMx⟩

theorem holdsMx_setClient (s : State n) (u : Fin n) (pc : ClientPc) :
    (s.setClient u pc).holdsMx = Function.update s.holdsMx (.client u) pc.holdsMx := by
  funext T
  by_cases hT : T = .client u
  · subst hT
    simp [State.holdsMx]
  · rw [Function.update_of_ne hT]
    cases T with
    | acceptor => rfl
    | client v =>
        have hv : v ≠ u := fun heq => hT (by rw [heq])
        simp [State.holdsMx, hv]

theorem holdsMx_setAcceptor (s : State n) (pc : AcceptorPc) :
    { s with acceptor := pc }.holdsMx = Function.update s.holdsMx .acceptor pc.holdsMx := by
  funext T
  by_cases hT : T = .acceptor
  · subst hT
    rfl
  · rw [Function.update_of_ne hT]
    cases T with
    | acceptor => exact absurd rfl hT
    | client u => rfl

/-- Each step locks `_commanders_mx`, unlocks it or leaves it alone. -/
theorem Step.mutex (h : Step s a s') : Mutex.Step s.mutex s'.mutex ∨ s'.mutex = s.mutex := by
  -- the acceptor moves
  have haccept : ∀ {t : State n} {pc : AcceptorPc}, t.commandersMx = s.commandersMx →
      t.client = s.client → t.acceptor = pc → pc.holdsMx = s.acceptor.holdsMx →
      t.mutex = s.mutex := by
    intro t pc hmx hclient hpc hholds
    have hsame : t.holdsMx = s.holdsMx := by
      funext T
      cases T with
      | acceptor =>
          show t.acceptor.holdsMx = s.acceptor.holdsMx
          rw [hpc, hholds]
      | client u =>
          show (t.client u).holdsMx = (s.client u).holdsMx
          rw [hclient]
    show (⟨t.commandersMx, t.holdsMx⟩ : Mutex.State (Thread n)) = ⟨s.commandersMx, s.holdsMx⟩
    rw [hmx, hsame]
  -- a client moves
  have hmove : ∀ {t : State n} {u : Fin n} {pc : ClientPc}, t.commandersMx = s.commandersMx →
      t.holdsMx = s.holdsMx → pc.holdsMx = (s.client u).holdsMx →
      (t.setClient u pc).mutex = s.mutex := by
    intro t u pc hmx ht hpc
    have hsame : (t.setClient u pc).holdsMx = s.holdsMx := by
      rw [holdsMx_setClient, ht, hpc]
      exact Function.update_eq_self (Thread.client u) s.holdsMx
    show (⟨t.commandersMx, (t.setClient u pc).holdsMx⟩ : Mutex.State (Thread n)) = s.mutex
    rw [hmx, hsame]
    rfl
  cases h
  case acceptorLocks connName hpc hmx =>
    left
    have hstep := Mutex.Step.lock (s := s.mutex) .acceptor hmx
    show Mutex.Step s.mutex
      ⟨some .acceptor, { s with acceptor := .erasing connName }.holdsMx⟩
    rw [holdsMx_setAcceptor]
    exact hstep
  case acceptorUnlocks hpc =>
    left
    have hin : s.mutex.inside .acceptor = true := by
      show s.acceptor.holdsMx = true
      rw [hpc]
      rfl
    have hstep := Mutex.Step.unlock Thread.acceptor hin
    show Mutex.Step s.mutex ⟨none, { s with acceptor := .accepting }.holdsMx⟩
    rw [holdsMx_setAcceptor]
    exact hstep
  case clientLocks u pc hmx hpc =>
    left
    have hstep := Mutex.Step.lock (s := s.mutex) (.client u) hmx
    have hin : pc.holdsMx = true := by
      rcases hpc with ⟨client, -, rfl⟩ | ⟨-, rfl⟩ <;> rfl
    show Mutex.Step s.mutex ⟨some (.client u), (s.setClient u pc).holdsMx⟩
    rw [holdsMx_setClient, hin]
    exact hstep
  case clientUnlocks u pc hpc =>
    left
    have hin : s.mutex.inside (.client u) = true := by
      show (s.client u).holdsMx = true
      rcases hpc with ⟨hpc, -⟩ | ⟨conn, hpc, -⟩ | ⟨clients, hpc, -⟩ <;> (rw [hpc]; rfl)
    have hout : pc.holdsMx = false := by
      rcases hpc with ⟨-, rfl⟩ | ⟨conn, -, rfl⟩ | ⟨clients, -, rfl⟩ <;> rfl
    have hstep := Mutex.Step.unlock (Thread.client u) hin
    show Mutex.Step s.mutex ⟨none, (s.setClient u pc).holdsMx⟩
    rw [holdsMx_setClient, hout]
    exact hstep
  case accepts ip port hpc => exact .inr (haccept rfl rfl rfl (by rw [hpc]; rfl))
  case erasesNothing connName hpc => exact .inr (haccept rfl rfl rfl (by rw [hpc]; rfl))
  case erases connName conn pc hpc hnext =>
    refine .inr (haccept rfl rfl rfl ?_)
    rcases hnext with rfl | rfl <;> (rw [hpc]; rfl)
  case emplaces connName hpc => exact .inr (haccept rfl rfl rfl (by rw [hpc]; rfl))
  case acceptorDestroys d connName conn pc k pc' hpc hstep =>
    refine .inr (haccept rfl rfl rfl ?_)
    cases pc' <;> (rw [hpc]; rfl)
  case enters u pc hpc hnext =>
    refine .inr (hmove rfl rfl ?_)
    rcases hnext with ⟨client, rfl⟩ | rfl <;> (rw [hpc]; rfl)
  case removes u client conn pc hpc hnext =>
    refine .inr (hmove rfl rfl ?_)
    rcases hnext with rfl | rfl <;> (rw [hpc]; rfl)
  case calls u a conn c k pc hpc hstep hnext =>
    refine .inr (hmove rfl rfl ?_)
    rcases hpc with hpc | hpc <;> rw [hpc] <;> rcases hnext with rfl | rfl <;> rfl
  case drops u conn pc hpc hnext =>
    refine .inr (hmove rfl rfl ?_)
    rcases hnext with rfl | rfl <;> (rw [hpc]; rfl)
  case clientDestroys u d conn pc k pc' hpc hstep =>
    refine .inr (hmove rfl rfl ?_)
    cases pc' <;> (rw [hpc]; rfl)
  case clientDrops u d conn pc k pc' hpc hstep =>
    refine .inr (hmove rfl rfl ?_)
    cases pc' <;> (rw [hpc]; rfl)
  case findsNothing u client hpc | finds u client conn hpc | findsConnected u client conn hpc _ |
      findsLost u client conn hpc _ | scans u e rest clients clients' hpc =>
    exact .inr (hmove rfl rfl (by rw [hpc]; rfl))
  case reads conn a k hstep => exact .inr rfl

/-! ## Commanders that have lost their connection -/

/-- `_connected` is never set again. -/
theorem connected_step {k k' : Commander.State} {a : Commander.Action}
    (h : Commander.step k a = some k') (hlost : k.connected = false) : k'.connected = false :=
  (Commander.step_cases h).connected_false hlost

theorem connected_destructor {k k' : Commander.State} {pc : DestructorPc} {d : DestructorAction}
    {pc' : Option DestructorPc} (h : pc.step k d = some (k', pc')) (hlost : k.connected = false) :
    k'.connected = false := by
  unfold DestructorPc.step at h
  split at h
  case h_1 c =>
    obtain ⟨k₁, hstep, heq⟩ := Option.map_eq_some_iff.mp h
    cases heq
    exact connected_step hstep hlost
  case h_2 c a =>
    split at h
    case isTrue =>
      obtain ⟨k₁, hstep, heq⟩ := Option.map_eq_some_iff.mp h
      cases heq
      exact connected_step hstep hlost
    case isFalse => cases h
  case h_3 => cases h; exact hlost
  case h_4 =>
    split at h
    case isTrue => cases h; exact hlost
    case isFalse => cases h
  case h_5 => cases h

/-- No step connects a commander again. -/
theorem Step.connected (h : Step s a s') {conn : ConnId}
    (hlost : (s.commander conn).connected = false) : (s'.commander conn).connected = false := by
  have hset : ∀ {conn' : ConnId} {k : Commander.State},
      ((s.commander conn').connected = false → k.connected = false) →
      ((s.setCommander conn' k).commander conn).connected = false := by
    intro conn' k hk
    rw [State.setCommander_commander]
    split
    case isTrue heq =>
      subst heq
      exact hk hlost
    case isFalse => exact hlost
  cases h
  case calls u a conn' c k pc hpc hstep hnext => exact hset (connected_step hstep)
  case acceptorDestroys d connName conn' pc k pc' hpc hstep =>
    exact hset (connected_destructor hstep)
  case clientDestroys u d conn' pc k pc' hpc hstep => exact hset (connected_destructor hstep)
  case clientDrops u d conn' pc k pc' hpc hstep => exact hset (connected_destructor hstep)
  case reads conn' a k hstep => exact hset (connected_step hstep)
  all_goals exact hlost

/-! ## Waiting for a worker -/

/-- The call of `disconnect()` the destructor is in. -/
def DestructorPc.call? : DestructorPc → Option CallId
  | .disconnecting c => some c
  | _                => none

/-- The call of a commander the thread is in. -/
def State.call? (s : State n) : Thread n → Option (ConnId × CallId)
  | .acceptor =>
      match s.acceptor with
      | .destroying _ conn pc => pc.call?.map fun c => (conn, c)
      | _                     => none
  | .client u =>
      match s.client u with
      | .destroying conn pc => pc.call?.map fun c => (conn, c)
      | .dropping conn pc   => pc.call?.map fun c => (conn, c)
      | .calling conn c     => some (conn, c)
      | _                   => none

/-- The thread is in `future.get()`, and nothing has been stored for it. -/
def State.AwaitsResponse (s : State n) (T : Thread n) : Prop :=
  ∃ conn c msg, s.call? T = some (conn, c) ∧ (s.commander conn).pc c = .waiting msg ∧
    (s.commander conn).shared c = none

/-- The commander whose `_connected` the acceptor tests in `disconnect()`, having dropped the last
reference to it. -/
def State.replaced? (s : State n) : Action n → Option ConnId
  | .destroy .acceptor (.test _) =>
      match s.acceptor with
      | .destroying _ conn _ => some conn
      | _                    => none
  | _ => none

/-- It finds `_connected` cleared. -/
def ReplacesLost (s : State n) (a : Action n) : Prop :=
  ∀ conn, s.replaced? a = some conn → (s.commander conn).connected = false

instance (s : State n) (a : Action n) : Decidable (ReplacesLost s a) :=
  inferInstanceAs (Decidable (∀ conn, s.replaced? a = some conn →
    (s.commander conn).connected = false))

/-- A destructor that runs under the lock does not get past the test of `disconnect()`. -/
structure Unblocked (s : State n) : Prop where
  exclusive : Mutex.Exclusive s.mutex
  replacing : ∀ connName conn pc, s.acceptor = .destroying connName conn pc → pc.call? = none
  erasing : ∀ u client conn, s.client u = .erasing client conn →
    (s.commander conn).connected = false
  removing : ∀ u conn pc, s.client u = .destroying conn pc →
    pc.call? = none ∧ (s.commander conn).connected = false

theorem unblocked_init : Unblocked (init n) where
  exclusive := by
    intro T
    cases T <;> simp [State.mutex, State.holdsMx, init, AcceptorPc.holdsMx, ClientPc.holdsMx]
  replacing := by intro connName conn pc h; cases h
  erasing := by intro u client conn h; cases h
  removing := by intro u conn pc h; cases h

/-- If the test finds `_connected` cleared, the destructor goes on to close the transport. -/
theorem call?_destructor {k k' : Commander.State} {pc pc' : DestructorPc} {d : DestructorAction}
    (h : pc.step k d = some (k', some pc')) (hcall : pc.call? = none)
    (hlost : ∀ c, d = .test c → k.connected = false) : pc'.call? = none := by
  unfold DestructorPc.step at h
  split at h
  case h_1 c =>
    obtain ⟨k₁, hstep, heq⟩ := Option.map_eq_some_iff.mp h
    cases heq
    have hskipped : (k'.pc c).ended = true := by
      simp only [Commander.step, hlost c rfl, Bool.false_eq_true, if_false] at hstep
      split at hstep
      case h_1 =>
        cases hstep
        simp [Commander.State.setPc, Commander.CallPc.ended]
      case h_2 => cases hstep
    rw [if_pos hskipped]
    rfl
  case h_2 c a => cases hcall
  case h_3 => cases h; rfl
  case h_4 =>
    split at h
    case isTrue => cases h
    case isFalse => cases h
  case h_5 => cases h

theorem Unblocked.step (hs : Unblocked s) (hlost : ReplacesLost s a) (h : Step s a s') :
    Unblocked s' := by
  have hexclusive : Mutex.Exclusive s'.mutex := by
    rcases h.mutex with hstep | hsame
    · exact hstep.exclusive hs.exclusive
    · rw [hsame]
      exact hs.exclusive
  have hkeep : ∀ {conn : ConnId}, (s.commander conn).connected = false →
      (s'.commander conn).connected = false := h.connected
  -- the acceptor moves, and the clients stay where they are
  have haccept : (∀ connName conn pc, s'.acceptor = .destroying connName conn pc →
        pc.call? = none) → s'.client = s.client → Unblocked s' := by
    intro hreplacing hclient
    refine ⟨hexclusive, hreplacing, ?_, ?_⟩
    · intro u client conn hpc
      rw [hclient] at hpc
      exact hkeep (hs.erasing u client conn hpc)
    · intro u conn pc hpc
      rw [hclient] at hpc
      obtain ⟨hcall, hconn⟩ := hs.removing u conn pc hpc
      exact ⟨hcall, hkeep hconn⟩
  -- a client moves, and the acceptor stays where it is
  have hmove : ∀ u pc, s'.acceptor = s.acceptor →
      (∀ v, s'.client v = if v = u then pc else s.client v) →
      (∀ client conn, pc = .erasing client conn → (s.commander conn).connected = false) →
      (∀ conn d, pc = .destroying conn d →
        d.call? = none ∧ (s.commander conn).connected = false) → Unblocked s' := by
    intro u pc hacceptor hclient herasing hremoving
    refine ⟨hexclusive, ?_, ?_, ?_⟩
    · rw [hacceptor]
      exact hs.replacing
    · intro v client conn hpc
      rw [hclient] at hpc
      split at hpc
      · exact hkeep (herasing client conn hpc)
      · exact hkeep (hs.erasing v client conn hpc)
    · intro v conn d hpc
      rw [hclient] at hpc
      split at hpc
      · obtain ⟨hcall, hconn⟩ := hremoving conn d hpc
        exact ⟨hcall, hkeep hconn⟩
      · obtain ⟨hcall, hconn⟩ := hs.removing v conn d hpc
        exact ⟨hcall, hkeep hconn⟩
  cases h
  case accepts | acceptorLocks | erasesNothing | emplaces | acceptorUnlocks =>
    refine haccept ?_ rfl
    intro connName conn pc hpc
    cases hpc
  case erases connName conn pc hpc hnext =>
    refine haccept ?_ rfl
    intro connName' conn' pc' hpc'
    rcases hnext with rfl | rfl <;> cases hpc'
    rfl
  case acceptorDestroys d connName conn pc k pc' hpc hstep =>
    refine haccept ?_ rfl
    intro connName' conn' pc'' hpc'
    cases pc' with
    | none => cases hpc'
    | some pc' =>
        cases hpc'
        refine call?_destructor hstep (hs.replacing _ _ _ hpc) ?_
        rintro c rfl
        exact hlost conn (by simp [State.replaced?, hpc])
  case enters u pc hpc hnext =>
    refine hmove u pc rfl (State.setClient_client s u · pc) ?_ ?_
    · rintro client conn rfl
      rcases hnext with ⟨client', heq⟩ | heq <;> cases heq
    · rintro conn d rfl
      rcases hnext with ⟨client', heq⟩ | heq <;> cases heq
  case clientLocks u pc hmx hpc =>
    refine hmove u pc rfl (State.setClient_client _ u · pc) ?_ ?_
    · rintro client conn rfl
      rcases hpc with ⟨client', -, heq⟩ | ⟨-, heq⟩ <;> cases heq
    · rintro conn d rfl
      rcases hpc with ⟨client', -, heq⟩ | ⟨-, heq⟩ <;> cases heq
  case findsLost u client conn hpc hconn =>
    refine hmove u _ rfl (State.setClient_client s u · _) ?_ ?_
    · intro client' conn' heq
      cases heq
      exact hconn
    · intro conn' d heq
      cases heq
  case removes u client conn pc hpc hnext =>
    refine hmove u pc rfl (State.setClient_client _ u · pc) ?_ ?_
    · rintro client' conn' rfl
      rcases hnext with heq | heq <;> cases heq
    · rintro conn' d rfl
      rcases hnext with heq | heq <;> cases heq
      exact ⟨rfl, hs.erasing u client conn hpc⟩
  case clientDestroys u d conn pc k pc' hpc hstep =>
    obtain ⟨hcall, hconn⟩ := hs.removing u conn pc hpc
    refine hmove u _ rfl (State.setClient_client _ u · _) ?_ ?_
    · intro client' conn' heq
      cases pc' <;> cases heq
    · intro conn' d' heq
      cases pc' with
      | none => cases heq
      | some pc' =>
          cases heq
          exact ⟨call?_destructor hstep hcall fun _ _ => hconn, hconn⟩
  case clientDrops u d conn pc k pc' hpc hstep =>
    refine hmove u _ rfl (State.setClient_client _ u · _) ?_ ?_
    · intro client' conn' heq
      cases pc' <;> cases heq
    · intro conn' d' heq
      cases pc' <;> cases heq
  case clientUnlocks u pc hpc =>
    refine hmove u pc rfl (State.setClient_client _ u · pc) ?_ ?_
    · rintro client conn rfl
      rcases hpc with ⟨-, heq⟩ | ⟨conn', -, heq⟩ | ⟨clients, -, heq⟩ <;> cases heq
    · rintro conn d rfl
      rcases hpc with ⟨-, heq⟩ | ⟨conn', -, heq⟩ | ⟨clients, -, heq⟩ <;> cases heq
  case calls u a conn c k pc hpc hstep hnext =>
    refine hmove u pc rfl (State.setClient_client _ u · pc) ?_ ?_
    · rintro client' conn' rfl
      rcases hnext with heq | heq <;> cases heq
    · rintro conn' d rfl
      rcases hnext with heq | heq <;> cases heq
  case drops u conn pc hpc hnext =>
    refine hmove u pc rfl (State.setClient_client s u · pc) ?_ ?_
    · rintro client' conn' rfl
      rcases hnext with heq | heq <;> cases heq
    · rintro conn' d rfl
      rcases hnext with heq | heq <;> cases heq
  case findsNothing u _ hpc | finds u _ _ hpc | findsConnected u _ _ hpc _ | scans u _ _ _ _ hpc =>
    refine hmove u _ rfl (State.setClient_client s u · _) ?_ ?_
    · intro client' conn' heq
      cases heq
    · intro conn' d heq
      cases heq
  case reads conn a k hstep => exact haccept hs.replacing rfl

/-- **A silent worker cannot block the others**, unless the acceptor replaces a commander that is
connected and that nobody else has. -/
theorem registry_unblocked {as : List (Action n)}
    (hok : AllSteps step ReplacesLost (init n) as) (hrun : run step (init n) as = some s)
    (T : Thread n) (hT : s.commandersMx = some T) : ¬ s.AwaitsResponse T := by
  have hs : Unblocked s :=
    hok.invariant (fun _ _ _ hlost hs h => hs.step hlost (step_cases h)) unblocked_init hrun
  have hin : s.holdsMx T = true := (hs.exclusive T).mpr hT
  rintro ⟨conn, c, msg, hcall, -, -⟩
  cases T with
  | acceptor =>
      cases hpc : s.acceptor with
      | destroying connName conn' pc =>
          simp [State.call?, hpc, hs.replacing _ _ _ hpc] at hcall
      | _ => simp [State.call?, hpc] at hcall
  | client u =>
      cases hpc : s.client u with
      | destroying conn' pc => simp [State.call?, hpc, (hs.removing _ _ _ hpc).1] at hcall
      | dropping conn' pc =>
          rw [State.holdsMx, hpc] at hin
          cases hin
      | calling conn' c' =>
          rw [State.holdsMx, hpc] at hin
          cases hin
      | _ => simp [State.call?, hpc] at hcall

/-- A worker connects, its connection is lost, and it connects again. -/
def reconnectAfterLoss : List (Action 0) :=
  [.accept 1 0, .acceptor, .acceptor, .acceptor, .acceptor,
    .reader 0 .reader, .reader 0 (.read (.error Commander.disconnected)), .reader 0 .reader,
    .reader 0 .reader, .reader 0 .reader, .reader 0 .reader,
    .accept 1 0, .acceptor, .acceptor, .destroy .acceptor (.test 0), .destroy .acceptor .close]

/-- The acceptor destroys the old commander under the lock, and waits for no worker. -/
theorem registry_unblocked_reconnectAfterLoss :
    ∃ s, run step (init 0) reconnectAfterLoss = some s ∧ s.commandersMx = some .acceptor ∧
      ¬ s.AwaitsResponse .acceptor := by
  have hseen : (run step (init 0) reconnectAfterLoss).map (fun s => s.commandersMx) =
      some (some .acceptor) := by
    decide +kernel
  obtain ⟨s, hrun, hmx⟩ := Option.map_eq_some_iff.mp hseen
  have hok : AllSteps step ReplacesLost (init 0) reconnectAfterLoss := by decide +kernel
  exact ⟨s, hrun, hmx, registry_unblocked hok hrun .acceptor hmx⟩

/-- A worker connects, falls silent, and connects again: the acceptor sends `Disconnect` to it on
the old connection. -/
def reconnectOfSilent : List (Action 0) :=
  [.accept 1 0, .acceptor, .acceptor, .acceptor, .acceptor,
    .accept 1 0, .acceptor, .acceptor, .destroy .acceptor (.test 0),
    .destroy .acceptor (.call (.build 0 CommanderMessageType.disconnect.toUint8 [])),
    .destroy .acceptor (.call (.caller 0)), .destroy .acceptor (.call (.caller 0)),
    .destroy .acceptor (.call (.caller 0)), .destroy .acceptor (.call (.caller 0)),
    .destroy .acceptor (.call (.write 0 none))]

/-- It then waits for the answer with `_commanders_mx` in its hands. -/
theorem not_registry_unblocked :
    ¬ ∀ (n : Nat) (as : List (Action n)) (s : State n), run step (init n) as = some s →
      ∀ T, s.commandersMx = some T → ¬ s.AwaitsResponse T := by
  intro hall
  have hseen : (run step (init 0) reconnectOfSilent).map (fun s =>
      (s.commandersMx, s.call? .acceptor, (s.commander 0).pc 0,
        ((s.commander 0).shared 0).isNone)) =
        some (some .acceptor, some (0, 0), .waiting ⟨0, 0, []⟩, true) := by
    decide +kernel
  obtain ⟨s, hrun, hs⟩ := Option.map_eq_some_iff.mp hseen
  simp only [Prod.mk.injEq] at hs
  obtain ⟨hmx, hcall, hpc, hshared⟩ := hs
  exact hall 0 _ s hrun .acceptor hmx ⟨0, 0, _, hcall, hpc, Option.isNone_iff_eq_none.mp hshared⟩

end ServerThreads

end ZControl
