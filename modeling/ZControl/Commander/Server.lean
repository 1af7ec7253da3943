import ZControl.Basic
import ZControl.Lib.OrderedMap

/-!
# The registry of the server

`Server` keeps a `Commander` for each address in a map. The acceptor replaces what is under the
address of a new connection; `get_commander` removes an entry that it finds disconnected;
`get_clients` passes such entries over. Each of the three holds `_commanders_mx` throughout, so it
is one step. Over all its runs the map answers as if it held the latest connection of each address
and forgot it when it is lost.
-/

namespace ZControl

/-! ## Names

`std::less<std::string>` compares byte by byte.
-/

instance bytesTrans : Trans (fun a b : Bytes => a < b) (fun a b => a < b) (fun a b => a < b) :=
  inferInstance

instance bytesTrichotomous : Std.Trichotomous (fun a b : Bytes => a < b) := inferInstance

/-! ## The map -/

/-- A `Commander` of the server, that is, one connection; they are numbered as they are accepted. -/
abbrev ConnId := Nat

/-- `inet_ntoa`. The address is in network byte order, on a little-endian machine. -/
def inetNtoa (ip : UInt32) : Bytes :=
  ascii (toString (ip &&& 0xFF)) ++ ascii "." ++ ascii (toString ((ip >>> 8) &&& 0xFF)) ++
    ascii "." ++ ascii (toString ((ip >>> 16) &&& 0xFF)) ++ ascii "." ++
    ascii (toString ((ip >>> 24) &&& 0xFF))

/-- The port is not part of the name. -/
def formatConnection (ip : UInt32) (_port : UInt16) : Bytes := inetNtoa ip

structure Server where
  commanders : OrderedMap Bytes ConnId
  connected : ConnId → Bool           -- `_connected` of each `Commander`
  accepted : Nat

namespace Server

def init : Server := ⟨.empty, fun _ => false, 0⟩

/-- One turn of the loop in `_accept_connections`. -/
def acceptConnection (s : Server) (ip : UInt32) (port : UInt16) : Server :=
  let connName := formatConnection ip port
  { commanders := (s.commanders.erase connName).emplace connName s.accepted
    connected := Function.update s.connected s.accepted true
    accepted := s.accepted + 1 }

def getCommander (s : Server) (client : Bytes) : Option ConnId × Server :=
  match s.commanders.find? client with
  | none      => (none, s)
  | some conn =>
      if s.connected conn then (some conn, s)
      else (none, { s with commanders := s.commanders.erase client })

def getClients (s : Server) : List Bytes := s.commanders.keysWhere s.connected

/-- What happens to the registry. A connection can be lost at any time. -/
inductive Action where
  | accept (ip : UInt32) (port : UInt16)
  | disconnected (conn : ConnId)
  | getCommander (client : Bytes)
  | getClients
  deriving DecidableEq, Repr

def perform (s : Server) : Action → Server
  | .accept ip port      => s.acceptConnection ip port
  | .disconnected conn   => { s with connected := Function.update s.connected conn false }
  | .getCommander client => (s.getCommander client).2
  | .getClients          => s

def after (as : List Action) : Server := as.foldl perform init

theorem find?_acceptConnection_self (s : Server) (ip : UInt32) (port : UInt16) :
    (s.acceptConnection ip port).commanders.find? (formatConnection ip port) = some s.accepted :=
  OrderedMap.find?_emplace_self _ (OrderedMap.find?_erase_self _ _)

theorem find?_acceptConnection_ne (s : Server) {ip : UInt32} {port : UInt16} {client : Bytes}
    (h : client ≠ formatConnection ip port) :
    (s.acceptConnection ip port).commanders.find? client = s.commanders.find? client :=
  (OrderedMap.find?_emplace_ne _ h _).trans (OrderedMap.find?_erase_ne _ h)

theorem getCommander_fst (s : Server) (client : Bytes) :
    (s.getCommander client).1 = (s.commanders.find? client).filter s.connected := by
  rw [Server.getCommander]
  cases hfind : s.commanders.find? client with
  | none => rfl
  | some conn =>
      show (if s.connected conn then (some conn, s) else _).1 = _
      rw [Option.filter_some]
      by_cases hconn : s.connected conn = true
      · rw [if_pos hconn, if_pos hconn]
      · rw [if_neg hconn, if_neg hconn]

end Server

/-! ## What the registry is for -/

/-- The latest connection of each address, and which connections have not been lost. -/
structure Registry where
  latest : Bytes → Option ConnId
  live : ConnId → Bool
  accepted : Nat

namespace Registry

def init : Registry := ⟨fun _ => none, fun _ => false, 0⟩

def perform (r : Registry) : Server.Action → Registry
  | .accept ip port =>
      { latest := Function.update r.latest (formatConnection ip port) (some r.accepted)
        live := Function.update r.live r.accepted true
        accepted := r.accepted + 1 }
  | .disconnected conn => { r with live := Function.update r.live conn false }
  | .getCommander _    => r
  | .getClients        => r

def after (as : List Server.Action) : Registry := as.foldl perform init

/-- The latest connection of the address, if it is live. -/
def answer (r : Registry) (client : Bytes) : Option ConnId := (r.latest client).filter r.live

end Registry

/-! ## The simulation -/

/-- The map holds the latest connection of each address, except that lost ones may be missing. -/
structure Refines (s : Server) (r : Registry) : Prop where
  connected : s.connected = r.live
  accepted : s.accepted = r.accepted
  entry : ∀ client, s.commanders.find? client = r.latest client ∨
    s.commanders.find? client = none ∧ ∃ conn, r.latest client = some conn ∧ r.live conn = false
  known : ∀ client conn, r.latest client = some conn → conn < r.accepted

namespace Refines

variable {s : Server} {r : Registry}

theorem init : Refines .init .init where
  connected := rfl
  accepted := rfl
  entry := fun _ => .inl rfl
  known := by
    intro client conn h
    cases h

theorem accept (h : Refines s r) (ip : UInt32) (port : UInt16) :
    Refines (s.acceptConnection ip port) (r.perform (.accept ip port)) where
  connected := by
    show Function.update s.connected s.accepted true = Function.update r.live r.accepted true
    rw [h.connected, h.accepted]
  accepted := congrArg (· + 1) h.accepted
  entry := by
    intro client
    show _ = Function.update r.latest (formatConnection ip port) (some r.accepted) client ∨ _ ∧
      ∃ conn, Function.update r.latest (formatConnection ip port) (some r.accepted) client =
        some conn ∧ _
    by_cases hclient : client = formatConnection ip port
    · left
      rw [hclient, Server.find?_acceptConnection_self, Function.update_self, h.accepted]
    · rw [Server.find?_acceptConnection_ne s hclient, Function.update_of_ne hclient]
      rcases h.entry client with heq | ⟨hnone, conn, hconn, hlost⟩
      · exact .inl heq
      · -- the new connection is another one
        have hne : conn ≠ r.accepted := Nat.ne_of_lt (h.known client conn hconn)
        refine .inr ⟨hnone, conn, hconn, ?_⟩
        show Function.update r.live r.accepted true conn = false
        rw [Function.update_of_ne hne, hlost]
  known := by
    intro client conn hconn
    show conn < r.accepted + 1
    have hlatest : Function.update r.latest (formatConnection ip port) (some r.accepted) client =
        some conn := hconn
    by_cases hclient : client = formatConnection ip port
    · rw [hclient, Function.update_self] at hlatest
      injection hlatest with hlatest
      rw [← hlatest]
      exact Nat.lt_succ_self _
    · rw [Function.update_of_ne hclient] at hlatest
      exact Nat.lt_succ_of_lt (h.known client conn hlatest)

theorem disconnected (h : Refines s r) (conn : ConnId) :
    Refines (s.perform (.disconnected conn)) (r.perform (.disconnected conn)) where
  connected := by
    show Function.update s.connected conn false = Function.update r.live conn false
    rw [h.connected]
  accepted := h.accepted
  entry := by
    intro client
    rcases h.entry client with heq | ⟨hnone, conn', hconn, hlost⟩
    · exact .inl heq
    · refine .inr ⟨hnone, conn', hconn, ?_⟩
      show Function.update r.live conn false conn' = false
      by_cases hsame : conn' = conn
      · rw [hsame, Function.update_self]
      · rw [Function.update_of_ne hsame, hlost]
  known := h.known

/-- What `get_commander` removes is a lost connection. -/
theorem getCommander (h : Refines s r) (client : Bytes) : Refines (s.getCommander client).2 r := by
  rw [Server.getCommander]
  cases hfind : s.commanders.find? client with
  | none => exact h
  | some conn =>
      by_cases hconn : s.connected conn = true
      · simp only [hconn, if_true]
        exact h
      · simp only [hconn, Bool.false_eq_true, if_false]
        refine ⟨h.connected, h.accepted, ?_, h.known⟩
        intro client'
        show (s.commanders.erase client).find? client' = _ ∨
          (s.commanders.erase client).find? client' = none ∧ _
        by_cases hsame : client' = client
        · subst hsame
          rw [OrderedMap.find?_erase_self]
          have hlatest : r.latest client' = some conn := by
            rcases h.entry client' with heq | ⟨hnone, -⟩
            · rw [← heq, hfind]
            · rw [hfind] at hnone
              cases hnone
          have hlost : r.live conn = false := by
            rw [← h.connected]
            exact Bool.eq_false_iff.mpr hconn
          exact .inr ⟨rfl, conn, hlatest, hlost⟩
        · rw [OrderedMap.find?_erase_ne _ hsame]
          exact h.entry client'

theorem perform (h : Refines s r) (a : Server.Action) : Refines (s.perform a) (r.perform a) := by
  cases a with
  | accept ip port      => exact h.accept ip port
  | disconnected conn   => exact h.disconnected conn
  | getCommander client => exact h.getCommander client
  | getClients          => exact h

theorem foldl (h : Refines s r) (as : List Server.Action) :
    Refines (as.foldl Server.perform s) (as.foldl Registry.perform r) := by
  induction as generalizing s r with
  | nil => exact h
  | cons a as ih => exact ih (h.perform a)

/-- `get_commander` returns what the registry is to answer. -/
theorem answer (h : Refines s r) (client : Bytes) :
    (s.getCommander client).1 = r.answer client := by
  rw [Server.getCommander_fst, Registry.answer, h.connected]
  rcases h.entry client with heq | ⟨hnone, conn, hconn, hlost⟩
  · rw [heq]
  · rw [hnone, hconn, Option.filter_some, hlost]
    rfl

end Refines

namespace Server

theorem mem_getClients_iff (s : Server) (client : Bytes) :
    client ∈ s.getClients ↔ (s.getCommander client).1.isSome := by
  rw [getClients, OrderedMap.mem_keysWhere_iff, getCommander_fst]
  cases s.commanders.find? client <;> simp

/-- A live connection is not removed by `get_commander`, whatever it is asked for. -/
theorem find?_getCommander {s : Server} {client : Bytes} {conn : ConnId}
    (hfind : s.commanders.find? client = some conn) (hconn : s.connected conn = true)
    (client' : Bytes) : (s.getCommander client').2.commanders.find? client = some conn := by
  rw [getCommander]
  cases hfind' : s.commanders.find? client' with
  | none => exact hfind
  | some conn' =>
      by_cases hconn' : s.connected conn' = true
      · simp only [hconn', if_true]
        exact hfind
      · have hne : client ≠ client' := by
          rintro rfl
          rw [hfind] at hfind'
          injection hfind' with hsame
          rw [hsame] at hconn
          exact hconn' hconn
        simp only [hconn', Bool.false_eq_true, if_false]
        exact (OrderedMap.find?_erase_ne _ hne).trans hfind

end Server

namespace Registry

/-- The action changes what is to be answered for `client`: it is a new connection from there, or
the loss of the one that is returned. -/
def Concerns (r : Registry) (client : Bytes) : Server.Action → Prop
  | .accept ip port    => formatConnection ip port = client
  | .disconnected conn => r.answer client = some conn
  | .getCommander _    => False
  | .getClients        => False

theorem answer_perform {r : Registry} (hknown : ∀ client conn, r.latest client = some conn →
    conn < r.accepted) {a : Server.Action} {client : Bytes} (ha : ¬ r.Concerns client a) :
    (r.perform a).answer client = r.answer client := by
  cases a with
  | accept ip port =>
      have hne : client ≠ formatConnection ip port := fun heq => ha heq.symm
      show (Function.update r.latest (formatConnection ip port) (some r.accepted) client).filter
        (Function.update r.live r.accepted true) = _
      rw [Function.update_of_ne hne, answer]
      cases hlatest : r.latest client with
      | none => rfl
      | some conn =>
          have hold := Nat.ne_of_lt (hknown client conn hlatest)
          rw [Option.filter_some, Option.filter_some, Function.update_of_ne hold]
  | disconnected conn =>
      have hother : r.answer client ≠ some conn := ha
      show (r.latest client).filter (Function.update r.live conn false) = _
      rw [answer] at hother ⊢
      cases hlatest : r.latest client with
      | none => rfl
      | some conn' =>
          rw [hlatest, Option.filter_some] at hother
          rw [Option.filter_some, Option.filter_some]
          by_cases hsame : conn' = conn
          · -- it had been lost before
            subst hsame
            rw [Function.update_self]
            by_cases hlive : r.live conn' = true
            · rw [if_pos hlive] at hother
              exact absurd rfl hother
            · rw [if_neg hlive]
              rfl
          · rw [Function.update_of_ne hsame]
  | getCommander client' => rfl
  | getClients => rfl

end Registry

/-- **The registry refines the latest live connections.** After any actions in any order,
`get_commander` returns the latest connection of the address if it is live, and nothing otherwise;
`get_clients` returns the addresses for which it returns something, each once, in order. An action
changes no answer but that for an address which is connected anew or whose connection is lost, and
a connection that has not been lost stays in the map until another from its address is accepted. -/
theorem registry_refines (as : List Server.Action) :
    (∀ client, ((Server.after as).getCommander client).1 = (Registry.after as).answer client) ∧
    ((Server.after as).getClients.Pairwise (· < ·) ∧
      ∀ client, client ∈ (Server.after as).getClients ↔
        ((Server.after as).getCommander client).1.isSome) ∧
    (∀ (a : Server.Action) (client : Bytes), ¬ (Registry.after as).Concerns client a →
      (((Server.after as).perform a).getCommander client).1 =
        ((Server.after as).getCommander client).1) ∧
    ∀ (a : Server.Action) (client : Bytes) (conn : ConnId),
      (Server.after as).commanders.find? client = some conn →
      (Server.after as).connected conn = true →
        ((Server.after as).perform a).commanders.find? client = some conn ∨
          ∃ ip port, a = .accept ip port ∧ formatConnection ip port = client := by
  have h : Refines (Server.after as) (Registry.after as) := Refines.init.foldl as
  refine ⟨h.answer, ⟨OrderedMap.increasing_keysWhere _ _, Server.mem_getClients_iff _⟩, ?_, ?_⟩
  · intro a client ha
    rw [(h.perform a).answer, h.answer]
    exact Registry.answer_perform h.known ha
  · intro a client conn hfind hconn
    cases a with
    | accept ip port =>
        by_cases hclient : client = formatConnection ip port
        · exact .inr ⟨ip, port, rfl, hclient.symm⟩
        · left
          exact (Server.find?_acceptConnection_ne _ hclient).trans hfind
    | disconnected conn' => exact .inl hfind
    | getClients => exact .inl hfind
    | getCommander client' => exact .inl (Server.find?_getCommander hfind hconn client')

end ZControl
