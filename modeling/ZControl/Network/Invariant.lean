import ZControl.Network.Routing

/-!
# What holds in every state of the network

A call speaks to a worker that was accepted under the name in its path; each of its commands is the
command of one call of `_send_command` there, and what it got as an answer the worker has given to
this command.
-/

namespace ZControl

open Interaction Zcfs

namespace Network

variable {n : ConnId → Nat} {dirsToOverride : ConnId → DirsToOverride} {s s' : State n}

/-! ## What only grows -/

/-- The connections accepted keep their names, commands keep their calls, and answers stay. -/
structure Grows (s s' : State n) : Prop where
  accepted : s.accepted ≤ s'.accepted
  origin : ∀ conn, conn < s.accepted → s'.origin conn = s.origin conn
  command : ∀ conn c msg, ((s.conns conn).commander.pc c).command = some msg →
    ((s'.conns conn).commander.pc c).command = some msg
  answers : ∀ conn, (s.conns conn).worker.answers ⊆ (s'.conns conn).worker.answers
  owner : ∀ conn c t, s.owner conn c = some t → s'.owner conn c = some t

theorem Grows.refl (s : State n) : Grows s s where
  accepted := Nat.le_refl _
  origin := fun _ _ => rfl
  command := fun _ _ _ h => h
  answers := fun _ => List.Subset.refl _
  owner := fun _ _ _ h => h

/-- A step of one connection leaves the others alone. -/
theorem conns_setConn {P : (conn : ConnId) → Connection.State (n conn) → Prop} {conn : ConnId}
    {x : Connection.State (n conn)} (hx : P conn x) (hother : ∀ conn', P conn' (s.conns conn'))
    (conn' : ConnId) : P conn' ((s.setConn conn x).conns conn') := by
  show P conn' (Function.update s.conns conn x conn')
  by_cases heq : conn' = conn
  · subst heq
    rw [Function.update_self]
    exact hx
  · rw [Function.update_of_ne heq]
    exact hother conn'

theorem command_mono_of_step {m : Nat} {d : DirsToOverride} {x x' : Connection.State m}
    {a : Connection.Action m} (h : Connection.Step d x a x') {c : Commander.CallId} {msg : Message}
    (hc : (x.commander.pc c).command = some msg) : (x'.commander.pc c).command = some msg := by
  rcases h.command with ⟨c', type, data, rfl, hnone, hall⟩ | ⟨-, hall⟩
  · rw [hall, if_neg]
    · exact hc
    · rintro rfl
      rw [hnone] at hc
      cases hc
  · rw [hall, hc]

theorem grows_setConn {conn : ConnId} {a : Connection.Action (n conn)}
    {x : Connection.State (n conn)}
    (hx : Connection.Step (dirsToOverride conn) (s.conns conn) a x) :
    Grows s (s.setConn conn x) where
  accepted := Nat.le_refl _
  origin := fun _ _ => rfl
  command := by
    intro conn' c msg
    exact conns_setConn
      (P := fun conn' y => ((s.conns conn').commander.pc c).command = some msg →
        (y.commander.pc c).command = some msg)
      (fun hc => command_mono_of_step hx hc) (fun _ hc => hc) conn'
  answers := fun conn' => conns_setConn
    (P := fun conn' y => (s.conns conn').worker.answers ⊆ y.worker.answers) hx.answers_subset
    (fun _ => List.Subset.refl _) conn'
  owner := fun _ _ _ h => h

/-! ## A call -/

/-- The call has sent this command, or it is in `_send_command` with it. -/
def Running.Sends (r : Running) (conn : ConnId) (msg : Message) : Prop :=
  (∃ answer, (⟨.commander conn (.sendCommand msg), answer⟩ : ZcfsEvent) ∈ r.events) ∨
    ∃ c, r.sending = some (conn, c) ∧ nextCommand r.rest = some (conn, msg)

theorem resume_cases {r r' : Running} {e : ZcfsEvent} {sending : Option (ConnId × Commander.CallId)}
    (h : r.resume e sending = some r') :
    ∃ rest, r.rest.resume e = some rest ∧ r' = ⟨r.call, rest, sending, r.events ++ [e]⟩ := by
  obtain ⟨rest, hrest, rfl⟩ := Option.map_eq_some_iff.mp h
  exact ⟨rest, hrest, rfl⟩

/-- A command that is sent next is the next operation. -/
theorem eq_of_nextCommand {α : Type} {p q : ZcfsProg α} {e : ZcfsEvent} {conn : ConnId}
    {msg : Message} (hnext : nextCommand p = some (conn, msg)) (h : p.resume e = some q) :
    e.1 = .commander conn (.sendCommand msg) := by
  obtain ⟨op, a⟩ := e
  obtain ⟨k, rfl, -⟩ := Prog.resume_iff.mp h
  unfold nextCommand at hnext
  split at hnext
  case h_1 heq =>
    cases heq
    cases hnext
    rfl
  case h_2 => cases hnext

theorem Running.Sends.resume {r r' : Running} {e : ZcfsEvent}
    {sending : Option (ConnId × Commander.CallId)} {conn : ConnId} {msg : Message}
    (hs : r.Sends conn msg) (h : r.resume e sending = some r') : r'.Sends conn msg := by
  obtain ⟨rest, hrest, rfl⟩ := resume_cases h
  left
  rcases hs with ⟨answer, hmem⟩ | ⟨c, -, hnext⟩
  · exact ⟨answer, List.mem_append_left _ hmem⟩
  · have he := eq_of_nextCommand hnext hrest
    obtain ⟨op, a⟩ := e
    cases he
    exact ⟨a, List.mem_append_right _ (List.mem_singleton_self _)⟩

/-- What holds of a call in progress; `t` is its number. -/
structure CallInv (s : State n) (t : Nat) (r : Running) : Prop where
  traced : r.call.program.residual r.events = some r.rest
  routed : ∃ found, r.rest.Follows (routing r.call.client) found ∧
    ∀ conn, found = some conn → conn < s.accepted ∧ s.origin conn = r.call.client
  sent : ∀ conn msg, r.Sends conn msg → conn < s.accepted ∧ s.origin conn = r.call.client ∧
    ∃ c, ((s.conns conn).commander.pc c).command = some msg ∧ s.owner conn c = some t
  sending : ∀ conn c, r.sending = some (conn, c) → ∃ msg, nextCommand r.rest = some (conn, msg) ∧
    ((s.conns conn).commander.pc c).command = some msg
  answered : ∀ conn msg m,
    (⟨.commander conn (.sendCommand msg), .ok m⟩ : ZcfsEvent) ∈ r.events →
      m.type = WorkerMessageType.commandResult.toUint8 ∧
        ∃ x ∈ (s.conns conn).worker.answers, x.command.item = msg ∧ x.response = m

theorem CallInv.mono {t : Nat} {r : Running} (hr : CallInv s t r) (h : Grows s s') :
    CallInv s' t r where
  traced := hr.traced
  routed := by
    obtain ⟨found, hfollows, hfound⟩ := hr.routed
    refine ⟨found, hfollows, fun conn heq => ?_⟩
    obtain ⟨hlt, horigin⟩ := hfound conn heq
    exact ⟨Nat.lt_of_lt_of_le hlt h.accepted, (h.origin conn hlt).trans horigin⟩
  sent := by
    intro conn msg hsends
    obtain ⟨hlt, horigin, c, hc, howner⟩ := hr.sent conn msg hsends
    exact ⟨Nat.lt_of_lt_of_le hlt h.accepted, (h.origin conn hlt).trans horigin, c,
      h.command conn c msg hc, h.owner conn c t howner⟩
  sending := by
    intro conn c hsending
    obtain ⟨msg, hnext, hc⟩ := hr.sending conn c hsending
    exact ⟨msg, hnext, h.command conn c msg hc⟩
  answered := by
    intro conn msg m hmem
    obtain ⟨htype, x, hx, hanswer⟩ := hr.answered conn msg m hmem
    exact ⟨htype, x, h.answers conn hx, hanswer⟩

theorem CallInv.begin (s : State n) (t : Nat) (call : Call) : CallInv s t (.begin call) where
  traced := rfl
  routed := ⟨none, call.follows, fun conn h => by cases h⟩
  sent := by
    rintro conn msg (⟨answer, hmem⟩ | ⟨c, hsending, -⟩)
    · cases hmem
    · cases hsending
  sending := by
    intro conn c hsending
    cases hsending
  answered := by
    intro conn msg m hmem
    cases hmem

/-- What has to be seen when a call goes on: whom it has found, that an answer was given, that a
command which is answered had been sent, and which command it sends now. -/
theorem CallInv.resume {t : Nat} {r r' : Running} {e : ZcfsEvent}
    {sending : Option (ConnId × Commander.CallId)} (hr : CallInv s t r) (hgrows : Grows s s')
    (h : r.resume e sending = some r')
    (hfound : ∀ client conn, e = ⟨.getCommander client, some conn⟩ →
      conn < s'.accepted ∧ s'.origin conn = client)
    (hanswered : ∀ conn msg m, e = ⟨.commander conn (.sendCommand msg), .ok m⟩ →
      m.type = WorkerMessageType.commandResult.toUint8 ∧
        ∃ x ∈ (s'.conns conn).worker.answers, x.command.item = msg ∧ x.response = m)
    (hsent : ∀ conn msg answer, e = ⟨.commander conn (.sendCommand msg), answer⟩ →
      r.Sends conn msg)
    (hsending : ∀ conn c, sending = some (conn, c) → e.1 = .commander conn .nextCommandId ∧
      ∃ msg, nextCommand r'.rest = some (conn, msg) ∧
        ((s'.conns conn).commander.pc c).command = some msg ∧ s'.owner conn c = some t) :
    CallInv s' t r' := by
  have hold := hr.mono hgrows
  obtain ⟨rest, hrest, rfl⟩ := resume_cases h
  obtain ⟨found, hfollows, hwhere⟩ := hold.routed
  obtain ⟨hallowed, hfollows'⟩ := hfollows.resume hrest
  constructor
  case traced => exact Prog.residual_snoc hold.traced hrest
  case routed =>
    refine ⟨_, hfollows', fun conn heq => ?_⟩
    obtain ⟨op, a⟩ := e
    cases op with
    | getCommander client =>
        obtain rfl : a = some conn := heq
        obtain rfl : client = r.call.client := hallowed
        exact hfound _ conn rfl
    | _ => exact hwhere conn heq
  case sent =>
    rintro conn msg (⟨answer, hmem⟩ | ⟨c, hc, hnext⟩)
    · rcases List.mem_append.mp hmem with hmem | hmem
      · exact hold.sent conn msg (.inl ⟨answer, hmem⟩)
      · exact hold.sent conn msg (hsent conn msg answer (List.mem_singleton.mp hmem).symm)
    · obtain ⟨hop, msg', hnext', hcommand, howner⟩ := hsending conn c hc
      obtain rfl : msg = msg' := by simpa [hnext'] using hnext.symm
      obtain ⟨op, a⟩ := e
      cases hop
      obtain ⟨hlt, horigin⟩ := hwhere conn hallowed
      exact ⟨hlt, horigin, c, hcommand, howner⟩
  case sending =>
    intro conn c hc
    obtain ⟨-, msg, hnext, hcommand, -⟩ := hsending conn c hc
    exact ⟨msg, hnext, hcommand⟩
  case answered =>
    intro conn msg m hmem
    rcases List.mem_append.mp hmem with hmem | hmem
    · exact hold.answered conn msg m hmem
    · exact hanswered conn msg m (List.mem_singleton.mp hmem).symm

/-! ## The network -/

structure Inv (dirsToOverride : ConnId → DirsToOverride) (s : State n) : Prop where
  sound : ∀ conn, Connection.Sound (dirsToOverride conn) (s.conns conn)
  registered : ∀ client conn, s.commanders.find? client = some conn →
    conn < s.accepted ∧ s.origin conn = client
  call : ∀ t r, s.calls t = some r → CallInv s t r
  owner : ∀ conn c t, s.owner conn c = some t →
    ∃ msg, ((s.conns conn).commander.pc c).command = some msg
  owned : ∀ conn c msg, ((s.conns conn).commander.pc c).command = some msg →
    msg.type = CommanderMessageType.disconnect.toUint8 ∨
      ∃ t r, s.owner conn c = some t ∧ s.calls t = some r ∧ r.Sends conn msg

theorem Inv.init : Inv dirsToOverride (init n) where
  sound := fun _ => .init
  registered := by
    intro client conn h
    cases h
  call := by
    intro t r h
    cases h
  owner := by
    intro conn c t h
    cases h
  owned := by
    intro conn c msg h
    cases h

/-- One call goes on; a command that is new is its own. -/
theorem Inv.update {t : Nat} {r r' : Running} (hs : Inv dirsToOverride s) (ht : s.calls t = some r)
    (hcalls : s'.calls = Function.update s.calls t (some r')) (hgrows : Grows s s')
    (hsound : ∀ conn, Connection.Sound (dirsToOverride conn) (s'.conns conn))
    (hregistered : ∀ client conn, s'.commanders.find? client = some conn →
      conn < s'.accepted ∧ s'.origin conn = client)
    (hr' : CallInv s' t r') (hsends : ∀ conn msg, r.Sends conn msg → r'.Sends conn msg)
    (howner : ∀ conn c t', s'.owner conn c = some t' →
      ∃ msg, ((s'.conns conn).commander.pc c).command = some msg)
    (hnew : ∀ conn c msg, ((s'.conns conn).commander.pc c).command = some msg →
      ((s.conns conn).commander.pc c).command = some msg ∨
        s'.owner conn c = some t ∧ r'.Sends conn msg) : Inv dirsToOverride s' where
  sound := hsound
  registered := hregistered
  call := by
    intro t' r₁ h
    rw [hcalls] at h
    by_cases heq : t' = t
    · subst heq
      rw [Function.update_self] at h
      cases h
      exact hr'
    · rw [Function.update_of_ne heq] at h
      exact (hs.call t' r₁ h).mono hgrows
  owner := howner
  owned := by
    intro conn c msg hc
    rcases hnew conn c msg hc with hc | ⟨howned, hsent⟩
    · rcases hs.owned conn c msg hc with htype | ⟨t', r₁, howned, ht', hsent⟩
      · exact .inl htype
      · right
        by_cases heq : t' = t
        · subst heq
          rw [ht] at ht'
          cases ht'
          refine ⟨t', r', hgrows.owner conn c t' howned, ?_, hsends conn msg hsent⟩
          rw [hcalls, Function.update_self]
        · refine ⟨t', r₁, hgrows.owner conn c t' howned, ?_, hsent⟩
          rw [hcalls, Function.update_of_ne heq, ht']
    · refine .inr ⟨t, r', howned, ?_, hsent⟩
      rw [hcalls, Function.update_self]

section Steps

variable (hs : Inv dirsToOverride s)

include hs

theorem Inv.accepts (ip : UInt32) (port : UInt16) :
    Inv dirsToOverride { s with
      commanders := (s.server.acceptConnection ip port).commanders
      accepted := s.accepted + 1
      origin := Function.update s.origin s.accepted (formatConnection ip port) } where
  sound := hs.sound
  registered := by
    intro client conn h
    by_cases hclient : client = formatConnection ip port
    · subst hclient
      have hnew := Server.find?_acceptConnection_self s.server ip port
      obtain rfl : conn = s.accepted := Option.some.inj (h.symm.trans hnew)
      exact ⟨Nat.lt_succ_self _, Function.update_self _ _ _⟩
    · have hold := Server.find?_acceptConnection_ne s.server hclient
      obtain ⟨hlt, horigin⟩ := hs.registered client conn (hold.symm.trans h)
      refine ⟨Nat.lt_succ_of_lt hlt, ?_⟩
      show Function.update s.origin s.accepted _ conn = client
      rw [Function.update_of_ne (Nat.ne_of_lt hlt), horigin]
  call := by
    intro t r h
    refine (hs.call t r h).mono ⟨Nat.le_succ _, ?_, fun _ _ _ h => h, fun _ => List.Subset.refl _,
      fun _ _ _ h => h⟩
    intro conn hlt
    exact Function.update_of_ne (Nat.ne_of_lt hlt) _ _
  owner := hs.owner
  owned := hs.owned

theorem Inv.moves {conn : ConnId} {a : Connection.Action (n conn)} {x : Connection.State (n conn)}
    (hfits : Connection.Fits (s.conns conn) a)
    (ha : ∀ c type data, a = .commander (.build c type data) →
      type = CommanderMessageType.disconnect.toUint8)
    (hx : Connection.step (dirsToOverride conn) (s.conns conn) a = some x) :
    Inv dirsToOverride (s.setConn conn x) := by
  have hstep := Connection.step_cases hx
  have hgrows := grows_setConn hstep
  constructor
  case sound =>
    exact conns_setConn (P := fun conn y => Connection.Sound (dirsToOverride conn) y)
      ((hs.sound conn).step hfits hx) hs.sound
  case registered => exact hs.registered
  case call =>
    intro t r h
    exact (hs.call t r h).mono hgrows
  case owner =>
    intro conn' c t h
    obtain ⟨msg, hc⟩ := hs.owner conn' c t h
    exact ⟨msg, hgrows.command conn' c msg hc⟩
  case owned =>
    intro conn' c msg
    refine conns_setConn (P := fun conn' y => (y.commander.pc c).command = some msg →
      msg.type = CommanderMessageType.disconnect.toUint8 ∨ ∃ t r, s.owner conn' c = some t ∧
        s.calls t = some r ∧ r.Sends conn' msg) ?_ (fun conn' => hs.owned conn' c msg) conn'
    intro hc
    rcases hstep.command with ⟨c', type, data, rfl, -, hall⟩ | ⟨-, hall⟩
    · rw [hall] at hc
      split at hc
      case isTrue =>
        cases hc
        exact .inl (ha c' type data rfl)
      case isFalse => exact hs.owned conn c msg hc
    · rw [hall] at hc
      exact hs.owned conn c msg hc

theorem Inv.starts {t : Nat} (call : Call) (ht : s.calls t = none) :
    Inv dirsToOverride (s.setCall t (.begin call)) where
  sound := hs.sound
  registered := hs.registered
  call := by
    intro t' r h
    have hgrows : Grows s (s.setCall t (.begin call)) :=
      ⟨Nat.le_refl _, fun _ _ => rfl, fun _ _ _ h => h, fun _ => List.Subset.refl _,
        fun _ _ _ h => h⟩
    have hcalls : Function.update s.calls t (some (.begin call)) t' = some r := h
    by_cases heq : t' = t
    · subst heq
      rw [Function.update_self] at hcalls
      cases hcalls
      exact .begin _ t' call
    · rw [Function.update_of_ne heq] at hcalls
      exact (hs.call t' r hcalls).mono hgrows
  owner := hs.owner
  owned := by
    intro conn c msg hc
    rcases hs.owned conn c msg hc with htype | ⟨t', r, howner, ht', hsends⟩
    · exact .inl htype
    · have hne : t' ≠ t := by
        rintro rfl
        rw [ht] at ht'
        cases ht'
      refine .inr ⟨t', r, howner, ?_, hsends⟩
      show Function.update s.calls t _ t' = _
      rw [Function.update_of_ne hne, ht']

/-- The registry keeps what it finds. -/
theorem find?_getCommander_of {client client' : Bytes} {conn : ConnId}
    (h : (s.server.getCommander client).2.commanders.find? client' = some conn) :
    conn < s.accepted ∧ s.origin conn = client' := by
  refine hs.registered client' conn ?_
  rw [Server.getCommander] at h
  split at h
  case h_1 => exact h
  case h_2 conn' hfind =>
    split at h
    case isTrue => exact h
    case isFalse =>
      by_cases heq : client' = client
      · subst heq
        have hnone : (s.commanders.erase client').find? client' = none :=
          OrderedMap.find?_erase_self _ _
        have hsome := hnone.symm.trans h
        cases hsome
      · have hkeep : (s.commanders.erase client).find? client' = s.commanders.find? client' :=
          OrderedMap.find?_erase_ne _ heq
        exact hkeep.symm.trans h

theorem Inv.performs {t : Nat} {e : ZcfsEvent} {r r' : Running} {s₁ : State n}
    (ht : s.calls t = some r) (hr : r.resume e none = some r') (hs₁ : s.answer e = some s₁) :
    Inv dirsToOverride (s₁.setCall t r') := by
  have hcases := answer_cases hs₁
  have hnot : ∀ conn op answer, e ≠ ⟨.commander conn op, answer⟩ := by
    rintro conn op answer rfl
    cases hs₁
  -- whatever is asked, no more than the registry changes
  obtain ⟨m, rfl, hregistered⟩ : ∃ m, s₁ = { s with commanders := m } ∧
      ∀ client conn, m.find? client = some conn → conn < s.accepted ∧ s.origin conn = client := by
    rcases hcases with ⟨client, -, rfl⟩ | ⟨-, rfl⟩
    · exact ⟨_, rfl, fun client' conn h => find?_getCommander_of hs h⟩
    · exact ⟨_, rfl, hs.registered⟩
  have hgrows : Grows s (({ s with commanders := m } : State n).setCall t r') :=
    ⟨Nat.le_refl _, fun _ _ => rfl, fun _ _ _ h => h, fun _ => List.Subset.refl _, fun _ _ _ h => h⟩
  refine hs.update ht rfl hgrows hs.sound hregistered ?_ (fun _ _ h => h.resume hr) hs.owner
    fun _ _ _ h => .inl h
  refine (hs.call t r ht).resume hgrows hr ?_ ?_ ?_ ?_
  · rintro client conn rfl
    rcases hcases with ⟨client', heq, -⟩ | ⟨heq | ⟨name, st, full, heq⟩, -⟩
    · injection heq with hop hanswer
      injection hop with hclient
      subst hclient
      have hsome : (s.commanders.find? client).filter s.server.connected = some conn :=
        (Server.getCommander_fst s.server client).symm.trans hanswer.symm
      exact hs.registered client conn (Option.filter_eq_some_iff.mp hsome).1
    · cases heq
    · cases heq
  · intro conn msg m' he
    exact absurd he (hnot _ _ _)
  · intro conn msg answer he
    exact absurd he (hnot _ _ _)
  · intro conn c h
    cases h

theorem Inv.numbers {t : Nat} {conn : ConnId} {c : Commander.CallId} {r r' : Running}
    {msg : Message} {x : Connection.State (n conn)} (ht : s.calls t = some r)
    (hnumber : s.numbering r conn c = some (r', msg))
    (hfits : Connection.Fits (s.conns conn) (.commander (.build c msg.type msg.data)))
    (hx : Connection.step (dirsToOverride conn) (s.conns conn)
      (.commander (.build c msg.type msg.data)) = some x) :
    Inv dirsToOverride { (s.setConn conn x).setCall t r' with
      owner := Function.update s.owner conn (Function.update (s.owner conn) c (some t)) } := by
  obtain ⟨hr, hnext, hid⟩ := numbering_cases hnumber
  have hstep := Connection.step_cases hx
  have hconn := grows_setConn (s := s) hstep
  obtain ⟨hnone, hall⟩ : ((s.conns conn).commander.pc c).command = none ∧
      ∀ d, (x.commander.pc d).command =
        if d = c then some msg else ((s.conns conn).commander.pc d).command := by
    rcases hstep.command with ⟨c', type, data, heq, hnone, hall⟩ | ⟨hno, -⟩
    · cases heq
      refine ⟨hnone, fun d => ?_⟩
      rw [hall, ← hid]
    · exact absurd rfl (hno c msg.type msg.data)
  -- the call of `_send_command` belonged to nobody
  have hfree : ∀ t', s.owner conn c ≠ some t' := by
    intro t' howner
    obtain ⟨m, hm⟩ := hs.owner conn c t' howner
    rw [hnone] at hm
    cases hm
  have howner : ∀ conn' c', Function.update s.owner conn
      (Function.update (s.owner conn) c (some t)) conn' c' =
        if conn' = conn ∧ c' = c then some t else s.owner conn' c' := by
    intro conn' c'
    by_cases hsame : conn' = conn
    · subst hsame
      rw [Function.update_self, Function.update_apply]
      simp
    · rw [Function.update_of_ne hsame, if_neg fun h => hsame h.1]
  have hcommand : ((((s.setConn conn x).conns conn).commander.pc c).command) = some msg := by
    show ((Function.update s.conns conn x conn).commander.pc c).command = some msg
    rw [Function.update_self, hall, if_pos rfl]
  have hgrows : Grows s { (s.setConn conn x).setCall t r' with
      owner := Function.update s.owner conn (Function.update (s.owner conn) c (some t)) } := by
    refine ⟨Nat.le_refl _, fun _ _ => rfl, hconn.command, hconn.answers, ?_⟩
    intro conn' c' t' h
    refine (howner conn' c').trans ?_
    rw [if_neg]
    · exact h
    · rintro ⟨rfl, rfl⟩
      exact hfree t' h
  have hsent : r'.Sends conn msg := by
    obtain ⟨rest, -, rfl⟩ := resume_cases hr
    exact .inr ⟨c, rfl, hnext⟩
  refine hs.update ht rfl hgrows ?_ hs.registered ?_ (fun _ _ h => h.resume hr) ?_ ?_
  · exact conns_setConn (P := fun conn y => Connection.Sound (dirsToOverride conn) y)
      ((hs.sound conn).step hfits hx) hs.sound
  · refine (hs.call t r ht).resume hgrows hr ?_ ?_ ?_ ?_
    · intro client conn' he
      cases he
    · intro conn' msg' m he
      cases he
    · intro conn' msg' answer he
      cases he
    · rintro conn' c' heq
      cases heq
      exact ⟨rfl, msg, hnext, hcommand, (howner conn c).trans (if_pos ⟨rfl, rfl⟩)⟩
  · intro conn' c' t' h
    have h' : Function.update s.owner conn (Function.update (s.owner conn) c (some t)) conn' c' =
        some t' := h
    rw [howner] at h'
    split at h'
    case isTrue hsame =>
      obtain ⟨rfl, rfl⟩ := hsame
      exact ⟨msg, hcommand⟩
    case isFalse =>
      obtain ⟨m, hm⟩ := hs.owner conn' c' t' h'
      exact ⟨m, hconn.command conn' c' m hm⟩
  · intro conn' c' m
    refine conns_setConn (s := s) (P := fun conn' y => (y.commander.pc c').command = some m →
      ((s.conns conn').commander.pc c').command = some m ∨
        Function.update s.owner conn (Function.update (s.owner conn) c (some t)) conn' c' =
          some t ∧ r'.Sends conn' m) ?_ (fun _ h => .inl h) conn'
    intro hm
    rw [hall] at hm
    split at hm
    case isTrue hsame =>
      subst hsame
      cases hm
      exact .inr ⟨(howner conn c').trans (if_pos ⟨rfl, rfl⟩), hsent⟩
    case isFalse => exact .inl hm

theorem Inv.finishes {t : Nat} {r r' : Running} {conn : ConnId} {c : Commander.CallId}
    {msg : Message} {answer : Except Fault Message} (ht : s.calls t = some r)
    (hsending : r.sending = some (conn, c)) (hout : s.outcome conn c = some (msg, answer))
    (hr : r.resume ⟨.commander conn (.sendCommand msg), answer⟩ none = some r') :
    Inv dirsToOverride (s.setCall t r') := by
  have hgrows : Grows s (s.setCall t r') :=
    ⟨Nat.le_refl _, fun _ _ => rfl, fun _ _ _ h => h, fun _ => List.Subset.refl _, fun _ _ _ h => h⟩
  refine hs.update ht rfl hgrows hs.sound hs.registered ?_ (fun _ _ h => h.resume hr) hs.owner
    fun _ _ _ h => .inl h
  refine (hs.call t r ht).resume hgrows hr ?_ ?_ ?_ ?_
  · intro client conn' he
    cases he
  · intro conn' msg' m he
    cases he
    rcases outcome_cases hout with ⟨m', heq, hpc⟩ | ⟨e, heq, -⟩
    · cases heq
      obtain ⟨S, hm, hi⟩ := hs.sound conn
      exact hm.answer_of_returned hi hpc
    · cases heq
  · intro conn' msg' answer' he
    cases he
    obtain ⟨msg', hnext, -⟩ := (hs.call t r ht).sending conn c hsending
    obtain ⟨rest, hrest, -⟩ := resume_cases hr
    have hop := eq_of_nextCommand hnext hrest
    cases hop
    exact .inr ⟨c, hsending, hnext⟩
  · intro conn' c' h
    cases h

end Steps

theorem Inv.step {a : Action n} (hfits : Fits s a) (hs : Inv dirsToOverride s)
    (h : step dirsToOverride s a = some s') : Inv dirsToOverride s' := by
  have hstep := step_cases h
  clear h
  cases hstep with
  | accepts ip port => exact hs.accepts ip port
  | moves conn a x hconn ha hx => exact hs.moves hfits ha hx
  | starts t call ht => exact hs.starts call ht
  | performs t e r r' s₁ ht hr hs₁ => exact hs.performs ht hr hs₁
  | numbers t conn c r r' msg x ht hnumber hx =>
      refine hs.numbers ht hnumber ?_ hx
      simpa only [Fits, ht, Option.bind_some, hnumber] using hfits
  | finishes t r r' conn c msg answer ht hsending hout hr =>
      exact hs.finishes ht hsending hout hr

/-- It holds in every state that a run reaches. -/
theorem inv_of_run {as : List (Action n)}
    (hfits : Transition.AllSteps (step dirsToOverride) Fits (init n) as)
    (hrun : Transition.run (step dirsToOverride) (init n) as = some s) : Inv dirsToOverride s :=
  hfits.invariant (fun _ _ _ hfits hs h => hs.step hfits h) .init hrun

end Network

end ZControl
