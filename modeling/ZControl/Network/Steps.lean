import ZControl.Network.Machine

/-!
# What a step of the network does

One case for each action, and what it leaves of the connections: a command keeps its call, and what
a worker has answered stays answered.
-/

namespace ZControl

open Interaction Zcfs

/-! ## A step of one connection -/

namespace Connection

variable {n : Nat} {dirsToOverride : DirsToOverride} {s s' : State n} {a : Action n}

/-- The command of a call is set when it is numbered, and stays. -/
theorem Step.command (h : Step dirsToOverride s a s') :
    (∃ c type data, a = .commander (.build c type data) ∧
        (s.commander.pc c).command = none ∧
        ∀ d, (s'.commander.pc d).command =
          if d = c then some ⟨s.commander.nextCommandId, type, data⟩
          else (s.commander.pc d).command) ∨
      (∀ c type data, a ≠ .commander (.build c type data)) ∧
        ∀ d, (s'.commander.pc d).command = (s.commander.pc d).command := by
  cases h with
  | thread a t ha h =>
      have hbuild : ∀ c type data, a ≠ .build c type data := by rintro c type data rfl; exact ha
      refine .inr ⟨?_, fun d => (Commander.step_cases h).command_eq hbuild d⟩
      intro c type data heq
      injection heq with heq
      exact hbuild c type data heq
  | builds c type data t h =>
      left
      refine ⟨c, type, data, rfl, ?_⟩
      cases Commander.step_cases h with
      | build _ _ _ hpc =>
          refine ⟨?_, fun d => ?_⟩
          · rcases hpc with ⟨hpc, -⟩ | ⟨hpc, -⟩ <;> rw [hpc] <;> rfl
          · simp only [Commander.State.setPc_pc]
            split <;> rfl
  | writes c msg hpc | cutsCommand c _ msg hpc =>
      refine .inr ⟨by simp, fun d => ?_⟩
      simp only [Commander.State.setPc_pc]
      split
      case isTrue heq => rw [heq, hpc]; rfl
      case isFalse => rfl
  | waits | returns | works | arrives | answers | cutsResponse =>
      exact .inr ⟨by simp, fun _ => rfl⟩

/-- A worker takes no answer back. -/
theorem Step.answers_subset (h : Step dirsToOverride s a s') :
    s.worker.answers ⊆ s'.worker.answers := by
  cases h with
  | works a w ha h =>
      rw [← silent_answers (Worker.step_cases h) ha]
      exact List.Subset.refl _
  | arrives piece rest w hrest h =>
      rw [← arrives_answers (Worker.step_cases h)]
      exact List.Subset.refl _
  | answers i c es m w hpc h hw | cutsResponse i _ c es m w hpc _ h hw =>
      rw [hw]
      exact List.subset_append_left _ _
  | thread | builds | writes | waits | returns | cutsCommand => exact List.Subset.refl _

/-- The connection is as a run can leave it. -/
def Sound (dirsToOverride : DirsToOverride) (s : State n) : Prop :=
  ∃ S : Commander.Session, Mirrors dirsToOverride s S ∧ S.Inv

theorem Sound.init : Sound dirsToOverride (Connection.init n) := ⟨.init, .init, .init⟩

theorem Sound.step (hs : Sound dirsToOverride s) (hfits : Fits s a)
    (h : Connection.step dirsToOverride s a = some s') : Sound dirsToOverride s' := by
  obtain ⟨S, hm, hi⟩ := hs
  obtain ⟨S', -, hm', hi'⟩ := hm.step hfits hi h
  exact ⟨S', hm', hi'⟩

/-- Two calls of `_send_command` with commands of one id are one. -/
theorem Sound.command_unique (hs : Sound dirsToOverride s) {c d : Commander.CallId}
    {msg msg' : Message} (hc : (s.commander.pc c).command = some msg)
    (hd : (s.commander.pc d).command = some msg') (hid : msg.id = msg'.id) : c = d := by
  obtain ⟨S, hm, hi⟩ := hs
  refine hi.ids.unique c d msg msg' ?_ ?_ hid
  · rw [hm.threads]
    exact hc
  · rw [hm.threads]
    exact hd

end Connection

/-! ## A step of the network -/

namespace Network

variable {n : ConnId → Nat}

/-- The effects of an action that is possible. -/
inductive Step (dirsToOverride : ConnId → DirsToOverride) (s : State n) :
    Action n → State n → Prop where
  | accepts (ip : UInt32) (port : UInt16) :
      Step dirsToOverride s (.accept ip port)
        { s with
          commanders := (s.server.acceptConnection ip port).commanders
          accepted := s.accepted + 1
          origin := Function.update s.origin s.accepted (formatConnection ip port) }
  | moves (conn : ConnId) (a : Connection.Action (n conn)) (x : Connection.State (n conn))
      (hconn : conn < s.accepted)
      (ha : ∀ c type data, a = .commander (.build c type data) →
        type = CommanderMessageType.disconnect.toUint8)
      (hx : Connection.step (dirsToOverride conn) (s.conns conn) a = some x) :
      Step dirsToOverride s (.connection conn a) (s.setConn conn x)
  | starts (t : Nat) (call : Call) (ht : s.calls t = none) :
      Step dirsToOverride s (.start t call) (s.setCall t (.begin call))
  | performs (t : Nat) (e : ZcfsEvent) (r r' : Running) (s₁ : State n)
      (ht : s.calls t = some r) (hr : r.resume e none = some r') (hs₁ : s.answer e = some s₁) :
      Step dirsToOverride s (.perform t e) (s₁.setCall t r')
  | numbers (t : Nat) (conn : ConnId) (c : Commander.CallId) (r r' : Running) (msg : Message)
      (x : Connection.State (n conn)) (ht : s.calls t = some r)
      (hnumber : s.numbering r conn c = some (r', msg))
      (hx : Connection.step (dirsToOverride conn) (s.conns conn)
        (.commander (.build c msg.type msg.data)) = some x) :
      Step dirsToOverride s (.number t conn c)
        { (s.setConn conn x).setCall t r' with
          owner := Function.update s.owner conn (Function.update (s.owner conn) c (some t)) }
  | finishes (t : Nat) (r r' : Running) (conn : ConnId) (c : Commander.CallId) (msg : Message)
      (answer : Except Fault Message) (ht : s.calls t = some r)
      (hsending : r.sending = some (conn, c)) (hout : s.outcome conn c = some (msg, answer))
      (hr : r.resume ⟨.commander conn (.sendCommand msg), answer⟩ none = some r') :
      Step dirsToOverride s (.finish t) (s.setCall t r')

variable {dirsToOverride : ConnId → DirsToOverride} {s s' : State n} {a : Action n}

theorem numbering_cases {r r' : Running} {conn : ConnId} {c : Commander.CallId} {msg : Message}
    (h : s.numbering r conn c = some (r', msg)) :
    r.resume ⟨.commander conn .nextCommandId, msg.id⟩ (some (conn, c)) = some r' ∧
      nextCommand r'.rest = some (conn, msg) ∧
      msg.id = (s.conns conn).commander.nextCommandId := by
  simp only [State.numbering, Option.bind_eq_bind, Option.bind_eq_some_iff] at h
  obtain ⟨r₁, hr, ⟨conn', msg'⟩, hnext, h⟩ := h
  by_cases hsame : conn' = conn ∧ msg'.id = (s.conns conn).commander.nextCommandId
  · rw [if_pos hsame] at h
    cases h
    obtain ⟨rfl, hid⟩ := hsame
    refine ⟨?_, hnext, hid⟩
    rw [hid]
    exact hr
  · rw [if_neg hsame] at h
    cases h

theorem step_cases (h : step dirsToOverride s a = some s') : Step dirsToOverride s a s' := by
  cases a with
  | accept ip port =>
      cases h
      exact .accepts ip port
  | connection conn a =>
      simp only [step] at h
      split at h
      case isFalse => cases h
      case isTrue hcond =>
        obtain ⟨hconn, ha⟩ := hcond
        obtain ⟨x, hx, rfl⟩ := Option.map_eq_some_iff.mp h
        refine .moves conn a x hconn ?_ hx
        rintro c type data rfl
        simpa [begins] using ha
  | start t call =>
      simp only [step] at h
      split at h
      case h_1 ht =>
        cases h
        exact .starts t call ht
      case h_2 => cases h
  | perform t e =>
      simp only [step, Option.bind_eq_bind, Option.bind_eq_some_iff] at h
      obtain ⟨r, ht, r', hr, s₁, hs₁, heq⟩ := h
      cases heq
      exact .performs t e r r' s₁ ht hr hs₁
  | number t conn c =>
      simp only [step, Option.bind_eq_bind, Option.bind_eq_some_iff] at h
      obtain ⟨r, ht, ⟨r', msg⟩, hnumber, x, hx, heq⟩ := h
      cases heq
      exact .numbers t conn c r r' msg x ht hnumber hx
  | finish t =>
      simp only [step, Option.bind_eq_bind, Option.bind_eq_some_iff] at h
      obtain ⟨r, ht, ⟨conn, c⟩, hsending, ⟨msg, answer⟩, hout, r', hr, heq⟩ := h
      cases heq
      exact .finishes t r r' conn c msg answer ht hsending hout hr

/-- What is not an operation of a `Commander` is answered by the registry, or not by the network. -/
theorem answer_cases {e : ZcfsEvent} {s₁ : State n} (h : s.answer e = some s₁) :
    (∃ client, e = ⟨.getCommander client, (s.server.getCommander client).1⟩ ∧
        s₁ = { s with commanders := (s.server.getCommander client).2.commanders }) ∨
      ((e = ⟨.getClients, s.server.getClients⟩ ∨ ∃ name st full, e = ⟨.filler name st, full⟩) ∧
        s₁ = s) := by
  obtain ⟨op, a⟩ := e
  cases op with
  | getCommander client =>
      simp only [State.answer, Option.ite_none_right_eq_some, Option.some.injEq] at h
      obtain ⟨rfl, rfl⟩ := h
      exact .inl ⟨client, rfl, rfl⟩
  | getClients =>
      simp only [State.answer, Option.ite_none_right_eq_some, Option.some.injEq] at h
      obtain ⟨rfl, rfl⟩ := h
      exact .inr ⟨.inl rfl, rfl⟩
  | commander conn op => cases h
  | filler name st =>
      cases h
      exact .inr ⟨.inr ⟨name, st, a, rfl⟩, rfl⟩

theorem outcome_cases {conn : ConnId} {c : Commander.CallId} {msg : Message}
    {answer : Except Fault Message} (h : s.outcome conn c = some (msg, answer)) :
    (∃ m, answer = .ok m ∧ (s.conns conn).commander.pc c = .returned msg m) ∨
      ∃ e, answer = .error e ∧ (s.conns conn).commander.pc c = .threw msg e := by
  unfold State.outcome at h
  split at h
  case h_1 m hpc =>
    cases h
    exact .inl ⟨_, rfl, hpc⟩
  case h_2 e hpc =>
    cases h
    exact .inr ⟨_, rfl, hpc⟩
  case h_3 => cases h

end Network

end ZControl
