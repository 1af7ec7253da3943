import ZControl.Worker.Draining

/-!
# When `Disconnect` is acknowledged

`_disconnect` publishes the flag before its response is built and written, so the owner of the
worker, who sleeps in `wait()`, can close the transport in between. Here is what has to be avoided
for the response to be on the wire before the transport is closed.
-/

namespace ZControl

open Interaction Transition

namespace Worker

variable {n : Nat} {dirsToOverride : DirsToOverride} {s s' : State n} {a : Action n}

/-- The response to a `Disconnect`. -/
def acknowledgement (message : Message) : Message :=
  ⟨message.id, WorkerMessageType.commandResult.toUint8, []⟩

/-- The response to this command has been written. -/
def State.Acknowledged (s : State n) (c : Command) : Prop :=
  ∃ x ∈ s.answers, x.command = c ∧ x.response = acknowledgement c.item

/-- Once the transport is shut down or closed, every `Disconnect` that has published the flag has
been acknowledged. -/
def State.AcknowledgedInTime (s : State n) : Prop :=
  s.socket ≠ .connected → ∀ c ∈ s.disconnects, s.Acknowledged c

/-- The owner and the handlers keep out of each other's way: `close()` is entered while no handler
is in a command, no handler takes a command up once it has been entered, and the system takes what
is sent while the socket is connected. -/
def Unhurried (s : State n) : Action n → Prop
  | .closer c       => s.closer c = .idle → ∀ i, (s.handler i).command? = none
  | .handler i      => s.handler i = .popping → s.queueShutdown = false → ∀ c, s.closer c = .idle
  | .send _ failure => s.socket = .connected → failure = none
  | _               => True

/-- A `Disconnect` returns its response. -/
theorem returns_disconnect {message : Message}
    (h : CommanderMessageType.ofUint8 message.type = some .disconnect) :
    (doCommand dirsToOverride message).Returns fun m => m = acknowledgement message := by
  have hdo : doCommand dirsToOverride message = disconnect message := by
    rw [doCommand, dispatch]
    simp only [h]
    rfl
  rw [hdo]
  exact fun _ => rfl

/-! ## The invariant -/

/-- A `Disconnect` that has published the flag is with its handler or acknowledged; once `close()`
has been entered no handler is in a command, and before that the socket is connected. -/
structure Acknowledges (dirsToOverride : DirsToOverride) (s : State n) : Prop where
  traced : Traced dirsToOverride s
  type : ∀ c ∈ s.disconnects, CommanderMessageType.ofUint8 c.item.type = some .disconnect
  pending : ∀ c ∈ s.disconnects, (∃ i, (s.handler i).command? = some c) ∨ s.Acknowledged c
  entered : ∀ c, s.closer c ≠ .idle → ∀ i, (s.handler i).command? = none
  connected : (∀ c, s.closer c = .idle) → s.socket = .connected

theorem acknowledges_init : Acknowledges dirsToOverride (init n) where
  traced := traced_init
  type := by intro c hc; cases hc
  pending := by intro c hc; cases hc
  entered := by intro c hc; exact absurd rfl hc
  connected := fun _ => rfl

theorem ofUint8_of_isDisconnect {m : Message} (h : IsDisconnect m) :
    CommanderMessageType.ofUint8 m.type = some .disconnect := by
  rw [h]
  decide

/-- What is left of it. -/
theorem Acknowledges.returns (hs : Acknowledges dirsToOverride s) {i : Fin n} {c : Command}
    {es : Events} {p : WorkerProg Message} (hc : c ∈ s.disconnects)
    (hwork : (s.handler i).work? = some (c, es, p)) :
    p.Returns fun m => m = acknowledgement c.item :=
  (returns_disconnect (hs.type c hc)).residual (hs.traced.handler i c es p hwork)

/-- What a step does to the records: it leaves them alone, adds a `Disconnect` that its handler
holds, or adds an answer. -/
theorem Step.records (h : Step dirsToOverride s a s') :
    (s'.disconnects = s.disconnects ∧ s'.answers = s.answers) ∨
    (∃ i e c es p q, a = .op i e ∧ e.1 = .setShouldStop ∧ s.handler i = .running c es p ∧
      p.resume e = some q ∧ s'.disconnects = s.disconnects ++ [c] ∧ s'.answers = s.answers ∧
      s'.socket = s.socket ∧ (s'.handler i).command? = some c) ∨
    ∃ i c es m, s.handler i = .sending c es m ∧ s'.disconnects = s.disconnects ∧
      s'.answers = s.answers ++ [Answer.mk c es m] ∧ s'.socket = s.socket := by
  cases h
  case disconnects i e c es p q hpc hresume hop =>
    refine .inr (.inl ⟨i, e, c, es, p, q, rfl, hop, hpc, hresume, rfl, rfl, rfl, ?_⟩)
    simp [HandlerPc.command?, HandlerPc.work?]
  case sends i c es m hpc hconn => exact .inr (.inr ⟨i, c, es, m, hpc, rfl, rfl, rfl⟩)
  case reads ha hread => cases hread <;> exact .inl ⟨rfl, rfl⟩
  case closes c hclose => cases hclose <;> exact .inl ⟨rfl, rfl⟩
  all_goals exact .inl ⟨rfl, rfl⟩

/-- A handler gives its command up by answering it, by throwing, or where the transport fails. -/
theorem Step.keeps (h : Step dirsToOverride s a s') {i : Fin n} {c : Command}
    (hi : (s.handler i).command? = some c) :
    (s'.handler i).command? = some c ∨
      (∃ es m, s.handler i = .sending c es m ∧ s'.answers = s.answers ++ [Answer.mk c es m]) ∨
      (∃ es e, s.handler i = .running c es (.throw e)) ∨ ∃ e, a = .send i (some e) := by
  -- a handler moves that had no command, or keeps it
  have hmove : ∀ {t : State n} {j : Fin n} {pc : HandlerPc}, t.handler = s.handler →
      (s.handler j).command? = none ∨ pc.command? = (s.handler j).command? →
      ((t.setHandler j pc).handler i).command? = some c := by
    intro t j pc ht hpc
    rw [State.setHandler_handler, ht]
    split
    · subst i
      rcases hpc with hnone | hsame
      · rw [hnone] at hi
        cases hi
      · rw [hsame]
        exact hi
    · exact hi
  cases h
  case leaves j hpc _ | loops j hpc _ | waitReturns j hpc _ | waitBlocks j hpc _ _ |
      sleeps j hpc | popThrows j e hpc _ | catches j e hpc | notifies j hpc | wakes j hpc |
      pops j _ _ hpc _ _ | notifiesOne j _ hpc =>
    exact .inl (hmove rfl (.inl (by rw [hpc]; rfl)))
  case popLocks j hpc hmx =>
    left
    apply hmove rfl
    left
    rcases hpc with hpc | hpc <;> (rw [hpc]; rfl)
  case performs j e c' es p q world hpc _ _ _ | disconnects j e c' es p q hpc _ _ |
      disconnectNotifies j c' es p hpc | returns j c' es m hpc | writeLocks j c' es m hpc _ =>
    exact .inl (hmove rfl (.inr (by rw [hpc]; rfl)))
  case throws j c' es e hpc =>
    by_cases hij : i = j
    · subst hij
      rw [hpc] at hi
      cases hi
      exact .inr (.inr (.inl ⟨es, e, hpc⟩))
    · left
      rw [State.setHandler_handler, if_neg hij]
      exact hi
  case sends j c' es m hpc hconn =>
    by_cases hij : i = j
    · subst hij
      rw [hpc] at hi
      cases hi
      exact .inr (.inl ⟨es, m, hpc, rfl⟩)
    · left
      rw [State.setHandler_handler, if_neg hij]
      exact hi
  case sendFails j c' es m e hpc =>
    by_cases hij : i = j
    · subst hij
      exact .inr (.inr (.inr ⟨e, rfl⟩))
    · left
      rw [State.setHandler_handler, if_neg hij]
      exact hi
  case reads ha hread => cases hread <;> exact .inl hi
  case closes d hclose =>
    left
    cases hclose
    case returns => exact (HandlerPc.wake_command? _).trans hi
    all_goals exact hi
  all_goals exact .inl hi

theorem State.Acknowledged.of_answers {c : Command} (h : s.Acknowledged c) {rest : List Answer}
    (heq : s'.answers = s.answers ++ rest) : s'.Acknowledged c := by
  obtain ⟨x, hx, hc⟩ := h
  refine ⟨x, ?_, hc⟩
  rw [heq]
  exact List.mem_append_left _ hx

/-- Records of acknowledgement are not lost. -/
theorem Step.acknowledged (h : Step dirsToOverride s a s') {c : Command} (hc : s.Acknowledged c) :
    s'.Acknowledged c := by
  rcases h.records with ⟨-, heq⟩ | ⟨_, _, _, _, _, _, -, -, -, -, -, heq, -⟩ |
    ⟨i, c', es, m, -, -, heq, -⟩
  · exact hc.of_answers (heq.trans (List.append_nil _).symm)
  · exact hc.of_answers (heq.trans (List.append_nil _).symm)
  · exact hc.of_answers heq

/-- While a handler is in a command the socket is connected. -/
theorem Acknowledges.connected_of_command (hs : Acknowledges dirsToOverride s) {i : Fin n}
    {c : Command} (hi : (s.handler i).command? = some c) : s.socket = .connected := by
  refine hs.connected fun d => ?_
  by_contra hd
  rw [hs.entered d hd i] at hi
  cases hi

/-- One step keeps a `Disconnect` with its handler until it is acknowledged. -/
theorem Acknowledges.keeps (hs : Acknowledges dirsToOverride s) (ha : Unhurried s a)
    (h : Step dirsToOverride s a s') {c : Command} (hc : c ∈ s.disconnects) :
    (∃ i, (s'.handler i).command? = some c) ∨ s'.Acknowledged c := by
  rcases hs.pending c hc with ⟨i, hi⟩ | hdone
  · rcases h.keeps hi with hkept | ⟨es, m, hpc, heq⟩ | ⟨es, e, hpc⟩ | ⟨e, rfl⟩
    · exact .inl ⟨i, hkept⟩
    · right
      have hm : (Prog.pure m : WorkerProg Message).Returns fun m => m = acknowledgement c.item :=
        hs.returns hc (i := i) (by rw [hpc]; rfl)
      refine ⟨⟨c, es, m⟩, ?_, rfl, hm⟩
      rw [heq]
      exact List.mem_append_right _ (List.mem_singleton_self _)
    · have hthrow : (Prog.throw e : WorkerProg Message).Returns fun m =>
          m = acknowledgement c.item := hs.returns hc (i := i) (by rw [hpc]; rfl)
      exact hthrow.elim
    · have hnone : some e = none := ha (hs.connected_of_command hi)
      cases hnone
  · exact .inr (h.acknowledged hdone)

/-- A handler that comes to a command has popped it. -/
theorem Step.pops_of_command (h : Step dirsToOverride s a s') {i : Fin n} {c : Command}
    (hi : (s'.handler i).command? = some c) :
    (s.handler i).command? ≠ none ∨
      a = .handler i ∧ s.handler i = .popping ∧ s.queueShutdown = false := by
  -- a handler moves that comes to no command, or keeps its own
  have hmove : ∀ {t : State n} {j : Fin n} {pc : HandlerPc}, t.handler = s.handler →
      pc.command? = none ∨ pc.command? = (s.handler j).command? →
      ((t.setHandler j pc).handler i).command? = some c → (s.handler i).command? ≠ none := by
    intro t j pc ht hpc hafter
    rw [State.setHandler_handler, ht] at hafter
    split at hafter
    case isTrue hij =>
      rw [hij]
      rcases hpc with hnone | hsame
      · rw [hnone] at hafter
        cases hafter
      · rw [← hsame, hafter]
        exact Option.some_ne_none c
    case isFalse =>
      rw [hafter]
      exact Option.some_ne_none c
  have hkeep : s'.handler = s.handler → (s.handler i).command? ≠ none := by
    intro hsame
    rw [← hsame, hi]
    exact Option.some_ne_none c
  cases h
  case pops j c' rest hpc hopen hq =>
    by_cases hij : i = j
    · subst hij
      exact .inr ⟨rfl, hpc, hopen⟩
    · rw [State.setHandler_handler, if_neg hij] at hi
      exact .inl (by rw [hi]; exact Option.some_ne_none c)
  case leaves | loops | popLocks | waitReturns | waitBlocks | sleeps | popThrows | throws | sends |
      sendFails | catches | notifies | wakes | notifiesOne =>
    exact .inl (hmove rfl (.inl rfl) hi)
  case performs j e c' es p q world hpc _ _ _ | disconnects j e c' es p q hpc _ _ |
      disconnectNotifies j c' es p hpc | returns j c' es m hpc | writeLocks j c' es m hpc _ =>
    exact .inl (hmove rfl (.inr (by rw [hpc]; rfl)) hi)
  case reads ha hread => cases hread <;> exact .inl (hkeep rfl)
  case closes d hclose =>
    left
    cases hclose
    case returns =>
      have hwake : (s.handler i).wake.command? = some c := hi
      rw [HandlerPc.wake_command?] at hwake
      rw [hwake]
      exact Option.some_ne_none c
    all_goals exact hkeep rfl
  all_goals exact .inl (hkeep rfl)

/-- Whoever is in `close()` has entered it. -/
theorem Closing.ne_idle {c : Nat} (h : Closing s c s') : s'.closer c ≠ .idle := by
  cases h <;> simp

/-- A call of `close()` that has been entered was so before, or is entered in this step, which
moves no handler. -/
theorem Step.entered (h : Step dirsToOverride s a s') {c : Nat} (hc : s'.closer c ≠ .idle) :
    s.closer c ≠ .idle ∨ a = .closer c ∧ s.closer c = .idle ∧ s'.handler = s.handler := by
  rcases h.outsideClose with ⟨-, hcloser, -⟩ | ⟨d, rfl, hclose⟩
  · rw [hcloser] at hc
    exact .inl hc
  · by_cases hcd : c = d
    · subst hcd
      cases hclose
      case starts hpc => exact .inr ⟨rfl, hpc, rfl⟩
      all_goals exact .inl (by simp [*])
    · left
      cases hclose
      all_goals
        simp only [State.setCloser_closer, if_neg hcd] at hc
        exact hc

theorem Acknowledges.step (hs : Acknowledges dirsToOverride s) (ha : Unhurried s a)
    (h : Step dirsToOverride s a s') : Acknowledges dirsToOverride s' := by
  refine ⟨h.traced hs.traced, ?_, ?_, ?_, ?_⟩
  · intro c hc
    rcases h.records with ⟨hdis, -⟩ | ⟨i, e, c', es, p, q, -, hop, hpc, hresume, hdis, -⟩ |
      ⟨_, _, _, _, -, hdis, -⟩
    · exact hs.type c (hdis ▸ hc)
    · rw [hdis] at hc
      rcases List.mem_append.mp hc with hc | hc
      · exact hs.type c hc
      · obtain rfl := List.mem_singleton.mp hc
        exact ofUint8_of_isDisconnect (hs.traced.isDisconnect hpc hresume hop)
    · exact hs.type c (hdis ▸ hc)
  · intro c hc
    rcases h.records with ⟨hdis, -⟩ | ⟨i, e, c', es, p, q, -, -, -, -, hdis, -, -, hi⟩ |
      ⟨_, _, _, _, -, hdis, -⟩
    · exact hs.keeps ha h (hdis ▸ hc)
    · rw [hdis] at hc
      rcases List.mem_append.mp hc with hc | hc
      · exact hs.keeps ha h hc
      · obtain rfl := List.mem_singleton.mp hc
        exact .inl ⟨i, hi⟩
    · exact hs.keeps ha h (hdis ▸ hc)
  · intro c hc i
    rcases h.entered hc with hbefore | ⟨rfl, hidle, hsame⟩
    · by_contra hsome
      obtain ⟨d, hd⟩ := Option.ne_none_iff_exists'.mp hsome
      rcases h.pops_of_command hd with hcommand | ⟨rfl, hpopping, hopen⟩
      · exact hcommand (hs.entered c hbefore i)
      · exact hbefore (ha hpopping hopen c)
    · rw [hsame]
      exact ha hidle i
  · intro hidle
    rcases h.outsideClose with ⟨hsocket, hcloser, -⟩ | ⟨c, -, hclose⟩
    · rw [hsocket]
      exact hs.connected (fun c => by rw [← hcloser]; exact hidle c)
    · -- whoever is in `close()` has entered it
      exact absurd (hidle c) hclose.ne_idle

/-- **`Disconnect` is acknowledged before the transport goes away** in every run in which nobody
hurries: with any number of handlers, of waiting threads and of calls of `close()`, and whatever
else happens, once the transport is shut down every `Disconnect` that has published the flag has
been answered by its `CommandResult`. -/
theorem acknowledged_of_unhurried (n : Nat) (dirsToOverride : DirsToOverride)
    (as : List (Action n)) (s : State n)
    (hrun : run (step dirsToOverride) (init n) as = some s)
    (hall : AllSteps (step dirsToOverride) Unhurried (init n) as) : s.AcknowledgedInTime := by
  have hs : Acknowledges dirsToOverride s :=
    AllSteps.invariant (fun _ _ _ ha hs h => hs.step ha (step_cases h)) hall acknowledges_init hrun
  intro hshut c hc
  rcases hs.pending c hc with ⟨i, hi⟩ | hdone
  · exact absurd (hs.connected_of_command hi) hshut
  · exact hdone

/-- The owner destroys the worker only after its call of `wait()` has returned. -/
def OwnerWaits (s : State n) : Action n → Prop
  | .closer _ => s.waiter 0 = .returned
  | _         => True

instance (s : State n) : (a : Action n) → Decidable (OwnerWaits s a)
  | .closer _ => inferInstanceAs (Decidable (s.waiter 0 = .returned))
  | .reader | .poll _ | .recv _ | .notifyOne _ | .handler _ | .op _ _ | .send _ _ |
      .wakeHandler _ | .waiter _ | .wakeWaiter _ => inferInstanceAs (Decidable True)

/-- The owner waits, and a `Disconnect` arrives and publishes the flag. -/
def disconnectWakes : List (Action 1) :=
  [.waiter 0, .waiter 0, .reader, .poll .socketReadable,
    .recv (some [0, 0, 0, 5, 0, 0, 0, 0, 0]), .reader, .reader, .notifyOne none, .handler 0,
    .handler 0, .handler 0, .handler 0, .op 0 ⟨.setShouldStop, ()⟩, .handler 0, .waiter 0]

/-- `close()`, up to `::shutdown`. -/
def closeUpToShutdown : List (Action 1) := List.replicate 6 (.closer 0)

/-- The owner is faster than the handler. -/
theorem not_acknowledgedInTime :
    ¬ ∀ (n : Nat) (dirsToOverride : DirsToOverride) (as : List (Action n)) (s : State n),
      run (step dirsToOverride) (init n) as = some s →
      AllSteps (step dirsToOverride) OwnerWaits (init n) as → s.AcknowledgedInTime := by
  intro h
  have hseen : (run (step []) (init 1) (disconnectWakes ++ closeUpToShutdown)).map (fun s =>
      (s.socket, s.disconnects.length, s.answers.length)) = some (.shutDown, 1, 0) := by
    decide +kernel
  obtain ⟨s, hrun, hs⟩ := Option.map_eq_some_iff.mp hseen
  simp only [Prod.mk.injEq] at hs
  obtain ⟨hsocket, hdisconnects, hanswers⟩ := hs
  have hintime := h 1 [] _ s hrun (by decide +kernel)
  obtain ⟨c, hc⟩ := List.exists_mem_of_length_pos (l := s.disconnects) (by omega)
  obtain ⟨x, hx, -⟩ := hintime (by rw [hsocket]; simp) c hc
  rw [List.length_eq_zero_iff.mp hanswers] at hx
  cases hx

/-- The one call of `close()` is entered when the one handler is in no command, and no other is
made. -/
def OwnerLast (s : State 1) : Action 1 → Prop
  | .closer c       => c = 0 ∧ (s.closer 0 = .idle → (s.handler 0).command?.isNone = true)
  | .handler _      => s.closer 0 = .idle
  | .send _ failure => failure = none
  | _               => True

instance (s : State 1) : (a : Action 1) → Decidable (OwnerLast s a)
  | .closer c => inferInstanceAs (Decidable (c = 0 ∧
      (s.closer 0 = .idle → (s.handler 0).command?.isNone = true)))
  | .handler _ => inferInstanceAs (Decidable (s.closer 0 = .idle))
  | .send _ failure => inferInstanceAs (Decidable (failure = none))
  | .reader | .poll _ | .recv _ | .notifyOne _ | .op _ _ | .wakeHandler _ | .waiter _ |
      .wakeWaiter _ => inferInstanceAs (Decidable True)

/-- Nobody but the owner has entered `close()`. -/
def OnlyOwner (s : State 1) : Prop := ∀ c, c ≠ 0 → s.closer c = .idle

theorem OnlyOwner.step {s s' : State 1} {a : Action 1} (ha : OwnerLast s a) (hs : OnlyOwner s)
    (h : Step dirsToOverride s a s') : OnlyOwner s' := by
  intro c hc
  by_contra hentered
  rcases h.entered hentered with hbefore | ⟨rfl, -⟩
  · exact hbefore (hs c hc)
  · exact hc ha.1

theorem unhurried_of_ownerLast {s : State 1} {a : Action 1} (ha : OwnerLast s a)
    (hs : OnlyOwner s) : Unhurried s a := by
  cases a with
  | closer c =>
      obtain ⟨rfl, hnone⟩ := ha
      intro hidle i
      rw [Subsingleton.elim i 0]
      exact Option.isNone_iff_eq_none.mp (hnone hidle)
  | handler i =>
      intro _ _ c
      by_cases hc : c = 0
      · rw [hc]
        exact ha
      · exact hs c hc
  | send i failure => exact fun _ => ha
  | _ => trivial

/-- The handler is faster. -/
theorem acknowledged_of_unhurried_handler :
    ∃ s, run (step []) (init 1) (disconnectWakes ++ [.handler 0, .handler 0, .send 0 none] ++
        closeUpToShutdown) = some s ∧ s.socket = .shutDown ∧ s.disconnects.length = 1 ∧
      s.AcknowledgedInTime := by
  have hseen : (run (step []) (init 1) (disconnectWakes ++ [.handler 0, .handler 0, .send 0 none] ++
      closeUpToShutdown)).map (fun s => (s.socket, s.disconnects.length)) =
        some (.shutDown, 1) := by
    decide +kernel
  have hlast : AllSteps (step []) OwnerLast (init 1)
      (disconnectWakes ++ [.handler 0, .handler 0, .send 0 none] ++ closeUpToShutdown) := by
    decide +kernel
  obtain ⟨s, hrun, hs⟩ := Option.map_eq_some_iff.mp hseen
  obtain ⟨hsocket, hdisconnects⟩ := Prod.mk.inj hs
  have hall : AllSteps (step []) Unhurried (init 1) _ :=
    hlast.of_invariant (I := OnlyOwner) (fun _ _ _ ha hs h => hs.step ha (step_cases h))
      (fun _ _ ha hs => unhurried_of_ownerLast ha hs) fun _ _ => rfl
  exact ⟨s, hrun, hsocket, hdisconnects, acknowledged_of_unhurried 1 [] _ s hrun hall⟩

end Worker

end ZControl
