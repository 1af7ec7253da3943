import ZControl.Commander.Invariant

/-!
# When the reader stops

What becomes of the calls in flight when the connection breaks or `disconnect()` is called. The
transport is arbitrary: a write may fail, and a read may bring any message or any exception, so
any bytes a worker may send are covered.
-/

namespace ZControl

namespace Commander

variable {s s' : State} {a : Action}

/-! ## Promises are resolved once -/

/-- A result that is there stays: `abandon` and `setResult` only touch unresolved promises. -/
theorem Step.shared_mono (h : Step s a s') {c : CallId} {r : Except Fault Message}
    (hr : s.shared c = some r) : s'.shared c = some r := by
  cases h
  case register c' msg hpc => simp [abandon_apply, hr]
  case resolve msg c' hreader hnone =>
    have hne : c ≠ c' := fun he => by simp [he, hnone] at hr
    simpa [hne] using hr
  case sweep e k ks c' hreader hat hnone =>
    have hne : c ≠ c' := fun he => by simp [he, hnone] at hr
    simpa [hne] using hr
  all_goals exact hr

theorem Step.shared_ne_none (h : Step s a s') {c : CallId} (hr : s.shared c ≠ none) :
    s'.shared c ≠ none := by
  obtain ⟨r, hr⟩ := Option.ne_none_iff_exists'.mp hr
  simp [h.shared_mono hr]

theorem Step.connected_false (h : Step s a s') (hconn : s.connected = false) :
    s'.connected = false := by
  cases h <;> first | exact hconn | rfl

/-- The steps with which call `c` issues a command and comes to wait in `future.get()`. -/
def issue (c : CallId) (type : CommanderMessageType) (data : Bytes) : List Action :=
  [.build c type.toUint8 data, .caller c, .caller c, .caller c, .caller c, .write c none]

/-- The steps with which the reader takes up an answer and returns to its test. -/
def receive (msg : Message) : List Action :=
  [.reader, .read (.ok msg), .reader, .reader, .reader, .reader, .reader]

/-! ## After the handler -/

/-- The handler has finished and resolved every promise of the map `m`; the calls `waiters` were
registered by then. -/
structure Broadcast (m : AList (fun _ : UInt32 => Promise)) (waiters : CallId → Prop)
    (s : State) : Prop where
  inv : Inv s
  reader : s.reader = .testing ∨ s.reader = .left
  swept : s.Swept
  responsesPromises : s.responsesPromises = m
  pending : ∀ c, (s.pc c).pending ≠ none → waiters c

theorem Broadcast.step {m : AList (fun _ : UInt32 => Promise)} {waiters : CallId → Prop}
    (hb : Broadcast m waiters s) (h : Step s a s') : Broadcast m waiters s' := by
  obtain ⟨hinv, hreader, hswept, hmap, hpending⟩ := hb
  have ⟨hconn, hclosed, _⟩ := hswept
  refine ⟨hinv.step h, ?_, Inv.swept_step hswept h hreader, ?_, fun c hc => ?_⟩
  · cases h <;> grind
  · cases h
    case register c msg hpc => exact absurd (by simp [hpc, CallPc.passed]) (hclosed c)
    all_goals grind
  · refine hpending c ?_
    cases h <;> grind [CallPc.pending, CallPc.passed]

/-- The last step of the handler. -/
theorem Broadcast.start (hi : Inv s) {e : Fault} (hr : s.reader = .sweeping e [])
    (h : Step s .reader s') :
    Broadcast s'.responsesPromises (fun c => (s'.pc c).pending ≠ none) s' := by
  have hs := hi.entries.sweeping e [] hr
  obtain ⟨k, ks, hks, -⟩ | ⟨-, hr', hs'⟩ := hi.sweeping_step hs h hr
  · cases hks
  · exact ⟨hi.step h, .inl hr', hs', rfl, fun _ hc => hc⟩

theorem Broadcast.of_reaches {m : AList (fun _ : UInt32 => Promise)} {waiters : CallId → Prop}
    (hb : Broadcast m waiters s) (h : Transition.Reaches Commander.step s s') :
    Broadcast m waiters s' :=
  h.invariant (fun _ _ _ hb hstep => hb.step (step_cases hstep)) hb

/-- Whoever still waits has its result. -/
theorem Broadcast.waiting {m : AList (fun _ : UInt32 => Promise)} {waiters : CallId → Prop}
    (hb : Broadcast m waiters s) {c : CallId} {msg : Message} (hpc : s.pc c = .waiting msg) :
    s.shared c ≠ none := by
  intro hnone
  obtain hat | ⟨msg', -, hr⟩ :=
    hb.inv.belongs.pending c msg.id (by simp [hpc, CallPc.pending]) hnone
  · obtain ⟨c', hc', hsome⟩ := hb.swept.resolved _ _ hat
    cases hc'
    exact hsome hnone
  · obtain hr' | hr' := hb.reader <;> rw [hr'] at hr <;> cases hr

/-! ### A later call -/

/-- The call has not come further than the test of `_connected`, where it throws. -/
def CallPc.refused (msg : Message) : CallPc → Prop
  | .built m | .holding m => m = msg
  | .threw m e => m = msg ∧ e = disconnected
  | .cleared m => m = msg
  | _ => False

theorem Broadcast.refused_step {m : AList (fun _ : UInt32 => Promise)} {waiters : CallId → Prop}
    (hb : Broadcast m waiters s) (h : Step s a s') {c : CallId} {msg : Message}
    (hpc : (s.pc c).refused msg) : (s'.pc c).refused msg := by
  have hconn := hb.swept.disconnected
  cases h <;> grind [CallPc.refused]

theorem Broadcast.refused {m : AList (fun _ : UInt32 => Promise)} {waiters : CallId → Prop}
    (hb : Broadcast m waiters s) (h : Transition.Reaches Commander.step s s') {c : CallId}
    {msg : Message} (hpc : (s.pc c).refused msg) : (s'.pc c).refused msg := by
  refine (h.invariant (I := fun s => Broadcast m waiters s ∧ (s.pc c).refused msg) ?_
    ⟨hb, hpc⟩).2
  rintro t a t' ⟨hb, hpc⟩ hstep
  exact ⟨hb.step (step_cases hstep), hb.refused_step (step_cases hstep) hpc⟩

/-- With the mutex in its hands the call throws in its next step. -/
theorem Broadcast.refuse {m : AList (fun _ : UInt32 => Promise)} {waiters : CallId → Prop}
    (hb : Broadcast m waiters s) {c : CallId} {msg : Message} (hpc : s.pc c = .holding msg) :
    Commander.step s (.caller c) =
      some ({ s with promisesMx := none }.setPc c (.threw msg disconnected)) := by
  simp [Commander.step, State.stepCaller, hpc, hb.swept.disconnected]

/-- The mutex is free, or in the hands of a call that is about to throw. -/
theorem Broadcast.promisesMx {m : AList (fun _ : UInt32 => Promise)} {waiters : CallId → Prop}
    (hb : Broadcast m waiters s) (hheld : ∀ o, s.promisesMx = some o → s.inside o) :
    s.promisesMx = none ∨ ∃ c msg, s.promisesMx = some (.caller c) ∧ s.pc c = .holding msg := by
  cases hmx : s.promisesMx with
  | none => exact .inl rfl
  | some o =>
      have hin := hheld o hmx
      cases o with
      | caller c =>
          have hin : (s.pc c).inside := hin
          have hclosed := hb.swept.closed c
          cases hpc : s.pc c with
          | holding msg => exact .inr ⟨c, msg, rfl, hpc⟩
          | tested msg => exact absurd (by simp [hpc, CallPc.passed]) hclosed
          | registered msg => exact absurd (by simp [hpc, CallPc.passed]) hclosed
          | _ =>
              rw [hpc] at hin
              cases hin
      | reader =>
          have hin : s.reader.inside := hin
          obtain hr | hr := hb.reader <;> rw [hr] at hin <;> cases hin

/-- Where the mutex is free, a call that is about to take it throws in two steps. -/
theorem Broadcast.throws_of_free {m : AList (fun _ : UInt32 => Promise)} {waiters : CallId → Prop}
    (hb : Broadcast m waiters s) {c : CallId} {msg : Message} (hpc : s.pc c = .built msg)
    (hfree : s.promisesMx = none) :
    ∃ s', Transition.Reaches Commander.step s s' ∧ s'.pc c = .threw msg disconnected := by
  have hlock : Commander.step s (.caller c) =
      some ({ s with promisesMx := some (.caller c) }.setPc c (.holding msg)) := by
    simp [Commander.step, State.stepCaller, hpc, hfree]
  have hb' := hb.step (step_cases hlock)
  have hholding : ({ s with promisesMx := some (.caller c) }.setPc c (.holding msg)).pc c =
      .holding msg := by simp
  exact ⟨_, .head hlock (.head (hb'.refuse hholding) (.refl _)), by simp⟩

/-- The call comes to its exception, after the call that has the mutex if there is one. -/
theorem Broadcast.throws {m : AList (fun _ : UInt32 => Promise)} {waiters : CallId → Prop}
    (hb : Broadcast m waiters s) (hheld : ∀ o, s.promisesMx = some o → s.inside o) {c : CallId}
    {msg : Message} (hpc : s.pc c = .built msg) :
    ∃ s', Transition.Reaches Commander.step s s' ∧ s'.pc c = .threw msg disconnected := by
  obtain hfree | ⟨d, msg', hmx, hd⟩ := hb.promisesMx hheld
  · exact hb.throws_of_free hpc hfree
  · have hcd : c ≠ d := by
      intro hcd
      rw [hcd, hd] at hpc
      cases hpc
    have hrelease := hb.refuse hd
    have hb' := hb.step (step_cases hrelease)
    have hbuilt : ({ s with promisesMx := none }.setPc d (.threw msg' disconnected)).pc c =
        .built msg := by simp [hcd, hpc]
    obtain ⟨s', hreach, hthrew⟩ := hb'.throws_of_free hbuilt rfl
    exact ⟨s', .head hrelease hreach, hthrew⟩

/-- **Failure broadcast.** In every reachable state the promise that is about to be resolved has
an unresolved shared state, results are never replaced, and no exception leaves the handler. Once
the handler has finished, every promise of the map stays resolved, the map stays as it is, and
only calls registered before are waiting, with their results there. The mutex is free or with a
call that throws in its next step, and a call that comes to it later throws and does nothing
else. -/
theorem failure_broadcast (h : Transition.Reaches step init s) :
    (∀ msg p, s.reader = .taken msg p → ∃ c, p = some c ∧ s.shared c = none) ∧
    (∀ e k ks, s.reader = .sweeping e (k :: ks) →
      ∃ c, s.responsesPromises.lookup k = some (some c) ∧ s.shared c = none) ∧
    (∀ a s' c r, step s a = some s' → s.shared c = some r → s'.shared c = some r) ∧
    s.reader ≠ .terminated ∧
    ∀ e done s', s.reader = .sweeping e [] → step s .reader = some done →
      Transition.Reaches step done s' →
      (∀ id p, s'.responsesPromises.lookup id = some p → ∃ c, p = some c ∧ s'.shared c ≠ none) ∧
      s'.responsesPromises = done.responsesPromises ∧
      (∀ c msg, s'.pc c = .waiting msg → (done.pc c).pending ≠ none ∧ s'.shared c ≠ none) ∧
      (∀ c msg, s'.pc c = .holding msg →
        step s' (.caller c) =
          some ({ s' with promisesMx := none }.setPc c (.threw msg disconnected))) ∧
      (s'.promisesMx = none ∨
        ∃ c msg, s'.promisesMx = some (.caller c) ∧ s'.pc c = .holding msg) ∧
      ∀ c msg, s'.pc c = .built msg →
        (∃ s'', Transition.Reaches step s' s'' ∧ s''.pc c = .threw msg disconnected) ∧
        ∀ s'', Transition.Reaches step s' s'' → (s''.pc c).refused msg := by
  have hi := Inv.of_reaches h
  refine ⟨fun msg p hr => ?_, fun e k ks hr => ?_, fun a s' c r hstep => ?_,
    hi.entries.notTerminated, fun e done s' hr hdone hreach => ?_⟩
  · obtain ⟨c, hp, hnone, -⟩ := hi.belongs.taken msg p hr
    exact ⟨c, hp, hnone⟩
  · exact (hi.entries.sweeping e _ hr).ahead k List.mem_cons_self
  · exact (step_cases hstep).shared_mono
  · have hb := (Broadcast.start hi hr (step_cases hdone)).of_reaches hreach
    have hheld := Inv.inside_of_reaches (h.trans (.head hdone hreach))
    refine ⟨hb.swept.resolved, hb.responsesPromises, fun c msg hpc => ⟨?_, hb.waiting hpc⟩,
      fun c msg => hb.refuse, hb.promisesMx hheld, fun c msg hpc => ⟨hb.throws hheld hpc, ?_⟩⟩
    · exact hb.pending c (by simp [hpc, CallPc.pending])
    · intro s'' hreach'
      exact hb.refused hreach' (by simp [hpc, CallPc.refused])

/-- The stream ends under a waiting call: the sweep has resolved it, it stays resolved, and a call
made afterwards throws. -/
theorem failure_broadcast_closed :
    ∃ s done later, Transition.run step init
        (issue 0 .getAttr [] ++
          [.reader, .read (.error transportClosed), .reader, .reader, .reader]) = some s ∧
      s.reader = .sweeping transportClosed [] ∧ step s .reader = some done ∧
      done.pc 0 = .waiting ⟨0, CommanderMessageType.getAttr.toUint8, []⟩ ∧
      step done (.build 1 CommanderMessageType.unlink.toUint8 []) = some later ∧
      s.reader ≠ .terminated ∧ later.shared 0 ≠ none ∧
      ∃ s', Transition.Reaches step later s' ∧
        s'.pc 1 = .threw ⟨1, CommanderMessageType.unlink.toUint8, []⟩ disconnected :=
  have h := failure_broadcast ⟨issue 0 .getAttr [] ++
    [.reader, .read (.error transportClosed), .reader, .reader, .reader], rfl⟩
  have hlater := h.2.2.2.2 _ _ _ rfl rfl
    (.head (a := .build 1 CommanderMessageType.unlink.toUint8 []) rfl (.refl _))
  ⟨_, _, _, rfl, rfl, rfl, rfl, rfl, h.2.2.2.1, (hlater.2.2.1 0 _ rfl).2,
    (hlater.2.2.2.2.2 1 _ rfl).1⟩

/-! ## Leaving without the handler -/

/-- `disconnect()` is about to store `_connected = false` over a flag that is still set. -/
def State.clears (s : State) : Action → Bool
  | .caller c =>
      match s.pc c with
      | .returned msg _ | .threw msg _ =>
          msg.type == CommanderMessageType.disconnect.toUint8 && s.connected
      | _ => false
  | _ => false

/-- `disconnect()` clears a set `_connected` only while no other call is between its test of the
flag and its registration, or has its promise in the map and has not come back. -/
def ClearsAlone (s : State) (a : Action) : Prop :=
  s.clears a = true → ∀ c, (∀ msg, s.pc c ≠ .tested msg) ∧
    ∀ id, (s.pc c).pending = some id → s.responsesPromises.lookup id ≠ some (some c)

/-- The promise of the call is resolved, or out of the map and in the hands of the reader, which
is about to resolve it. -/
def State.Cared (s : State) (c : CallId) : Prop :=
  s.shared c ≠ none ∨ ∃ msg, s.reader = .taken msg (some c)

/-- The handler has cleared the flag and not finished its sweep. -/
def ReaderPc.sweepAhead : ReaderPc → Prop
  | .flagged _ | .sweeping _ _ => True
  | _ => False

/-- Nobody is left behind: while the flag is down and no sweep is ahead, nothing more is
registered and what was registered is resolved. -/
structure NoOrphan (s : State) : Prop where
  disconnected : s.reader = .left → s.connected = false
  settled : s.connected = false → ¬ s.reader.sweepAhead → ∀ c,
    (∀ msg, s.pc c ≠ .tested msg) ∧ ((s.pc c).pending ≠ none → s.Cared c)

/-- When the sweep is over, everything is resolved. -/
theorem settled_of_swept (hi : Inv s) (hs : s.Swept) (c : CallId) :
    (∀ msg, s.pc c ≠ .tested msg) ∧ ((s.pc c).pending ≠ none → s.Cared c) := by
  refine ⟨fun msg hpc => hs.closed c (by simp [hpc, CallPc.passed]), fun hpending => ?_⟩
  obtain ⟨id, hid⟩ := Option.ne_none_iff_exists'.mp hpending
  by_cases hnone : s.shared c = none
  · obtain hat | ⟨msg, -, hr⟩ := hi.belongs.pending c id hid hnone
    · obtain ⟨c', hc', hsome⟩ := hs.resolved _ _ hat
      cases hc'
      exact .inl hsome
    · exact .inr ⟨msg, hr⟩
  · exact .inl hnone

/-- The handler is left through the end of its sweep only. -/
theorem settled_of_sweepAhead (hi : Inv s) (h : Step s a s') (hr : s.reader.sweepAhead)
    (hr' : ¬ s'.reader.sweepAhead) (c : CallId) :
    (∀ msg, s'.pc c ≠ .tested msg) ∧ ((s'.pc c).pending ≠ none → s'.Cared c) := by
  refine settled_of_swept (hi.step h) ?_ c
  by_cases hsweeping : ∃ e ks, s.reader = .sweeping e ks
  · obtain ⟨e, ks, hsr⟩ := hsweeping
    have hs := hi.entries.sweeping e ks hsr
    by_cases ha : a = .reader
    · subst ha
      obtain ⟨k, ks', -, hsr', -⟩ | ⟨-, -, hs'⟩ := hi.sweeping_step hs h hsr
      · exact absurd (by simp [hsr', ReaderPc.sweepAhead]) hr'
      · exact hs'
    · have hsame := (hi.sweeping_frame hs h hsr ha).1
      rw [hsame] at hr'
      exact absurd hr hr'
  · -- from its clearing of the flag the handler goes on to the sweep
    refine absurd ?_ hr'
    cases h <;> grind [ReaderPc.sweepAhead]

/-- What `disconnect()` leaves behind when it clears the flag alone. -/
theorem settled_of_clears (hi : Inv s) (hC : ClearsAlone s a) (hclears : s.clears a = true)
    (c : CallId) :
    (∀ msg, s.pc c ≠ .tested msg) ∧ ((s.pc c).pending ≠ none → s.Cared c) := by
  obtain ⟨hnotTested, hnotEntry⟩ := hC hclears c
  refine ⟨hnotTested, fun hpending => ?_⟩
  obtain ⟨id, hid⟩ := Option.ne_none_iff_exists'.mp hpending
  by_cases hnone : s.shared c = none
  · obtain hat | ⟨msg, -, hr⟩ := hi.belongs.pending c id hid hnone
    · exact absurd hat (hnotEntry id hid)
    · exact .inr ⟨msg, hr⟩
  · exact .inl hnone

/-- What is settled stays so: with the flag down nobody passes the test, and the reader lets go of
a promise only by resolving it. -/
theorem settled_step (hi : Inv s) (h : Step s a s') (hr : ¬ s.reader.sweepAhead) {c : CallId}
    (hsettled : (∀ msg, s.pc c ≠ .tested msg) ∧ ((s.pc c).pending ≠ none → s.Cared c))
    (hconn : s.connected = false) :
    (∀ msg, s'.pc c ≠ .tested msg) ∧ ((s'.pc c).pending ≠ none → s'.Cared c) := by
  obtain ⟨hnotTested, hcared⟩ := hsettled
  have hshared := h.shared_ne_none (c := c)
  constructor
  · cases h <;> grind
  · cases h
    case resolve msg d hr hnone =>
      intro hpending
      obtain hsome | ⟨msg', hr'⟩ := hcared hpending
      · exact .inl (hshared hsome)
      · rw [hr] at hr'
        cases hr'
        exact .inl (by simp)
    case resolveFails msg p e hr hset =>
      obtain ⟨d, rfl, hnone, -⟩ := hi.belongs.taken msg p hr
      rw [setResult_unresolved hnone] at hset
      cases hset
    all_goals grind [State.Cared, CallPc.pending, ReaderPc.sweepAhead]

theorem NoOrphan.keep (hi : Inv s) (hn : NoOrphan s) (hC : ClearsAlone s a) (h : Step s a s') :
    NoOrphan s' := by
  constructor
  · have hleft := hn.disconnected
    cases h <;> grind
  · intro hconn' hr' c
    by_cases hr : s.reader.sweepAhead
    · exact settled_of_sweepAhead hi h hr hr' c
    · by_cases hconn : s.connected = false
      · exact settled_step hi h hr (hn.settled hconn hr c) hconn
      · -- the flag has been cleared by this step, and not by the handler
        have hset : s.connected = true := by simpa using hconn
        cases h
        case clear d msg hpc htype =>
          have hclears : s.clears (.caller d) = true := by
            obtain ⟨m, hd⟩ | ⟨e, hd⟩ := hpc <;> simp [State.clears, hd, htype, hset]
          obtain ⟨hnotTested, hcared⟩ := settled_of_clears hi hC hclears c
          rw [State.setPc_pc]
          split
          · refine ⟨fun msg htested => ?_, fun hpending => absurd rfl hpending⟩
            cases htested
          · exact ⟨hnotTested, hcared⟩
        case flag e hr => exact absurd trivial hr'
        all_goals grind

/-- **No orphaned caller**, in the runs in which `disconnect()` clears the flag alone: the handler
resolves everything, and without it nothing is left to resolve. -/
theorem no_orphaned_caller {as : List Action} (hC : Transition.AllSteps step ClearsAlone init as)
    (h : Transition.run step init as = some s) (hr : s.reader = .left) {c : CallId} {msg : Message}
    (hpc : s.pc c = .waiting msg) : s.shared c ≠ none := by
  have hinit : Inv init ∧ NoOrphan init := by
    refine ⟨Inv.init, ?_, ?_⟩
    · intro hr
      cases hr
    · intro hconn
      cases hconn
  have hn : Inv s ∧ NoOrphan s := by
    refine hC.invariant (I := fun s => Inv s ∧ NoOrphan s) ?_ hinit h
    intro t a t' hC ht hstep
    exact ⟨ht.1.step (step_cases hstep), ht.2.keep ht.1 hC (step_cases hstep)⟩
  have hleft : ¬ s.reader.sweepAhead := by
    rw [hr]
    exact id
  obtain hsome | ⟨msg', hr'⟩ :=
    (hn.2.settled (hn.2.disconnected hr) hleft c).2 (by simp [hpc, CallPc.pending])
  · exact hsome
  · rw [hr] at hr'
    cases hr'

/-- Call 0 has been answered and has not come back yet when `disconnect()` clears the flag: the
condition holds and the reader leaves. -/
theorem no_orphaned_caller_answered :
    ∃ s, Transition.run step init
        (issue 0 .getAttr [] ++ receive ⟨0, WorkerMessageType.commandResult.toUint8, []⟩ ++
          .enter 1 :: issue 1 .disconnect [] ++
          receive ⟨1, WorkerMessageType.commandResult.toUint8, []⟩ ++ [.caller 1] ++
          [.caller 1] ++ [.reader]) = some s ∧
      s.reader = .left ∧ s.pc 0 = .waiting ⟨0, CommanderMessageType.getAttr.toUint8, []⟩ ∧
      s.shared 0 ≠ none := by
  have hbefore : Transition.AllSteps step (fun s a => s.clears a = false) init
      (issue 0 .getAttr [] ++ receive ⟨0, WorkerMessageType.commandResult.toUint8, []⟩ ++
          .enter 1 :: issue 1 .disconnect [] ++
          receive ⟨1, WorkerMessageType.commandResult.toUint8, []⟩ ++ [.caller 1]) := by decide
  have hclear := Transition.AllSteps.snoc (C := ClearsAlone) (a := .caller 1) ?_
    (hbefore.mono ?_) rfl
  · have hall := Transition.AllSteps.snoc (C := ClearsAlone) (a := .reader) ?_ hclear rfl
    · exact ⟨_, rfl, rfl, rfl, no_orphaned_caller hall rfl rfl rfl⟩
    · intro hc
      cases hc
  · intro hclears c
    by_cases hc0 : c = 0
    · subst hc0
      constructor
      · intro msg hmsg
        cases hmsg
      · intro id hid hlookup
        cases hid
        cases hlookup
    · by_cases hc1 : c = 1
      · subst hc1
        constructor
        · intro msg hmsg
          cases hmsg
        · intro id hid
          cases hid
      · constructor
        · intro msg hmsg
          simp [hc0, hc1, init] at hmsg
        · intro id hid
          simp [hc0, hc1, init, CallPc.pending] at hid
  · intro s a hC hclears
    rw [hC] at hclears
    cases hclears

/-- Call 1 is a `disconnect()`: its answer comes before that of call 0, it clears `_connected`,
and the reader leaves. -/
theorem not_no_orphaned_caller :
    ∃ s, Transition.run step init
        (issue 0 .getAttr [] ++ .enter 1 :: issue 1 .disconnect [] ++
          receive ⟨1, WorkerMessageType.commandResult.toUint8, []⟩ ++
          [.caller 1, .caller 1, .reader]) = some s ∧
      s.reader = .left ∧ s.pc 0 = .waiting ⟨0, CommanderMessageType.getAttr.toUint8, []⟩ ∧
      s.responsesPromises.lookup 0 = some (some 0) ∧ s.shared 0 = none :=
  ⟨_, rfl, rfl, rfl, rfl, rfl⟩

end Commander
end ZControl
