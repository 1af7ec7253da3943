import ZControl.Commander.Correlation

/-!
# A commander whose calls are not disturbed

While no write or read fails and nobody calls `disconnect()`, the commander stays connected and its
reader in the loop. A call ends with what the answer to its command says, and until then a thread
can take a step, or the call waits for an answer.
-/

namespace ZControl

open Transition

namespace Commander

variable {s s' : State} {a : Action}

/-! ## What a promise is resolved with -/

namespace Session

variable {S : Session} {t : State} {a : Commander.Action}

/-- An answer that was delivered is the result of its call. -/
def Resolved (S : Session) : Prop :=
  ∀ m c, (m, c) ∈ S.deliveries → S.threads.shared c = some (responseOf m)

theorem Resolved.record (hs : S.Resolved) (hi : S.Inv) (h : Commander.Step S.threads a t) :
    (S.record t a).Resolved := by
  intro m c hm
  rw [record_threads]
  rcases deliveries_record hi.threads h with ⟨hsame, -⟩ | ⟨msg, d, -, hshared, hdeliveries⟩
  · rw [hsame] at hm
    exact h.shared_mono (hs m c hm)
  · rw [hdeliveries] at hm
    rcases List.mem_append.mp hm with hm | hm
    · exact h.shared_mono (hs m c hm)
    · obtain ⟨rfl, rfl⟩ := Prod.mk.inj (List.mem_singleton.mp hm)
      rw [hshared, Function.update_self]

theorem Resolved.of_reaches (h : Reaches Session.step Session.init S)
    (hlt : S.commands < 2 ^ 32) : S.Resolved := by
  refine (h.invariant (I := fun S => S.commands < 2 ^ 32 → S.Inv ∧ S.Resolved) ?_ ?_ hlt).2
  · intro S a S' hi hstep hlt'
    have hcases := step_cases hstep
    clear hstep
    cases hcases
    case thread a t ha h =>
      obtain ⟨hi, hs⟩ := hi (lt_of_le_of_lt (commands_record_le S t a) hlt')
      exact ⟨hi.thread h ha hlt', hs.record hi h⟩
    case answer i command type data hget =>
      obtain ⟨hi, hs⟩ := hi hlt'
      exact ⟨hi.answer type data hget, hs⟩
    case deliver msg transit htransit hr =>
      obtain ⟨hi, hs⟩ := hi hlt'
      exact ⟨hi.deliver htransit hr, hs⟩
  · intro _
    refine ⟨.init, ?_⟩
    intro m c hm
    cases hm

end Session

/-! ## Undisturbed calls -/

/-- The write or read does not fail, and no `disconnect()` is called. -/
def Undisturbed : Action → Prop
  | .enter _         => False
  | .build _ type _  => type ≠ CommanderMessageType.disconnect.toUint8
  | .write _ failure => failure = none
  | .read (.error _) => False
  | _                => True

instance : (a : Action) → Decidable (Undisturbed a)
  | .enter _                      => inferInstanceAs (Decidable False)
  | .build _ type _               => inferInstanceAs (Decidable (type ≠ _))
  | .write _ failure              => inferInstanceAs (Decidable (failure = none))
  | .read (.error _)              => inferInstanceAs (Decidable False)
  | .read (.ok _) | .caller _ | .reader => inferInstanceAs (Decidable True)

/-- The reader is in its loop. -/
def ReaderPc.looping : ReaderPc → Prop
  | .testing | .reading | .received _ | .locked _ | .taken _ _ | .resolved _ | .erased => True
  | _ => False

/-- Connected, with nothing in the way of a call but its answer. -/
structure Steady (s : State) : Prop where
  connected : s.connected = true
  looping : s.reader.looping
  owner : ∀ o, s.promisesMx = some o → s.inside o
  types : ∀ c msg, (s.pc c).command = some msg →
    msg.type ≠ CommanderMessageType.disconnect.toUint8
  threw : ∀ c msg e, s.pc c = .threw msg e → s.shared c = some (.error e)
  cleared : ∀ c msg, s.pc c ≠ .cleared msg

theorem steady_init : Steady init where
  connected := rfl
  looping := trivial
  owner := by intro o ho; cases ho
  types := by intro c msg hc; cases hc
  threw := by intro c msg e hc; cases hc
  cleared := by intro c msg hc; cases hc

theorem Steady.connected_step (hs : Steady s) (h : Step s a s') (hok : Undisturbed a)
    (hcatch : ∀ e, s'.reader ≠ .catching e) : s'.connected = true ∧ s'.reader.looping := by
  obtain ⟨hconn, hlooping, -, htypes, -, -⟩ := hs
  cases h <;> grind [ReaderPc.looping, Undisturbed, CallPc.command]

theorem Steady.calls_step (hs : Steady s) (h : Step s a s') (hok : Undisturbed a) :
    (∀ c msg, (s'.pc c).command = some msg →
      msg.type ≠ CommanderMessageType.disconnect.toUint8) ∧
    (∀ c msg e, s'.pc c = .threw msg e → s'.shared c = some (.error e)) ∧
    ∀ c msg, s'.pc c ≠ .cleared msg := by
  have hshared : ∀ c msg e, s.pc c = .threw msg e → s'.shared c = some (.error e) := by
    intro c msg e hpc
    exact h.shared_mono (hs.threw c msg e hpc)
  obtain ⟨hconn, -, -, htypes, -, hcleared⟩ := hs
  refine ⟨?_, ?_, ?_⟩
  · cases h <;> grind [CallPc.command, Undisturbed]
  · cases h <;> grind [Undisturbed]
  · cases h <;> grind [CallPc.command, Undisturbed]

theorem Steady.step (hs : Steady s) (hl : s.Locks) (h : Step s a s') (hok : Undisturbed a)
    (hcatch : ∀ e, s'.reader ≠ .catching e) : Steady s' := by
  obtain ⟨hconn, hlooping⟩ := hs.connected_step h hok hcatch
  obtain ⟨htypes, hthrew, hcleared⟩ := hs.calls_step h hok
  exact ⟨hconn, hlooping, hl.owner_step hs.owner h, htypes, hthrew, hcleared⟩

/-! ## Who can move -/

/-- A step of the commander's threads that needs nothing from outside but that the write goes
well. -/
def Internal : Action → Prop
  | .caller _ | .reader => True
  | .write _ failure    => failure = none
  | _                   => False

/-- Some thread can take a step of its own. -/
def State.CanMove (s : State) : Prop := ∃ a, Internal a ∧ (step s a).isSome = true

theorem canMove_caller {c : CallId} (h : (s.stepCaller c).isSome = true) : s.CanMove :=
  ⟨.caller c, trivial, h⟩

theorem canMove_reader (h : s.stepReader.isSome = true) : s.CanMove := ⟨.reader, trivial, h⟩

/-- Inside `_promises_mx` nothing is waited for. -/
theorem Steady.canMove_of_inside (hs : Steady s) {o : Owner} (hin : s.inside o) : s.CanMove := by
  cases o with
  | caller c =>
      have hin : (s.pc c).inside := hin
      cases hpc : s.pc c with
      | holding msg => exact canMove_caller (c := c) (by simp [State.stepCaller, hpc, hs.connected])
      | tested msg => exact canMove_caller (c := c) (by simp [State.stepCaller, hpc])
      | registered msg => exact canMove_caller (c := c) (by simp [State.stepCaller, hpc])
      | _ =>
          rw [hpc] at hin
          cases hin
  | reader =>
      have hin : s.reader.inside := hin
      have hlooping := hs.looping
      cases hr : s.reader with
      | locked msg =>
          refine canMove_reader ?_
          simp only [State.stepReader, hr]
          split <;> rfl
      | taken msg p =>
          refine canMove_reader ?_
          simp only [State.stepReader, hr]
          split <;> rfl
      | resolved msg => exact canMove_reader (by simp [State.stepReader, hr])
      | erased => exact canMove_reader (by simp [State.stepReader, hr])
      | sweeping e ks =>
          rw [hr] at hlooping
          cases hlooping
      | _ =>
          rw [hr] at hin
          cases hin

/-- So nobody waits for it in vain. -/
theorem Steady.canMove_of_owned (hs : Steady s) {o : Owner} (howner : s.promisesMx = some o) :
    s.CanMove :=
  hs.canMove_of_inside (hs.owner o howner)

/-- The reader can move, or another thread can, unless it is in `read`. -/
theorem Steady.canMove_of_reader (hs : Steady s) : s.CanMove ∨ s.reader = .reading := by
  have hlooping := hs.looping
  cases hr : s.reader with
  | reading => exact .inr rfl
  | testing => exact .inl (canMove_reader (by simp [State.stepReader, hr]))
  | received msg =>
      cases hmx : s.promisesMx with
      | none => exact .inl (canMove_reader (by simp [State.stepReader, hr, hmx]))
      | some o => exact .inl (hs.canMove_of_owned hmx)
  | locked msg | taken msg p | resolved msg | erased =>
      exact .inl (hs.canMove_of_inside (o := .reader) (by rw [State.inside, hr]; trivial))
  | _ =>
      rw [hr] at hlooping
      cases hlooping

/-- A call that has built its command can move, or another thread can, unless it waits for the
answer or has ended. -/
theorem Steady.canMove_of_call (hs : Steady s) {c : CallId} {msg : Message}
    (hc : (s.pc c).command = some msg) :
    s.CanMove ∨ (s.pc c = .waiting msg ∧ s.shared c = none) ∨
      (∃ m, s.pc c = .returned msg m) ∨ ∃ e, s.pc c = .threw msg e := by
  cases hpc : s.pc c with
  | built m =>
      left
      cases hmx : s.promisesMx with
      | none => exact canMove_caller (c := c) (by simp [State.stepCaller, hpc, hmx])
      | some o => exact hs.canMove_of_owned hmx
  | holding m =>
      exact .inl (canMove_caller (c := c) (by simp [State.stepCaller, hpc, hs.connected]))
  | tested m => exact .inl (canMove_caller (c := c) (by simp [State.stepCaller, hpc]))
  | registered m => exact .inl (canMove_caller (c := c) (by simp [State.stepCaller, hpc]))
  | writing m => exact .inl ⟨.write c none, rfl, by simp [Commander.step, hpc]⟩
  | waiting m =>
      rw [hpc] at hc
      obtain rfl : m = msg := Option.some.inj hc
      cases hshared : s.shared c with
      | none => exact .inr (.inl ⟨rfl, rfl⟩)
      | some r =>
          left
          refine canMove_caller (c := c) ?_
          simp only [State.stepCaller, hpc, hshared]
          cases r <;> rfl
  | returned m r =>
      rw [hpc] at hc
      obtain rfl : m = msg := Option.some.inj hc
      exact .inr (.inr (.inl ⟨r, rfl⟩))
  | threw m e =>
      rw [hpc] at hc
      obtain rfl : m = msg := Option.some.inj hc
      exact .inr (.inr (.inr ⟨e, rfl⟩))
  | cleared m => exact absurd hpc (hs.cleared c m)
  | idle | entered | skipped =>
      rw [hpc] at hc
      cases hc

end Commander

end ZControl
