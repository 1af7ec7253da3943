import ZControl.Commander.Disconnection

/-!
# The map of the pending calls

Which entries `_responses_promises` has while the commander is connected. A call puts its entry in
before it writes, and the reader takes it out with the answer. If the write throws, nobody takes
it out.
-/

namespace ZControl

open Transition

namespace Commander

variable {s s' : State} {a : Action}

/-- The call has registered under this id, and it has neither ended nor been answered. -/
def State.Outstanding (s : State) (c : CallId) (id : UInt32) : Prop :=
  (s.pc c).pending = some id ∧ s.shared c = none

/-- The id of an answer that the reader has stored, and whose entry it erases before it releases
the mutex. -/
def ReaderPc.erasing : ReaderPc → Option UInt32
  | .resolved msg => some msg.id
  | _             => none

/-- The map has an entry for each pending call and no other. -/
structure PendingMap (s : State) : Prop where
  keys : ∀ id, id ∈ s.responsesPromises ↔
    (∃ c, s.Outstanding c id) ∨ s.reader.erasing = some id
  ended : ∀ c id, (s.pc c).pending = none → s.responsesPromises.lookup id ≠ some (some c)

/-- A write throws only after the call has been answered, or the connection found lost. -/
def KeepsNoEntry (s : State) : Action → Prop
  | .write c (some _) => (s.shared c).isSome = true ∨ s.connected = false
  | _                 => True

instance (s : State) : ∀ a, Decidable (KeepsNoEntry s a)
  | .write c (some _) =>
      inferInstanceAs (Decidable ((s.shared c).isSome = true ∨ s.connected = false))
  | .write _ none | .enter _ | .build _ _ _ | .caller _ | .read _ | .reader => isTrue trivial

/-- While it is connected, a call that was registered and not answered has not ended. -/
def Unended (s : State) : Prop :=
  s.connected = true → ∀ c id, (s.pc c).sentId = some id → s.shared c = none →
    (s.pc c).pending = some id

theorem Unended.step (hs : Unended s) (hkeep : KeepsNoEntry s a) (h : Step s a s') :
    Unended s' := by
  intro hconn c id hsent hnone
  have hconnected : s.connected = true := by
    by_contra hlost
    rw [h.connected_false (Bool.eq_false_iff.mpr hlost)] at hconn
    cases hconn
  have hold := hs hconnected c id
  have hbefore : s.shared c = none := by
    by_contra hsome
    exact h.shared_ne_none hsome hnone
  cases h <;> grind [CallPc.sentId, CallPc.pending, KeepsNoEntry]

theorem unended_init : Unended init := by
  intro _ c id hsent
  cases hsent

/-- While it is connected, every entry is unresolved. -/
theorem Inv.unresolved (hi : Inv s) (hconn : s.connected = true) : s.Unresolved := by
  have hlost : ∀ {P : Prop}, s.connected = false → P := by
    intro P hfalse
    rw [hfalse] at hconn
    cases hconn
  have hin : s.reader.live → s.Unresolved := hi.entries.live
  cases hr : s.reader with
  | testing =>
      rcases hi.entries.outside (.inl hr) with hu | hswept
      · exact hu
      · exact hlost hswept.disconnected
  | left =>
      rcases hi.entries.outside (.inr hr) with hu | hswept
      · exact hu
      · exact hlost hswept.disconnected
  | sweeping e ks => exact hlost (hi.entries.sweeping e ks hr).disconnected
  | terminated => exact absurd hr hi.entries.notTerminated
  | _ =>
      rw [hr] at hin
      exact hin trivial

/-- A pending call has an entry, if only one whose promise the reader has just taken. -/
theorem Inv.lookup_outstanding (hi : Inv s) {c : CallId} {id : UInt32}
    (hc : s.Outstanding c id) :
    s.responsesPromises.lookup id = some (some c) ∨
      (s.responsesPromises.lookup id = some none ∧
        ∃ msg, msg.id = id ∧ s.reader = .taken msg (some c)) := by
  rcases hi.belongs.pending c id hc.1 hc.2 with hentry | ⟨msg, hid, hr⟩
  · exact .inl hentry
  · refine .inr ⟨(hi.belongs.moved id).mpr ?_, msg, hid, hr⟩
    rw [hr, ← hid]
    rfl

theorem Inv.pendingMap (hi : Inv s) (hu : Unended s) (hconn : s.connected = true) :
    PendingMap s := by
  have hunresolved := hi.unresolved hconn
  refine ⟨?_, ?_⟩
  · intro id
    rw [← AList.lookup_isSome]
    constructor
    · intro hsome
      obtain ⟨p, hentry⟩ := Option.isSome_iff_exists.mp hsome
      cases p with
      | some c =>
          have hnone := hunresolved id c hentry
          exact .inl ⟨c, hu hconn c id (hi.belongs.entry id c hentry) hnone, hnone⟩
      | none =>
          -- the reader is between `at` and `erase`
          have hmoved := (hi.belongs.moved id).mp hentry
          cases hr : s.reader with
          | taken msg p =>
              rw [hr] at hmoved
              cases hmoved
              obtain ⟨c, -, hnone, hsent⟩ := hi.belongs.taken msg p hr
              exact .inl ⟨c, hu hconn c msg.id hsent hnone, hnone⟩
          | resolved msg =>
              rw [hr] at hmoved
              cases hmoved
              exact .inr rfl
          | _ =>
              rw [hr] at hmoved
              cases hmoved
    · rintro (⟨c, hc⟩ | herasing)
      · rcases hi.lookup_outstanding hc with hentry | ⟨hentry, -⟩ <;> simp [hentry]
      · have hmoved : s.reader.moved = some id := by
          cases hr : s.reader <;> rw [hr] at herasing <;> first | exact herasing | cases herasing
        simp [(hi.belongs.moved id).mpr hmoved]
  · intro c id hended hentry
    have hpending := hu hconn c id (hi.belongs.entry id c hentry) (hunresolved id c hentry)
    rw [hended] at hpending
    cases hpending

/-- A write that throws for a pending call leaves an entry that is nobody's. -/
theorem Inv.not_pendingMap (hi : Inv s) {c : CallId} {msg : Message} {e : Fault}
    (hpc : s.pc c = .writing msg) (hnone : s.shared c = none) :
    ¬ PendingMap (s.setPc c (.threw msg e)) := by
  intro hmap
  have hc : s.Outstanding c msg.id := by
    refine ⟨?_, hnone⟩
    rw [hpc]
    rfl
  have hended : ((s.setPc c (.threw msg e)).pc c).pending = none := by
    rw [State.setPc_pc, if_pos rfl]
    rfl
  rcases hi.lookup_outstanding hc with hentry | ⟨hentry, msg', hid, hr⟩
  · exact hmap.ended c msg.id hended hentry
  · -- the entry has been moved from: no other call is pending under this id
    have hkey : msg.id ∈ (s.setPc c (.threw msg e)).responsesPromises := by
      rw [← AList.lookup_isSome, State.setPc_responsesPromises, hentry]
      rfl
    rcases (hmap.keys msg.id).mp hkey with ⟨d, hd⟩ | herasing
    · have hdc : d ≠ c := by
        rintro rfl
        rw [State.Outstanding, hended] at hd
        cases hd.1
      have hd' : s.Outstanding d msg.id := by
        obtain ⟨hpending, hshared⟩ := hd
        rw [State.setPc_pc, if_neg hdc] at hpending
        exact ⟨hpending, hshared⟩
      rcases hi.lookup_outstanding hd' with hentry' | ⟨-, msg'', -, hr'⟩
      · rw [hentry] at hentry'
        cases hentry'
      · rw [hr] at hr'
        cases hr'
        exact hdc rfl
    · rw [State.setPc_reader, hr] at herasing
      cases herasing

/-- **The map matches the pending calls** in every state of a run in which the commander is
connected, exactly if no write throws for a call that is pending. -/
theorem pendingMap_iff {as : List Action} (hrun : run step init as = some s) :
    (∀ before after t, as = before ++ after → run step init before = some t →
      t.connected = true → PendingMap t) ↔ AllSteps step KeepsNoEntry init as := by
  constructor
  · intro hmap
    rw [allSteps_iff]
    rintro before a after t rfl hbefore
    by_contra hkeep
    obtain ⟨c, e, rfl, hnone, hconn⟩ : ∃ c e, a = .write c (some e) ∧ t.shared c = none ∧
        t.connected = true := by
      cases a with
      | write c failure =>
          cases failure with
          | none => exact absurd trivial hkeep
          | some e => exact ⟨c, e, rfl, by simpa [KeepsNoEntry] using hkeep⟩
      | _ => exact absurd trivial hkeep
    -- the state after that write
    obtain ⟨t', ht', hrest⟩ := run_append_iff.mp hrun
    cases hbefore.symm.trans ht'
    obtain ⟨u, hu, -⟩ := run_cons_iff.mp hrest
    have hi : Inv t := Inv.of_reaches ⟨before, hbefore⟩
    cases step_cases hu
    case writeFails msg hpc =>
      have hafter : run step init (before ++ [.write c (some e)]) =
          some (t.setPc c (.threw msg e)) :=
        run_append_iff.mpr ⟨t, hbefore, run_cons_iff.mpr ⟨_, hu, rfl⟩⟩
      exact hi.not_pendingMap hpc hnone
        (hmap (before ++ [.write c (some e)]) after _ (by simp) hafter hconn)
  · rintro hkeep before after t rfl hbefore hconn
    have hkeep' : AllSteps step KeepsNoEntry init before := by
      rw [allSteps_iff] at hkeep ⊢
      rintro before' a after' u rfl
      exact hkeep before' a (after' ++ after) u (by simp)
    have hu : Unended t :=
      hkeep'.invariant (fun _ _ _ hk hs h => hs.step hk (step_cases h)) unended_init hbefore
    exact (Inv.of_reaches ⟨before, hbefore⟩).pendingMap hu hconn

/-- One call registers; then its write throws. -/
def writeThrows : List Action :=
  [.build 0 CommanderMessageType.getAttr.toUint8 [], .caller 0, .caller 0, .caller 0, .caller 0,
    .write 0 (some transportClosed)]

/-- Before the write, the map is as it should be. -/
theorem pendingMap_iff_registered :
    ∃ s, run step init (writeThrows.take 5) = some s ∧ PendingMap s :=
  ⟨_, rfl, (pendingMap_iff rfl).mpr (by decide) (writeThrows.take 5) [] _ rfl rfl rfl⟩

/-- Afterwards the entry of the call that has ended is still there. -/
theorem not_pendingMap :
    ¬ ∀ as s, run step init as = some s → s.connected = true → PendingMap s := by
  intro hall
  have hmap := hall writeThrows _ rfl rfl
  exact hmap.ended 0 0 rfl rfl

end Commander

end ZControl
