import ZControl.Commander.Correlation
import ZControl.Worker.Freshness

/-!
# Which ids are new

The id of a command is a counter of 32 bits too. Here every command has a number of its own beside
its id, and every entry of `_responses_promises` keeps the number of the command that put it there;
the numbers decide nothing. With them the ids of all three counters are new exactly as long as
nothing live has come round.
-/

namespace ZControl

namespace Commander

/-- The threads of a `Commander` with the numbers of the commands. -/
structure Numbering where
  threads : State
  issued : Nat
  number : CallId → Nat          -- of the command a call has built
  entryNumber : UInt32 → Nat     -- of the command whose entry is in the map

namespace Numbering

def init : Numbering := ⟨Commander.init, 0, fun _ => 0, fun _ => 0⟩

/-- What a step adds to the numbers. -/
def record (n : Numbering) (t : State) : Action → Numbering
  | .build c _ _ =>
      { n with
        threads := t
        issued := n.issued + 1
        number := Function.update n.number c n.issued }
  | .caller c =>
      match n.threads.pc c with
      | .tested msg =>
          { n with threads := t, entryNumber := Function.update n.entryNumber msg.id (n.number c) }
      | _ => { n with threads := t }
  | _ => { n with threads := t }

def step (n : Numbering) (a : Action) : Option Numbering :=
  (Commander.step n.threads a).map fun t => n.record t a

variable {n n' : Numbering} {t : State} {a : Action}

@[simp] theorem record_threads (n : Numbering) (t : State) (a : Action) :
    (n.record t a).threads = t := by
  unfold record
  split
  · rfl
  · split <;> rfl
  · rfl

/-- The id of a command is its number, cut to 32 bits. -/
structure Inv (n : Numbering) : Prop where
  next : n.threads.nextCommandId = UInt32.ofNat n.issued
  command : ∀ c msg, (n.threads.pc c).command = some msg →
    msg.id = UInt32.ofNat (n.number c) ∧ n.number c < n.issued
  entry : ∀ id ∈ n.threads.responsesPromises,
    id = UInt32.ofNat (n.entryNumber id) ∧ n.entryNumber id < n.issued

theorem Inv.init : Inv init where
  next := rfl
  command := by simp [Numbering.init, Commander.init, CallPc.command]
  entry := by simp [Numbering.init, Commander.init]

/-- Only a registration puts a new entry into the map. -/
theorem mem_of_step (h : Step n.threads a t)
    (ha : ∀ c msg, a = .caller c → n.threads.pc c ≠ .tested msg) {id : UInt32}
    (hid : id ∈ t.responsesPromises) : id ∈ n.threads.responsesPromises := by
  cases h with
  | register c msg hpc => exact absurd hpc (ha c msg rfl)
  | take msg p hr hat =>
      rcases (AList.mem_insert _).mp hid with rfl | hid
      · exact AList.lookup_isSome.mp (by simp [hat])
      · exact hid
  | erase msg hr => exact (AList.mem_erase.mp hid).2
  | _ => exact hid

/-- A step that neither issues nor registers a command. -/
theorem Inv.frame (hi : Inv n) (h : Step n.threads a t)
    (hbuild : ∀ c type data, a ≠ .build c type data)
    (hregister : ∀ c msg, a = .caller c → n.threads.pc c ≠ .tested msg) : Inv (n.record t a) := by
  have hrecord : n.record t a = { n with threads := t } := by
    cases a with
    | build c type data => exact absurd rfl (hbuild c type data)
    | caller c =>
        cases hpc : n.threads.pc c with
        | tested msg => exact absurd hpc (hregister c msg rfl)
        | _ => simp [Numbering.record, hpc]
    | _ => rfl
  rw [hrecord]
  constructor
  · exact (h.nextCommandId_eq hbuild).trans hi.next
  · intro c msg hc
    exact hi.command c msg ((h.command_eq hbuild c).symm.trans hc)
  · intro id hid
    exact hi.entry id (mem_of_step h hregister hid)

theorem Inv.record (hi : Inv n) (h : Step n.threads a t) : Inv (n.record t a) := by
  have hstep := h
  cases h with
  | build c type data hpc =>
      constructor
      · show n.threads.nextCommandId + 1 = UInt32.ofNat (n.issued + 1)
        rw [hi.next, UInt32.ofNat_add]
        rfl
      · intro d msg hd
        show msg.id = UInt32.ofNat (Function.update n.number c n.issued d) ∧
          Function.update n.number c n.issued d < n.issued + 1
        by_cases hdc : d = c
        · subst hdc
          obtain rfl : (⟨n.threads.nextCommandId, type, data⟩ : Message) = msg := by
            simpa [CallPc.command] using hd
          rw [Function.update_self]
          exact ⟨hi.next, Nat.lt_succ_self _⟩
        · rw [Function.update_of_ne hdc]
          obtain ⟨hid, hlt⟩ := hi.command d msg (by simpa [hdc] using hd)
          exact ⟨hid, Nat.lt_succ_of_lt hlt⟩
      · intro id hid
        obtain ⟨hentry, hlt⟩ := hi.entry id hid
        exact ⟨hentry, Nat.lt_succ_of_lt hlt⟩
  | register c msg hpc =>
      obtain ⟨hid, hlt⟩ := hi.command c msg (by rw [hpc]; rfl)
      have hrecord : ∀ t, n.record t (.caller c) =
          { n with
            threads := t
            entryNumber := Function.update n.entryNumber msg.id (n.number c) } := by
        intro t
        simp [Numbering.record, hpc]
      rw [hrecord]
      constructor
      · exact hi.next
      · intro d m hd
        apply hi.command d m
        by_cases hdc : d = c
        · subst hdc
          rw [hpc]
          simpa [CallPc.command] using hd
        · simpa [hdc] using hd
      · intro k hk
        show k = UInt32.ofNat (Function.update n.entryNumber msg.id (n.number c) k) ∧
          Function.update n.entryNumber msg.id (n.number c) k < n.issued
        by_cases hkid : k = msg.id
        · subst hkid
          rw [Function.update_self]
          exact ⟨hid, hlt⟩
        · rw [Function.update_of_ne hkid]
          refine hi.entry k ?_
          have hmem : k ∈ n.threads.responsesPromises.insert msg.id (some c) := hk
          exact ((AList.mem_insert _).mp hmem).resolve_left hkid
  | acquire c msg hpc hmx | test c msg hpc hconn | refuse c msg hpc hconn | release c msg hpc
  | value c msg m hpc hres | raise c msg e hpc hres =>
      refine hi.frame hstep (fun _ _ _ heq => by cases heq) ?_
      rintro d msg' heq
      cases heq
      simp [hpc]
  | clear c msg hpc htype =>
      refine hi.frame hstep (fun _ _ _ heq => by cases heq) ?_
      rintro d msg' heq
      cases heq
      rcases hpc with ⟨m, hpc⟩ | ⟨e, hpc⟩ <;> simp [hpc]
  | _ => exact hi.frame hstep (fun _ _ _ heq => by cases heq) (fun _ _ heq => by cases heq)

theorem Inv.of_run {as : List Action} (h : Transition.run step Numbering.init as = some n) :
    Inv n := by
  refine Transition.run_invariant (I := Inv) ?_ Inv.init h
  intro n a n' hi hstep
  obtain ⟨t, ht, rfl⟩ := Option.map_eq_some_iff.mp hstep
  exact hi.record (step_cases ht)

/-- No command with an entry in the map has a number that is cut to the same id as `k`. -/
def NotComeRound (n : Numbering) (k : Nat) : Prop :=
  ∀ id ∈ n.threads.responsesPromises, n.entryNumber id % 2 ^ 32 ≠ k % 2 ^ 32

theorem ofNat_eq_iff (j k : Nat) : UInt32.ofNat j = UInt32.ofNat k ↔ j % 2 ^ 32 = k % 2 ^ 32 := by
  rw [← UInt32.toNat_inj]
  simp

theorem Inv.notMem_iff (hi : Inv n) (k : Nat) :
    UInt32.ofNat k ∉ n.threads.responsesPromises ↔ n.NotComeRound k := by
  constructor
  · intro hnew id hid hround
    obtain ⟨heq, -⟩ := hi.entry id hid
    rw [← ofNat_eq_iff, ← heq] at hround
    exact hnew (hround ▸ hid)
  · intro hround hmem
    obtain ⟨heq, -⟩ := hi.entry _ hmem
    exact hround _ hmem ((ofNat_eq_iff _ _).mp heq).symm

end Numbering
end Commander

open Worker
open Commander (Numbering CallId)

/-- **Ids are new until something live comes round.** In every run of a `Commander`, of any length:
the id of a new command is not in `_responses_promises`, and a registration replaces no entry, if
and only if no command with an entry there was issued a multiple of `2 ^ 32` commands away. In every
session of a worker, of any length: the id of a successful open is not the value for a failure and
not live, if and only if the counter does not stand at that value and no id that was given out a
multiple of `2 ^ 32` opens ago is live; and the handle is stored under an id that was not live. -/
theorem ids_fresh_iff {as : List Commander.Action} {n : Numbering}
    (hrun : Transition.run Numbering.step Numbering.init as = some n)
    {dirsToOverride : DirsToOverride} {rs : List Request} {s : Session}
    (hsession : Transition.run (Session.step dirsToOverride) Session.new rs = some s) :
    (∀ (c : CallId) (type : UInt8) (data : Bytes) (n' : Numbering),
      n.step (.build c type data) = some n' →
        n'.threads.pc c = .built ⟨n.threads.nextCommandId, type, data⟩ ∧
        (n.threads.nextCommandId ∉ n.threads.responsesPromises ↔ n.NotComeRound n.issued)) ∧
    (∀ (c : CallId) (msg : Message) (n' : Numbering),
      n.threads.pc c = .tested msg → n.step (.caller c) = some n' →
        n'.threads.responsesPromises = n.threads.responsesPromises.insert msg.id (some c) ∧
        (msg.id ∉ n.threads.responsesPromises ↔ n.NotComeRound (n.number c))) ∧
    (∀ (r : Request) (s' : Session) (i : Int32) (x : Option Nat),
      s.step dirsToOverride r = some s' →
        ((i, x) ∈ fileOpened s.world r.events r.result →
          ((i ≠ -1 ∧ i ∉ s.world.file.fds) ↔
            NotComeRound s.fileOpens (· ∈ s.world.file.fds)) ∧
          (i ∉ s.world.file.fds → FileStored s'.world i x)) ∧
        ((i, x) ∈ dirOpened s.world r.events r.result →
          ((i ≠ -1 ∧ ¬ (i ∈ s.world.dir.fds ∨ i ∈ s.world.overriddenFds)) ↔
            NotComeRound s.dirOpens fun i =>
              i ∈ s.world.dir.fds ∨ i ∈ s.world.overriddenFds) ∧
          (¬ (i ∈ s.world.dir.fds ∨ i ∈ s.world.overriddenFds) →
            DirStored s'.world i x))) := by
  have hi := Numbering.Inv.of_run hrun
  have hg := Session.Given.of_run hsession
  refine ⟨?_, ?_, ?_⟩
  · intro c type data n' hstep
    obtain ⟨t, ht, rfl⟩ := Option.map_eq_some_iff.mp hstep
    refine ⟨?_, ?_⟩
    · rw [Numbering.record_threads]
      cases Commander.step_cases ht with
      | build _ _ _ hpc => simp
    · rw [hi.next]
      exact hi.notMem_iff n.issued
  · intro c msg n' hpc hstep
    obtain ⟨t, ht, rfl⟩ := Option.map_eq_some_iff.mp hstep
    obtain ⟨hid, -⟩ := hi.command c msg (by rw [hpc]; rfl)
    refine ⟨?_, ?_⟩
    · have hregister : n.threads.stepCaller c = some t := ht
      simp only [Commander.State.stepCaller, hpc, Option.some.injEq] at hregister
      rw [Numbering.record_threads, ← hregister]
      rfl
    · rw [hid]
      exact hi.notMem_iff (n.number c)
  · intro r s' i x hstep
    exact ⟨hg.file_fresh hstep, hg.dir_fresh hstep⟩

/-- A first command is pending, and a second one is about to be registered. -/
def secondCommand : List Commander.Action :=
  [.build 0 CommanderMessageType.getAttr.toUint8 [], .caller 0, .caller 0, .caller 0, .caller 0,
    .build 1 CommanderMessageType.access.toUint8 [], .caller 1, .caller 1]

def openSecond : Request :=
  ⟨1, ⟨1, CommanderMessageType.open.toUint8, encodingOf [.str (ascii "/b"), .int32 0, .int32 0]⟩,
    [⟨.sys (.open (ascii "/b") 0 0), .ok 4⟩, ⟨.file .nextFdId, 1⟩, ⟨.file (.emplace 1 4), ()⟩,
      ⟨.errno, 0⟩],
    .ok ⟨1, WorkerMessageType.commandResult.toUint8, encodingOf [.int32 1, .int32 0]⟩⟩

/-- A second command while the first is pending, and a second file while the first is open. -/
theorem ids_fresh_iff_second :
    (∃ n n', Transition.run Numbering.step Numbering.init secondCommand = some n ∧
      n.step (.caller 1) = some n' ∧
      0 ∈ n.threads.responsesPromises ∧ 1 ∉ n.threads.responsesPromises ∧
      n.NotComeRound (n.number 1)) ∧
    ∃ s s', Transition.run (Session.step []) Session.new
        [Session.openThenClose.head (by decide)] = some s ∧
      s.step [] openSecond = some s' ∧ 0 ∈ s.world.file.fds ∧
      NotComeRound s.fileOpens (· ∈ s.world.file.fds) ∧ FileStored s'.world 1 (some 1) := by
  have hfresh := @ids_fresh_iff secondCommand _ rfl []
    [Session.openThenClose.head (by decide)] _ rfl
  refine ⟨⟨_, _, rfl, rfl, ?_⟩, ⟨_, _, rfl, rfl, ?_⟩⟩
  · have hiff := (hfresh.2.1 1 ⟨1, CommanderMessageType.access.toUint8, []⟩ _ rfl rfl).2
    have hnew : (1 : UInt32) ∉ (AList.insert 0 (some 0) ∅ : AList fun _ : UInt32 =>
        Commander.Promise) := by decide
    exact ⟨by decide, hnew, hiff.mp hnew⟩
  · obtain ⟨hiff, hstored⟩ := (hfresh.2.2 openSecond _ 1 (some 1) rfl).1 (by decide)
    exact ⟨by decide, hiff.mp ⟨by decide, by decide⟩, hstored (by decide)⟩

end ZControl
