import ZControl.Commander.Disconnection

/-!
# Which answer reaches which call

A `Session` is a `Commander` together with a worker that answers each command it received at most
once, with a message of the same id; in any order, and with any message type. The lists of
commands, answers and deliveries record what has happened and decide nothing.
-/

namespace ZControl

namespace Commander

/-- The command a call has built. -/
def CallPc.command : CallPc → Option Message
  | .built msg | .holding msg | .tested msg | .registered msg | .writing msg | .waiting msg
  | .returned msg _ | .threw msg _ | .cleared msg => some msg
  | _ => none

/-- The call has come past its write. -/
def CallPc.written : CallPc → Prop
  | .waiting _ | .returned _ _ | .threw _ _ | .cleared _ => True
  | _ => False

/-- The message the reader has in hand and no promise has been resolved with. -/
def ReaderPc.inHand : ReaderPc → List Message
  | .received msg | .locked msg | .taken msg _ => [msg]
  | _ => []

/-- A connection with a worker that follows the protocol. -/
structure Session where
  threads : State
  commands : Nat                            -- how many have been built
  received : List Message                   -- by the worker, and not answered yet
  answered : List (Message × Message)       -- a command and its answer
  transit : List Message                    -- answers the reader has not read yet
  deliveries : List (Message × CallId)      -- an answer and the call whose promise it resolved

namespace Session

def init : Session where
  threads := Commander.init
  commands := 0
  received := []
  answered := []
  transit := []
  deliveries := []

inductive Action where
  | thread (a : Commander.Action)           -- any step but the read of a message
  | answer (i : Nat) (type : UInt8) (data : Bytes)  -- the worker answers its `i`-th open command
  | deliver                                 -- `_transport.read()` returns the next answer
  deriving DecidableEq

/-- What a step of a thread adds to the records. -/
def record (s : Session) (t : State) : Commander.Action → Session
  | .build _ _ _  => { s with threads := t, commands := s.commands + 1 }
  | .write c none =>
      { s with threads := t, received := s.received ++ (s.threads.pc c).command.toList }
  | .reader =>
      match s.threads.reader with
      | .taken msg (some c) => { s with threads := t, deliveries := s.deliveries ++ [(msg, c)] }
      | _ => { s with threads := t }
  | _ => { s with threads := t }

def step (s : Session) : Action → Option Session
  | .thread (.read (.ok _)) => none
  | .thread a => (Commander.step s.threads a).map fun t => s.record t a
  | .answer i type data =>
      match s.received[i]? with
      | some command =>
          some { s with
            received := s.received.eraseIdx i
            answered := s.answered ++ [(command, ⟨command.id, type, data⟩)]
            transit := s.transit ++ [⟨command.id, type, data⟩] }
      | none => none
  | .deliver =>
      match s.transit with
      | msg :: transit =>
          (Commander.step s.threads (.read (.ok msg))).map fun t =>
            { s with threads := t, transit := transit }
      | [] => none

end Session

/-! ## Calls keep their command and their result -/

variable {t t' : State} {a : Commander.Action}

theorem Step.command_eq (h : Step t a t') (ha : ∀ c type data, a ≠ .build c type data)
    (c : CallId) : (t'.pc c).command = (t.pc c).command := by
  cases h <;> grind [CallPc.command]

theorem Step.nextCommandId_eq (h : Step t a t') (ha : ∀ c type data, a ≠ .build c type data) :
    t'.nextCommandId = t.nextCommandId := by
  cases h <;> first | rfl | exact absurd rfl (ha _ _ _)

theorem Step.command_mono (h : Step t a t') {c : CallId} {msg : Message}
    (hc : (t.pc c).command = some msg) : (t'.pc c).command = some msg := by
  cases h <;> grind [CallPc.command]

theorem Step.written_mono (h : Step t a t') {c : CallId} (hc : (t.pc c).written) :
    (t'.pc c).written := by
  cases h <;> grind [CallPc.written]

theorem Step.returned (h : Step t a t')
    (hret : ∀ c msg m, t.pc c = .returned msg m → t.shared c = some (.ok m)) (c : CallId)
    (msg m : Message) (hpc : t'.pc c = .returned msg m) : t'.shared c = some (.ok m) := by
  have hbefore : t.shared c = some (.ok m) := by
    cases h <;> grind
  exact h.shared_mono hbefore

/-- What `responseOf` makes a value is a `CommandResult`, and it is the message itself. -/
theorem responseOf_ok {msg m : Message} (h : responseOf msg = .ok m) :
    m = msg ∧ msg.type = WorkerMessageType.commandResult.toUint8 := by
  unfold responseOf at h
  split at h
  case isTrue htype => cases h; exact ⟨rfl, htype⟩
  case isFalse =>
    split at h
    · split at h <;> cases h
    · split at h <;> cases h

theorem responseOf_error {msg : Message}
    (h : msg.type ≠ WorkerMessageType.commandResult.toUint8) : ∃ e, responseOf msg = .error e := by
  cases hresp : responseOf msg with
  | ok m    => exact absurd (responseOf_ok hresp).2 h
  | error e => exact ⟨e, rfl⟩

namespace Session

/-! ## The records of a step -/

@[simp] theorem record_threads (s : Session) : (s.record t a).threads = t := by
  unfold record
  split <;> try rfl
  split <;> rfl

@[simp] theorem record_answered (s : Session) : (s.record t a).answered = s.answered := by
  unfold record
  split <;> try rfl
  split <;> rfl

@[simp] theorem record_transit (s : Session) : (s.record t a).transit = s.transit := by
  unfold record
  split <;> try rfl
  split <;> rfl

/-- A session moves by a step of a thread, an answer of the worker, or the read of an answer. -/
inductive Step (s : Session) : Session → Prop where
  | thread (a : Commander.Action) (t : State) (ha : ∀ msg, a ≠ .read (.ok msg))
      (h : Commander.Step s.threads a t) : Step s (s.record t a)
  | answer (i command type data) (hi : s.received[i]? = some command) :
      Step s { s with
        received := s.received.eraseIdx i
        answered := s.answered ++ [(command, ⟨command.id, type, data⟩)]
        transit := s.transit ++ [⟨command.id, type, data⟩] }
  | deliver (msg transit) (htransit : s.transit = msg :: transit)
      (hr : s.threads.reader = .reading) :
      Step s { s with
        threads := { s.threads with reader := .received msg }, transit := transit }

variable {s s' : Session}

theorem step_cases {act : Action} (h : s.step act = some s') : Step s s' := by
  cases act with
  | thread a =>
      have hthread : (∀ msg, a ≠ .read (.ok msg)) ∧
          (Commander.step s.threads a).map (fun t => s.record t a) = some s' := by
        unfold step at h
        split at h <;> simp_all
      obtain ⟨t, ht, rfl⟩ := Option.map_eq_some_iff.mp hthread.2
      exact .thread a t hthread.1 (Commander.step_cases ht)
  | answer i type data =>
      simp only [step] at h
      split at h <;> cases h
      case h_1 command hi => exact .answer i command type data hi
  | deliver =>
      simp only [step] at h
      split at h
      case h_1 msg transit htransit =>
        obtain ⟨t, ht, rfl⟩ := Option.map_eq_some_iff.mp h
        cases Commander.step_cases ht
        case read hr => exact .deliver msg transit htransit hr
      case h_2 => cases h

/-! ## The invariant of a session -/

/-- Ids identify calls. -/
structure Ids (s : Session) : Prop where
  next : s.threads.nextCommandId = UInt32.ofNat s.commands
  lt : ∀ c msg, (s.threads.pc c).command = some msg → msg.id.toNat < s.commands
  unique : ∀ c d m n, (s.threads.pc c).command = some m → (s.threads.pc d).command = some n →
    m.id = n.id → c = d

/-- The commands the worker has received, answered or not. -/
def commandsSeen (s : Session) : List Message := s.received ++ s.answered.map Prod.fst

/-- What the worker has received belongs to calls that have written, one command each. -/
structure Seen (s : Session) : Prop where
  written : ∀ command ∈ s.commandsSeen,
    ∃ c, (s.threads.pc c).command = some command ∧ (s.threads.pc c).written
  nodup : (s.commandsSeen.map Message.id).Nodup

/-- The answers that have been sent are those that were delivered, the one in the reader's hand
and those on the way, in this order. -/
structure Answers (s : Session) : Prop where
  sameId : ∀ command m, (command, m) ∈ s.answered → m.id = command.id
  order : s.answered.map Prod.snd =
    s.deliveries.map Prod.fst ++ (s.threads.reader.inHand ++ s.transit)
  delivered : ∀ m c, (m, c) ∈ s.deliveries →
    ∃ command, (command, m) ∈ s.answered ∧ (s.threads.pc c).command = some command

/-- The call awaits an answer: its promise is registered, and it is yet to write or its command
has been received and no answer to it was delivered. -/
def Awaits (s : Session) (c : CallId) (msg : Message) : Prop :=
  (∃ m, s.threads.pc c = .registered m) ∨ (∃ m, s.threads.pc c = .writing m) ∨
    (msg ∈ s.commandsSeen ∧ ∀ m d, (m, d) ∈ s.deliveries → m.id ≠ msg.id)

structure Inv (s : Session) : Prop where
  threads : Commander.Inv s.threads
  ids : s.Ids
  seen : s.Seen
  answers : s.Answers
  entry : ∀ c msg, (s.threads.pc c).command = some msg → s.Awaits c msg →
    s.threads.responsesPromises.lookup msg.id = some (some c) ∨
      ∃ m, m.id = msg.id ∧ s.threads.reader = .taken m (some c)
  results : ∀ c m, s.threads.shared c = some (.ok m) →
    (m, c) ∈ s.deliveries ∧ m.type = WorkerMessageType.commandResult.toUint8
  returned : ∀ c msg m, s.threads.pc c = .returned msg m → s.threads.shared c = some (.ok m)

theorem Ids.record (hids : s.Ids) (h : Commander.Step s.threads a t)
    (hlt : (s.record t a).commands < 2 ^ 32) : (s.record t a).Ids := by
  obtain ⟨hnext, hltc, hunique⟩ := hids
  by_cases ha : ∃ c type data, a = .build c type data
  · obtain ⟨c, type, data, rfl⟩ := ha
    have hid : s.threads.nextCommandId.toNat = s.commands := by
      simp only [Session.record] at hlt
      rw [hnext, UInt32.toNat_ofNat']
      omega
    cases h
    case build hpc =>
      constructor <;> simp only [Session.record, State.setPc_pc, State.setPc_nextCommandId]
      · rw [hnext, UInt32.ofNat_add]
        rfl
      · grind [CallPc.command]
      · grind [CallPc.command]
  · have ha' : ∀ c type data, a ≠ .build c type data := fun c type data he => ha ⟨c, type, data, he⟩
    have hcommands : (s.record t a).commands = s.commands := by
      unfold Session.record
      split <;> try rfl
      · exact absurd rfl (ha' _ _ _)
      · split <;> rfl
    constructor <;> simp only [record_threads, hcommands, h.command_eq ha', h.nextCommandId_eq ha']
    · exact hnext
    · exact hltc
    · exact hunique

theorem commandsSeen_record (h : Commander.Step s.threads a t) :
    (s.record t a).commandsSeen = s.commandsSeen ∨
      ∃ c msg, s.threads.pc c = .writing msg ∧ t.pc c = .waiting msg ∧
        ((s.record t a).commandsSeen).Perm (msg :: s.commandsSeen) := by
  cases h
  case write c msg hpc =>
    refine .inr ⟨c, msg, hpc, by simp, ?_⟩
    simp only [commandsSeen, Session.record, hpc, CallPc.command, Option.toList_some,
      List.append_assoc]
    exact List.perm_middle
  all_goals
    left
    simp only [commandsSeen, Session.record]
    try (split <;> rfl)

/-- The ids of the answers are those of distinct commands. -/
theorem Inv.nodup_answers (hi : Inv s) : ((s.answered.map Prod.snd).map Message.id).Nodup := by
  have hids : (s.answered.map Prod.snd).map Message.id =
      (s.answered.map Prod.fst).map Message.id := by
    simp only [List.map_map]
    exact List.map_congr_left fun p hp => hi.answers.sameId p.1 p.2 hp
  rw [hids]
  exact (List.map_append .. ▸ hi.seen.nodup).of_append_right

theorem Inv.answer_unique (hi : Inv s) {p q : Message × Message} (hp : p ∈ s.answered)
    (hq : q ∈ s.answered) (hid : p.1.id = q.1.id) : p = q := by
  have hnodup : (s.answered.map fun p => p.2.id).Nodup := by
    simpa [List.map_map, Function.comp_def] using hi.nodup_answers
  refine List.inj_on_of_nodup_map hnodup hp hq ?_
  rw [hi.answers.sameId p.1 p.2 hp, hi.answers.sameId q.1 q.2 hq, hid]

/-- The call that waits for a message the reader has not resolved a promise with. -/
theorem Inv.of_onTheWay (hi : Inv s) {m : Message}
    (hm : m ∈ s.threads.reader.inHand ++ s.transit) :
    ∃ c command, (command, m) ∈ s.answered ∧ command.id = m.id ∧
      (s.threads.pc c).command = some command ∧ (s.threads.pc c).written ∧
      s.Awaits c command := by
  have hdistinct := hi.nodup_answers
  obtain ⟨-, -, ⟨hwritten, hnodup⟩, ⟨hsameId, horder, -⟩, -, -⟩ := hi
  obtain ⟨⟨command, m'⟩, hanswered, rfl⟩ : ∃ p ∈ s.answered, p.2 = m := by
    have : m ∈ s.answered.map Prod.snd := horder ▸ List.mem_append_right _ hm
    simpa using this
  have hseen : command ∈ s.commandsSeen :=
    List.mem_append_right _ (List.mem_map.mpr ⟨_, hanswered, rfl⟩)
  obtain ⟨c, hcommand, hw⟩ := hwritten command hseen
  refine ⟨c, command, hanswered, (hsameId _ _ hanswered).symm, hcommand, hw,
    .inr (.inr ⟨hseen, fun n d hn hid => ?_⟩)⟩
  rw [horder, List.map_append] at hdistinct
  refine (List.nodup_append.mp hdistinct).2.2 n.id ?_ m'.id ?_
    (hid.trans (hsameId _ _ hanswered).symm)
  · exact List.mem_map.mpr ⟨n, List.mem_map.mpr ⟨_, hn, rfl⟩, rfl⟩
  · exact List.mem_map.mpr ⟨m', hm, rfl⟩

theorem Seen.record (hi : Inv s) (h : Commander.Step s.threads a t) : (s.record t a).Seen := by
  have ⟨hwritten, hnodup⟩ := hi.seen
  obtain hsame | ⟨c, msg, hpc, hpc', hperm⟩ := commandsSeen_record h
  · refine ⟨fun command hc => ?_, hsame ▸ hnodup⟩
    obtain ⟨c, hcommand, hw⟩ := hwritten command (hsame ▸ hc)
    exact ⟨c, by simpa using h.command_mono hcommand, by simpa using h.written_mono hw⟩
  · constructor
    · intro command hc
      obtain rfl | hc := List.mem_cons.mp (hperm.mem_iff.mp hc)
      · exact ⟨c, by simp [hpc', CallPc.command], by simp [hpc', CallPc.written]⟩
      · obtain ⟨d, hcommand, hw⟩ := hwritten command hc
        exact ⟨d, by simpa using h.command_mono hcommand, by simpa using h.written_mono hw⟩
    · rw [(hperm.map _).nodup_iff, List.map_cons, List.nodup_cons]
      refine ⟨fun hmem => ?_, hnodup⟩
      -- what the worker has seen belongs to calls past their write
      obtain ⟨command, hc, hid⟩ := List.mem_map.mp hmem
      obtain ⟨d, hcommand, hw⟩ := hwritten command hc
      obtain rfl := hi.ids.unique d c command msg hcommand (by simp [hpc, CallPc.command]) hid
      simp [hpc, CallPc.written] at hw

/-- An answer finds its entry in the map. -/
theorem Inv.lookup_ne_none (hi : Inv s) {m : Message} (hr : s.threads.reader = .locked m) :
    s.threads.responsesPromises.lookup m.id ≠ none := by
  obtain ⟨c, command, -, hid, hcommand, -, hawaits⟩ :=
    hi.of_onTheWay (m := m) (by simp [hr, ReaderPc.inHand])
  obtain hat | ⟨n, -, hn⟩ := hi.entry c command hcommand hawaits
  · rw [← hid, hat]
    exact Option.some_ne_none _
  · simp [hr] at hn

/-- The promise the reader holds is that of the call whose command was answered. -/
theorem Inv.of_taken (hi : Inv s) {m : Message} {c : CallId}
    (hr : s.threads.reader = .taken m (some c)) :
    ∃ command, (command, m) ∈ s.answered ∧ command.id = m.id ∧
      (s.threads.pc c).command = some command ∧ (s.threads.pc c).written := by
  obtain ⟨d, command, hanswered, hid, hcommand, hw, hawaits⟩ :=
    hi.of_onTheWay (m := m) (by simp [hr, ReaderPc.inHand])
  have hmoved := (hi.threads.belongs.moved m.id).mpr (by simp [hr, ReaderPc.moved])
  obtain hat | ⟨n, -, hn⟩ := hi.entry d command hcommand hawaits
  · rw [hid, hmoved] at hat
    cases hat
  · obtain ⟨-, rfl⟩ : m = n ∧ c = d := by simpa [hr] using hn
    exact ⟨command, hanswered, hid, hcommand, hw⟩

/-- Only the reader's resolving step delivers, and no other step makes a result a value. -/
theorem deliveries_record (hi : Commander.Inv s.threads) (h : Commander.Step s.threads a t) :
    ((s.record t a).deliveries = s.deliveries ∧
        ∀ c m, t.shared c = some (.ok m) → s.threads.shared c = some (.ok m)) ∨
      ∃ msg c, s.threads.reader = .taken msg (some c) ∧
        t.shared = Function.update s.threads.shared c (some (responseOf msg)) ∧
        (s.record t a).deliveries = s.deliveries ++ [(msg, c)] := by
  cases h
  case resolve msg c hr hnone => exact .inr ⟨msg, c, hr, rfl, by simp [Session.record, hr]⟩
  case resolveFails msg p e hr hset =>
    obtain ⟨c, rfl, hnone, -⟩ := hi.belongs.taken msg p hr
    simp [setResult_unresolved hnone] at hset
  case register c msg hpc =>
    refine .inl ⟨rfl, fun d m hd => ?_⟩
    simp only [State.setPc_shared, abandon_apply] at hd
    split at hd
    · cases hd
    · exact hd
  case sweep e k ks c hr hat hnone =>
    refine .inl ⟨by simp [Session.record, hr], fun d m hd => ?_⟩
    by_cases hdc : d = c
    · simp [hdc] at hd
    · simpa [hdc] using hd
  all_goals exact .inl ⟨by simp_all [Session.record], fun _ _ hd => hd⟩

/-- What was delivered together with what the reader has in hand changes with the read of an answer
only. -/
theorem handled_record (hi : Inv s) (h : Commander.Step s.threads a t)
    (ha : ∀ msg, a ≠ .read (.ok msg)) :
    (s.record t a).deliveries.map Prod.fst ++ t.reader.inHand =
      s.deliveries.map Prod.fst ++ s.threads.reader.inHand := by
  cases h
  case read msg hr => exact absurd rfl (ha msg)
  case missing msg hr hat => exact absurd hat (hi.lookup_ne_none hr)
  case resolveFails msg p e hr hset =>
    obtain ⟨c, rfl, hnone, -⟩ := hi.threads.belongs.taken msg p hr
    simp [setResult_unresolved hnone] at hset
  all_goals
    clear hi ha
    simp [Session.record, ReaderPc.inHand, *]

theorem Answers.record (hi : Inv s) (h : Commander.Step s.threads a t)
    (ha : ∀ msg, a ≠ .read (.ok msg)) : (s.record t a).Answers := by
  have ⟨hsameId, horder, hdelivered⟩ := hi.answers
  have hkeep : ∀ m c, (m, c) ∈ s.deliveries →
      ∃ command, (command, m) ∈ s.answered ∧ (t.pc c).command = some command := fun m c hm => by
    obtain ⟨command, hanswered, hcommand⟩ := hdelivered m c hm
    exact ⟨command, hanswered, h.command_mono hcommand⟩
  refine ⟨by simpa using hsameId, ?_, ?_⟩
  · rw [record_answered, record_threads, record_transit, ← List.append_assoc,
      handled_record hi h ha, List.append_assoc]
    exact horder
  · intro m c hm
    rw [record_answered, record_threads]
    obtain ⟨hsame, -⟩ | ⟨msg, d, hr, -, hdeliveries⟩ := deliveries_record hi.threads h
    · exact hkeep m c (hsame ▸ hm)
    · rw [hdeliveries, List.mem_append, List.mem_singleton] at hm
      obtain hm | ⟨rfl, rfl⟩ := hm
      · exact hkeep m c hm
      · obtain ⟨command, hanswered, -, hcommand, -⟩ := hi.of_taken hr
        exact ⟨command, hanswered, h.command_mono hcommand⟩

theorem Inv.results_record (hi : Inv s) (h : Commander.Step s.threads a t) (c : CallId)
    (m : Message) (hm : t.shared c = some (.ok m)) :
    (m, c) ∈ (s.record t a).deliveries ∧ m.type = WorkerMessageType.commandResult.toUint8 := by
  obtain ⟨hsame, hback⟩ | ⟨msg, d, hr, hshared, hdeliveries⟩ := deliveries_record hi.threads h
  · rw [hsame]
    exact hi.results c m (hback c m hm)
  · rw [hshared] at hm
    rw [hdeliveries]
    by_cases hcd : c = d
    · subst hcd
      obtain ⟨rfl, htype⟩ := responseOf_ok (by simpa using hm)
      exact ⟨by simp, htype⟩
    · obtain ⟨hmem, htype⟩ := hi.results c m (by simpa [hcd] using hm)
      exact ⟨List.mem_append_left _ hmem, htype⟩

/-- A call that awaits an answer after a step did so before, or has registered with it. -/
theorem Awaits.of_record (hi : Inv s) (h : Commander.Step s.threads a t)
    (hids : (s.record t a).Ids) {c : CallId} {msg : Message} (hc : (t.pc c).command = some msg)
    (hawaits : (s.record t a).Awaits c msg) :
    s.Awaits c msg ∨ (∃ m, s.threads.pc c = .tested m) ∧ ∃ m, t.pc c = .registered m := by
  simp only [Awaits, record_threads] at hawaits
  obtain hreg | hwrite | ⟨hseen, hdelivered⟩ := hawaits
  · have hbefore : (∃ m, s.threads.pc c = .registered m) ∨ ∃ m, s.threads.pc c = .tested m := by
      cases h <;> grind
    exact hbefore.elim (fun hreg => .inl (.inl hreg)) (fun htested => .inr ⟨htested, hreg⟩)
  · have hbefore : (∃ m, s.threads.pc c = .registered m) ∨ ∃ m, s.threads.pc c = .writing m := by
      cases h <;> grind
    exact .inl (hbefore.imp_right .inl)
  · have hdelivered' : ∀ m d, (m, d) ∈ s.deliveries → m.id ≠ msg.id := fun m d hm => by
      obtain ⟨hsame, -⟩ | ⟨n, e, -, -, hdeliveries⟩ := deliveries_record hi.threads h
      · exact hdelivered m d (hsame ▸ hm)
      · exact hdelivered m d (hdeliveries ▸ List.mem_append_left _ hm)
    obtain hsame | ⟨d, m, hpc, hpc', hperm⟩ := commandsSeen_record h
    · exact .inl (.inr (.inr ⟨hsame ▸ hseen, hdelivered'⟩))
    · obtain rfl | hold := List.mem_cons.mp (hperm.mem_iff.mp hseen)
      · have hd : ((s.record t a).threads.pc d).command = some msg := by
          simp [hpc', CallPc.command]
        obtain rfl := hids.unique c d msg msg (by simpa using hc) hd rfl
        exact .inl (.inr (.inl ⟨msg, hpc⟩))
      · exact .inl (.inr (.inr ⟨hold, hdelivered'⟩))

theorem Awaits.command_before (hi : Inv s) (h : Commander.Step s.threads a t)
    (hids : (s.record t a).Ids) {c : CallId} {msg : Message}
    (hc : (t.pc c).command = some msg) (hawaits : s.Awaits c msg) :
    (s.threads.pc c).command = some msg := by
  have hmono : ∀ m, (s.threads.pc c).command = some m → m = msg := fun m hm =>
    Option.some.inj ((h.command_mono hm).symm.trans hc)
  obtain ⟨m, hpc⟩ | ⟨m, hpc⟩ | ⟨hseen, -⟩ := hawaits
  · obtain rfl := hmono m (by simp [hpc, CallPc.command])
    simp [hpc, CallPc.command]
  · obtain rfl := hmono m (by simp [hpc, CallPc.command])
    simp [hpc, CallPc.command]
  · obtain ⟨d, hd, -⟩ := hi.seen.written msg hseen
    obtain rfl := hids.unique c d msg msg (by simpa using hc) (by simpa using h.command_mono hd) rfl
    exact hd

theorem Inv.entry_record (hi : Inv s) (h : Commander.Step s.threads a t)
    (hids : (s.record t a).Ids) (c : CallId) (msg : Message)
    (hc : (t.pc c).command = some msg) (hawaits : (s.record t a).Awaits c msg) :
    t.responsesPromises.lookup msg.id = some (some c) ∨
      ∃ m, m.id = msg.id ∧ t.reader = .taken m (some c) := by
  obtain hbefore | ⟨⟨m, hpc⟩, n, hpc'⟩ := hawaits.of_record hi h hids hc
  · have hcs := hbefore.command_before hi h hids hc
    have hentry := hi.entry c msg hcs hbefore
    have hmoved := hi.threads.belongs.moved
    cases h
    case register d m hpc =>
      by_cases hid : msg.id = m.id
      · obtain rfl := hi.ids.unique c d msg m hcs (by simp [hpc, CallPc.command]) hid
        exact .inl (by simp [hid, lookup_insert_eq])
      · simpa [lookup_insert_eq, hid] using hentry
    case take m p hr hat =>
      obtain hat' | ⟨n, -, hn⟩ := hentry
      · by_cases hid : msg.id = m.id
        · obtain rfl : p = some c := by rw [← hid, hat'] at hat; exact (Option.some.inj hat).symm
          exact .inr ⟨m, hid.symm, rfl⟩
        · exact .inl (by simpa [lookup_insert_eq, hid] using hat')
      · simp [hr] at hn
    case missing m hr hat => exact absurd hat (hi.lookup_ne_none hr)
    case resolve m d hr hnone =>
      obtain hat' | ⟨n, hid, hn⟩ := hentry
      · exact .inl hat'
      · -- the call of the answer in hand is past its write and gets its answer here
        obtain ⟨rfl, rfl⟩ : m = n ∧ d = c := by simpa [hr] using hn
        obtain ⟨command, -, -, hcommand, hw⟩ := hi.of_taken hr
        obtain ⟨k, hpc⟩ | ⟨k, hpc⟩ | ⟨-, hdelivered⟩ := hawaits
        · simp_all [CallPc.written]
        · simp_all [CallPc.written]
        · exact absurd hid (hdelivered m d (by simp [Session.record, hr]))
    case resolveFails m p e hr hset =>
      obtain ⟨d, rfl, hnone, -⟩ := hi.threads.belongs.taken m p hr
      simp [setResult_unresolved hnone] at hset
    case erase m hr =>
      have hnone := (hmoved m.id).mpr (by simp [hr, ReaderPc.moved])
      obtain hat' | ⟨n, -, hn⟩ := hentry
      · have hid : msg.id ≠ m.id := fun hid => by rw [hid, hnone] at hat'; cases hat'
        exact .inl (by simpa [lookup_erase_eq, hid] using hat')
      · simp [hr] at hn
    all_goals simp_all
  · cases h <;> grind [CallPc.command]

/-! ## Every step of a session keeps the invariant -/

theorem commands_record_le (s : Session) (t : State) (a : Commander.Action) :
    s.commands ≤ (s.record t a).commands := by
  unfold Session.record
  split
  · exact Nat.le_succ _
  · exact le_rfl
  · split <;> exact le_rfl
  · exact le_rfl

theorem Inv.thread (hi : Inv s) (h : Commander.Step s.threads a t)
    (ha : ∀ msg, a ≠ .read (.ok msg)) (hlt : (s.record t a).commands < 2 ^ 32) :
    (s.record t a).Inv := by
  have hids := hi.ids.record h hlt
  refine ⟨?_, hids, Seen.record hi h, Answers.record hi h ha, ?_, ?_, ?_⟩ <;>
    simp only [record_threads]
  · exact hi.threads.step h
  · exact fun c msg hc hawaits => hi.entry_record h hids c msg hc hawaits
  · exact fun c m hm => hi.results_record h c m hm
  · exact h.returned hi.returned

theorem Inv.answer (hi : Inv s) {i : Nat} {command : Message} (type : UInt8) (data : Bytes)
    (hget : s.received[i]? = some command) :
    Inv { s with
      received := s.received.eraseIdx i
      answered := s.answered ++ [(command, ⟨command.id, type, data⟩)]
      transit := s.transit ++ [⟨command.id, type, data⟩] } := by
  obtain ⟨hthreads, hids, ⟨hwritten, hnodup⟩, ⟨hsameId, horder, hdelivered⟩, hentry, hresults,
    hreturned⟩ := hi
  obtain ⟨hlt, rfl⟩ := List.getElem?_eq_some_iff.mp hget
  have hperm : (s.received.eraseIdx i ++
      (s.answered ++ [(s.received[i], (⟨s.received[i].id, type, data⟩ : Message))]).map
        Prod.fst).Perm s.commandsSeen := by
    rw [List.map_append, ← List.append_assoc]
    refine (List.perm_append_comm).trans ?_
    simpa [commandsSeen] using (List.getElem_cons_eraseIdx_perm hlt).append_right _
  refine ⟨hthreads, ⟨hids.next, hids.lt, hids.unique⟩, ⟨fun command hc => ?_, ?_⟩,
    ⟨?_, ?_, ?_⟩, fun c msg hc hawaits => ?_, hresults, hreturned⟩
  · exact hwritten command (hperm.mem_iff.mp hc)
  · exact ((hperm.map _).nodup_iff).mpr hnodup
  · intro command m hm
    obtain hm | hm := List.mem_append.mp hm
    · exact hsameId command m hm
    · obtain ⟨rfl, rfl⟩ : command = _ ∧ m = _ := by simpa using hm
      rfl
  · simp [horder]
  · intro m c hm
    obtain ⟨command, hanswered, hcommand⟩ := hdelivered m c hm
    exact ⟨command, List.mem_append_left _ hanswered, hcommand⟩
  · exact hentry c msg hc (hawaits.imp_right (Or.imp_right (And.imp_left hperm.mem_iff.mp)))

theorem Inv.deliver (hi : Inv s) {msg : Message} {transit : List Message}
    (htransit : s.transit = msg :: transit) (hr : s.threads.reader = .reading) :
    Inv { s with threads := { s.threads with reader := .received msg }, transit := transit } := by
  have hthreads := hi.threads.step (.read msg hr)
  obtain ⟨-, hids, hseen, ⟨hsameId, horder, hdelivered⟩, hentry, hresults, hreturned⟩ := hi
  refine ⟨hthreads, ⟨hids.next, hids.lt, hids.unique⟩, ⟨hseen.written, hseen.nodup⟩,
    ⟨hsameId, ?_, hdelivered⟩, fun c m hc hawaits => ?_, hresults, hreturned⟩
  · simpa [hr, htransit, ReaderPc.inHand] using horder
  · obtain hat | ⟨n, -, hn⟩ := hentry c m hc hawaits
    · exact .inl hat
    · simp [hr] at hn

theorem Inv.init : Inv init := by
  refine ⟨Commander.Inv.init, ⟨rfl, ?_, ?_⟩, ⟨?_, ?_⟩, ⟨?_, ?_, ?_⟩, ?_, ?_, ?_⟩ <;>
    simp [Session.init, Commander.init, commandsSeen, CallPc.command, ReaderPc.inHand]

/-- The invariant holds of every session of fewer than `2 ^ 32` commands. -/
theorem Inv.of_reaches (h : Transition.Reaches Session.step Session.init s)
    (hlt : s.commands < 2 ^ 32) : Inv s := by
  refine h.invariant (I := fun s => s.commands < 2 ^ 32 → Inv s) ?_ (fun _ => Inv.init) hlt
  intro s a s' hi hstep hlt'
  cases step_cases hstep
  case thread a t ha h =>
    exact (hi (lt_of_le_of_lt (commands_record_le s t a) hlt')).thread h ha hlt'
  case answer i command type data hget => exact (hi hlt').answer type data hget
  case deliver msg transit htransit hr => exact (hi hlt').deliver htransit hr

end Session

/-! ## Correlation -/

/-- The reader is handling an answer: it has the message and has not erased the entry. -/
def ReaderPc.handling : ReaderPc → Option Message
  | .received msg | .locked msg | .taken msg _ | .resolved msg => some msg
  | _ => none

/-- No step of the reader but a failing read leads to the handler. -/
theorem Session.Inv.not_catching {s : Session} (hi : s.Inv) (h : Commander.Step s.threads .reader t)
    (e : Fault) : t.reader ≠ .catching e := by
  cases h
  case missing msg hr hat => exact absurd hat (hi.lookup_ne_none hr)
  case resolveFails msg p e hr hset =>
    obtain ⟨c, rfl, hnone, -⟩ := hi.threads.belongs.taken msg p hr
    simp [setResult_unresolved hnone] at hset
  all_goals simp

/-- Handling an answer leaves the flag and the other entries alone. -/
theorem Session.Inv.handling_frame {s : Session} (hi : s.Inv)
    (h : Commander.Step s.threads .reader t) {msg : Message}
    (hr : s.threads.reader.handling = some msg) :
    t.connected = s.threads.connected ∧
      ∀ id, id ≠ msg.id →
        t.responsesPromises.lookup id = s.threads.responsesPromises.lookup id := by
  have hcatch := hi.not_catching h
  cases h <;> grind [ReaderPc.handling]

/-- **Response correlation.** With fewer than `2 ^ 32` commands: a call that has returned has the
worker's `CommandResult` for its own command, the only answer there is; an answer with which the
reader resolves a promise resolves that of the call of its command and no other, an error answer
with an exception; handling an answer leaves the flag and the entries of the other calls alone and
never leads to the handler; and no answer is delivered twice. -/
theorem responses_correlate {s : Session}
    (h : Transition.Reaches Session.step Session.init s) (hcount : s.commands < 2 ^ 32) :
    (∀ c msg m, s.threads.pc c = .returned msg m →
      (msg, m) ∈ s.answered ∧ m.id = msg.id ∧
      m.type = WorkerMessageType.commandResult.toUint8 ∧
      ∀ command n, (command, n) ∈ s.answered → command.id = msg.id → command = msg ∧ n = m) ∧
    (∀ msg p t, s.threads.reader = .taken msg p → step s.threads .reader = some t →
      ∃ c command, p = some c ∧ (command, msg) ∈ s.answered ∧
        (s.threads.pc c).command = some command ∧
        t.shared = Function.update s.threads.shared c (some (responseOf msg)) ∧
        (msg.type ≠ WorkerMessageType.commandResult.toUint8 →
          ∃ e, responseOf msg = .error e ∧ (t.pc c = .waiting command →
            step t (.caller c) = some (t.setPc c (.threw command e))))) ∧
    (∀ msg t, s.threads.reader.handling = some msg → step s.threads .reader = some t →
      t.connected = s.threads.connected ∧
      ∀ id, id ≠ msg.id → t.responsesPromises.lookup id = s.threads.responsesPromises.lookup id) ∧
    (∀ t e, step s.threads .reader = some t → t.reader ≠ .catching e) ∧
    (s.deliveries.map fun d => d.1.id).Nodup ∧
    ∀ m c d, (m, c) ∈ s.deliveries → (m, d) ∈ s.deliveries → c = d := by
  have hi := Session.Inv.of_reaches h hcount
  refine ⟨fun c msg m hpc => ?_, fun msg p t hr hstep => ?_, fun msg t hr hstep => ?_,
    fun t e hstep => hi.not_catching (step_cases hstep) e, ?_, fun m c d hc hd => ?_⟩
  · obtain ⟨hdelivery, htype⟩ := hi.results c m (hi.returned c msg m hpc)
    obtain ⟨command, hanswered, hcommand⟩ := hi.answers.delivered m c hdelivery
    obtain rfl : msg = command := by simpa [hpc, CallPc.command] using hcommand
    refine ⟨hanswered, hi.answers.sameId _ _ hanswered, htype, fun command n hn hid => ?_⟩
    have heq := hi.answer_unique hn hanswered hid
    exact ⟨congrArg Prod.fst heq, congrArg Prod.snd heq⟩
  · obtain ⟨c, rfl, hnone, -⟩ := hi.threads.belongs.taken msg p hr
    obtain ⟨command, hanswered, -, hcommand, -⟩ := hi.of_taken hr
    have ht : t = { s.threads with
        shared := Function.update s.threads.shared c (some (responseOf msg))
        reader := .resolved msg } := by
      simpa [step, State.stepReader, hr, setResult_unresolved hnone] using hstep.symm
    refine ⟨c, command, rfl, hanswered, hcommand, by rw [ht], fun htype => ?_⟩
    obtain ⟨e, he⟩ := responseOf_error htype
    refine ⟨e, he, fun hpc => ?_⟩
    have hshared : t.shared c = some (.error e) := by simp [ht, he]
    simp [step, State.stepCaller, hpc, hshared]
  · exact hi.handling_frame (step_cases hstep) hr
  · have hnodup := hi.nodup_answers
    rw [hi.answers.order, List.map_append] at hnodup
    simpa [List.map_map, Function.comp_def] using hnodup.of_append_left
  · obtain ⟨m₁, h₁, hc₁⟩ := hi.answers.delivered m c hc
    obtain ⟨m₂, h₂, hc₂⟩ := hi.answers.delivered m d hd
    refine hi.ids.unique c d m₁ m₂ hc₁ hc₂ ?_
    rw [← hi.answers.sameId _ _ h₁, hi.answers.sameId _ _ h₂]

/-- Two calls, answered in the other order and one of them with an error. -/
def twoAnswers : List Session.Action :=
  (issue 0 .getAttr [] ++ issue 1 .unlink []).map Session.Action.thread ++
    [.answer 1 WorkerMessageType.commandUnknown.toUint8 [],
      .answer 0 WorkerMessageType.commandResult.toUint8 [1, 0, 0, 0, 0],
      .thread .reader, .deliver] ++ List.replicate 6 (Session.Action.thread .reader) ++
    Session.Action.deliver :: List.replicate 6 (Session.Action.thread .reader) ++
      [Session.Action.thread (.caller 0), .thread (.caller 1)]

theorem responses_correlate_two :
    ∃ s, Transition.run Session.step Session.init twoAnswers = some s ∧
      s.threads.pc 0 = .returned ⟨0, CommanderMessageType.getAttr.toUint8, []⟩
        ⟨0, WorkerMessageType.commandResult.toUint8, [1, 0, 0, 0, 0]⟩ ∧
      (s.deliveries.map fun d => d.1.id).Nodup := by
  have hends : (Transition.run Session.step Session.init twoAnswers).map (fun s =>
      (s.threads.pc 0, s.commands)) =
        some (.returned ⟨0, CommanderMessageType.getAttr.toUint8, []⟩
          ⟨0, WorkerMessageType.commandResult.toUint8, [1, 0, 0, 0, 0]⟩, 2) := by
    decide +kernel
  obtain ⟨s, hrun, hs⟩ := Option.map_eq_some_iff.mp hends
  obtain ⟨hpc, hcommands⟩ := Prod.mk.inj hs
  have h := responses_correlate ⟨twoAnswers, hrun⟩ (by rw [hcommands]; decide)
  exact ⟨s, hrun, hpc, h.2.2.2.2.1⟩

end Commander
end ZControl
