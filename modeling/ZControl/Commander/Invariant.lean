import ZControl.Commander.Machine
import ZControl.Lib.Transition

/-!
# What the threads of a `Commander` keep invariant

`Step` is the step function read backwards, one case for each thing a thread can do. The
invariant `Inv` says who holds `_promises_mx`, which call each entry of `_responses_promises`
belongs to, and which entries are resolved at each point of the reader.
-/

namespace ZControl

namespace Commander

namespace State

variable (s : State) (c : CallId) (pc : CallPc)

@[simp, grind =] theorem setPc_connected : (s.setPc c pc).connected = s.connected := rfl

@[simp, grind =] theorem setPc_nextCommandId : (s.setPc c pc).nextCommandId = s.nextCommandId := rfl

@[simp, grind =] theorem setPc_responsesPromises :
    (s.setPc c pc).responsesPromises = s.responsesPromises := rfl

@[simp, grind =] theorem setPc_promisesMx : (s.setPc c pc).promisesMx = s.promisesMx := rfl

@[simp, grind =] theorem setPc_shared : (s.setPc c pc).shared = s.shared := rfl

@[simp, grind =] theorem setPc_pc (d : CallId) :
    (s.setPc c pc).pc d = if d = c then pc else s.pc d := by
  simp [setPc, Function.update_apply]

@[simp, grind =] theorem setPc_reader : (s.setPc c pc).reader = s.reader := rfl

end State

/-! ## The map and the promises -/

@[grind =] theorem lookup_insert_eq (m : AList (fun _ : UInt32 => Promise)) (k id : UInt32)
    (p : Promise) : (m.insert k p).lookup id = if id = k then some p else m.lookup id := by
  split
  case isTrue h => subst h; exact AList.lookup_insert m
  case isFalse h => exact AList.lookup_insert_ne h

@[grind =] theorem lookup_erase_eq (m : AList (fun _ : UInt32 => Promise)) (k id : UInt32) :
    (m.erase k).lookup id = if id = k then none else m.lookup id := by
  split
  case isTrue h => subst h; exact AList.lookup_erase id m
  case isFalse h => exact AList.lookup_erase_ne h

@[grind =] theorem setResult_ok_iff {shared shared' : CallId → Option (Except Fault Message)}
    {p : Promise} {r : Except Fault Message} :
    setResult shared p r = .ok shared' ↔
      ∃ c, p = some c ∧ shared c = none ∧ shared' = Function.update shared c (some r) := by
  unfold setResult
  split
  case h_1 => simp
  case h_2 c =>
    split
    case h_1 r' hr' => simp [hr']
    case h_2 hnone => simp [hnone, eq_comm]

@[grind =>] theorem setResult_unresolved {shared : CallId → Option (Except Fault Message)}
    {c : CallId} (h : shared c = none) (r : Except Fault Message) :
    setResult shared (some c) r = .ok (Function.update shared c (some r)) :=
  setResult_ok_iff.mpr ⟨c, rfl, h, rfl⟩

@[grind =] theorem abandon_apply (shared : CallId → Option (Except Fault Message))
    (old : Option Promise) (c : CallId) :
    abandon shared old c =
      if shared c = none ∧ old = some (some c) then some (.error brokenPromise) else shared c := by
  unfold abandon
  split
  case h_1 d =>
    cases hd : shared d with
    | some r => grind
    | none   => by_cases hcd : c = d <;> simp [hcd, hd, eq_comm]
  case h_2 hold => grind

/-! ## The steps, one case each -/

/-- Everything a step can be, with what it requires and what it changes. -/
inductive Step (s : State) : Action → State → Prop where
  | enter (c) (hpc : s.pc c = .idle) :
      Step s (.enter c) (s.setPc c (if s.connected then .entered else .skipped))
  | build (c type data)
      (hpc : (s.pc c = .idle ∧ type ≠ CommanderMessageType.disconnect.toUint8) ∨
        (s.pc c = .entered ∧ type = CommanderMessageType.disconnect.toUint8 ∧ data = [])) :
      Step s (.build c type data)
        ({ s with nextCommandId := s.nextCommandId + 1 }.setPc c
          (.built ⟨s.nextCommandId, type, data⟩))
  | acquire (c msg) (hpc : s.pc c = .built msg) (hmx : s.promisesMx = none) :
      Step s (.caller c) ({ s with promisesMx := some (.caller c) }.setPc c (.holding msg))
  | test (c msg) (hpc : s.pc c = .holding msg) (hconn : s.connected = true) :
      Step s (.caller c) (s.setPc c (.tested msg))
  | refuse (c msg) (hpc : s.pc c = .holding msg) (hconn : s.connected = false) :
      Step s (.caller c) ({ s with promisesMx := none }.setPc c (.threw msg disconnected))
  | register (c msg) (hpc : s.pc c = .tested msg) :
      Step s (.caller c)
        ({ s with
          shared := abandon s.shared (s.responsesPromises.lookup msg.id)
          responsesPromises := s.responsesPromises.insert msg.id (some c) }.setPc c
            (.registered msg))
  | release (c msg) (hpc : s.pc c = .registered msg) :
      Step s (.caller c) ({ s with promisesMx := none }.setPc c (.writing msg))
  | value (c msg m) (hpc : s.pc c = .waiting msg) (hres : s.shared c = some (.ok m)) :
      Step s (.caller c) (s.setPc c (.returned msg m))
  | raise (c msg e) (hpc : s.pc c = .waiting msg) (hres : s.shared c = some (.error e)) :
      Step s (.caller c) (s.setPc c (.threw msg e))
  | clear (c msg)
      (hpc : (∃ m, s.pc c = .returned msg m) ∨ ∃ e, s.pc c = .threw msg e)
      (htype : msg.type = CommanderMessageType.disconnect.toUint8) :
      Step s (.caller c) ({ s with connected := false }.setPc c (.cleared msg))
  | write (c msg) (hpc : s.pc c = .writing msg) :
      Step s (.write c none) (s.setPc c (.waiting msg))
  | writeFails (c msg e) (hpc : s.pc c = .writing msg) :
      Step s (.write c (some e)) (s.setPc c (.threw msg e))
  | read (msg) (hr : s.reader = .reading) :
      Step s (.read (.ok msg)) { s with reader := .received msg }
  | readFails (e) (hr : s.reader = .reading) :
      Step s (.read (.error e)) { s with reader := .catching e }
  | loop (hr : s.reader = .testing) (hconn : s.connected = true) :
      Step s .reader { s with reader := .reading }
  | leave (hr : s.reader = .testing) (hconn : s.connected = false) :
      Step s .reader { s with reader := .left }
  | lock (msg) (hr : s.reader = .received msg) (hmx : s.promisesMx = none) :
      Step s .reader { s with promisesMx := some .reader, reader := .locked msg }
  | take (msg p) (hr : s.reader = .locked msg)
      (hat : s.responsesPromises.lookup msg.id = some p) :
      Step s .reader { s with
        responsesPromises := s.responsesPromises.insert msg.id none
        reader := .taken msg p }
  | missing (msg) (hr : s.reader = .locked msg)
      (hat : s.responsesPromises.lookup msg.id = none) :
      Step s .reader { s with promisesMx := none, reader := .catching outOfRange }
  | resolve (msg c) (hr : s.reader = .taken msg (some c)) (hnone : s.shared c = none) :
      Step s .reader { s with
        shared := Function.update s.shared c (some (responseOf msg)), reader := .resolved msg }
  | resolveFails (msg p e) (hr : s.reader = .taken msg p)
      (hset : setResult s.shared p (responseOf msg) = .error e) :
      Step s .reader { s with promisesMx := none, reader := .catching e }
  | erase (msg) (hr : s.reader = .resolved msg) :
      Step s .reader { s with
        responsesPromises := s.responsesPromises.erase msg.id, reader := .erased }
  | unlock (hr : s.reader = .erased) :
      Step s .reader { s with promisesMx := none, reader := .testing }
  | flag (e) (hr : s.reader = .catching e) :
      Step s .reader { s with connected := false, reader := .flagged e }
  | lockSweep (e) (hr : s.reader = .flagged e) (hmx : s.promisesMx = none) :
      Step s .reader { s with
        promisesMx := some .reader
        reader := .sweeping e s.responsesPromises.keys }
  | sweep (e k ks c) (hr : s.reader = .sweeping e (k :: ks))
      (hat : s.responsesPromises.lookup k = some (some c)) (hnone : s.shared c = none) :
      Step s .reader { s with
        shared := Function.update s.shared c (some (.error e)), reader := .sweeping e ks }
  | sweepFails (e k ks e') (hr : s.reader = .sweeping e (k :: ks))
      (hset : setResult s.shared ((s.responsesPromises.lookup k).getD none) (.error e) =
        .error e') :
      Step s .reader { s with promisesMx := none, reader := .terminated }
  | swept (e) (hr : s.reader = .sweeping e []) :
      Step s .reader { s with promisesMx := none, reader := .testing }

theorem stepCaller_cases {s s' : State} {c : CallId} (h : s.stepCaller c = some s') :
    Step s (.caller c) s' := by
  unfold State.stepCaller at h
  split at h
  case h_1 msg hpc =>
    split at h <;> cases h
    case h_1 hmx => exact .acquire c msg hpc hmx
  case h_2 msg hpc =>
    split at h <;> cases h
    case isTrue hconn => exact .test c msg hpc hconn
    case isFalse hconn => exact .refuse c msg hpc (by simpa using hconn)
  case h_3 msg hpc => cases h; exact .register c msg hpc
  case h_4 msg hpc => cases h; exact .release c msg hpc
  case h_5 msg hpc =>
    split at h <;> cases h
    case h_1 m hres => exact .value c msg m hpc hres
    case h_2 e hres => exact .raise c msg e hpc hres
  case h_6 msg m hpc =>
    split at h <;> cases h
    case isTrue htype => exact .clear c msg (.inl ⟨m, hpc⟩) htype
  case h_7 msg e hpc =>
    split at h <;> cases h
    case isTrue htype => exact .clear c msg (.inr ⟨e, hpc⟩) htype
  case h_8 => cases h

theorem stepReader_cases {s s' : State} (h : s.stepReader = some s') : Step s .reader s' := by
  unfold State.stepReader at h
  split at h
  case h_1 hr =>
    cases h
    by_cases hconn : s.connected = true
    · rw [if_pos hconn]
      exact .loop hr hconn
    · rw [if_neg hconn]
      exact .leave hr (by simpa using hconn)
  case h_2 msg hr =>
    split at h <;> cases h
    case h_1 hmx => exact .lock msg hr hmx
  case h_3 msg hr =>
    split at h <;> cases h
    case h_1 p hat => exact .take msg p hr hat
    case h_2 hat => exact .missing msg hr hat
  case h_4 msg p hr =>
    split at h <;> cases h
    case h_1 shared hset =>
      obtain ⟨c, rfl, hnone, rfl⟩ := setResult_ok_iff.mp hset
      exact .resolve msg c hr hnone
    case h_2 e hset => exact .resolveFails msg p e hr hset
  case h_5 msg hr => cases h; exact .erase msg hr
  case h_6 hr => cases h; exact .unlock hr
  case h_7 e hr => cases h; exact .flag e hr
  case h_8 e hr =>
    split at h <;> cases h
    case h_1 hmx => exact .lockSweep e hr hmx
  case h_9 e k ks hr =>
    split at h <;> cases h
    case h_1 shared hset =>
      obtain ⟨c, hp, hnone, rfl⟩ := setResult_ok_iff.mp hset
      exact .sweep e k ks c hr (by cases h : s.responsesPromises.lookup k <;> simp_all) hnone
    case h_2 e' hset => exact .sweepFails e k ks e' hr hset
  case h_10 e hr => cases h; exact .swept e hr
  case h_11 => cases h

theorem step_cases {s s' : State} {a : Action} (h : step s a = some s') : Step s a s' := by
  cases a with
  | enter c =>
      simp only [step] at h
      split at h <;> cases h
      case h_1 hpc => exact .enter c hpc
  | build c type data =>
      simp only [step] at h
      split at h
      case h_1 hpc =>
        split at h <;> cases h
        case isTrue htype => exact .build c type data (.inl ⟨hpc, htype⟩)
      case h_2 hpc =>
        split at h <;> cases h
        case isTrue htype => exact .build c type data (.inr ⟨hpc, htype⟩)
      case h_3 => cases h
  | caller c => exact stepCaller_cases h
  | write c failure =>
      simp only [step] at h
      split at h <;> cases h
      case h_1 msg hpc => exact .write c msg hpc
      case h_2 msg e hpc => exact .writeFails c msg e hpc
  | read result =>
      simp only [step] at h
      split at h <;> cases h
      case h_1 msg hr => exact .read msg hr
      case h_2 e hr => exact .readFails e hr
  | reader => exact stepReader_cases h

/-! ## The invariant -/

/-- The call is between taking `_promises_mx` and releasing it. -/
def CallPc.inside : CallPc → Prop
  | .holding _ | .tested _ | .registered _ => True
  | _ => False

/-- The call has passed its test of `_connected` and is still inside the critical section. -/
def CallPc.passed : CallPc → Prop
  | .tested _ | .registered _ => True
  | _ => False

/-- The promise is registered and the call has neither returned nor thrown. -/
def CallPc.pending : CallPc → Option UInt32
  | .registered msg | .writing msg | .waiting msg => some msg.id
  | _ => none

/-- The id under which the promise of the call may be in the map. -/
def CallPc.sentId : CallPc → Option UInt32
  | .registered msg | .writing msg | .waiting msg | .returned msg _ | .threw msg _
  | .cleared msg => some msg.id
  | _ => none

/-- The reader is between taking `_promises_mx` and releasing it. -/
def ReaderPc.inside : ReaderPc → Prop
  | .locked _ | .taken _ _ | .resolved _ | .erased | .sweeping _ _ => True
  | _ => False

/-- The entry the reader has moved the promise out of and not yet erased. -/
def ReaderPc.moved : ReaderPc → Option UInt32
  | .taken msg _ | .resolved msg => some msg.id
  | _ => none

/-- No entry of the map is resolved. -/
def State.Unresolved (s : State) : Prop :=
  ∀ id c, s.responsesPromises.lookup id = some (some c) → s.shared c = none

/-- The handler has run: nothing can be registered any more and every entry is resolved. -/
structure State.Swept (s : State) : Prop where
  disconnected : s.connected = false
  closed : ∀ c, ¬ (s.pc c).passed
  resolved : ∀ id p, s.responsesPromises.lookup id = some p → ∃ c, p = some c ∧ s.shared c ≠ none

/-- The handler is running and has still the entries `ks` before it. -/
structure State.Sweeping (s : State) (ks : List UInt32) : Prop where
  disconnected : s.connected = false
  nodup : ks.Nodup
  ahead : ∀ k ∈ ks, ∃ c, s.responsesPromises.lookup k = some (some c) ∧ s.shared c = none
  behind : ∀ id c, s.responsesPromises.lookup id = some (some c) → id ∉ ks → s.shared c ≠ none

/-- The reader is between its test of `_connected` and the sweep of the handler. -/
def ReaderPc.live : ReaderPc → Prop
  | .reading | .received _ | .locked _ | .taken _ _ | .resolved _ | .erased | .catching _
  | .flagged _ => True
  | _ => False

/-- What the entries of the map are at each point of the reader. -/
structure State.Entries (s : State) : Prop where
  live : s.reader.live → s.Unresolved
  flagged : ∀ e, s.reader = .flagged e → s.connected = false
  sweeping : ∀ e ks, s.reader = .sweeping e ks → s.Sweeping ks
  outside : s.reader = .testing ∨ s.reader = .left → s.Unresolved ∨ s.Swept
  notTerminated : s.reader ≠ .terminated

/-- The thread stands between the lock and the unlock of `_promises_mx`. -/
def State.inside (s : State) : Owner → Prop
  | .caller c => (s.pc c).inside
  | .reader   => s.reader.inside

/-- Who holds the mutex. -/
structure State.Locks (s : State) : Prop where
  caller : ∀ c, (s.pc c).inside → s.promisesMx = some (.caller c)
  reader : s.reader.inside → s.promisesMx = some .reader

/-- Which call each promise belongs to. -/
structure State.Belongs (s : State) : Prop where
  entry : ∀ id c, s.responsesPromises.lookup id = some (some c) → (s.pc c).sentId = some id
  moved : ∀ id, s.responsesPromises.lookup id = some none ↔ s.reader.moved = some id
  taken : ∀ msg p, s.reader = .taken msg p →
    ∃ c, p = some c ∧ s.shared c = none ∧ (s.pc c).sentId = some msg.id
  fresh : ∀ c, (s.pc c).sentId = none → s.shared c = none
  pending : ∀ c id, (s.pc c).pending = some id → s.shared c = none →
    s.responsesPromises.lookup id = some (some c) ∨
      ∃ msg, msg.id = id ∧ s.reader = .taken msg (some c)

/-- The invariant of the threads of a `Commander`. -/
structure Inv (s : State) : Prop where
  locks : s.Locks
  belongs : s.Belongs
  entries : s.Entries

/-! ## Every step keeps the invariant -/

@[grind →] theorem CallPc.passed_inside {pc : CallPc} (h : pc.passed) : pc.inside := by
  cases pc <;> simp_all [CallPc.passed, CallPc.inside]

@[grind →] theorem ReaderPc.moved_inside {r : ReaderPc} {id : UInt32} (h : r.moved = some id) :
    r.inside := by
  cases r <;> simp_all [ReaderPc.moved, ReaderPc.inside]

attribute [local grind =] Function.update_apply
attribute [local grind] CallPc.inside CallPc.passed CallPc.pending CallPc.sentId ReaderPc.inside
  ReaderPc.moved ReaderPc.live

theorem State.Locks.step {s s' : State} {a : Action} (hl : s.Locks) (h : Step s a s') :
    s'.Locks := by
  obtain ⟨hcaller, hreader⟩ := hl
  cases h <;> constructor <;> grind

/-- Whoever owns the mutex has not come to its unlock yet. -/
theorem State.Locks.owner_step {s s' : State} {a : Action} (hl : s.Locks)
    (hheld : ∀ o, s.promisesMx = some o → s.inside o) (h : Step s a s') (o : Owner)
    (ho : s'.promisesMx = some o) : s'.inside o := by
  obtain ⟨hcaller, hreader⟩ := hl
  cases o <;> cases h <;> grind [State.inside]

namespace Inv

variable {s s' : State} {a : Action}

theorem entry_step (hi : Inv s) (h : Step s a s') :
    ∀ id c, s'.responsesPromises.lookup id = some (some c) → (s'.pc c).sentId = some id := by
  obtain ⟨_, ⟨hentry, _, _, _, _⟩, _⟩ := hi
  cases h <;> grind

theorem moved_step (hi : Inv s) (h : Step s a s') :
    ∀ id, s'.responsesPromises.lookup id = some none ↔ s'.reader.moved = some id := by
  obtain ⟨⟨hcaller, hreader⟩, ⟨_, hmoved, htaken, _, _⟩, _⟩ := hi
  cases h <;> grind

theorem taken_step (hi : Inv s) (h : Step s a s') :
    ∀ msg p, s'.reader = .taken msg p →
      ∃ c, p = some c ∧ s'.shared c = none ∧ (s'.pc c).sentId = some msg.id := by
  obtain ⟨⟨hcaller, hreader⟩, ⟨hentry, hmoved, htaken, _, _⟩, ⟨hlive, _, _, _, _⟩⟩ := hi
  cases h
  case take msg p hr hat =>
    rintro msg' p' ⟨rfl, rfl⟩
    cases p with
    | none   => simp [hmoved, hr, ReaderPc.moved] at hat
    | some c => exact ⟨c, rfl, hlive (by simp [hr, ReaderPc.live]) _ c hat, hentry _ c hat⟩
  all_goals grind

theorem fresh_step (hi : Inv s) (h : Step s a s') :
    ∀ c, (s'.pc c).sentId = none → s'.shared c = none := by
  obtain ⟨_, ⟨hentry, _, htaken, hfresh, _⟩, _⟩ := hi
  cases h
  case register =>
    -- a promise abandoned here was an entry, so its call has an id already
    simp only [State.setPc_pc, State.setPc_shared]
    grind
  all_goals grind

theorem pending_step (hi : Inv s) (h : Step s a s') :
    ∀ c id, (s'.pc c).pending = some id → s'.shared c = none →
      s'.responsesPromises.lookup id = some (some c) ∨
        ∃ msg, msg.id = id ∧ s'.reader = .taken msg (some c) := by
  obtain ⟨_, ⟨_, hmoved, _, _, hpending⟩, _⟩ := hi
  cases h
  case register =>
    simp only [State.setPc_pc, State.setPc_shared, State.setPc_responsesPromises]
    grind
  all_goals grind

theorem belongs_step (hi : Inv s) (h : Step s a s') : s'.Belongs :=
  ⟨hi.entry_step h, hi.moved_step h, hi.taken_step h, hi.fresh_step h, hi.pending_step h⟩

/-- Only the sweep resolves entries that stay in the map. -/
theorem unresolved_step (hi : Inv s) (hu : s.Unresolved) (h : Step s a s')
    (hr : ∀ e ks, s.reader ≠ .sweeping e ks) : s'.Unresolved := by
  obtain ⟨_, ⟨hentry, hmoved, htaken, hfresh, _⟩, _⟩ := hi
  cases h
  case register =>
    simp only [State.Unresolved, State.setPc_shared, State.setPc_responsesPromises] at hu ⊢
    grind
  all_goals grind [State.Unresolved]

/-- After the sweep nothing is registered, as the flag is down and no call is past its test. -/
theorem swept_step (hs : s.Swept) (h : Step s a s')
    (hr : s.reader = .testing ∨ s.reader = .left) : s'.Swept := by
  obtain ⟨hconn, hclosed, hresolved⟩ := hs
  cases h <;> constructor <;> grind

/-- The other threads leave a sweep alone: the reader holds the mutex. -/
theorem sweeping_frame {e : Fault} {ks : List UInt32} (hi : Inv s) (hs : s.Sweeping ks)
    (h : Step s a s') (hr : s.reader = .sweeping e ks) (ha : a ≠ .reader) :
    s'.reader = s.reader ∧ s'.Sweeping ks := by
  obtain ⟨⟨hcaller, hreader⟩, _, _⟩ := hi
  obtain ⟨hconn, hnodup, hahead, hbehind⟩ := hs
  cases h <;> refine ⟨?_, ?_, ?_, ?_, ?_⟩ <;> grind

/-- The sweep resolves one entry after the other, each for the first time. -/
theorem sweeping_step {e : Fault} {ks : List UInt32} (hi : Inv s) (hs : s.Sweeping ks)
    (h : Step s .reader s') (hr : s.reader = .sweeping e ks) :
    (∃ k ks', ks = k :: ks' ∧ s'.reader = .sweeping e ks' ∧ s'.Sweeping ks') ∨
      (ks = [] ∧ s'.reader = .testing ∧ s'.Swept) := by
  obtain ⟨⟨hcaller, hreader⟩, ⟨hentry, hmoved, _, _, _⟩, _⟩ := hi
  obtain ⟨hconn, hnodup, hahead, hbehind⟩ := hs
  cases h
  case sweep e' k ks' c hr' hat hnone =>
    obtain ⟨rfl, rfl⟩ : e = e' ∧ ks = k :: ks' := by grind
    refine .inl ⟨k, ks', rfl, rfl, hconn, ?_, ?_, ?_⟩ <;> grind
  case sweepFails e' k ks' e'' hr' hset =>
    obtain ⟨rfl, rfl⟩ : e = e' ∧ ks = k :: ks' := by grind
    obtain ⟨c, hat, hnone⟩ := hahead k List.mem_cons_self
    simp [hat, setResult_unresolved hnone] at hset
  case swept e' hr' =>
    obtain rfl : ks = [] := by grind
    refine .inr ⟨rfl, rfl, hconn, fun c hpassed => ?_, fun id p hat => ?_⟩
    · have hmx := hcaller c (CallPc.passed_inside hpassed)
      rw [hreader (by simp [hr, ReaderPc.inside])] at hmx
      cases hmx
    · cases p with
      | none   => simp [hmoved, hr, ReaderPc.moved] at hat
      | some c => exact ⟨c, rfl, hbehind id c hat List.not_mem_nil⟩
  all_goals grind

theorem flagged_step (hi : Inv s) (h : Step s a s') :
    ∀ e, s'.reader = .flagged e → s'.connected = false := by
  have hflagged := hi.entries.flagged
  cases h <;> grind

/-- The handler starts with every entry before it. -/
theorem sweeping_start (hi : Inv s) (hu : s.Unresolved) (h : Step s a s') {e : Fault}
    {ks : List UInt32} (hr : ∀ e ks, s.reader ≠ .sweeping e ks) (hr' : s'.reader = .sweeping e ks) :
    s'.Sweeping ks := by
  obtain ⟨_, ⟨_, hmoved, _, _, _⟩, ⟨_, hflagged, _, _, _⟩⟩ := hi
  cases h
  case lockSweep e hflag hmx =>
    obtain ⟨rfl, rfl⟩ := hr'
    refine ⟨hflagged _ hflag, s.responsesPromises.keys_nodup, fun k hk => ?_,
      fun id c hat hid => ?_⟩
    · obtain ⟨p, hat⟩ := Option.isSome_iff_exists.mp (AList.lookup_isSome.mpr hk)
      cases p with
      | none   => simp [hmoved, hflag, ReaderPc.moved] at hat
      | some c => exact ⟨c, hat, hu k c hat⟩
    · exact absurd (AList.lookup_isSome.mp (by simp [hat])) hid
  all_goals grind

theorem entries_step (hi : Inv s) (h : Step s a s') : s'.Entries := by
  by_cases hsw : ∃ e ks, s.reader = .sweeping e ks
  · obtain ⟨e, ks, hr⟩ := hsw
    have hs := hi.entries.sweeping e ks hr
    by_cases ha : a = .reader
    · subst ha
      obtain ⟨k, ks', -, hr', hs'⟩ | ⟨-, hr', hs'⟩ := hi.sweeping_step hs h hr
      · constructor <;> grind
      · constructor <;> grind
    · obtain ⟨hr', hs'⟩ := hi.sweeping_frame hs h hr ha
      constructor <;> grind
  · have hr : ∀ e ks, s.reader ≠ .sweeping e ks := fun e ks he => hsw ⟨e, ks, he⟩
    have hstate : s.Unresolved ∨ ((s.reader = .testing ∨ s.reader = .left) ∧ s.Swept) := by
      have ⟨hlive, _, _, houtside, hterm⟩ := hi.entries
      cases hsr : s.reader <;> grind
    obtain hu | ⟨hout, hs⟩ := hstate
    · have hu' := hi.unresolved_step hu h hr
      refine ⟨fun _ => hu', hi.flagged_step h, fun e ks => hi.sweeping_start hu h hr,
        fun _ => .inl hu', ?_⟩
      have hterm := hi.entries.notTerminated
      cases h <;> grind
    · have hs' := swept_step hs h hout
      have hconn := hs.disconnected
      refine ⟨?_, hi.flagged_step h, ?_, fun _ => .inr hs', ?_⟩ <;> cases h <;> grind

theorem step (hi : Inv s) (h : Step s a s') : Inv s' :=
  ⟨hi.locks.step h, hi.belongs_step h, hi.entries_step h⟩

theorem init : Inv init := by
  refine ⟨⟨?_, ?_⟩, ⟨?_, ?_, ?_, ?_, ?_⟩, ⟨?_, ?_, ?_, ?_, ?_⟩⟩ <;>
    simp [Commander.init, CallPc.inside, CallPc.sentId, CallPc.pending, ReaderPc.inside,
      ReaderPc.moved, ReaderPc.live, State.Unresolved]

/-- The invariant holds in every state a run of the threads reaches. -/
theorem of_reaches (h : Transition.Reaches Commander.step Commander.init s) : Inv s :=
  h.invariant (fun _ _ _ hi hstep => hi.step (step_cases hstep)) init

/-- The owner of the mutex is inside, in every state a run of the threads reaches. -/
theorem inside_of_reaches (h : Transition.Reaches Commander.step Commander.init s) (o : Owner)
    (ho : s.promisesMx = some o) : s.inside o := by
  have hboth : Inv s ∧ ∀ o, s.promisesMx = some o → s.inside o := by
    refine h.invariant (I := fun s => Inv s ∧ ∀ o, s.promisesMx = some o → s.inside o) ?_
      ⟨init, ?_⟩
    · intro t a t' ht hstep
      exact ⟨ht.1.step (step_cases hstep), ht.1.locks.owner_step ht.2 (step_cases hstep)⟩
    · intro o ho
      cases ho
  exact hboth.2 o ho

end Inv

end Commander
end ZControl
