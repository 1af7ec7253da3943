import ZControl.Connection.Steps

/-!
# The worker follows the protocol

Seen from the commander, what lies behind the connection is a worker that answers each command it
received at most once, with a message of the same id: the bytes on the way are the frames of the
messages sent and not received yet, and the account of the worker says that what a handler answers
has not been answered. So every run of a connection is one of a `Commander.Session`.
-/

namespace ZControl

open MessageTransport Transition

namespace Connection

open Worker (ReadStage Command Answer)

variable {n : Nat} {dirsToOverride : DirsToOverride}

/-- A `::send` that returns has taken its whole buffer, fewer than `2 ^ 32` commands are built, and
messages stay below the `2 ^ 32` bytes that their length prefix can tell. -/
def Fits (s : State n) : Action n → Prop
  | .commander (.build _ _ data) => s.commands + 1 < 2 ^ 32 ∧ data.length < 2 ^ 32
  | .worker (.send i none)       =>
      match s.worker.handler i with
      | .sending _ _ m => m.data.length < 2 ^ 32
      | _              => True
  | .shortWrite _ _ | .shortSend _ _ => False
  | _ => True

instance (s : State n) : (a : Action n) → Decidable (Fits s a)
  | .commander (.build _ _ data) =>
      inferInstanceAs (Decidable (s.commands + 1 < 2 ^ 32 ∧ data.length < 2 ^ 32))
  | .commander (.enter _) | .commander (.caller _) | .commander (.write _ _)
  | .commander (.read _) | .commander .reader => isTrue trivial
  | .receive _ => isTrue trivial
  | .worker (.send i none) =>
      match h : s.worker.handler i with
      | .sending _ _ m =>
          decidable_of_iff (m.data.length < 2 ^ 32) (by simp [Fits, h])
      | .testing | .locking | .waiting | .blocking | .sleeping | .woken | .popping
      | .running _ _ _ | .stopping _ _ _ | .answering _ _ _ | .catching _ | .flagged | .left =>
          isTrue (by simp [Fits, h])
  | .worker (.send _ (some _)) | .worker .reader | .worker (.poll _) | .worker (.recv _)
  | .worker (.notifyOne _) | .worker (.handler _) | .worker (.op _ _) | .worker (.wakeHandler _)
  | .worker (.waiter _) | .worker (.wakeWaiter _) | .worker (.closer _) => isTrue trivial
  | .shortWrite _ _ | .shortSend _ _ => isFalse id

/-! ## Readers that read no more -/

/-- The commander's reader has failed or left, or it is about to leave. -/
def Deaf (t : Commander.State) : Prop :=
  match t.reader with
  | .catching _ | .left | .terminated           => True
  | .flagged _  | .sweeping _ _      | .testing => t.connected = false
  | _                                           => False

theorem Deaf.step {t t' : Commander.State} {a : Commander.Action} (hd : Deaf t)
    (h : Commander.Step t a t') : Deaf t' := by
  by_cases hsame : t'.reader = t.reader
  · have hconn := h.connected_false
    unfold Deaf at hd ⊢
    rw [hsame]
    split at hd <;> simp_all
  · cases h
    case readFails | missing | resolveFails | sweepFails | leave => trivial
    case flag | lockSweep | sweep | swept => simp_all [Deaf]
    case loop | read | lock | take | resolve | erase | unlock => simp_all [Deaf]
    all_goals exact absurd rfl hsame

theorem Deaf.not_reading {t : Commander.State} (hd : Deaf t) : t.reader ≠ .reading := by
  intro hr
  simp [Deaf, hr] at hd

/-- The worker's reader has failed or left, or it is about to leave. -/
def WorkerDeaf (w : Worker.State n) : Prop :=
  match w.reader with
  | .catching _ | .left     => True
  | .flagged    | .testing  => w.world.shouldStop = true
  | _                       => False

/-- What the worker's reader has received of a message. -/
def partOf : Worker.ReaderPc → Bytes
  | .polling stage buffer   => received stage buffer
  | .receiving stage buffer => received stage buffer
  | _                       => []

variable {w w' : Worker.State n} {a : Worker.Action n}

theorem WorkerDeaf.step (hd : WorkerDeaf w) (h : Worker.Step dirsToOverride w a w') :
    WorkerDeaf w' := by
  by_cases hsame : w'.reader = w.reader
  · have hstop := h.stopped
    unfold WorkerDeaf at hd ⊢
    rw [hsame]
    split at hd <;> simp_all
  · cases h
    case reads ha hread =>
      rcases ha with ⟨-, hr, hclear⟩ | ⟨_, _, _, -, -, hr⟩
      · simp [WorkerDeaf, hr, hclear] at hd
      · simp [WorkerDeaf, hr] at hd
    case readerLeaves | readFails | cancelled => trivial
    case readerCatches => rfl
    case readerNotifies hr => simpa [WorkerDeaf, hr] using hd
    case ready hr _ | pushLocks hr _ | pushes hr | notifiesOne hr _ | notifiesNone hr _ =>
      simp [WorkerDeaf, hr] at hd
    case closes c hclose => exact absurd (by cases hclose <;> rfl) hsame
    all_goals exact absurd rfl hsame

/-- A reader whose flag is clear goes to wait for a header. -/
theorem polls_of_testing (h : Worker.step dirsToOverride w .reader = some w')
    (hr : w.reader = .testing) (hclear : w.world.shouldStop = false) :
    w' = { w with reader := .polling .header [] } := by
  simp only [Worker.step, Worker.State.stepReader, hr, hclear] at h
  simpa [readOn_progress, progress, Worker.ReadStage.count] using h.symm

/-- A step that does not receive takes nothing from the stream. -/
theorem silent_reads (h : Worker.step dirsToOverride w a = some w') (ha : WorkerSilent a) :
    w'.reads = w.reads ∧ (partOf w'.reader = partOf w.reader ∨ WorkerDeaf w') := by
  have hstep := Worker.step_cases h
  cases hstep
  case reads ha' hread =>
    rcases ha' with ⟨rfl, hr, hclear⟩ | ⟨piece, _, _, rfl, -, -⟩
    · rw [polls_of_testing h hr hclear]
      exact ⟨rfl, .inl (by rw [hr]; rfl)⟩
    · exact ha.elim
  case readerLeaves | readFails | cancelled => exact ⟨rfl, .inr trivial⟩
  case closes c hclose => cases hclose <;> exact ⟨rfl, .inl rfl⟩
  case ready hr _ | pushLocks hr _ | pushes hr | notifiesOne hr _ | notifiesNone hr _ |
      readerCatches hr | readerNotifies hr =>
    exact ⟨rfl, .inl (by rw [hr]; rfl)⟩
  all_goals exact ⟨rfl, .inl rfl⟩

/-- A piece that is received continues the message begun. -/
theorem arrives_reads {piece : Bytes}
    (h : Worker.step dirsToOverride w (.recv (some piece)) = some w') :
    (w'.reads = w.reads ∧ (partOf w'.reader = partOf w.reader ++ piece ∨ WorkerDeaf w')) ∨
      ∃ m, m.data.length < 2 ^ 32 ∧ w'.reads = w.reads ++ [m] ∧
        frameOf m = partOf w.reader ++ piece ∧ partOf w'.reader = [] ∧ ¬ WorkerDeaf w := by
  simp only [Worker.step, Worker.State.recv] at h
  split at h
  case h_1 heq => cases heq
  case h_2 stage buffer piece' hr heq =>
    cases heq
    split at h
    case isTrue => cases h; exact .inl ⟨rfl, .inr trivial⟩
    case isFalse =>
      split at h
      case isFalse => cases h
      case isTrue hle =>
        cases h
        have hreach : Reaches (received stage (buffer ++ piece))
            (progress stage (buffer ++ piece)) :=
          progress_reaches (by rw [List.length_append]; exact hle)
        rw [readOn_progress, hr]
        rw [received_append] at hreach
        generalize progress stage (buffer ++ piece) = p at hreach
        cases hreach with
        | waits stage' buffer' hbytes hlt => exact .inl ⟨rfl, .inl hbytes⟩
        | returns m hbytes hm =>
            exact .inr ⟨m, hm, rfl, hbytes, rfl, by simp [WorkerDeaf, hr]⟩
  case h_3 => cases h

theorem arrives_answers {piece : Bytes} (h : Worker.Step dirsToOverride w (.recv (some piece)) w') :
    w'.answers = w.answers := by
  cases h
  case reads _ hread => cases hread <;> rfl
  all_goals rfl

theorem silent_answers (h : Worker.Step dirsToOverride w a w') (ha : WorkerSilent a) :
    w'.answers = w.answers := by
  cases h
  case sends => exact ha.elim
  case reads _ hread => cases hread <;> rfl
  case closes c hclose => cases hclose <;> rfl
  all_goals rfl

/-! ## What the session records -/

namespace Session

open Commander

variable {S : Commander.Session} {t : Commander.State} {a : Commander.Action}

theorem record_silent (ha : Silent a) :
    (S.record t a).commandsSeen = S.commandsSeen ∧ (S.record t a).commands = S.commands := by
  unfold Commander.Session.record
  split
  case h_1 => exact ha.elim
  case h_2 => exact ha.elim
  case h_3 => split <;> exact ⟨rfl, rfl⟩
  case h_4 => exact ⟨rfl, rfl⟩

theorem step_thread (ha : ∀ msg, a ≠ .read (.ok msg)) (h : Commander.step S.threads a = some t) :
    S.step (.thread a) = some (S.record t a) := by
  cases a with
  | read result =>
      cases result with
      | ok msg => exact absurd rfl (ha msg)
      | error e => simp [Commander.Session.step, h]
  | _ => simp [Commander.Session.step, h]

end Session

/-! ## The relation -/

/-- The session as which the connection is seen. -/
structure Mirrors (dirsToOverride : DirsToOverride) (s : State n) (S : Commander.Session) :
    Prop where
  threads : S.threads = s.commander
  commands : S.commands = s.commands
  seen : S.commandsSeen.Perm s.written
  answered : S.answered = s.worker.answers.map fun x => (x.command.item, x.response)
  few : s.commands < 2 ^ 32
  small : ∀ c msg, (s.commander.pc c).command = some msg → msg.data.length < 2 ^ 32
  incoming : Deaf s.commander ∨
    (received s.stage s.buffer ++ s.responses = streamOf S.transit ∧
      ∀ m ∈ S.transit, m.data.length < 2 ^ 32)
  outgoing : ∃ pending, s.written = s.worker.reads ++ pending ∧
    (∀ m ∈ pending, m.data.length < 2 ^ 32) ∧
    (WorkerDeaf s.worker ∨ partOf s.worker.reader ++ s.requests = streamOf pending)
  account : ∃ finished, Worker.Account dirsToOverride s.worker s.started finished

theorem Mirrors.init : Mirrors dirsToOverride (init n) .init where
  threads := rfl
  commands := rfl
  seen := List.Perm.refl _
  answered := rfl
  few := by show 0 < 2 ^ 32; decide
  small := by intro c msg hc; cases hc
  incoming := .inr ⟨rfl, List.forall_mem_nil _⟩
  outgoing := ⟨[], rfl, List.forall_mem_nil _, .inr rfl⟩
  account := ⟨[], .init⟩

section Steps

variable {s : State n} {S : Commander.Session}

theorem Mirrors.thread (hm : Mirrors dirsToOverride s S) {a : Commander.Action}
    {t : Commander.State} (ha : Silent a) (h : Commander.step s.commander a = some t) :
    S.step (.thread a) = some (S.record t a) ∧
      Mirrors dirsToOverride { s with commander := t } (S.record t a) := by
  have hread : ∀ msg, a ≠ .read (.ok msg) := by rintro msg rfl; exact ha
  have hbuild : ∀ c type data, a ≠ .build c type data := by rintro c type data rfl; exact ha
  have hstep := Commander.step_cases h
  refine ⟨Session.step_thread hread (by rw [hm.threads]; exact h), ?_⟩
  obtain ⟨hseen, hcommands⟩ := Session.record_silent (S := S) (t := t) ha
  constructor
  · exact Commander.Session.record_threads S
  · exact hcommands.trans hm.commands
  · rw [hseen]
    exact hm.seen
  · rw [Commander.Session.record_answered]
    exact hm.answered
  · exact hm.few
  · intro c msg hc
    rw [hstep.command_eq hbuild] at hc
    exact hm.small c msg hc
  · rw [Commander.Session.record_transit]
    exact hm.incoming.imp_left fun hd => hd.step hstep
  · exact hm.outgoing
  · exact hm.account

theorem Mirrors.builds (hm : Mirrors dirsToOverride s S) {c : Commander.CallId} {type : UInt8}
    {data : Bytes} {t : Commander.State} (hfew : s.commands + 1 < 2 ^ 32)
    (hdata : data.length < 2 ^ 32)
    (h : Commander.step s.commander (.build c type data) = some t) :
    S.step (.thread (.build c type data)) = some (S.record t (.build c type data)) ∧
      Mirrors dirsToOverride { s with commander := t, commands := s.commands + 1 }
        (S.record t (.build c type data)) := by
  have hstep := Commander.step_cases h
  refine ⟨Session.step_thread (by simp) (by rw [hm.threads]; exact h), ?_⟩
  constructor
  · rfl
  · exact congrArg (· + 1) hm.commands
  · exact hm.seen
  · exact hm.answered
  · exact hfew
  · intro d msg hd
    cases hstep
    case build =>
      simp only [Commander.State.setPc_pc] at hd
      split at hd
      · cases hd
        exact hdata
      · exact hm.small d msg hd
  · exact hm.incoming.imp_left fun hd => hd.step hstep
  · exact hm.outgoing
  · exact hm.account

theorem Mirrors.writes (hm : Mirrors dirsToOverride s S) {c : Commander.CallId} {msg : Message}
    (hpc : s.commander.pc c = .writing msg) :
    ∃ S', S.step (.thread (.write c none)) = some S' ∧
      Mirrors dirsToOverride { s with
        commander := s.commander.setPc c (.waiting msg)
        requests := s.requests ++ frameOf msg
        written := s.written ++ [msg] } S' := by
  have hsmall := hm.small c msg (by rw [hpc]; rfl)
  have h : Commander.step s.commander (.write c none) =
      some (s.commander.setPc c (.waiting msg)) := by
    simp [Commander.step, hpc]
  have hstep := Commander.step_cases h
  refine ⟨_, Session.step_thread (by simp) (by rw [hm.threads]; exact h), ?_⟩
  constructor
  · rfl
  · exact hm.commands
  · -- the message is received in the session as soon as it is on the way
    have hreceived : (S.record (s.commander.setPc c (.waiting msg)) (.write c none)).commandsSeen =
        S.received ++ [msg] ++ S.answered.map Prod.fst := by
      simp [Commander.Session.record, Commander.Session.commandsSeen, hm.threads, hpc,
        Commander.CallPc.command]
    rw [hreceived, List.append_assoc]
    refine List.perm_middle.trans ?_
    exact (hm.seen.cons msg).trans (List.perm_append_singleton msg s.written).symm
  · exact hm.answered
  · exact hm.few
  · intro d m hd
    rw [hstep.command_eq (by simp)] at hd
    exact hm.small d m hd
  · exact hm.incoming.imp_left fun hd => hd.step hstep
  · obtain ⟨pending, hwritten, hpending, hbytes⟩ := hm.outgoing
    refine ⟨pending ++ [msg], ?_, ?_, hbytes.imp_right fun hbytes => ?_⟩
    · show s.written ++ [msg] = s.worker.reads ++ (pending ++ [msg])
      rw [hwritten, List.append_assoc]
    · intro m hm'
      rcases List.mem_append.mp hm' with hm' | hm'
      · exact hpending m hm'
      · rw [List.mem_singleton.mp hm']
        exact hsmall
    · show partOf s.worker.reader ++ (s.requests ++ frameOf msg) = _
      rw [← List.append_assoc, hbytes, streamOf_append]
      simp
  · exact hm.account

/-- A piece arrives in the middle of a frame. -/
theorem Mirrors.waits (hm : Mirrors dirsToOverride s S) {piece rest buffer : Bytes}
    {stage : ReadStage} (hr : s.commander.reader = .reading) (hrest : s.responses = piece ++ rest)
    (hbytes : received stage buffer = received s.stage s.buffer ++ piece) :
    Mirrors dirsToOverride { s with responses := rest, stage := stage, buffer := buffer } S := by
  have hincoming := hm.incoming.resolve_left fun hd => hd.not_reading hr
  refine ⟨hm.threads, hm.commands, hm.seen, hm.answered, hm.few, hm.small, .inr ⟨?_, hincoming.2⟩,
    hm.outgoing, hm.account⟩
  show received stage buffer ++ rest = streamOf S.transit
  rw [hbytes, List.append_assoc, ← hrest]
  exact hincoming.1

/-- The last piece of a frame: it is that of the next answer. -/
theorem Mirrors.returns (hm : Mirrors dirsToOverride s S) {piece rest : Bytes} {m : Message}
    (hr : s.commander.reader = .reading) (hrest : s.responses = piece ++ rest)
    (hframe : frameOf m = received s.stage s.buffer ++ piece) (hsmall : m.data.length < 2 ^ 32) :
    ∃ S', S.step .deliver = some S' ∧
      Mirrors dirsToOverride { s with
        commander := { s.commander with reader := .received m }
        responses := rest
        stage := .header
        buffer := [] } S' := by
  obtain ⟨hbytes, htransit⟩ := hm.incoming.resolve_left fun hd => hd.not_reading hr
  rw [hrest, ← List.append_assoc, ← hframe] at hbytes
  obtain ⟨transit, heq, hrest'⟩ := streamOf_frame hsmall htransit hbytes
  have h : Commander.step S.threads (.read (.ok m)) =
      some { s.commander with reader := .received m } := by
    rw [hm.threads]
    simp [Commander.step, hr]
  refine ⟨{ S with threads := { s.commander with reader := .received m }, transit := transit },
    ?_, ?_⟩
  · simp [Commander.Session.step, heq, h]
  · refine ⟨rfl, hm.commands, hm.seen, hm.answered, hm.few, hm.small, .inr ⟨hrest', ?_⟩,
      hm.outgoing, hm.account⟩
    intro m' hm'
    exact htransit m' (by rw [heq]; exact List.mem_cons_of_mem _ hm')

theorem Mirrors.works (hm : Mirrors dirsToOverride s S) {a : Worker.Action n} {w : Worker.State n}
    (ha : WorkerSilent a) (h : Worker.step dirsToOverride s.worker a = some w) :
    Mirrors dirsToOverride
      { s with worker := w, started := s.started ++ s.worker.begun w a } S := by
  have hstep := Worker.step_cases h
  obtain ⟨hreads, hpart⟩ := silent_reads h ha
  obtain ⟨finished, haccount⟩ := hm.account
  refine ⟨hm.threads, hm.commands, hm.seen, ?_, hm.few, hm.small, hm.incoming, ?_,
    haccount.step hstep⟩
  · exact hm.answered.trans (by rw [silent_answers hstep ha])
  · obtain ⟨pending, hwritten, hpending, hbytes⟩ := hm.outgoing
    refine ⟨pending, by rw [hreads]; exact hwritten, hpending, ?_⟩
    rcases hbytes with hd | hbytes
    · exact .inl (hd.step hstep)
    · exact hpart.symm.imp_right fun hpart => by rw [hpart]; exact hbytes

/-- A piece of a command arrives. -/
theorem Mirrors.arrives (hm : Mirrors dirsToOverride s S) {piece rest : Bytes}
    {w : Worker.State n} (hrest : s.requests = piece ++ rest)
    (h : Worker.step dirsToOverride s.worker (.recv (some piece)) = some w) :
    Mirrors dirsToOverride { s with worker := w, requests := rest } S := by
  have hstep := Worker.step_cases h
  obtain ⟨finished, haccount⟩ := hm.account
  have hbegun := haccount.step hstep
  rw [show s.worker.begun w (.recv (some piece)) = [] from rfl, List.append_nil] at hbegun
  refine ⟨hm.threads, hm.commands, hm.seen, ?_, hm.few, hm.small, hm.incoming, ?_, hbegun⟩
  · exact hm.answered.trans (by rw [arrives_answers hstep])
  · obtain ⟨pending, hwritten, hpending, hbytes⟩ := hm.outgoing
    have hgoes : WorkerDeaf s.worker ∨
        partOf s.worker.reader ++ piece ++ rest = streamOf pending := by
      rw [List.append_assoc, ← hrest]
      exact hbytes
    rcases arrives_reads h with ⟨hreads, hpart⟩ | ⟨m, hsmall, hreads, hframe, hpart, hnot⟩
    · refine ⟨pending, by rw [hreads]; exact hwritten, hpending, ?_⟩
      rcases hgoes with hd | hgoes
      · exact .inl (hd.step hstep)
      · exact hpart.symm.imp_right fun hpart => by rw [hpart]; exact hgoes
    · -- the frame is complete, and it is that of the first message on the way
      have hgoes := hgoes.resolve_left hnot
      rw [← hframe] at hgoes
      obtain ⟨pending', heq, hrest'⟩ := streamOf_frame hsmall hpending hgoes
      refine ⟨pending', ?_, ?_, .inr ?_⟩
      · rw [hreads, List.append_assoc, List.singleton_append, ← heq]
        exact hwritten
      · intro m' hm'
        exact hpending m' (by rw [heq]; exact List.mem_cons_of_mem _ hm')
      · show partOf w.reader ++ rest = _
        rw [hpart]
        exact hrest'

/-- The commands written have distinct ids. -/
theorem Mirrors.nodup_written (hm : Mirrors dirsToOverride s S) (hi : S.Inv) :
    (s.written.map Message.id).Nodup :=
  ((hm.seen.map _).nodup_iff).mp hi.seen.nodup

/-- A command that a handler is about to answer is open in the session: it was written, and if it
had been answered, then under the same number. -/
theorem Mirrors.open_of_sending (hm : Mirrors dirsToOverride s S) (hi : S.Inv) {i : Fin n}
    {c : Command} {es : Worker.Events} {m : Message} (hpc : s.worker.handler i = .sending c es m) :
    m.id = c.item.id ∧ c.item ∈ S.received := by
  obtain ⟨finished, haccount⟩ := hm.account
  have hwork : (s.worker.handler i).work? = some (c, es, .pure m) := by rw [hpc]; rfl
  refine ⟨haccount.returns hwork, ?_⟩
  obtain ⟨hread, hnot⟩ := haccount.not_answered (i := i) (c := c) (by rw [hpc]; rfl)
  obtain ⟨pending, hwritten, -⟩ := hm.outgoing
  have hat : ∀ {k : Nat} {msg : Message}, s.worker.reads[k]? = some msg →
      s.written[k]? = some msg := by
    intro k msg hk
    rw [hwritten, List.getElem?_append_left (List.getElem?_eq_some_iff.mp hk).1]
    exact hk
  have hseen : c.item ∈ S.commandsSeen := hm.seen.mem_iff.mpr (List.mem_of_getElem? (hat hread))
  refine (List.mem_append.mp hseen).resolve_right fun hanswered => ?_
  rw [hm.answered, List.map_map] at hanswered
  obtain ⟨x, hx, heq⟩ := List.mem_map.mp hanswered
  have hitem : x.command.item = c.item := heq
  have hx' := hat (haccount.answered hx).1
  rw [hitem] at hx'
  refine hnot x hx ?_
  -- the ids of the commands written are distinct
  have hids := hm.nodup_written hi
  have hlt := (List.getElem?_eq_some_iff.mp hx').1
  refine (List.getElem?_inj (by simpa using hlt) hids).mp ?_
  rw [List.getElem?_map, List.getElem?_map, hx', hat hread]

theorem Mirrors.answers (hm : Mirrors dirsToOverride s S) (hi : S.Inv) {i : Fin n} {c : Command}
    {es : Worker.Events} {m : Message} {w : Worker.State n}
    (hpc : s.worker.handler i = .sending c es m) (hsmall : m.data.length < 2 ^ 32)
    (h : Worker.step dirsToOverride s.worker (.send i none) = some w)
    (hw : w = { s.worker with
      writeMx := none
      answers := s.worker.answers ++ [Answer.mk c es m] }.setHandler i .testing) :
    ∃ k S', S.step (.answer k m.type m.data) = some S' ∧
      Mirrors dirsToOverride { s with
        worker := w
        responses := s.responses ++ frameOf m } S' := by
  have hstep := Worker.step_cases h
  obtain ⟨hid, hopen⟩ := hm.open_of_sending hi hpc
  obtain ⟨k, hk⟩ := List.mem_iff_getElem?.mp hopen
  obtain ⟨finished, haccount⟩ := hm.account
  have hbegun := haccount.step hstep
  rw [show s.worker.begun w (.send i none) = [] from rfl, List.append_nil] at hbegun
  have hmsg : (⟨c.item.id, m.type, m.data⟩ : Message) = m := by rw [← hid]
  refine ⟨k, { S with
    received := S.received.eraseIdx k
    answered := S.answered ++ [(c.item, ⟨c.item.id, m.type, m.data⟩)]
    transit := S.transit ++ [⟨c.item.id, m.type, m.data⟩] }, ?_, ?_⟩
  · simp [Commander.Session.step, hk]
  · rw [hmsg]
    obtain ⟨hlt, hat⟩ := List.getElem?_eq_some_iff.mp hk
    constructor
    · exact hm.threads
    · exact hm.commands
    · refine List.Perm.trans ?_ hm.seen
      simp only [Commander.Session.commandsSeen, List.map_append, List.map_cons, List.map_nil,
        ← List.append_assoc]
      refine List.perm_append_comm.trans ?_
      rw [← hat]
      simpa using (List.getElem_cons_eraseIdx_perm hlt).append_right _
    · show S.answered ++ [(c.item, m)] = _
      rw [hw, Worker.State.setHandler_answers, List.map_append, hm.answered]
      rfl
    · exact hm.few
    · exact hm.small
    · refine hm.incoming.imp_right fun hbytes => ⟨?_, ?_⟩
      · show received s.stage s.buffer ++ (s.responses ++ frameOf m) = _
        rw [← List.append_assoc, hbytes.1, streamOf_append]
        simp
      · intro m' hm'
        rcases List.mem_append.mp hm' with hm' | hm'
        · exact hbytes.2 m' hm'
        · rw [List.mem_singleton.mp hm']
          exact hsmall
    · obtain ⟨pending, hwritten, hpending, hbytes⟩ := hm.outgoing
      refine ⟨pending, ?_, hpending, ?_⟩
      · rw [hw]
        exact hwritten
      · rw [hw]
        exact hbytes
    · exact ⟨_, hbegun.choose_spec⟩

end Steps

/-! ## The simulation -/

theorem Session.inv_step {S S' : Commander.Session} {a : Commander.Session.Action} (hi : S.Inv)
    (h : S.step a = some S') (hfew : S'.commands < 2 ^ 32) : S'.Inv := by
  have hstep := Commander.Session.step_cases h
  clear h
  cases hstep
  case thread a t ha h => exact hi.thread h ha hfew
  case answer i command type data hget => exact hi.answer type data hget
  case deliver msg transit htransit hr => exact hi.deliver htransit hr

/-- Every step of a connection is a step of the session, or none. -/
theorem Mirrors.step {s s' : State n} {a : Action n} {S : Commander.Session} (hfits : Fits s a)
    (hm : Mirrors dirsToOverride s S) (hi : S.Inv) (h : step dirsToOverride s a = some s') :
    ∃ S', Reaches Commander.Session.step S S' ∧ Mirrors dirsToOverride s' S' ∧ S'.Inv := by
  have hsteps : ∀ {a : Commander.Session.Action} {S' : Commander.Session},
      S.step a = some S' → Mirrors dirsToOverride s' S' →
      ∃ S', Reaches Commander.Session.step S S' ∧ Mirrors dirsToOverride s' S' ∧ S'.Inv := by
    intro a S' h hm'
    refine ⟨S', .head h (.refl S'), hm', Session.inv_step hi h ?_⟩
    rw [hm'.commands]
    exact hm'.few
  have hstep := step_cases h
  clear h
  cases hstep with
  | thread a t ha h =>
      obtain ⟨hstep, hm'⟩ := hm.thread ha h
      exact hsteps hstep hm'
  | builds c type data t h =>
      obtain ⟨hstep, hm'⟩ := hm.builds hfits.1 hfits.2 h
      exact hsteps hstep hm'
  | writes c msg hpc =>
      obtain ⟨S', hstep, hm'⟩ := hm.writes hpc
      exact hsteps hstep hm'
  | waits piece rest stage buffer hne hr hrest hbytes hlt =>
      exact ⟨S, .refl S, hm.waits hr hrest hbytes, hi⟩
  | returns piece rest m hne hr hrest hframe hsmall =>
      obtain ⟨S', hstep, hm'⟩ := hm.returns hr hrest hframe hsmall
      exact hsteps hstep hm'
  | works a w ha h => exact ⟨S, .refl S, hm.works ha h, hi⟩
  | arrives piece rest w hrest h => exact ⟨S, .refl S, hm.arrives hrest h, hi⟩
  | answers i c es m w hpc h hw =>
      have hsmall : m.data.length < 2 ^ 32 := by simpa only [Fits, hpc] using hfits
      obtain ⟨k, S', hstep, hm'⟩ := hm.answers hi hpc hsmall h hw
      exact hsteps hstep hm'
  | cutsCommand | cutsResponse => exact hfits.elim

/-- **A connection is a session**: each of its runs is that of a commander whose worker follows
the protocol. -/
theorem simulates {as : List (Action n)} {s : State n}
    (hfits : AllSteps (step dirsToOverride) Fits (init n) as)
    (hrun : run (step dirsToOverride) (init n) as = some s) :
    ∃ S, Reaches Commander.Session.step Commander.Session.init S ∧
      Mirrors dirsToOverride s S ∧ S.Inv :=
  AllSteps.simulation (R := fun s S => Mirrors dirsToOverride s S ∧ S.Inv)
    (fun _ _ _ _ hfits hR h => hR.1.step hfits hR.2 h) hfits ⟨.init, .init⟩ hrun

end Connection

end ZControl
