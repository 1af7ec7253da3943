import ZControl.Zcfs.Reconnect

/-!
# Which file a handle leads to

A call on a handle acts on the file that was opened for it, as long as the worker it is sent to is
the one that opened the file, or one that knows no file under the id. In a run with another worker
it may act on any file that this one has open under the id.
-/

namespace ZControl

open Interaction Transition

namespace Zcfs

namespace Reconnect

variable {dirsToOverride : DirsToOverride} {s s' : State} {a : Action} {r : Running}
  {t : ThreadId}

/-! ## The invariant -/

/-- The id in `fh` was given out for the file. -/
def State.Owns (s : State) (fh : UInt64) (f : RemoteFile) : Prop :=
  (fdOf fh, some f.serial) ∈ (s.worker f.conn).fileOpens

/-- Until its command is sent, a call stands at one of three places. -/
inductive Stage (a : Asking) : ZcfsProg (Int32 × UInt64) → Prop where
  | looking : Stage a a.looking
  | numbering (conn : ConnId) : Stage a (a.numbering conn)
  | sending (conn : ConnId) (id : UInt32) : Stage a (a.sending conn id)

/-- A call on a handle has acted on its file, and on no other, or it returns an error; what an open
has stored is the id of the file it has opened. -/
structure State.Concluded (s : State) (r : Running) : Prop where
  ended : Ended r.rest
  own : ∀ h, r.handle = some h → ∀ f ∈ r.acted, h.file = some f
  acted : ∀ h, r.handle = some h → r.acted ≠ [] ∨ ∃ e, r.rest = .pure (e, h.fh) ∧ e < 0
  stored : r.handle = none → ∀ fh, r.rest = .pure (0, fh) →
    ∃ f, r.opened.head? = some f ∧ s.Owns fh f

structure State.Proper (s : State) (r : Running) : Prop where
  fits : r.call.Fits r.fh
  given : ∀ h, r.handle = some h → h ∈ s.handles ∧ h.fh = r.fh ∧ r.call.opens = false
  opens : r.handle = none → r.call.opens = true
  stands : (∃ a, r.call.Asks r.fh a ∧ Stage a r.rest ∧ r.acted = [] ∧ r.opened = []) ∨
    s.Concluded r

structure Inv (s : State) : Prop where
  sessions : ∀ conn, (s.worker conn).Inv
  handles : ∀ h ∈ s.handles, ∃ f, h.file = some f ∧ s.Owns h.fh f
  running : ∀ t r, s.running t = some r → s.Proper r

theorem Inv.init : Inv init where
  sessions := fun _ => .init
  handles := by intro h hh; cases hh
  running := by intro t r ht; cases ht

/-! ## What other steps leave -/

/-- Handles are added, and ids are given out. -/
structure Grows (s s' : State) : Prop where
  handles : ∀ h ∈ s.handles, h ∈ s'.handles
  opens : ∀ conn, ∀ x ∈ (s.worker conn).fileOpens, x ∈ (s'.worker conn).fileOpens

theorem Grows.of_eq (hhandles : s'.handles = s.handles) (hworker : s'.worker = s.worker) :
    Grows s s' where
  handles := by rw [hhandles]; exact fun _ => id
  opens := by rw [hworker]; exact fun _ _ => id

theorem Grows.owns (hg : Grows s s') {fh : UInt64} {f : RemoteFile} (h : s.Owns fh f) :
    s'.Owns fh f := hg.opens _ _ h

theorem State.Proper.mono (hr : s.Proper r) (hg : Grows s s') : s'.Proper r where
  fits := hr.fits
  given := by
    intro h hh
    obtain ⟨hmem, hrest⟩ := hr.given h hh
    exact ⟨hg.handles h hmem, hrest⟩
  opens := hr.opens
  stands := by
    rcases hr.stands with hstage | hdone
    · exact .inl hstage
    · refine .inr ⟨hdone.ended, hdone.own, hdone.acted, ?_⟩
      intro hnone fh hfh
      obtain ⟨f, hf, howns⟩ := hdone.stored hnone fh hfh
      exact ⟨f, hf, hg.owns howns⟩

/-- One call moves, and the others stand where they stood. -/
theorem Inv.update (hs : Inv s) {server : Server} {nextCommandId : ConnId → UInt32}
    {worker : ConnId → Worker.Session} {handles : List Handle} {r' : Option Running}
    (hg : Grows s ⟨server, nextCommandId, worker, handles, Function.update s.running t r'⟩)
    (hsessions : ∀ conn, (worker conn).Inv)
    (hhandles : ∀ h ∈ handles, h ∈ s.handles ∨ ∃ f, h.file = some f ∧ State.Owns
      ⟨server, nextCommandId, worker, handles, Function.update s.running t r'⟩ h.fh f)
    (hr' : ∀ r, r' = some r → State.Proper
      ⟨server, nextCommandId, worker, handles, Function.update s.running t r'⟩ r) :
    Inv ⟨server, nextCommandId, worker, handles, Function.update s.running t r'⟩ where
  sessions := hsessions
  handles := by
    intro h hh
    rcases hhandles h hh with hold | hnew
    · obtain ⟨f, hf, howns⟩ := hs.handles h hold
      exact ⟨f, hf, hg.owns howns⟩
    · exact hnew
  running := by
    intro u r hr
    by_cases hut : u = t
    · subst hut
      have hr : Function.update s.running u r' u = some r := hr
      rw [Function.update_self] at hr
      exact hr' r hr
    · have hr : Function.update s.running t r' u = some r := hr
      rw [Function.update_of_ne hut] at hr
      exact (hs.running u r hr).mono hg

/-! ## Before the command is sent -/

theorem program_root {c : FileCall} (hc : c.opens = true) (hpath : c.path = [slash]) (fh : UInt64) :
    c.program fh = .pure (-EISDIR, fh) := by
  cases c with
  | «open» path flags =>
      obtain rfl : path = [slash] := hpath
      rfl
  | create path mode flags =>
      obtain rfl : path = [slash] := hpath
      rfl
  | _ => cases hc

/-- A call that starts. -/
theorem State.Proper.start {c : FileCall} {handle : Option Handle} {fh : UInt64}
    (hfits : c.Fits fh)
    (hgiven : ∀ h, handle = some h → h ∈ s.handles ∧ h.fh = fh ∧ c.opens = false)
    (hopens : handle = none → c.opens = true) :
    s.Proper ⟨c, handle, fh, c.program fh, [], []⟩ where
  fits := hfits
  given := hgiven
  opens := hopens
  stands := by
    by_cases hroot : c.opens = true ∧ c.path = [slash]
    · right
      have hrest : c.program fh = .pure (-EISDIR, fh) := program_root hroot.1 hroot.2 fh
      constructor
      · rw [hrest]
        trivial
      · intro h hh f hf
        cases hf
      · rintro h rfl
        exact nomatch hroot.1.symm.trans (hgiven h rfl).2.2
      · intro _ fh' hfh'
        rw [hrest] at hfh'
        cases hfh'
    · left
      obtain ⟨a, ha, hprogram⟩ := c.asks fh fun hc hpath => hroot ⟨hc, hpath⟩
      refine ⟨a, ha, ?_, rfl, rfl⟩
      rw [hprogram]
      exact .looking

/-- A call that has an operation left has not sent its command. -/
theorem State.Proper.stage (hr : s.Proper r) {op : ZcfsOp} {k : op.Ans → ZcfsProg (Int32 × UInt64)}
    (hrest : r.rest = .perform op k) :
    ∃ a, r.call.Asks r.fh a ∧ Stage a (.perform op k) ∧ r.acted = [] ∧ r.opened = [] := by
  rcases hr.stands with hstage | hdone
  · rw [hrest] at hstage
    exact hstage
  · have hended := hdone.ended
    rw [hrest] at hended
    exact hended.1.elim

/-- Returning an error without having acted on anything. -/
theorem State.Proper.concluded_of_error (hr : s.Proper r) (hacted : r.acted = []) {e : Int32}
    (hneg : e < 0) (opened : List RemoteFile) :
    s'.Concluded { r with rest := .pure (e, r.fh), opened := opened } where
  ended := trivial
  own := by
    intro h hh f hf
    have hf : f ∈ r.acted := hf
    rw [hacted] at hf
    cases hf
  acted := by
    intro h hh
    obtain ⟨-, hfh, -⟩ := hr.given h hh
    rw [hfh]
    exact .inr ⟨e, rfl, hneg⟩
  stored := by
    intro _ fh hfh
    cases hfh
    exact absurd hneg (by decide)

theorem State.Proper.lookUp (hr : s.Proper r) {client : Bytes}
    {k : Option ConnId → ZcfsProg (Int32 × UInt64)}
    (hrest : r.rest = .perform (.getCommander client) k) (found : Option ConnId) :
    s.Proper { r with rest := k found } where
  fits := hr.fits
  given := hr.given
  opens := hr.opens
  stands := by
    obtain ⟨a, ha, hstage, hacted, hopened⟩ := hr.stage hrest
    cases hstage
    cases found with
    | some conn => exact .inl ⟨a, ha, .numbering conn, hacted, hopened⟩
    | none =>
        right
        obtain ⟨e, hmissing, hneg⟩ := ha.missing
        have hconcluded : s.Concluded { r with rest := .pure (e, r.fh) } :=
          hr.concluded_of_error hacted hneg r.opened
        rw [← hmissing] at hconcluded
        exact hconcluded

theorem State.Proper.number (hr : s.Proper r) {conn : ConnId}
    {k : UInt32 → ZcfsProg (Int32 × UInt64)}
    (hrest : r.rest = .perform (.commander conn .nextCommandId) k) (id : UInt32) :
    s.Proper { r with rest := k id } where
  fits := hr.fits
  given := hr.given
  opens := hr.opens
  stands := by
    obtain ⟨a, ha, hstage, hacted, hopened⟩ := hr.stage hrest
    cases hstage
    exact .inl ⟨a, ha, .sending conn id, hacted, hopened⟩

/-- A call that is to send its command sends what it asks with, and does with the answer what it
is to do. -/
theorem State.Proper.sends (hr : s.Proper r) {conn : ConnId} {commanderMsg : Message}
    {k : Except Fault Message → ZcfsProg (Int32 × UInt64)}
    (hrest : r.rest = .perform (.commander conn (.sendCommand commanderMsg)) k) :
    ∃ a id, r.call.Asks r.fh a ∧ commanderMsg = r.call.message r.fh id ∧ k = a.rest conn ∧
      r.acted = [] ∧ r.opened = [] := by
  obtain ⟨a, ha, hstage, hacted, hopened⟩ := hr.stage hrest
  cases hstage with
  | sending _ id =>
    refine ⟨a, id, ha, ?_, rfl, hacted, hopened⟩
    rw [ha.message]

theorem State.Proper.fail (hr : s.Proper r) {conn : ConnId} {commanderMsg : Message}
    {k : Except Fault Message → ZcfsProg (Int32 × UInt64)}
    (hrest : r.rest = .perform (.commander conn (.sendCommand commanderMsg)) k)
    (kind : ExceptionKind) (what : Bytes) :
    s.Proper { r with rest := k (.error (.exception kind what)) } where
  fits := hr.fits
  given := hr.given
  opens := hr.opens
  stands := by
    obtain ⟨a, id, ha, -, rfl, hacted, -⟩ := hr.sends hrest
    right
    rw [ha.threw]
    exact hr.concluded_of_error hacted (by decide) r.opened

/-! ## Where the command arrives -/

section Arrives

variable {c : FileCall} {fh : UInt64} {id : UInt32} {conn : ConnId} {session : Worker.Session}
  {es : List WorkerEvent} {res answer : Except Fault Message}

/-- What the calls of a request act on is open under what its id stands for. -/
theorem mem_actedOn (hu : c.Uses fh id session.world es res) {f : RemoteFile}
    (hf : f ∈ actedOn conn session.world es) :
    f.conn = conn ∧
      session.world.files.serial (session.world.file.getFd (-1) (fdOf fh)) = some f.serial := by
  obtain ⟨serial, hserial, rfl⟩ := List.mem_map.mp hf
  obtain ⟨e, he, hopen⟩ := List.mem_filterMap.mp hserial
  obtain ⟨fd, hfd, hopen⟩ := Option.bind_eq_some_iff.mp hopen
  obtain rfl := hu.only e he fd hfd
  exact ⟨rfl, hopen⟩

theorem actedOn_of_none (hu : c.Uses fh id session.world es res)
    (hnone : session.world.file.fds.lookup (fdOf fh) = none) {f : RemoteFile} :
    f ∉ actedOn conn session.world es := by
  intro hf
  obtain ⟨-, hopen⟩ := mem_actedOn hu hf
  rw [Table.getFd, hnone, Option.getD_none, session.world.files.serial_null] at hopen
  cases hopen

/-- Under an id that is in the table, a request acts on the file that the id was given out for. -/
theorem actedOn_of_some (conn : ConnId) (hi : session.Inv)
    (hu : c.Uses fh id session.world es res) {fd : Int32}
    (hfd : session.world.file.fds.lookup (fdOf fh) = some fd) {serial : Nat}
    (hopens : (fdOf fh, some serial) ∈ session.fileOpens) :
    (∀ f ∈ actedOn conn session.world es, f = ⟨conn, serial⟩) ∧
      ⟨conn, serial⟩ ∈ actedOn conn session.world es := by
  have hget : session.world.file.getFd (-1) (fdOf fh) = fd := by
    rw [Table.getFd, hfd, Option.getD_some]
  have hserial : session.world.files.serial fd = some serial :=
    hi.file.handles.serial_of_lookup hfd hopens
  constructor
  · intro f hf
    obtain ⟨hconn, hopen⟩ := mem_actedOn hu hf
    rw [hget, hserial] at hopen
    cases f
    cases hconn
    cases hopen
    rfl
  · obtain ⟨e, he, hcalled⟩ := hu.called
    rw [hget] at hcalled
    refine List.mem_map.mpr ⟨serial, List.mem_filterMap.mpr ⟨e, he, ?_⟩, rfl⟩
    rw [hcalled]
    exact hserial

/-- An answer that is a result arrives as it is, if it arrives. -/
theorem answer_cases {response : Message} (h : answers (.ok response) answer = true)
    (hframed : FramedTruly response)
    (htype : response.type = WorkerMessageType.commandResult.toUint8) :
    (∃ kind what, answer = .error (.exception kind what)) ∨ answer = .ok response := by
  have hresponse : Commander.responseOf response = .ok response := if_pos htype
  unfold answers at h
  split at h
  case h_1 kind what => exact .inl ⟨kind, what, rfl⟩
  case h_2 =>
    right
    rw [← hresponse]
    exact (of_decide_eq_true h) hframed

theorem framedTruly_failure (hfits : c.Fits fh) (id : UInt32) (errno : Int32) :
    FramedTruly (c.failure id errno) := by
  rw [framedTruly_iff]
  cases c with
  | read path buf size offset =>
      have hfits : 12 + size.toUInt32.toNat < 2 ^ 32 := hfits
      have hiff := @FileCommandsHandler.length_readReply_iff size.toUInt32 (.error errno) errno
        (by rintro os ⟨⟩)
      dsimp only [FileCall.failure]
      rw [hiff]
      exact .inl hfits
  | _ => simp [FileCall.failure]

theorem neg_lt_zero {errno : Int32} (h : 0 < errno) : -errno < 0 := by
  have hz : (0 : Int32).toInt = 0 := rfl
  rw [Int32.lt_iff_toInt_lt, hz] at h ⊢
  have hlt := errno.toInt_lt
  rw [Int32.toInt_neg, Int.bmod_eq_of_le (by omega) (by omega)]
  omega

end Arrives

/-- The command goes to the worker that opened the file, or to one that has no file open under the
id. -/
def State.LeadsBack (s : State) (h : Handle) (conn : ConnId) : Prop :=
  h.file.map RemoteFile.conn = some conn ∨
    (s.worker conn).world.file.fds.lookup (fdOf h.fh) = none

instance (s : State) (h : Handle) (conn : ConnId) : Decidable (s.LeadsBack h conn) :=
  inferInstanceAs (Decidable (_ ∨ _))

section Handled

variable {conn : ConnId} {id : UInt32} {request : Worker.Request} {session : Worker.Session}
  {answer : Except Fault Message} {a : Asking}

/-- A command on a handle that leads back. -/
theorem concluded_of_use (s' : State) (hs : Inv s) (hr : s.Proper r) {h : Handle}
    (hh : r.handle = some h) (hleads : s.LeadsBack h conn) (ha : r.call.Asks r.fh a)
    (hacted : r.acted = []) (hmessage : request.message = r.call.message r.fh id)
    (hpos : request.events.all FileCall.positiveErrno = true)
    (hanswer : answers request.result answer = true)
    (hsession : (s.worker conn).step dirsToOverride request = some session)
    (opened : List RemoteFile) :
    s'.Concluded { r with
      rest := a.rest conn answer
      acted := r.acted ++ actedOn conn (s.worker conn).world request.events
      opened := opened } := by
  obtain ⟨hmem, hfh, hcall⟩ := hr.given h hh
  obtain ⟨f, hfile, howns⟩ := hs.handles h hmem
  obtain ⟨hexec, -, -⟩ := Worker.Session.step_exec hsession
  rw [hmessage] at hexec
  have hu := FileCall.uses_of_doCommand hcall hr.fits hpos hexec
  rw [hacted, List.nil_append]
  cases hlookup : (s.worker conn).world.file.fds.lookup (fdOf r.fh) with
  | none =>
      have hnil : actedOn conn (s.worker conn).world request.events = [] :=
        List.eq_nil_iff_forall_not_mem.mpr fun f => actedOn_of_none hu hlookup
      obtain ⟨errno, herrno, hresult⟩ := hu.failed hlookup
      have hrest : ∃ e, a.rest conn answer = .pure (e, r.fh) ∧ e < 0 := by
        rw [hresult] at hanswer
        rcases answer_cases hanswer (framedTruly_failure hr.fits id errno) rfl with
          ⟨kind, what, rfl⟩ | rfl
        · exact ⟨- EIO, ha.threw conn kind what, by decide⟩
        · exact ⟨-errno, ha.failed conn id errno hr.fits, neg_lt_zero herrno⟩
      obtain ⟨e, hrest, hneg⟩ := hrest
      rw [hnil, hrest, ← hacted]
      exact hr.concluded_of_error hacted hneg opened
  | some fd =>
      have hconn : f.conn = conn := by
        rcases hleads with hconn | hnone
        · rw [hfile] at hconn
          exact Option.some.inj hconn
        · rw [hfh, hlookup] at hnone
          cases hnone
      subst hconn
      rw [State.Owns, hfh] at howns
      obtain ⟨hown, hacts⟩ := actedOn_of_some f.conn (hs.sessions _) hu hlookup howns
      constructor
      · exact ha.ended f.conn answer
      · rintro h' hh' f' hf'
        obtain rfl : h = h' := Option.some.inj (hh.symm.trans hh')
        rw [hfile, hown f' hf']
      · intro h' _
        exact .inl (List.ne_nil_of_mem hacts)
      · intro hnone
        exact nomatch hh.symm.trans hnone

/-- The command of an open. -/
theorem concluded_of_open (hs : Inv s) (hr : s.Proper r) (hh : r.handle = none)
    (hbounded : (s.worker conn).Bounded) (ha : r.call.Asks r.fh a) (hopened : r.opened = [])
    (hmessage : request.message = r.call.message r.fh id)
    (hpos : request.events.all FileCall.positiveErrno = true)
    (hanswer : answers request.result answer = true)
    (hsession : (s.worker conn).step dirsToOverride request = some session)
    (hworker : s'.worker conn = session) (acted : List RemoteFile) :
    s'.Concluded { r with
      rest := a.rest conn answer
      acted := acted
      opened := r.opened ++ openedBy conn (s.worker conn).world request.events } where
  ended := ha.ended conn answer
  own := by
    intro h hh'
    exact nomatch hh.symm.trans hh'
  acted := by
    intro h hh'
    exact nomatch hh.symm.trans hh'
  stored := by
    rintro - fh hfh
    have hfh : a.rest conn answer = .pure (0, fh) := hfh
    obtain ⟨hexec, hfileOpens, -⟩ := Worker.Session.step_exec hsession
    rw [hmessage] at hexec
    have hcall := hr.opens hh
    -- an exception is returned as an error
    have hthrew : ∀ kind what, answer ≠ .error (.exception kind what) := by
      rintro kind what rfl
      rw [ha.threw] at hfh
      cases hfh
    rcases FileCall.opens_of_doCommand hcall hr.fits hpos hexec with
      ⟨errno, herrno, hresult, -⟩ | ⟨errno, hresult, hopens⟩
    · rw [hresult] at hanswer
      rcases answer_cases hanswer (framedTruly_failure hr.fits id errno) rfl with
        ⟨kind, what, hthrown⟩ | rfl
      · exact absurd hthrown (hthrew kind what)
      · rw [ha.failed conn id errno hr.fits] at hfh
        injection hfh with hpair
        have hneg := neg_lt_zero herrno
        rw [(Prod.mk.inj hpair).1] at hneg
        exact absurd hneg (by decide)
    · obtain ⟨-, hne⟩ := (hs.sessions conn).file.ids.fresh hbounded.1
      have hframed : FramedTruly
          (FileCall.opened id (s.worker conn).world.file.nextFdId errno) := by
        rw [framedTruly_iff]
        simp [FileCall.opened]
      have hid : Worker.returnedId request.result = (s.worker conn).world.file.nextFdId := by
        rw [hresult]
        exact Worker.Session.returnedId_reply (r.call.message r.fh id) _ errno
      rw [hresult] at hanswer
      rcases answer_cases hanswer hframed rfl with ⟨kind, what, hthrown⟩ | rfl
      · exact absurd hthrown (hthrew kind what)
      · rw [ha.stored conn id _ errno hcall hne] at hfh
        injection hfh with hpair
        obtain rfl := (Prod.mk.inj hpair).2
        refine ⟨⟨conn, (s.worker conn).world.files.created⟩, ?_, ?_⟩
        · rw [hopened, List.nil_append, openedBy, if_pos hopens]
          rfl
        · rw [State.Owns, fdOf_fhOf, hworker, hfileOpens, Worker.fileOpened, if_pos hopens, hid]
          exact List.mem_append_right _ (.head _)

end Handled

/-! ## Runs -/

/-- The call that is to send its command, and where to. -/
def State.sender (s : State) (t : ThreadId) : Option (Running × ConnId) :=
  match s.running t with
  | some r =>
      match r.rest with
      | .perform (.commander conn (.sendCommand _)) _ => some (r, conn)
      | _ => none
  | none => none

/-- A call starts whose payloads fit a frame, or a worker whose counters have not come round handles
a command, which if it names a handle has one that leads back; or the step is another one. -/
def Unconfused (s : State) : Action → Prop
  | .open _ call fh => call.Fits fh
  | .use _ call h   => call.Fits h.fh
  | .sendCommand t (.handled _ _) =>
      ∀ x ∈ s.sender t, (s.worker x.2).Bounded ∧ ∀ h ∈ x.1.handle, s.LeadsBack h x.2
  | _ => True

instance decidableUnconfused (s : State) : (a : Action) → Decidable (Unconfused s a)
  | .open _ call fh => inferInstanceAs (Decidable (call.Fits fh))
  | .use _ call h   => inferInstanceAs (Decidable (call.Fits h.fh))
  | .sendCommand t (.handled _ _) =>
      inferInstanceAs (Decidable (∀ x ∈ s.sender t,
        (s.worker x.2).Bounded ∧ ∀ h ∈ x.1.handle, s.LeadsBack h x.2))
  | .sendCommand _ (.fails _ _) => isTrue trivial
  | .accept _ _                 => isTrue trivial
  | .lose _                     => isTrue trivial
  | .getCommander _             => isTrue trivial
  | .nextCommandId _            => isTrue trivial
  | .return _                   => isTrue trivial

/-- A worker handles the command of a call. -/
theorem State.Proper.handled (hs : Inv s) (hr : s.Proper r) {conn : ConnId}
    {commanderMsg : Message} {k : Except Fault Message → ZcfsProg (Int32 × UInt64)}
    {request : Worker.Request} {answer : Except Fault Message} {session : Worker.Session}
    (hrest : r.rest = .perform (.commander conn (.sendCommand commanderMsg)) k)
    (harrives : FramedTruly commanderMsg → request.message = commanderMsg)
    (hpos : request.events.all FileCall.positiveErrno = true)
    (hanswer : answers request.result answer = true)
    (hsession : (s.worker conn).step dirsToOverride request = some session)
    (hbounded : (s.worker conn).Bounded) (hleads : ∀ h ∈ r.handle, s.LeadsBack h conn)
    (hg : Grows s s') (hworker : s'.worker conn = session) :
    s'.Proper { r with
      rest := k answer
      acted := r.acted ++ actedOn conn (s.worker conn).world request.events
      opened := r.opened ++ openedBy conn (s.worker conn).world request.events } where
  fits := hr.fits
  given := (hr.mono hg).given
  opens := hr.opens
  stands := by
    obtain ⟨a, id, ha, rfl, rfl, hacted, hopened⟩ := hr.sends hrest
    have hframed : FramedTruly (r.call.message r.fh id) := by
      rw [framedTruly_iff, FileCall.message, (FileCall.written_fields hr.fits).1]
      exact (FileCall.written_fields hr.fits).2
    right
    cases hh : r.handle with
    | none =>
        have hconcluded := concluded_of_open hs hr hh hbounded ha hopened (harrives hframed) hpos
          hanswer hsession hworker
          (r.acted ++ actedOn conn (s.worker conn).world request.events)
        rw [hh] at hconcluded
        exact hconcluded
    | some h =>
        have hconcluded := concluded_of_use s' hs hr hh (hleads h hh) ha hacted
          (harrives hframed) hpos hanswer hsession
          (r.opened ++ openedBy conn (s.worker conn).world request.events)
        rw [hh] at hconcluded
        exact hconcluded

/-- A call that has returned has come to its end. -/
theorem State.Proper.concluded (hr : s.Proper r) {x : Int32 × UInt64} (hrest : r.rest = .pure x) :
    s.Concluded r := by
  rcases hr.stands with ⟨a, -, hstage, -⟩ | hdone
  · rw [hrest] at hstage
    cases hstage
  · exact hdone

/-- What it leaves is the id of the file it has opened. -/
theorem State.Proper.stores (hr : s.Proper r) {result : Int32} {fh : UInt64}
    (hrest : r.rest = .pure (result, fh)) {h : Handle} (hh : h ∈ r.stores result fh) :
    ∃ f, h.file = some f ∧ s.Owns h.fh f := by
  unfold Running.stores at hh
  split at hh
  case isFalse => cases hh
  case isTrue hstores =>
    obtain ⟨hcall, rfl⟩ := hstores
    obtain rfl := List.mem_singleton.mp hh
    refine (hr.concluded hrest).stored ?_ fh hrest
    cases hhandle : r.handle with
    | none   => rfl
    | some h => exact nomatch hcall.symm.trans (hr.given h hhandle).2.2

theorem Inv.step (hs : Inv s) (hcond : Unconfused s a) (h : step dirsToOverride s a = some s') :
    Inv s' := by
  cases step_cases h with
  | accepts ip port =>
      exact ⟨hs.sessions, hs.handles, fun t r ht => (hs.running t r ht).mono (.of_eq rfl rfl)⟩
  | loses conn =>
      exact ⟨hs.sessions, hs.handles, fun t r ht => (hs.running t r ht).mono (.of_eq rfl rfl)⟩
  | opens t call fh hcall =>
      refine hs.update (.of_eq rfl rfl) hs.sessions (fun _ => .inl) ?_
      rintro r ⟨⟩
      refine .start hcond ?_ fun _ => hcall
      rintro h ⟨⟩
  | uses t call h' hcall hh =>
      refine hs.update (.of_eq rfl rfl) hs.sessions (fun _ => .inl) ?_
      rintro r ⟨⟩
      refine .start hcond ?_ (by rintro ⟨⟩)
      rintro h ⟨⟩
      exact ⟨hh, rfl, hcall⟩
  | looksUp t r client k ht hrest =>
      refine hs.update (.of_eq rfl rfl) hs.sessions (fun _ => .inl) ?_
      rintro r ⟨⟩
      exact ((hs.running t _ ht).lookUp hrest _).mono (.of_eq rfl rfl)
  | numbers t r conn k nextCommandId ht hrest =>
      refine hs.update (.of_eq rfl rfl) hs.sessions (fun _ => .inl) ?_
      rintro r ⟨⟩
      exact ((hs.running t _ ht).number hrest _).mono (.of_eq rfl rfl)
  | fails t r conn commanderMsg k kind what ht hrest =>
      refine hs.update (.of_eq rfl rfl) hs.sessions (fun _ => .inl) ?_
      rintro r ⟨⟩
      exact ((hs.running t _ ht).fail hrest kind what).mono (.of_eq rfl rfl)
  | handles t r conn commanderMsg k request answer session ht hrest harrives hpos hanswer
      hsession =>
      have hr := hs.running t r ht
      have hsender : s.sender t = some (r, conn) := by
        rw [State.sender, ht]
        dsimp only
        rw [hrest]
      obtain ⟨hbounded, hleads⟩ := hcond _ hsender
      have hworker : Function.update s.worker conn session conn = session := Function.update_self ..
      have hopens : ∀ conn', ∀ x ∈ (s.worker conn').fileOpens,
          x ∈ (Function.update s.worker conn session conn').fileOpens := by
        intro conn' x hx
        by_cases hconn : conn' = conn
        · subst hconn
          rw [hworker, (Worker.Session.step_exec hsession).2.1]
          exact List.mem_append_left _ hx
        · rw [Function.update_of_ne hconn]
          exact hx
      have hsessions : ∀ conn', (Function.update s.worker conn session conn').Inv := by
        intro conn'
        by_cases hconn : conn' = conn
        · subst hconn
          rw [hworker]
          exact (hs.sessions conn').step hbounded hsession
        · rw [Function.update_of_ne hconn]
          exact hs.sessions conn'
      refine hs.update ⟨fun _ => id, hopens⟩ hsessions (fun _ => .inl) ?_
      rintro r' ⟨⟩
      exact hr.handled hs hrest harrives hpos hanswer hsession hbounded hleads
        ⟨fun _ => id, hopens⟩ hworker
  | returns t r result fh ht hrest =>
      have hr := hs.running t r ht
      refine hs.update ⟨fun _ => List.mem_append_left _, fun _ _ => id⟩ hs.sessions ?_ ?_
      · intro h hh
        rcases List.mem_append.mp hh with hold | hnew
        · exact .inl hold
        · exact .inr (hr.stores hrest hnew)
      · rintro r' ⟨⟩

/-- A call on a handle acts on the file that was opened for the handle and on no other, and when it
has ended it has acted on it or it returns an error. -/
def State.OwnFiles (s : State) : Prop :=
  ∀ t r h, s.running t = some r → r.handle = some h →
    (∀ f ∈ r.acted, h.file = some f) ∧
      (Ended r.rest → r.acted ≠ [] ∨ ∃ e, r.rest = .pure (e, h.fh) ∧ e < 0)

theorem Inv.ownFiles (hs : Inv s) : s.OwnFiles := by
  intro t r h ht hh
  rcases (hs.running t r ht).stands with ⟨a, ha, hstage, hacted, -⟩ | hdone
  · refine ⟨fun f hf => ?_, fun hended => ?_⟩
    · rw [hacted] at hf
      cases hf
    · generalize r.rest = rest at hstage hended
      cases hstage <;> exact hended.1.elim
  · exact ⟨hdone.own h hh, fun _ => hdone.acted h hh⟩

/-- **Handles across reconnects**: in every run in which each command on a handle goes to the worker
that opened the file, or to one that knows no file under the id, every call on a handle acts on the
file that was opened for it, or returns an error. -/
theorem handles_keep {as : List Action}
    (hcond : AllSteps (step dirsToOverride) Unconfused init as)
    (hrun : run (step dirsToOverride) init as = some s) : s.OwnFiles := by
  have hs : Inv s := hcond.invariant (fun _ _ _ hc hs h => hs.step hc h) Inv.init hrun
  exact hs.ownFiles

/-! ## A worker that comes back -/

def openOf (path : String) : FileCall := .open (ascii path) 0

/-- `zcfs_open`; the worker opens `remotePath` under descriptor 3 and gives it the id 0. -/
def opening (path remotePath : String) : List Action :=
  [.open 0 (openOf path) 0, .getCommander 0, .nextCommandId 0,
    .sendCommand 0 (.handled
      { thread := 0
        message := (openOf path).message 0 0
        events := [⟨.sys (.open (ascii remotePath) 0 0o666), .ok 3⟩, ⟨.file .nextFdId, 0⟩,
          ⟨.file (.emplace 0 3), ()⟩, ⟨.errno, 0⟩]
        result := .ok (FileCall.opened 0 0 0) }
      (.ok (FileCall.opened 0 0 0))),
    .return 0]

def handleOfA : Handle := ⟨ascii "127.0.0.1", 0, some ⟨0, 0⟩⟩

def readOfA : FileCall := .read (ascii "/127.0.0.1/a") [0] 1 0

/-- `zcfs_read` of one byte of the first file. -/
def reading (id : UInt32) (events : List WorkerEvent) (reply : Message) : List Action :=
  [.use 1 readOfA handleOfA, .getCommander 1, .nextCommandId 1,
    .sendCommand 1 (.handled ⟨0, readOfA.message 0 id, events, .ok reply⟩ (.ok reply))]

/-- A worker loses its connection and comes back. The handle stands for nothing there, and the read
fails with `EBADF`. -/
def readAfterReconnect : List Action :=
  [.accept 0x0100007F 0] ++ opening "/127.0.0.1/a" "/a" ++ [.lose 0, .accept 0x0100007F 0] ++
    reading 0 [⟨.file (.getFd 0), -1⟩, ⟨.sys (.pread64 (-1) 1 0), .error 9⟩, ⟨.errno, 9⟩]
      (readOfA.failure 0 9)

theorem handles_keep_readAfterReconnect :
    ∃ s, run (step []) init readAfterReconnect = some s ∧ s.OwnFiles := by
  have hruns : (run (step []) init readAfterReconnect).isSome = true := by decide +kernel
  obtain ⟨s, hrun⟩ := Option.isSome_iff_exists.mp hruns
  have hcond : AllSteps (step []) Unconfused init readAfterReconnect := by decide +kernel
  exact ⟨s, hrun, handles_keep hcond hrun⟩

/-- The worker that came back has opened another file since, under the same id. -/
def readOfAnother : List Action :=
  [.accept 0x0100007F 0] ++ opening "/127.0.0.1/a" "/a" ++ [.lose 0, .accept 0x0100007F 0] ++
    opening "/127.0.0.1/b" "/b" ++
    reading 1 [⟨.file (.getFd 0), 3⟩, ⟨.sys (.pread64 3 1 0), .ok [98]⟩, ⟨.errno, 0⟩]
      ⟨1, WorkerMessageType.commandResult.toUint8,
        written (FileCommandsHandler.readReplyFields 1 (.ok [98]) 0)⟩

/-- The read is made on that file. -/
theorem not_handles_keep :
    ¬ ∀ (dirsToOverride : DirsToOverride) (as : List Action) (s : State),
      run (step dirsToOverride) init as = some s → s.OwnFiles := by
  intro h
  have hacted : (run (step []) init readOfAnother).bind (fun s =>
      (s.running 1).map fun r => (r.handle, r.acted)) = some (some handleOfA, [⟨1, 0⟩]) := by
    decide +kernel
  obtain ⟨s, hrun, hmap⟩ := Option.bind_eq_some_iff.mp hacted
  obtain ⟨r, ht, hr⟩ := Option.map_eq_some_iff.mp hmap
  obtain ⟨hhandle, hacted⟩ := Prod.mk.inj hr
  have hown := (h [] readOfAnother s hrun 1 r handleOfA ht hhandle).1 ⟨1, 0⟩
    (by rw [hacted]; exact .head _)
  exact absurd hown (by decide)

end Reconnect

end Zcfs

end ZControl
