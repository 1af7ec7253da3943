import ZControl.Worker.Requests

/-!
# What a request is answered

Every handler decodes its whole argument list before it does anything else, and from there on
nothing it does can throw. So `_do_command` always returns a message, and whether that is a
result, an error or `CommandUnknown` is decided by the type and the payload alone.
-/

namespace ZControl

open Interaction BinaryDeserializer

/-! ## The text of a decoding error

A reader throws only from `_validate_no_overflow`. -/

theorem nulFree_ascii {s : String} (hs : ∀ c ∈ s.toList, UInt8.ofNat c.toNat ≠ 0) :
    NulFree (ascii s) := by
  intro h
  obtain ⟨c, hc, hzero⟩ := List.mem_map.mp h
  exact hs c hc hzero

theorem ascii_append (s t : String) : ascii (s ++ t) = ascii s ++ ascii t := by
  simp [ascii]

theorem nulFree_append {s t : Bytes} (hs : NulFree s) (ht : NulFree t) : NulFree (s ++ t) := by
  intro h
  rcases List.mem_append.mp h with h | h
  · exact hs h
  · exact ht h

/-- The decimal digits of a number hold no NUL. -/
theorem nulFree_digits (n : Nat) : NulFree (ascii (toString n)) := by
  apply nulFree_ascii
  intro c hc hzero
  rw [Nat.toString_eq_repr, Nat.toList_repr] at hc
  have hdigit := Nat.isDigit_of_mem_toDigits (by decide) (by decide) hc
  rw [Char.isDigit_iff_toNat] at hdigit
  have hnat := congrArg UInt8.toNat hzero
  rw [UInt8.toNat_ofNat'] at hnat
  have hz : (0 : UInt8).toNat = 0 := rfl
  have h0 : '0'.toNat = 48 := rfl
  have h9 : '9'.toNat = 57 := rfl
  omega

theorem length_digits (v : UInt32) : (ascii (toString v.toNat)).length ≤ 10 := by
  have hv := v.toNat_lt
  rw [ascii, List.length_map, Nat.toString_eq_repr, Nat.toList_repr,
    Nat.length_toDigits_le_iff (by decide) (by decide)]
  omega

theorem nulFree_overflowText (size available : UInt32) : NulFree (overflowText size available) := by
  simp only [overflowText, ascii_append]
  refine nulFree_append (nulFree_append (nulFree_append ?_ (nulFree_digits _)) ?_)
    (nulFree_digits _)
  · decide
  · decide

theorem length_overflowText (size available : UInt32) :
    (overflowText size available).length ≤ 100 := by
  simp only [overflowText, ascii_append, List.length_append]
  have hsize := length_digits size
  have havailable := length_digits available
  have htext : (ascii "Expected size of serialized object is larger than available bytes: ").length
      = 67 := by decide
  have hgreater : (ascii " > ").length = 3 := by decide
  omega

/-- The only exception a reader throws is that of `_validate_no_overflow`. -/
def OnlyOverflow {α : Type} (read : Read α) : Prop :=
  ∀ d kind what, read d = .error (.exception kind what) →
    ∃ size available, what = overflowText size available

section

variable {α β : Type}

theorem OnlyOverflow.bind {read₁ : Read α} {read₂ : α → Read β} (h₁ : OnlyOverflow read₁)
    (h₂ : ∀ a, OnlyOverflow (read₂ a)) : OnlyOverflow (read₁ >>= read₂) := by
  intro d kind what h
  rcases ExactReader.bind_error_iff.mp h with h | ⟨a, d₁, -, h⟩
  · exact h₁ d kind what h
  · exact h₂ a d₁ kind what h

theorem OnlyOverflow.pure (a : α) : OnlyOverflow (pure a : Read α) := by
  rintro d kind what h
  cases h

theorem onlyOverflow_validate (size : UInt32) : OnlyOverflow (validateNoOverflow size) := by
  intro d kind what h
  unfold validateNoOverflow at h
  split at h
  · cases h
    exact ⟨size, d.bytesAvailable, rfl⟩
  · cases h

theorem onlyOverflow_next : OnlyOverflow next := by
  intro d kind what h
  unfold next at h
  split at h <;> cases h

theorem onlyOverflow_slice (length : UInt32) : OnlyOverflow (slice length) := by
  intro d kind what h
  unfold slice at h
  split at h <;> cases h

/-- The loop bodies throw nothing: what they may do is undefined. -/
theorem onlyOverflow_accumulate {shiftAdd : α → UInt8 → Except Fault α}
    (hstep : ∀ v b kind what, shiftAdd v b ≠ .error (.exception kind what)) :
    ∀ (n : Nat) (v : α), OnlyOverflow (accumulate shiftAdd n v)
  | 0, v => .pure v
  | n + 1, v => by
      refine onlyOverflow_next.bind fun b => ?_
      refine OnlyOverflow.bind ?_ fun v => onlyOverflow_accumulate hstep n v
      intro d kind what h
      cases hv : shiftAdd v b with
      | ok v' => rw [hv] at h; cases h
      | error e => rw [hv] at h; cases h; exact absurd hv (hstep v b kind what)

end

theorem onlyOverflow_uint32 : OnlyOverflow deserializeUint32 := by
  refine (onlyOverflow_validate 4).bind fun _ => onlyOverflow_accumulate ?_ 4 0
  rintro v b kind what h
  cases h

theorem FieldKind.onlyOverflow : (k : FieldKind) → OnlyOverflow k.read
  | .uint8 => (onlyOverflow_validate 1).bind fun _ => onlyOverflow_next
  | .uint32 => onlyOverflow_uint32
  | .int32 => by
      refine (onlyOverflow_validate 4).bind fun _ => onlyOverflow_accumulate ?_ 4 0
      intro v b kind what h
      simp only [shiftAddInt32] at h
      split at h <;> cases h
  | .int64 => by
      refine (onlyOverflow_validate 8).bind fun _ => onlyOverflow_accumulate ?_ 8 0
      intro v b kind what h
      simp only [shiftAddInt64] at h
      split at h <;> cases h
  | .str | .byteVector =>
      onlyOverflow_uint32.bind fun length =>
        (onlyOverflow_validate length).bind fun _ => onlyOverflow_slice length

theorem onlyOverflow_fields : (ks : List FieldKind) → OnlyOverflow (readFields ks)
  | [] => .pure ()
  | k :: ks =>
      k.onlyOverflow.bind fun v => (onlyOverflow_fields ks).bind fun vs => .pure (v, vs)

/-! ## Argument lists -/

/-- The argument list of a command; the `switch` has no case for the others. -/
def argumentKinds : CommanderMessageType → Option (List FieldKind)
  | .disconnect     => some []
  | .getAttr        => some [.str]
  | .access         => some [.str, .int32]
  | .rename         => some [.str, .str, .uint8]
  | .truncate       => some [.str, .int64]
  | .unlink         => some [.str]
  | .changeMode     => some [.str, .int32]
  | .changeOwner    => some [.str, .int32, .int32]
  | .setTimes       => some [.str, .int64, .int64]
  | .statFileSystem => some [.str]
  | .open           => some [.str, .int32, .int32]
  | .close          => some [.int32]
  | .read           => some [.int32, .uint32]
  | .pRead          => some [.int32, .uint32, .int64]
  | .write          => some [.int32, .byteVector]
  | .pWrite         => some [.int32, .int64, .byteVector]
  | .openDir        => some [.str]
  | .closeDir       => some [.int32]
  | .readDir        => some [.int32, .uint32]
  | .makeDir        => some [.str, .int32]
  | .removeDir      => some [.str]
  | .getXAttr | .setXAttr | .listXAttr | .removeXAttr => none

/-- The argument list of the command with this type byte, if the `switch` dispatches it. -/
def dispatchedKinds (type : UInt8) : Option (List FieldKind) :=
  (CommanderMessageType.ofUint8 type).bind argumentKinds

/-- The payload begins with a well-formed encoding of the argument list. -/
def BeginsWith (kinds : List FieldKind) (data : Bytes) : Prop :=
  ∃ (vs : Values kinds) (rest : Bytes), data = encodeFields kinds vs ++ rest

/-- Decoding a whole argument list: the values it encodes, or one exception. -/
theorem arguments_of_beginsWith {message : Message} {kinds : List FieldKind}
    (hlen : message.data.length < 2 ^ 32) (h : BeginsWith kinds message.data) :
    ∃ args, arguments message kinds = .pure args := by
  obtain ⟨vs, rest, hdata⟩ := h
  obtain ⟨d, hread, -⟩ := (exactRead_fields kinds).complete (ok_new hlen) hdata
  refine ⟨vs, ?_⟩
  rw [arguments, deserialize, hread]
  rfl

theorem arguments_of_not_beginsWith {message : Message} {kinds : List FieldKind}
    (hlen : message.data.length < 2 ^ 32) (h : ¬ BeginsWith kinds message.data) :
    ∃ kind what, arguments message kinds = .throw (.exception kind what) ∧
      NulFree what ∧ what.length ≤ 100 := by
  obtain ⟨e, hexception, hread⟩ := ((exactRead_fields kinds).error_iff (ok_new hlen)).mpr h
  cases e with
  | undefined what => exact hexception.elim
  | exception kind what =>
      obtain ⟨size, available, rfl⟩ := onlyOverflow_fields kinds _ kind what hread
      refine ⟨kind, _, ?_, nulFree_overflowText size available,
        length_overflowText size available⟩
      rw [arguments, deserialize, hread]
      rfl

/-! ## The handlers -/

/-- The message answers the request, with this type. -/
def Answers (message : Message) (type : WorkerMessageType) (m : Message) : Prop :=
  m.id = message.id ∧ m.type = type.toUint8

/-- The handler decodes an argument list and from there on returns a result. -/
def DecodesThenReplies (message : Message) (kinds : List FieldKind) (p : WorkerProg Message) :
    Prop :=
  ∃ handler : Values kinds → WorkerProg Message, p = arguments message kinds >>= handler ∧
    ∀ args, (handler args).Returns (Answers message .commandResult)

section

variable {message : Message}

theorem returns_commandResult (fields : List Field) :
    (commandResult message fields).Returns (Answers message .commandResult) := by
  obtain ⟨s, hs⟩ := writeFields_total fields BinarySerializer.new
  rw [commandResult, hs]
  exact ⟨rfl, rfl⟩

theorem returns_statusReply {α : Type} (r : Except Int32 α) :
    (statusReply message r).Returns (Answers message .commandResult) :=
  fun _ => returns_commandResult _

theorem returns_status (call : SysCall) :
    (sys call >>= fun r => statusReply message r).Returns (Answers message .commandResult) :=
  fun r => returns_statusReply r

namespace FileCommandsHandler

theorem getattr_replies : DecodesThenReplies message [.str] (getattr message) := by
  refine ⟨_, rfl, fun args => ?_⟩
  simp only [Prog.call_bind, Prog.returns_perform]
  intro r errno
  cases r with
  | ok info => exact (returns_commandResult _ :)
  | error e => exact (returns_commandResult _ :)

theorem access_replies : DecodesThenReplies message [.str, .int32] (access message) :=
  ⟨_, rfl, fun _ => returns_status _⟩

theorem rename_replies : DecodesThenReplies message [.str, .str, .uint8] (rename message) := by
  refine ⟨_, rfl, fun args => ?_⟩
  -- what the check of `newPath` found does not matter for the rest
  have hrest : ∀ exists? : Bool,
      (if args.2.2.1 &&& renameExchange ≠ 0 then
        setErrno EINVAL >>= fun _ => statusReply message (.error EINVAL : Except Int32 Unit)
      else if exists? then statusReply message (.error EEXIST : Except Int32 Unit)
      else sys (.rename (cStr args.1) (cStr args.2.1)) >>= fun value =>
        statusReply message value).Returns (Answers message .commandResult) := by
    intro exists?
    split
    · exact fun _ => (returns_statusReply _ :)
    · split
      · exact (returns_statusReply _ :)
      · exact returns_status _
  by_cases hnoreplace : args.2.2.1 &&& renameNoreplace = 0 <;>
    simp only [hnoreplace, ne_eq, not_true_eq_false, not_false_eq_true, if_true, if_false,
      Prog.pure_eq, Prog.pure_bind, Prog.call_bind, Prog.returns_perform]
  · exact hrest false
  · intro r
    cases r with
    | ok info => exact fun _ => hrest true
    | error e => exact hrest false

theorem truncate_replies : DecodesThenReplies message [.str, .int64] (truncate message) :=
  ⟨_, rfl, fun _ => returns_status _⟩

theorem unlink_replies : DecodesThenReplies message [.str] (unlink message) :=
  ⟨_, rfl, fun _ => returns_status _⟩

theorem chmod_replies : DecodesThenReplies message [.str, .int32] (chmod message) :=
  ⟨_, rfl, fun _ => returns_status _⟩

theorem chown_replies : DecodesThenReplies message [.str, .int32, .int32] (chown message) :=
  ⟨_, rfl, fun _ => returns_status _⟩

theorem utimens_replies : DecodesThenReplies message [.str, .int64, .int64] (utimens message) :=
  ⟨_, rfl, fun _ => returns_status _⟩

theorem statvfs_replies : DecodesThenReplies message [.str] (statvfs message) := by
  refine ⟨_, rfl, fun args => ?_⟩
  simp only [Prog.call_bind, Prog.returns_perform]
  intro r
  cases r with
  | ok stbuf =>
      simp only [Prog.pure_eq, Prog.pure_bind, Prog.returns_perform]
      exact fun _ => (returns_commandResult _ :)
  | error e =>
      simp only [Prog.returns_perform]
      exact fun _ _ => (returns_commandResult _ :)

theorem open_replies : DecodesThenReplies message [.str, .int32, .int32] («open» message) := by
  refine ⟨_, rfl, fun args => ?_⟩
  simp only [Prog.call_bind, Prog.returns_perform]
  intro fd
  cases fd with
  | ok fd =>
      simp only [Prog.pure_eq, Prog.pure_bind, Prog.returns_perform]
      exact fun _ _ _ => (returns_commandResult _ :)
  | error e =>
      simp only [Prog.pure_eq, Prog.pure_bind, Prog.returns_perform]
      exact fun _ => (returns_commandResult _ :)

theorem close_replies : DecodesThenReplies message [.int32] (close message) := by
  refine ⟨_, rfl, fun args => ?_⟩
  simp only [getFd, Prog.call_bind, Prog.returns_perform]
  exact fun _ r _ => (returns_statusReply r :)

theorem read_replies : DecodesThenReplies message [.int32, .uint32] (read message) := by
  refine ⟨_, rfl, fun args => ?_⟩
  simp only [getFd, readReply, Prog.call_bind, Prog.returns_perform]
  exact fun _ _ _ => (returns_commandResult _ :)

theorem pread_replies : DecodesThenReplies message [.int32, .uint32, .int64] (pread message) := by
  refine ⟨_, rfl, fun args => ?_⟩
  simp only [getFd, readReply, Prog.call_bind, Prog.returns_perform]
  exact fun _ _ _ => (returns_commandResult _ :)

theorem write_replies : DecodesThenReplies message [.int32, .byteVector] (write message) := by
  refine ⟨_, rfl, fun args => ?_⟩
  simp only [getFd, writeReply, Prog.call_bind, Prog.returns_perform]
  exact fun _ _ _ => (returns_commandResult _ :)

theorem pwrite_replies :
    DecodesThenReplies message [.int32, .int64, .byteVector] (pwrite message) := by
  refine ⟨_, rfl, fun args => ?_⟩
  simp only [getFd, writeReply, Prog.call_bind, Prog.returns_perform]
  exact fun _ _ _ => (returns_commandResult _ :)

end FileCommandsHandler

namespace DirCommandsHandler

theorem direntFields_total (dir : Dirent) (s : BinarySerializer) :
    ∃ s', direntFields dir s = .ok s' := by
  obtain ⟨s₁, h₁⟩ : ∃ s₁, s.serializeUint32 dir.dIno.toUInt32 = .ok s₁ := s.putFixed_total _
  obtain ⟨s₂, h₂⟩ : ∃ s₂, s₁.serializeUint8 dir.dType = .ok s₂ := s₁.putFixed_total _
  obtain ⟨s₃, h₃⟩ : ∃ s₃, s₂.serializeCStr (some (dir.dName ++ [0])) = .ok s₃ :=
    s₂.putSized_total _ _
  refine ⟨s₃, ?_⟩
  rw [direntFields, h₁]
  show s₁.serializeUint8 dir.dType >>= _ = _
  rw [h₂]
  exact h₃

theorem overriddenLoop_total : ∀ (entries : List Dirent) (n : Nat) (s : BinarySerializer),
    ∃ s', overriddenLoop entries n s = .ok s'
  | [], n, s => ⟨s, by cases n <;> rfl⟩
  | _ :: _, 0, s => ⟨s, rfl⟩
  | dir :: entries, n + 1, s => by
      obtain ⟨s₁, h₁⟩ := direntFields_total dir s
      obtain ⟨s', hs'⟩ := overriddenLoop_total entries n s₁
      refine ⟨s', ?_⟩
      rw [overriddenLoop, h₁]
      exact hs'

theorem returns_readdirLoop (fd : DirPtr) : ∀ (n : Nat) (s : BinarySerializer),
    (readdirLoop fd n s).Returns fun _ => True
  | 0, _ => trivial
  | n + 1, s => by
      intro _ r
      rcases r with e | _ | dir
      · trivial
      · trivial
      · obtain ⟨s', hs'⟩ := direntFields_total dir s
        show (Prog.lift (direntFields dir s) >>= readdirLoop fd n).Returns _
        rw [hs']
        exact returns_readdirLoop fd n s'

theorem returns_readdirReply (s : BinarySerializer) (errno : Int32) :
    (readdirReply message s errno).Returns (Answers message .commandResult) := by
  obtain ⟨s', hs'⟩ : ∃ s', s.serializeInt32 errno = .ok s' := s.putFixed_total _
  rw [readdirReply, hs']
  exact ⟨rfl, rfl⟩

theorem opendir_replies (dirsToOverride : DirsToOverride) :
    DecodesThenReplies message [.str] (opendir dirsToOverride message) := by
  refine ⟨_, rfl, fun args => ?_⟩
  cases hlookup : dirsToOverride.lookup args.1 with
  | some entries =>
      simp only [hlookup, Prog.call_bind, Prog.returns_perform]
      exact fun _ _ => (returns_commandResult _ :)
  | none =>
      simp only [hlookup, Prog.call_bind, Prog.returns_perform]
      intro fd
      cases fd with
      | ok fd =>
          simp only [Prog.pure_eq, Prog.pure_bind, Prog.returns_perform]
          exact fun _ _ _ => (returns_commandResult _ :)
      | error e =>
          simp only [Prog.pure_eq, Prog.pure_bind, Prog.returns_perform]
          exact fun _ => (returns_commandResult _ :)

theorem closedir_replies : DecodesThenReplies message [.int32] (closedir message) := by
  refine ⟨_, rfl, fun args => ?_⟩
  simp only [Prog.call_bind, Prog.returns_perform]
  intro overridden
  cases overridden with
  | some entries =>
      simp only [Prog.returns_perform]
      exact fun _ => (returns_commandResult _ :)
  | none =>
      simp only [getFd, Prog.call_bind, Prog.returns_perform]
      exact fun _ r _ => (returns_statusReply r :)

theorem readdir_replies : DecodesThenReplies message [.int32, .uint32] (readdir message) := by
  refine ⟨_, rfl, fun args => ?_⟩
  simp only [Prog.call_bind, Prog.returns_perform]
  intro overridden
  cases overridden with
  | some dirents =>
      obtain ⟨s, hs⟩ := overriddenLoop_total dirents args.2.1.toNat BinarySerializer.new
      simp only [hs, Prog.lift_ok, Prog.pure_bind]
      exact (returns_readdirReply s 0 :)
  | none =>
      simp only [getFd, Prog.call_bind, Prog.returns_perform]
      intro fd
      cases fd with
      | none => exact (returns_readdirReply _ _ :)
      | some fd =>
          refine (returns_readdirLoop _ _ _).bind fun s _ => ?_
          simp only [Prog.returns_perform]
          exact fun errno => (returns_readdirReply s errno :)

theorem mkdir_replies : DecodesThenReplies message [.str, .int32] (mkdir message) :=
  ⟨_, rfl, fun _ => returns_status _⟩

theorem rmdir_replies : DecodesThenReplies message [.str] (rmdir message) :=
  ⟨_, rfl, fun _ => returns_status _⟩

end DirCommandsHandler

/-- Whatever the `switch` dispatches decodes the argument list of its type first. -/
theorem dispatch_replies (dirsToOverride : DirsToOverride) {kinds : List FieldKind}
    (hkinds : dispatchedKinds message.type = some kinds) :
    DecodesThenReplies message kinds (Worker.dispatch dirsToOverride message) := by
  obtain ⟨type, htype, hargs⟩ := Option.bind_eq_some_iff.mp hkinds
  simp only [Worker.dispatch, htype]
  cases type <;> cases hargs
  case disconnect => exact ⟨fun _ => Worker.disconnect message, rfl, fun _ _ => ⟨rfl, rfl⟩⟩
  case getAttr => exact FileCommandsHandler.getattr_replies
  case access => exact FileCommandsHandler.access_replies
  case rename => exact FileCommandsHandler.rename_replies
  case truncate => exact FileCommandsHandler.truncate_replies
  case unlink => exact FileCommandsHandler.unlink_replies
  case changeMode => exact FileCommandsHandler.chmod_replies
  case changeOwner => exact FileCommandsHandler.chown_replies
  case setTimes => exact FileCommandsHandler.utimens_replies
  case statFileSystem => exact FileCommandsHandler.statvfs_replies
  case «open» => exact FileCommandsHandler.open_replies
  case close => exact FileCommandsHandler.close_replies
  case read => exact FileCommandsHandler.read_replies
  case pRead => exact FileCommandsHandler.pread_replies
  case write => exact FileCommandsHandler.write_replies
  case pWrite => exact FileCommandsHandler.pwrite_replies
  case openDir => exact DirCommandsHandler.opendir_replies dirsToOverride
  case closeDir => exact DirCommandsHandler.closedir_replies
  case readDir => exact DirCommandsHandler.readdir_replies
  case makeDir => exact DirCommandsHandler.mkdir_replies
  case removeDir => exact DirCommandsHandler.rmdir_replies

end

/-! ## `_do_command` -/

namespace Worker

section

variable (dirsToOverride : DirsToOverride) {message : Message}

/-- A type byte the `switch` does not dispatch. -/
theorem doCommand_unknown (hkinds : dispatchedKinds message.type = none) :
    doCommand dirsToOverride message =
      .pure ⟨message.id, WorkerMessageType.commandUnknown.toUint8, []⟩ := by
  have hdispatch : dispatch dirsToOverride message =
      .pure ⟨message.id, WorkerMessageType.commandUnknown.toUint8, []⟩ := by
    cases htype : CommanderMessageType.ofUint8 message.type with
    | none => simp only [dispatch, htype]; rfl
    | some type =>
        rw [dispatchedKinds, htype] at hkinds
        simp only [dispatch, htype]
        cases type <;> first | rfl | cases hkinds
  rw [doCommand, hdispatch, Prog.tryCatch_pure]

/-- A payload that holds the arguments: no exception is thrown, so none is caught. -/
theorem dispatch_wellFormed {kinds : List FieldKind} (hlen : message.data.length < 2 ^ 32)
    (hkinds : dispatchedKinds message.type = some kinds) (hdata : BeginsWith kinds message.data) :
    (dispatch dirsToOverride message).Returns (Answers message .commandResult) := by
  obtain ⟨handler, hdispatch, hreplies⟩ := dispatch_replies dirsToOverride hkinds
  obtain ⟨args, hargs⟩ := arguments_of_beginsWith hlen hdata
  rw [hdispatch, hargs, Prog.pure_bind]
  exact hreplies args

theorem doCommand_wellFormed {kinds : List FieldKind} (hlen : message.data.length < 2 ^ 32)
    (hkinds : dispatchedKinds message.type = some kinds) (hdata : BeginsWith kinds message.data) :
    doCommand dirsToOverride message = dispatch dirsToOverride message :=
  (dispatch_wellFormed dirsToOverride hlen hkinds hdata).tryCatch _

/-- A payload that does not: the exception of the reader is the whole answer. -/
theorem doCommand_malformed {kinds : List FieldKind} (hlen : message.data.length < 2 ^ 32)
    (hkinds : dispatchedKinds message.type = some kinds)
    (hdata : ¬ BeginsWith kinds message.data) :
    ∃ kind what, dispatch dirsToOverride message = .throw (.exception kind what) ∧
      doCommand dirsToOverride message =
        .pure ⟨message.id, WorkerMessageType.commandError.toUint8, encodeSized what⟩ ∧
      deserialize (encodeSized what) deserializeStr = .ok what := by
  obtain ⟨handler, hdispatch, -⟩ := dispatch_replies dirsToOverride hkinds
  obtain ⟨kind, what, hargs, hnul, hwhat⟩ := arguments_of_not_beginsWith hlen hdata
  have hthrow : dispatch dirsToOverride message = .throw (.exception kind what) := by
    rw [hdispatch, hargs, Prog.throw_bind]
  have hfits : (encodeSized what).length < 2 ^ 32 := by rw [length_encodeSized]; omega
  refine ⟨kind, what, hthrow, ?_, ?_⟩
  · have hwrite : BinarySerializer.new.serializeCStr (some (what ++ [0])) =
        .ok (BinarySerializer.new.append (encodeSized what)) :=
      (Field.cStr what hnul).write_append BinarySerializer.synced_new
        (by
          rw [show BinarySerializer.new.serialized.length = 0 from rfl, Nat.zero_add]
          exact hfits)
    rw [doCommand, hthrow, Prog.tryCatch_throw, onException, hwrite]
    rfl
  · obtain ⟨d, hread, -⟩ := exactRead_str.complete (ok_new hfits)
      (show (BinaryDeserializer.new (encodeSized what)).rest = encodeSized what ++ [] by simp)
    rw [deserialize, hread]
    rfl

/-- A message short enough to have been received is always answered. -/
theorem doCommand_returns (hlen : message.data.length < 2 ^ 32) :
    (doCommand dirsToOverride message).Returns fun m => m.id = message.id := by
  cases hkinds : dispatchedKinds message.type with
  | none => rw [doCommand_unknown dirsToOverride hkinds]; rfl
  | some kinds =>
      by_cases hdata : BeginsWith kinds message.data
      · rw [doCommand_wellFormed dirsToOverride hlen hkinds hdata]
        exact (dispatch_wellFormed dirsToOverride hlen hkinds hdata).mono fun m hm => hm.1
      · obtain ⟨_, what, -, hdo, -⟩ := doCommand_malformed dirsToOverride hlen hkinds
          hdata
        rw [hdo]
        rfl

end

/-- **Malformed requests are rejected without effect.** In every state of the worker a message is
answered by one message with its id. The answer is `CommandUnknown` for exactly the types the
`switch` does not dispatch, and `CommandError` for exactly the payloads that do not begin with
the argument list of a dispatched type; then no operation at all was performed, and the payload
of the error decodes to the text of the exception. -/
theorem doCommand_rejects_malformed (dirsToOverride : DirsToOverride) (message : Message)
    (hlen : message.data.length < 2 ^ 32) (w : World) (t : ThreadId) :
    (∃ es res w', exec (World.step t) w (doCommand dirsToOverride message) es = some (res, w')) ∧
    ∀ es res w', exec (World.step t) w (doCommand dirsToOverride message) es = some (res, w') →
      ∃ m, res = .ok m ∧ m.id = message.id ∧
        (m.type = WorkerMessageType.commandUnknown.toUint8 ↔
          dispatchedKinds message.type = none) ∧
        (m.type = WorkerMessageType.commandError.toUint8 ↔
          ∃ kinds, dispatchedKinds message.type = some kinds ∧ kinds ≠ [] ∧
            ¬ BeginsWith kinds message.data) ∧
        (m.type = WorkerMessageType.commandUnknown.toUint8 ∨
            m.type = WorkerMessageType.commandError.toUint8 → es = [] ∧ w' = w) ∧
        (m.type = WorkerMessageType.commandError.toUint8 →
          ∃ kind what, dispatch dirsToOverride message = .throw (.exception kind what) ∧
            deserialize m.data deserializeStr = .ok what) := by
  refine ⟨exec_total (World.step_total t) _ w, ?_⟩
  intro es res w' h
  cases hkinds : dispatchedKinds message.type with
  | none =>
      rw [doCommand_unknown dirsToOverride hkinds] at h
      obtain ⟨rfl, heq⟩ := exec_pure_iff.mp h
      cases heq
      exact ⟨_, rfl, rfl, by simp, by simp [WorkerMessageType.toUint8], fun _ => ⟨rfl, rfl⟩,
        fun herror => nomatch herror⟩
  | some kinds =>
      by_cases hdata : BeginsWith kinds message.data
      · rw [doCommand_wellFormed dirsToOverride hlen hkinds hdata] at h
        obtain ⟨m, rfl, hid, htype⟩ := (dispatch_wellFormed dirsToOverride hlen hkinds hdata).exec h
        have hunknown : m.type ≠ WorkerMessageType.commandUnknown.toUint8 := by
          rw [htype]; decide
        have herror : m.type ≠ WorkerMessageType.commandError.toUint8 := by
          rw [htype]; decide
        refine ⟨m, rfl, hid, by simp [hunknown], ?_, fun h => ?_, fun h => absurd h herror⟩
        · refine iff_of_false herror ?_
          rintro ⟨kinds', hkinds', -, hno⟩
          cases hkinds'
          exact hno hdata
        · exact absurd h (not_or.mpr ⟨hunknown, herror⟩)
      · obtain ⟨kind, what, hthrow, hdo, hdecode⟩ := doCommand_malformed dirsToOverride hlen hkinds
          hdata
        rw [hdo] at h
        obtain ⟨rfl, heq⟩ := exec_pure_iff.mp h
        cases heq
        -- an empty argument list begins every payload
        have hne : kinds ≠ [] := by
          rintro rfl
          exact hdata ⟨(), message.data, rfl⟩
        refine ⟨_, rfl, rfl, by simp [WorkerMessageType.toUint8], ?_, fun _ => ⟨rfl, rfl⟩,
          fun _ => ⟨kind, what, hthrow, hdecode⟩⟩
        exact iff_of_true rfl ⟨kinds, rfl, hne, hdata⟩

/-- A `Close` whose payload is one byte too short for the id, in a new worker. -/
theorem doCommand_rejects_malformed_close :
    ∃ es m w', exec (World.step 0) World.new (doCommand [] ⟨7, 11, [0, 0, 1]⟩) es =
      some (.ok m, w') ∧ m.id = 7 ∧ (m.type = WorkerMessageType.commandError.toUint8 ↔
        ∃ kinds, dispatchedKinds 11 = some kinds ∧ kinds ≠ [] ∧
          ¬ BeginsWith kinds [0, 0, 1]) := by
  obtain ⟨⟨es, res, w', hrun⟩, hall⟩ :=
    doCommand_rejects_malformed [] ⟨7, 11, [0, 0, 1]⟩ (by decide) World.new 0
  obtain ⟨m, rfl, hid, -, herror, -⟩ := hall es res w' hrun
  exact ⟨es, m, w', hrun, hid, herror⟩

end Worker

end ZControl
