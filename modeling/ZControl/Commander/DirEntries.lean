import ZControl.Commander.Commands
import ZControl.Worker.DirCommandsHandler

/-!
# The listing format

A listing is a sequence of entries followed by an error number. There is no count: whoever reads
it goes on as long as more than the four bytes of the error number are left. Since an entry is
longer than that, the format can be read back.
-/

namespace ZControl

open Interaction BinaryDeserializer

structure DirEntry where
  inode : UInt32
  type : UInt8
  name : Bytes
  deriving DecidableEq, Repr

namespace Commander

/-- What the loop reads for one entry. -/
def readDirEntry : Read DirEntry := do
  let inode ← deserializeUint32
  let fileType ← deserializeUint8
  let name ← deserializeStr
  pure ⟨inode, fileType, name⟩

/-- The loop over the entries, for at most `n` turns. -/
def readDirEntries : Nat → Read (List DirEntry)
  | 0 => throw (.undefined "turns used up")
  | n + 1 => do
      let d ← get
      if d.bytesAvailable > 4 then
        let entry ← readDirEntry
        let entries ← readDirEntries n
        pure (entry :: entries)
      else pure []

/-- `readdir(fd, entries)`. A turn of the loop takes nine bytes or more, so there are fewer turns
than bytes. -/
def readdir (fd : Int32) (entries : UInt32) : CommanderProg (List DirEntry × Int32) := do
  let workerMsg ← request .readDir [.int32 fd, .uint32 entries]
  response workerMsg do
    let dirEntries ← readDirEntries (workerMsg.data.length + 1)
    let workerErrno ← deserializeInt32
    pure (dirEntries, workerErrno)

end Commander

/-! ## Encodings -/

def encodeDirEntry (e : DirEntry) : Bytes :=
  encodeUint32 e.inode ++ (encodeUint8 e.type ++ encodeSized e.name)

def encodeDirEntries (es : List DirEntry) : Bytes := es.flatMap encodeDirEntry

@[simp] theorem encodeDirEntries_nil : encodeDirEntries [] = [] := rfl

@[simp] theorem encodeDirEntries_cons (e : DirEntry) (es : List DirEntry) :
    encodeDirEntries (e :: es) = encodeDirEntry e ++ encodeDirEntries es := rfl

theorem encodeDirEntries_append (es fs : List DirEntry) :
    encodeDirEntries (es ++ fs) = encodeDirEntries es ++ encodeDirEntries fs :=
  List.flatMap_append

@[simp] theorem length_encodeDirEntry (e : DirEntry) :
    (encodeDirEntry e).length = 9 + e.name.length := by
  simp [encodeDirEntry]
  omega

theorem length_encodeDirEntries_le (es : List DirEntry) (hnames : ∀ e ∈ es, e.name.length ≤ 255) :
    (encodeDirEntries es).length ≤ 264 * es.length := by
  induction es with
  | nil => simp
  | cons e es ih =>
      have he := hnames e List.mem_cons_self
      have hes := ih fun f hf => hnames f (List.mem_cons_of_mem _ hf)
      rw [encodeDirEntries_cons, List.length_append, length_encodeDirEntry, List.length_cons]
      omega

theorem length_le_encodeDirEntries (es : List DirEntry) :
    es.length ≤ (encodeDirEntries es).length := by
  induction es with
  | nil => simp
  | cons e es ih =>
      rw [encodeDirEntries_cons, List.length_append, length_encodeDirEntry, List.length_cons]
      omega

/-! ## Reading back -/

namespace Commander

theorem exactRead_dirEntry : ExactRead readDirEntry encodeDirEntry := by
  have h := (exactRead_uint32.pair (exactRead_uint8.pair exactRead_str)).map
    (fun p => (⟨p.1, p.2.1, p.2.2⟩ : DirEntry)) (fun e => (e.inode, e.type, e.name))
    (fun _ => rfl) (fun _ => rfl)
  simp only [bind_assoc, pure_bind] at h
  exact h

/-- One turn of the loop. -/
theorem readDirEntries_succ (n : Nat) {d : BinaryDeserializer} (hd : d.Ok) :
    readDirEntries (n + 1) d =
      if 4 < d.rest.length then
        (do
          let entry ← readDirEntry
          let entries ← readDirEntries n
          pure (entry :: entries) : Read (List DirEntry)) d
      else .ok ([], d) := by
  have hmore : d.bytesAvailable > 4 ↔ 4 < d.rest.length := by
    rw [gt_iff_lt, UInt32.lt_iff_toNat_lt, toNat_bytesAvailable hd]
    rfl
  show (if d.bytesAvailable > 4 then _ else _ : Read (List DirEntry)) d = _
  by_cases h : 4 < d.rest.length
  · rw [if_pos (hmore.mpr h), if_pos h]
  · rw [if_neg (hmore.not.mpr h), if_neg h]
    rfl

/-- The loop reads what was written, and stops in front of a tail as short as an error number. -/
theorem readDirEntries_append {es : List DirEntry} {tail : Bytes} {n : Nat}
    {d : BinaryDeserializer} (hd : d.Ok) (hrest : d.rest = encodeDirEntries es ++ tail)
    (htail : tail.length ≤ 4) (hn : es.length < n) :
    ∃ d', readDirEntries n d = .ok (es, d') ∧ d'.rest = tail ∧ d'.Ok := by
  induction es generalizing n d with
  | nil =>
      obtain ⟨n, rfl⟩ := Nat.exists_eq_succ_of_ne_zero (Nat.ne_of_gt hn)
      rw [encodeDirEntries_nil, List.nil_append] at hrest
      rw [readDirEntries_succ n hd, if_neg (by rw [hrest]; omega)]
      exact ⟨d, rfl, hrest, hd⟩
  | cons e es ih =>
      obtain ⟨n, rfl⟩ := Nat.exists_eq_succ_of_ne_zero (Nat.ne_of_gt (Nat.zero_lt_of_lt hn))
      rw [encodeDirEntries_cons, List.append_assoc] at hrest
      obtain ⟨d₁, hentry, hrest₁, hd₁⟩ := exactRead_dirEntry.run hd hrest
      obtain ⟨d', hentries, hrest', hd'⟩ := ih hd₁ hrest₁ (Nat.lt_of_succ_lt_succ hn)
      have hmore : 4 < d.rest.length := by
        rw [hrest, List.length_append, length_encodeDirEntry]
        omega
      refine ⟨d', ?_, hrest', hd'⟩
      rw [readDirEntries_succ n hd, if_pos hmore]
      exact ExactReader.bind_ok_iff.mpr ⟨e, d₁, hentry,
        ExactReader.bind_ok_iff.mpr ⟨es, d', hentries, rfl⟩⟩

/-- **A listing is read back**: the entries that were written and the error number. -/
theorem readdir_response (es : List DirEntry) (errno : Int32) (id : UInt32) (type : UInt8)
    (hfits : (encodeDirEntries es ++ encodeInt32 errno).length < 2 ^ 32) :
    (response ⟨id, type, encodeDirEntries es ++ encodeInt32 errno⟩ (do
      let dirEntries ← readDirEntries ((encodeDirEntries es ++ encodeInt32 errno).length + 1)
      let workerErrno ← deserializeInt32
      pure (dirEntries, workerErrno)) : CommanderProg _) = .pure (es, errno) := by
  have hturns : es.length < (encodeDirEntries es ++ encodeInt32 errno).length + 1 := by
    have := length_le_encodeDirEntries es
    rw [List.length_append]
    omega
  obtain ⟨d₁, hentries, hrest₁, hd₁⟩ := readDirEntries_append (ok_new hfits) (rest_new _)
    (by simp) hturns
  obtain ⟨d₂, herrno, -, -⟩ := exactRead_int32.run hd₁
    (show d₁.rest = encodeInt32 errno ++ [] by rw [hrest₁, List.append_nil])
  have hread : (do
      let dirEntries ← readDirEntries ((encodeDirEntries es ++ encodeInt32 errno).length + 1)
      let workerErrno ← deserializeInt32
      pure (dirEntries, workerErrno) : Read (List DirEntry × Int32))
        (BinaryDeserializer.new (encodeDirEntries es ++ encodeInt32 errno)) =
          .ok ((es, errno), d₂) :=
    ExactReader.bind_ok_iff.mpr ⟨es, d₁, hentries,
      ExactReader.bind_ok_iff.mpr ⟨errno, d₂, herrno, rfl⟩⟩
  apply Prog.lift_eq_pure_iff.mpr
  rw [deserialize, hread]
  rfl

end Commander

/-! ## Writing -/

/-- What a listing keeps of a `struct dirent`: the inode is cut to 32 bits. -/
def entryOf (dir : Dirent) : DirEntry := ⟨dir.dIno.toUInt32, dir.dType, dir.dName⟩

/-- The names a directory can hold. -/
def ValidName (dir : Dirent) : Prop := NulFree dir.dName ∧ dir.dName.length ≤ 255

namespace DirCommandsHandler

open BinarySerializer in
/-- The loop of the handler appends the encoding of each entry. -/
theorem direntFields_append {dir : Dirent} {s : BinarySerializer} (hdir : NulFree dir.dName)
    (hs : s.Synced)
    (hbound : s.serialized.length + (encodeDirEntry (entryOf dir)).length < 2 ^ 32) :
    direntFields dir s = .ok (s.append (encodeDirEntry (entryOf dir))) := by
  have hwrite := writeFields_append
    [.uint32 dir.dIno.toUInt32, .uint8 dir.dType, .cStr dir.dName hdir] s hs
    (by simpa [encodeDirEntry, entryOf] using hbound)
  have hencoding : encodingOf
      [.uint32 dir.dIno.toUInt32, .uint8 dir.dType, .cStr dir.dName hdir] =
        encodeDirEntry (entryOf dir) := by
    simp [Field.encoded, Field.value, FieldKind.encode, encodeDirEntry, entryOf]
  rw [hencoding] at hwrite
  have hend : ∀ x : Except Fault BinarySerializer, x >>= Except.ok = x := by
    intro x
    cases x <;> rfl
  simp only [writeFields, Field.write, hend] at hwrite
  exact hwrite

/-- The loop appends the first `n` entries, as long as they fit a message. -/
theorem overriddenLoop_encodes : ∀ (dirs : List Dirent) (n : Nat) (s : BinarySerializer),
    (∀ d ∈ dirs, NulFree d.dName) → s.Synced →
    s.serialized.length + (encodeDirEntries ((dirs.take n).map entryOf)).length < 2 ^ 32 →
    overriddenLoop dirs n s = .ok (s.append (encodeDirEntries ((dirs.take n).map entryOf)))
  | [], n, s, _, _, _ => by
      have hnone : s.append [] = s := by simp [BinarySerializer.append]
      cases n <;> simp [overriddenLoop, hnone]
  | d :: dirs, 0, s, _, _, _ => by
      simp [overriddenLoop, BinarySerializer.append]
  | d :: dirs, n + 1, s, hnul, hs, hfits => by
      rw [List.take_succ_cons, List.map_cons, encodeDirEntries_cons, List.length_append] at hfits
      have hrest := overriddenLoop_encodes dirs n (s.append (encodeDirEntry (entryOf d)))
        (fun x hx => hnul x (List.mem_cons_of_mem _ hx))
        (BinarySerializer.append_synced hs (by omega))
        (by rw [BinarySerializer.append_serialized, List.length_append]; omega)
      rw [overriddenLoop, direntFields_append (hnul d List.mem_cons_self) hs (by omega)]
      rw [BinarySerializer.append_append] at hrest
      exact hrest

/-- What the loop over `::readdir` does for these entries. -/
def entryEvents (fd : DirPtr) (dirs : List Dirent) : List (Event WorkerOp WorkerOp.Ans) :=
  dirs.flatMap fun d => [⟨.setErrno 0, ()⟩, ⟨.sys (.readdir fd), .ok (some d)⟩]

theorem readdirLoop_succ (fd : DirPtr) (n : Nat) (s : BinarySerializer) :
    readdirLoop fd (n + 1) s =
      .perform (.setErrno 0) fun _ => .perform (.sys (.readdir fd)) fun dir =>
        match dir with
        | .ok (some dir) => Prog.lift (direntFields dir s) >>= readdirLoop fd n
        | _ => .pure s := rfl

/-- Both loops write the same for the same entries. -/
theorem readdirLoop_residual (fd : DirPtr) : ∀ (dirs : List Dirent) {s s' : BinarySerializer},
    overriddenLoop dirs dirs.length s = .ok s' →
      (readdirLoop fd dirs.length s).residual (entryEvents fd dirs) = some (.pure s')
  | [], s, s', h => by
      cases h
      rfl
  | d :: dirs, s, s', h => by
      rw [List.length_cons, overriddenLoop] at h
      cases hfields : direntFields d s with
      | error e => rw [hfields] at h; cases h
      | ok s₁ =>
          rw [hfields] at h
          have hrest := readdirLoop_residual fd dirs h
          rw [List.length_cons, readdirLoop_succ]
          show (Prog.perform (WorkerOp.setErrno 0) _).residual
            (⟨.setErrno 0, ()⟩ :: ⟨.sys (.readdir fd), .ok (some d)⟩ :: entryEvents fd dirs) = _
          rw [Prog.residual_perform, Prog.residual_perform]
          show (Prog.lift (direntFields d s) >>= readdirLoop fd dirs.length).residual _ = _
          rw [hfields]
          exact hrest

end DirCommandsHandler

/-! ## Exactness

The loop can only take the bytes of whole entries, and what it leaves is at most four bytes long,
so the error number is all that can be behind the entries. -/

namespace Commander

/-- What the loop has read and what it has left. -/
theorem readDirEntries_sound : ∀ {n : Nat} {d d' : BinaryDeserializer} {es : List DirEntry},
    d.Ok → readDirEntries n d = .ok (es, d') →
      d.rest = encodeDirEntries es ++ d'.rest ∧ d'.rest.length ≤ 4 ∧ d'.Ok
  | 0, d, d', es, _, h => by cases h
  | n + 1, d, d', es, hd, h => by
      rw [readDirEntries_succ n hd] at h
      split at h
      · obtain ⟨e, d₁, hentry, h⟩ := ExactReader.bind_ok_iff.mp h
        obtain ⟨es', d₂, hentries, h⟩ := ExactReader.bind_ok_iff.mp h
        cases h
        obtain ⟨hrest, hd₁⟩ := exactRead_dirEntry.sound hd hentry
        obtain ⟨hrest', hshort, hd'⟩ := readDirEntries_sound hd₁ hentries
        refine ⟨?_, hshort, hd'⟩
        rw [hrest, hrest', encodeDirEntries_cons, List.append_assoc]
      · cases h
        exact ⟨rfl, by omega, hd⟩

/-- Whatever the bytes are, the loop ends: each turn takes nine of them or throws. -/
theorem readDirEntries_safe : ∀ {n : Nat} {d : BinaryDeserializer} {e : Fault},
    d.Ok → d.rest.length < n → readDirEntries n d = .error e → e.IsException
  | 0, d, e, _, hlt, _ => by omega
  | n + 1, d, e, hd, hlt, h => by
      rw [readDirEntries_succ n hd] at h
      split at h
      · rcases ExactReader.bind_error_iff.mp h with hentry | ⟨entry, d₁, hentry, h⟩
        · exact exactRead_dirEntry.safe hd hentry
        · obtain ⟨hrest, hd₁⟩ := exactRead_dirEntry.sound hd hentry
          have hless : d₁.rest.length < n := by
            have hlen := congrArg List.length hrest
            rw [List.length_append, length_encodeDirEntry] at hlen
            omega
          rcases ExactReader.bind_error_iff.mp h with hentries | ⟨es, d₂, -, h⟩
          · exact readDirEntries_safe hd₁ hless hentries
          · cases h
      · cases h

/-- What `readdir` reads from its answer, with a bound for the turns of the loop. -/
def readListing (turns : Nat) : Read (List DirEntry × Int32) := do
  let dirEntries ← readDirEntries turns
  let workerErrno ← deserializeInt32
  pure (dirEntries, workerErrno)

theorem readdir_eq (fd : Int32) (entries : UInt32) :
    readdir fd entries = request .readDir [.int32 fd, .uint32 entries] >>= fun workerMsg =>
      response workerMsg (readListing (workerMsg.data.length + 1)) := rfl

/-- **The format of a listing is parsed exactly.** Whatever the received bytes are, the loop ends
within fewer turns than there are bytes. What is returned are the entries and the error number
whose encodings the bytes are made of; if there are none, an exception is thrown. What either loop
of the worker writes for a list of entries is read back, with the inodes cut to 32 bits. -/
theorem listing_parsed_exactly (b : Bytes) (hb : b.length < 2 ^ 32) :
    (∀ turns, b.length < turns → ∀ es errno,
      deserialize b (readListing turns) = .ok (es, errno) ↔
        b = encodeDirEntries es ++ encodeInt32 errno) ∧
    (∀ turns, b.length < turns → (¬ ∃ es errno, b = encodeDirEntries es ++ encodeInt32 errno) →
      ∃ kind what, deserialize b (readListing turns) = .error (.exception kind what)) ∧
    ∀ (dirs : List Dirent) (errno : Int32) (message : Message), (∀ d ∈ dirs, NulFree d.dName) →
      b = encodeDirEntries (dirs.map entryOf) ++ encodeInt32 errno →
      ∃ s, DirCommandsHandler.overriddenLoop dirs dirs.length BinarySerializer.new = .ok s ∧
        (∀ fd, (DirCommandsHandler.readdirLoop fd dirs.length BinarySerializer.new).residual
          (DirCommandsHandler.entryEvents fd dirs) = some (.pure s)) ∧
        DirCommandsHandler.readdirReply message s errno =
          .pure ⟨message.id, WorkerMessageType.commandResult.toUint8, b⟩ ∧
        deserialize b (readListing (b.length + 1)) = .ok (dirs.map entryOf, errno) := by
  have hok := ok_new hb
  -- what is read is all there is
  have hread : ∀ turns, b.length < turns → ∀ es errno,
      deserialize b (readListing turns) = .ok (es, errno) ↔
        b = encodeDirEntries es ++ encodeInt32 errno := by
    intro turns hturns es errno
    constructor
    · intro h
      rw [deserialize] at h
      cases hrun : readListing turns (BinaryDeserializer.new b) with
      | error e => rw [hrun] at h; cases h
      | ok x =>
          obtain ⟨listing, d⟩ := x
          rw [hrun] at h
          cases h
          obtain ⟨es', d₁, hentries, hrun⟩ := ExactReader.bind_ok_iff.mp hrun
          obtain ⟨errno', d₂, herrno, hrun⟩ := ExactReader.bind_ok_iff.mp hrun
          cases hrun
          obtain ⟨hrest, hshort, hd₁⟩ := readDirEntries_sound hok hentries
          obtain ⟨hrest₁, -⟩ := exactRead_int32.sound hd₁ herrno
          have hnil : d.rest = [] := by
            have hlen := congrArg List.length hrest₁
            rw [List.length_append, length_encodeInt32] at hlen
            exact List.eq_nil_of_length_eq_zero (by omega)
          rw [hrest₁, hnil, List.append_nil] at hrest
          exact hrest
    · intro heq
      have hn : es.length < turns := by
        have := length_le_encodeDirEntries es
        rw [heq, List.length_append] at hturns
        omega
      obtain ⟨d₁, hentries, hrest₁, hd₁⟩ := readDirEntries_append hok
        (show (BinaryDeserializer.new b).rest = encodeDirEntries es ++ encodeInt32 errno by
          rw [rest_new]; exact heq) (by simp) hn
      obtain ⟨d₂, herrno, -, -⟩ := exactRead_int32.run hd₁
        (show d₁.rest = encodeInt32 errno ++ [] by rw [hrest₁, List.append_nil])
      have hrun : readListing turns (BinaryDeserializer.new b) = .ok ((es, errno), d₂) :=
        ExactReader.bind_ok_iff.mpr ⟨es, d₁, hentries,
          ExactReader.bind_ok_iff.mpr ⟨errno, d₂, herrno, rfl⟩⟩
      rw [deserialize, hrun]
      rfl
  refine ⟨hread, ?_, ?_⟩
  · intro turns hturns hno
    cases hrun : readListing turns (BinaryDeserializer.new b) with
    | ok x =>
        obtain ⟨⟨es, errno⟩, d⟩ := x
        refine absurd ⟨es, errno, (hread turns hturns es errno).mp ?_⟩ hno
        rw [deserialize, hrun]
        rfl
    | error e =>
        have he : e.IsException := by
          rcases ExactReader.bind_error_iff.mp hrun with hentries | ⟨es, d₁, hentries, hrun⟩
          · exact readDirEntries_safe hok (by rw [rest_new]; exact hturns) hentries
          · obtain ⟨-, -, hd₁⟩ := readDirEntries_sound hok hentries
            rcases ExactReader.bind_error_iff.mp hrun with herrno | ⟨errno, d₂, -, hrun⟩
            · exact exactRead_int32.safe hd₁ herrno
            · cases hrun
        cases e with
        | exception kind what =>
            refine ⟨kind, what, ?_⟩
            rw [deserialize, hrun]
            rfl
        | undefined what => exact he.elim
  · intro dirs errno message hnul heq
    have hlen := congrArg List.length heq
    rw [List.length_append, length_encodeInt32] at hlen
    have hsynced : (BinarySerializer.new.append (encodeDirEntries (dirs.map entryOf))).Synced := by
      apply BinarySerializer.append_synced BinarySerializer.synced_new
      show 0 + (encodeDirEntries (dirs.map entryOf)).length < 2 ^ 32
      omega
    have hloop := DirCommandsHandler.overriddenLoop_encodes dirs dirs.length
      BinarySerializer.new hnul BinarySerializer.synced_new (by
        show 0 + (encodeDirEntries ((dirs.take dirs.length).map entryOf)).length < 2 ^ 32
        rw [List.take_length]
        omega)
    rw [List.take_length] at hloop
    refine ⟨_, hloop, fun fd => DirCommandsHandler.readdirLoop_residual fd dirs hloop, ?_,
      (hread _ (Nat.lt_succ_self _) _ _).mpr heq⟩
    have hserialized : (BinarySerializer.new.append
        (encodeDirEntries (dirs.map entryOf))).serialized = encodeDirEntries (dirs.map entryOf) :=
      List.nil_append _
    rw [readdirReply_append message hsynced (by rw [hserialized]; omega), hserialized, heq]

/-- A directory whose first inode takes 33 bits, and a file. -/
def twoDirents : List Dirent :=
  [⟨0x100000007, DirCommandsHandler.DT_DIR, ascii "a"⟩, ⟨8, 8, ascii "bc"⟩]

/-- Two entries and an error number are read back; six bytes are neither an error number nor long
enough for an entry. -/
theorem listing_parsed_exactly_twoDirents :
    deserialize (encodeDirEntries (twoDirents.map entryOf) ++ encodeInt32 5) (readListing 32) =
        .ok ([⟨7, 4, ascii "a"⟩, ⟨8, 8, ascii "bc"⟩], 5) ∧
      ∃ kind what,
        deserialize [0, 0, 0, 1, 4, 0] (readListing 7) = .error (.exception kind what) := by
  constructor
  · obtain ⟨hread, -⟩ := listing_parsed_exactly
      (encodeDirEntries (twoDirents.map entryOf) ++ encodeInt32 5) (by decide)
    exact (hread 32 (by decide) _ 5).mpr rfl
  · obtain ⟨-, hthrows, -⟩ := listing_parsed_exactly [0, 0, 0, 1, 4, 0] (by decide)
    apply hthrows 7 (by decide)
    rintro ⟨es, errno, h⟩
    have hlen := congrArg List.length h
    rw [List.length_append, length_encodeInt32] at hlen
    cases es with
    | nil => simp at hlen
    | cons e es =>
        rw [encodeDirEntries_cons, List.length_append, length_encodeDirEntry] at hlen
        simp at hlen
        omega

end Commander

end ZControl
