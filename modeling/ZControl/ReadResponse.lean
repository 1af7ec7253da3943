import ZControl.ReadWrite

/-!
# The size of a read's answer

The buffer of a read is allocated by the size in the request and sent back as a vector. It is cut
to what the system read, unless the call failed or `int32_t` cannot hold the count.
-/

namespace ZControl

open Interaction BinaryDeserializer

namespace FileCommandsHandler

/-- The bytes that a read has produced. -/
def produced : Except Int32 Bytes → Bytes
  | .ok bytes => bytes
  | .error _  => []

/-- The outcomes of a read of `size` bytes after which the buffer is as long as what was read:
the call did not fail, and its count is below 2³¹ or the whole size; or nothing was asked for. -/
def Trimmed (size : UInt32) : Except Int32 Bytes → Prop
  | .ok bytes => bytes.length < 2 ^ 31 ∨ bytes.length = size.toNat
  | .error _  => size = 0

instance (size : UInt32) : (result : Except Int32 Bytes) → Decidable (Trimmed size result)
  | .ok bytes =>
      inferInstanceAs (Decidable (bytes.length < 2 ^ 31 ∨ bytes.length = size.toNat))
  | .error _  => inferInstanceAs (Decidable (size = 0))

theorem readBuffer_eq_iff {size : UInt32} {result : Except Int32 Bytes}
    (hos : ∀ os, result = .ok os → os.length ≤ size.toNat) :
    readBuffer size result = produced result ↔ Trimmed size result := by
  cases result with
  | error e =>
      rw [readBuffer_error]
      show List.replicate size.toNat 0 = [] ↔ size = 0
      rw [List.replicate_eq_nil_iff, ← UInt32.toNat_inj]
      rfl
  | ok os =>
      show readBuffer size (.ok os) = os ↔ os.length < 2 ^ 31 ∨ os.length = size.toNat
      by_cases hshort : os.length < 2 ^ 31
      · exact iff_of_true (readBuffer_ok hshort) (.inl hshort)
      · -- nothing is cut off, and what was not read is zero
        have hlong := Nat.le_of_not_lt hshort
        constructor
        · intro hbuffer
          have hlength := length_readBuffer_long hlong (hos os rfl)
          rw [hbuffer] at hlength
          exact .inr hlength
        · rintro (hlt | hall)
          · exact absurd hlt hshort
          · rw [readBuffer_long hlong (hos os rfl), hall, Nat.sub_self, List.replicate_zero,
              List.append_nil]

/-- The answer consists of two numbers and, behind them, the vector of the bytes produced; it is
12 bytes longer than these. -/
def AnswersRead (id : UInt32) (result : Except Int32 Bytes) (r : Except Fault Message) : Prop :=
  ∃ value errno,
    r = .ok ⟨id, WorkerMessageType.commandResult.toUint8,
      encodingOf [.int32 value, .int32 errno, .byteVector (produced result)]⟩ ∧
    (encodingOf [.int32 value, .int32 errno, .byteVector (produced result)]).length =
      12 + (produced result).length

theorem encodingOf_read (value errno : Int32) (bytes : Bytes) :
    encodingOf [.int32 value, .int32 errno, .byteVector bytes] =
      encodeInt32 value ++ encodeInt32 errno ++ (BigEndian.ofNat 4 bytes.length ++ bytes) := by
  show encodeInt32 value ++ (encodeInt32 errno ++ (encodeSized bytes ++ [])) = _
  rw [List.append_nil, List.append_assoc]
  rfl

theorem answersRead_iff {id size : UInt32} {result : Except Int32 Bytes}
    {errno : Int32}
    (hos : ∀ os, result = .ok os → os.length ≤ size.toNat) :
    AnswersRead id result (.ok ⟨id, WorkerMessageType.commandResult.toUint8,
      written (readReplyFields size result errno)⟩) ↔ Trimmed size result := by
  have hbuffer : (readBuffer size result).length < 2 ^ 32 :=
    Nat.lt_of_le_of_lt (length_readBuffer_le hos) size.toNat_lt
  have hwritten : written (readReplyFields size result errno) =
      encodingOf [.int32 (readValue result), .int32 errno, .byteVector (readBuffer size result)] :=
    written_byteVector [.int32 (readValue result), .int32 errno] _ hbuffer (by simp)
  rw [← readBuffer_eq_iff hos, hwritten]
  constructor
  · rintro ⟨value, errno', hr, -⟩
    have hdata := congrArg Message.data (Except.ok.inj hr)
    dsimp only at hdata
    rw [encodingOf_read, encodingOf_read] at hdata
    -- the vectors begin at the same place
    have hvector := List.append_inj_right hdata (by simp)
    exact List.append_inj_right hvector (by simp)
  · intro hsame
    refine ⟨readValue result, errno, ?_, ?_⟩
    · rw [hsame]
    · rw [encodingOf_read]
      simp
      omega

end FileCommandsHandler

/-! ## The two commands -/

inductive ReadRequest where
  | read (fd : Int32) (size : UInt32)
  | pread (fd : Int32) (size : UInt32) (offset : Int64)
  deriving DecidableEq, Repr

namespace ReadRequest

def message (id : UInt32) : ReadRequest → Message
  | .read fd size         =>
      ⟨id, CommanderMessageType.read.toUint8, encodingOf [.int32 fd, .uint32 size]⟩
  | .pread fd size offset =>
      ⟨id, CommanderMessageType.pRead.toUint8,
        encodingOf [.int32 fd, .uint32 size, .int64 offset]⟩

def size : ReadRequest → UInt32
  | .read _ size    => size
  | .pread _ size _ => size

end ReadRequest

/-- The outcome of a `::read` or `::pread64`. -/
def WorkerEvent.readOutcome? : WorkerEvent → Option (Except Int32 Bytes)
  | ⟨.sys (.read _ _), result⟩      => some result
  | ⟨.sys (.pread64 _ _ _), result⟩ => some result
  | _ => none

section

variable {t : ThreadId} {w w' : World} {id : UInt32}
  {es : List WorkerEvent} {r : Except Fault Message} {size : UInt32}

/-- A run of a handler that looks an id up, reads, and replies with `readReply`. -/
theorem readWith_run {fd : Int32} (read : Int32 → WorkerProg (Except Int32 Bytes))
    (hread : ∀ (h : Int32) {β : Type} (k : Except Int32 Bytes → WorkerProg β) w es x,
      exec (World.step t) w (read h >>= k) es = some x →
        ∃ result e es' w₁, es = e :: es' ∧ WorkerEvent.readOutcome? e = some result ∧
          (∀ os, result = .ok os → os.length ≤ size.toNat) ∧
          exec (World.step t) w₁ (k result) es' = some x)
    (hexec : exec (World.step t) w (Local.readWith fd read fun result errno =>
      .pure ⟨id, WorkerMessageType.commandResult.toUint8,
        written (FileCommandsHandler.readReplyFields size result errno)⟩) es = some (r, w')) :
    ∃ result, es.filterMap WorkerEvent.readOutcome? = [result] ∧
      (FileCommandsHandler.AnswersRead id result r ↔
        FileCommandsHandler.Trimmed size result) := by
  obtain ⟨h, es, w₁, rfl, -, hexec⟩ := exec_perform_iff.mp hexec
  obtain ⟨result, e, es, w₂, rfl, he, hos, hexec⟩ := hread h _ _ _ _ hexec
  obtain ⟨errno, es, w₃, rfl, -, hexec⟩ := exec_perform_iff.mp hexec
  obtain ⟨rfl, heq⟩ := exec_pure_iff.mp hexec
  injection heq with hr
  refine ⟨result, ?_, ?_⟩
  · show List.filterMap _ (e :: [_]) = _
    rw [List.filterMap_cons_some he]
    rfl
  · rw [hr]
    exact FileCommandsHandler.answersRead_iff hos

end

/-- **The answer to a read is as large as what was read** exactly when its buffer is trimmed.
However the worker handles a `Read` or a `PRead`, it makes one system call, and the answer holds
the bytes which this has produced, and only these, if and only if the call did not fail with a
non-zero size and its count is below 2³¹ or the whole size. -/
theorem answersRead_run_iff (dirsToOverride : DirsToOverride) (t : ThreadId) (w w' : World)
    (id : UInt32) (c : ReadRequest) (es : List WorkerEvent) (r : Except Fault Message)
    (hexec : exec (World.step t) w (Worker.doCommand dirsToOverride (c.message id)) es =
      some (r, w')) :
    ∃ result, es.filterMap WorkerEvent.readOutcome? = [result] ∧
      (FileCommandsHandler.AnswersRead id result r ↔
        FileCommandsHandler.Trimmed c.size result) := by
  cases c with
  | read fd size =>
      refine readWith_run (fun h => sys (.read h size)) ?_ (doCommand_read fd size ▸ hexec)
      intro h β k w es x hrun
      obtain ⟨result, es', w₁, rfl, hsys, hrest⟩ := exec_perform_iff.mp hrun
      refine ⟨result, _, es', w₁, rfl, rfl, ?_, hrest⟩
      rintro os rfl
      exact World.step_read hsys
  | pread fd size offset =>
      refine readWith_run (fun h => sys (.pread64 h size offset)) ?_
        (doCommand_pread fd size offset ▸ hexec)
      intro h β k w es x hrun
      obtain ⟨result, es', w₁, rfl, hsys, hrest⟩ := exec_perform_iff.mp hrun
      refine ⟨result, _, es', w₁, rfl, rfl, ?_, hrest⟩
      rintro os rfl
      exact World.step_pread64 hsys

/-- The failing read of 16 bytes is answered with 16 bytes of zeros. -/
theorem answersRead_run_iff_failed :
    ∃ result, [⟨.file (.getFd 0), (-1 : Int32)⟩, ⟨.sys (.read (-1) 16), .error 9⟩,
          ⟨.errno, (9 : Int32)⟩].filterMap WorkerEvent.readOutcome? = [result] ∧
      (FileCommandsHandler.AnswersRead 5 result (.ok ⟨5, WorkerMessageType.commandResult.toUint8,
          written (FileCommandsHandler.readReplyFields 16 (.error 9) 9)⟩) ↔
        FileCommandsHandler.Trimmed 16 result) :=
  answersRead_run_iff [] 0 World.new (World.new.setErrno 0 9) 5 (.read 0 16) _ _ failedRead_runs

theorem not_answersRead_run :
    ¬ ∀ (w w' : World) (id : UInt32) (c : ReadRequest) (es : List WorkerEvent)
        (r : Except Fault Message),
      exec (World.step 0) w (Worker.doCommand [] (c.message id)) es = some (r, w') →
        ∃ result, es.filterMap WorkerEvent.readOutcome? = [result] ∧
          FileCommandsHandler.AnswersRead id result r := by
  intro hall
  obtain ⟨result, hone, hanswer⟩ := hall _ _ 5 (.read 0 16) _ _ failedRead_runs
  obtain rfl : .error 9 = result := List.head_eq_of_cons_eq hone
  rw [FileCommandsHandler.answersRead_iff (fun os h => by cases h)] at hanswer
  exact absurd hanswer (by decide)

end ZControl
