import ZControl.Common.Framing
import ZControl.Rpc
import ZControl.Worker.Requests

/-!
# Reading and writing remote files

The payloads of `read`, `pread`, `write` and `pwrite` are as long as the caller asks for, up to
the whole range of a `uint32_t`. What is read arrives in the caller's buffer and what is written
arrives at the system call, as long as the payloads fit a frame; the frames are where the limit
is, since the length prefix is 32 bits wide and nobody checks the length.
-/

namespace ZControl

open Interaction BinaryDeserializer

/-! ## The calls, made locally -/

namespace Local

variable {α : Type}

/-- Reading through an id: `call` on the handle it stands for, and `out` to finish. -/
def readWith (fdId : Int32) (call : Int32 → WorkerProg (Except Int32 Bytes))
    (out : Except Int32 Bytes → Int32 → WorkerProg α) : WorkerProg α := do
  let fd ← fileOp (.getFd fdId)
  let result ← call fd
  let errno ← getErrno
  out result errno

/-- Writing through an id. -/
def writeWith (fdId : Int32) (call : Int32 → WorkerProg (Except Int32 Int64)) :
    WorkerProg (Int32 × Int32) := do
  let fd ← fileOp (.getFd fdId)
  let result ← call fd
  let errno ← getErrno
  pure (FileCommandsHandler.writeValue result, errno)

end Local

/-! ## The reply to a read -/

/-- What a serializer holds after the calls for `fields`. -/
def written (fields : List Field) : Bytes :=
  match writeFields fields BinarySerializer.new with
  | .ok s    => s.serialized
  | .error _ => []

theorem commandResult_written (message : Message) (fields : List Field) :
    commandResult message fields =
      .pure ⟨message.id, WorkerMessageType.commandResult.toUint8, written fields⟩ := by
  obtain ⟨s, hs⟩ := writeFields_total fields BinarySerializer.new
  rw [commandResult, written, hs]
  rfl

theorem written_byteVector (fields : List Field) (bytes : Bytes) (hlen : bytes.length < 2 ^ 32)
    (hfields : (encodingOf fields).length + 4 < 2 ^ 32) :
    written (fields ++ [.byteVector bytes]) = encodingOf (fields ++ [.byteVector bytes]) := by
  rw [written, writeFields_byteVector fields hlen hfields]
  rfl

theorem written_bytes (fields : List Field) {buffer : Bytes} {length : UInt32}
    (fits : length.toNat ≤ buffer.length) (hfields : (encodingOf fields).length + 4 < 2 ^ 32) :
    written (fields ++ [.bytes buffer length fits]) =
      encodingOf (fields ++ [.bytes buffer length fits]) := by
  have hlen : (buffer.take length.toNat).length = length.toNat := by
    rw [List.length_take, Nat.min_eq_left fits]
  -- the two overloads make the same bytes of the same contents
  have hwrite : ∀ s : BinarySerializer, writeFields [.bytes buffer length fits] s =
      writeFields [.byteVector (buffer.take length.toNat)] s := by
    intro s
    show (s.putSized length (buffer.take length.toNat)).bind _ =
      (s.putSized (UInt32.ofNat (buffer.take length.toNat).length) _).bind _
    rw [hlen, UInt32.ofNat_toNat]
  have hvector := written_byteVector fields (buffer.take length.toNat)
    (by rw [hlen]; exact length.toNat_lt) hfields
  rw [encodingOf_append] at hvector ⊢
  rw [written, writeFields_bind, funext hwrite, ← writeFields_bind]
  exact hvector

namespace FileCommandsHandler

/-- The fields of the reply to `read` and `pread`. -/
def readReplyFields (size : UInt32) (result : Except Int32 Bytes) (errno : Int32) : List Field :=
  [.int32 (readValue result), .int32 errno, .byteVector (readBuffer size result)]

/-- A short enough answer of the system is all that is left of the buffer. -/
theorem readBuffer_ok {size : UInt32} {os : Bytes} (hos : os.length < 2 ^ 31) :
    readBuffer size (.ok os) = os := by
  have hvalue : (readValue (.ok os)).toInt = os.length := Int32.toInt_ofNat_of_lt hos
  have hpos : readValue (.ok os) ≥ 0 := by
    rw [ge_iff_le, Int32.le_iff_toInt_le, hvalue]
    exact Int.natCast_nonneg _
  simp only [readBuffer, hpos, if_true, hvalue, Int.toNat_natCast]
  simp [BinarySerializer.resize]

/-- A failing call leaves the buffer at its full size. -/
theorem readBuffer_error (size : UInt32) (e : Int32) :
    readBuffer size (.error e) = List.replicate size.toNat 0 := by
  have hneg : ¬ (-1 : Int32) ≥ 0 := by decide
  simp [readBuffer, readValue, hneg]

/-- So does a count that `int32_t` cannot hold. -/
theorem readBuffer_long {size : UInt32} {os : Bytes} (hlong : 2 ^ 31 ≤ os.length)
    (hos : os.length ≤ size.toNat) :
    readBuffer size (.ok os) = os ++ List.replicate (size.toNat - os.length) 0 := by
  have hsize := size.toNat_lt
  have hneg : ¬ readValue (.ok os) ≥ 0 := by
    have hz : (0 : Int32).toInt = 0 := rfl
    rw [readValue, ge_iff_le, Int32.le_iff_toInt_le, Int32.toInt_ofNat', hz, Int32.size, Int.bmod]
    omega
  simp only [readBuffer, hneg, if_false]

theorem length_readBuffer_long {size : UInt32} {os : Bytes} (hlong : 2 ^ 31 ≤ os.length)
    (hos : os.length ≤ size.toNat) : (readBuffer size (.ok os)).length = size.toNat := by
  rw [readBuffer_long hlong hos, List.length_append, List.length_replicate]
  omega

theorem length_readBuffer_le {size : UInt32} {result : Except Int32 Bytes}
    (hos : ∀ os, result = .ok os → os.length ≤ size.toNat) :
    (readBuffer size result).length ≤ size.toNat := by
  cases result with
  | error e =>
      rw [readBuffer_error, List.length_replicate]
  | ok os =>
      by_cases hshort : os.length < 2 ^ 31
      · rw [readBuffer_ok hshort]
        exact hos os rfl
      · exact Nat.le_of_eq (length_readBuffer_long (Nat.le_of_not_lt hshort) (hos os rfl))

/-- When the reply to a read fits a frame. -/
theorem length_readReply_iff {size : UInt32} {result : Except Int32 Bytes} (errno : Int32)
    (hos : ∀ os, result = .ok os → os.length ≤ size.toNat) :
    (written (readReplyFields size result errno)).length < 2 ^ 32 ↔
      12 + size.toNat < 2 ^ 32 ∨ ∃ os, result = .ok os ∧ os.length < 2 ^ 31 := by
  have hsize := size.toNat_lt
  have hlength : ∀ n, (readBuffer size result).length = n → n < 2 ^ 32 →
      (written (readReplyFields size result errno)).length = 12 + n := by
    intro n hbuffer hn
    have hwritten : written (readReplyFields size result errno) =
        encodingOf ([.int32 (readValue result), .int32 errno] ++
          [.byteVector (readBuffer size result)]) :=
      written_byteVector [.int32 (readValue result), .int32 errno] _ (by omega) (by simp)
    rw [hwritten]
    simp [hbuffer]
    omega
  cases result with
  | error e =>
      rw [hlength size.toNat (by rw [readBuffer_error, List.length_replicate]) hsize]
      simp
  | ok os =>
      by_cases hlong : os.length < 2 ^ 31
      · rw [hlength os.length (by rw [readBuffer_ok hlong]) (by omega)]
        simp only [Except.ok.injEq, exists_eq_left', hlong, or_true, iff_true]
        omega
      · rw [hlength size.toNat (length_readBuffer_long (by omega) (hos os rfl)) hsize]
        simp only [Except.ok.injEq, exists_eq_left', hlong, or_false]

end FileCommandsHandler

namespace Commander

theorem memcpy_prefix {dest src : Bytes} (h : src.length ≤ dest.length) :
    memcpy dest src src.length = .ok (src ++ dest.drop src.length) := by
  rw [memcpy, if_pos ⟨Nat.le_refl _, h⟩, List.take_length]

section

variable {id : UInt32} {type : UInt8} {bytes : Bytes} {size : UInt32} {errno : Int32} {what : Bytes}

/-- What `read` and `pread` make of a successful reply: the bytes the system read at the start of
the buffer, and the rest of the buffer as it was. -/
theorem readAnswer_ok {os : Bytes} (hos : os.length < 2 ^ 31) (hsize : os.length ≤ size.toNat)
    (hbuffer : size.toNat ≤ bytes.length) :
    readAnswer ⟨id, type,
        written (FileCommandsHandler.readReplyFields size (.ok os) errno)⟩ bytes size what =
      .pure ((Int32.ofNat os.length, errno), os ++ bytes.drop os.length) := by
  have hfields : FileCommandsHandler.readReplyFields size (.ok os) errno =
      [.int32 (Int32.ofNat os.length), .int32 errno] ++ [.byteVector os] := by
    simp [FileCommandsHandler.readReplyFields, FileCommandsHandler.readBuffer_ok hos,
      FileCommandsHandler.readValue]
  have hvalue := Int32.toInt_ofNat_of_lt hos
  have hfits : (encodingOf ([.int32 (Int32.ofNat os.length), .int32 errno] ++
      [.byteVector os])).length < 2 ^ 32 := by
    simp
    omega
  rw [hfields, written_byteVector _ _ (by omega) (by simp)]
  obtain ⟨d, hrest, hd, hread⟩ := readFields_bind [.int32 (Int32.ofNat os.length), .int32 errno]
    (encodingOf [.byteVector os]) (ok_new hfits) (by simp)
  apply Prog.lift_eq_pure_iff.mpr
  refine (congrArg (Except.map Prod.fst) (hread _)).trans ?_
  by_cases hzero : os.length = 0
  · -- end of file: nothing is copied
    have hnot : ¬ Int32.ofNat os.length > 0 := by
      rw [gt_iff_lt, Int32.lt_iff_toInt_lt, hvalue, hzero]
      decide
    obtain rfl := List.length_eq_zero_iff.mp hzero
    simp only [valuesOf, Field.value, if_neg hnot]
    rfl
  · have hpos : Int32.ofNat os.length > 0 := by
      have hz : (0 : Int32).toInt = 0 := rfl
      rw [gt_iff_lt, Int32.lt_iff_toInt_lt, hvalue, hz]
      omega
    obtain ⟨d', hvector, -, -⟩ := exactRead_byteVector.run hd
      (show d.rest = encodeSized os ++ [] by
        simpa [Field.encoded, Field.value, FieldKind.encode] using hrest)
    have hshort : ¬ os.length > size.toNat := by omega
    have hcopy : memcpy bytes os (Int32.ofNat os.length).toInt.toNat =
        .ok (os ++ bytes.drop os.length) := by
      rw [hvalue, Int.toNat_natCast]
      exact memcpy_prefix (by omega)
    simp only [valuesOf, Field.value, hpos, if_true]
    have hrest : ∀ f : Bytes → Read ((Int32 × Int32) × Bytes),
        f os d' = .ok (((Int32.ofNat os.length, errno), os ++ bytes.drop os.length), d') →
          (deserializeByteVector >>= f) d =
            .ok (((Int32.ofNat os.length, errno), os ++ bytes.drop os.length), d') :=
      fun f hf => ExactReader.bind_ok_iff.mpr ⟨os, d', hvector, hf⟩
    rw [hrest]
    · rfl
    · simp only [hshort, if_false, hcopy]
      rfl

/-- What they make of a reply without bytes: the buffer stays as it was. -/
theorem readAnswer_error {e : Int32} (hsize : 12 + size.toNat < 2 ^ 32) :
    readAnswer ⟨id, type,
        written (FileCommandsHandler.readReplyFields size (.error e) errno)⟩ bytes size what =
      .pure ((-1, errno), bytes) := by
  have hfields : FileCommandsHandler.readReplyFields size (.error e) errno =
      [.int32 (-1), .int32 errno] ++ [.byteVector (List.replicate size.toNat 0)] := by
    simp [FileCommandsHandler.readReplyFields, FileCommandsHandler.readBuffer_error,
      FileCommandsHandler.readValue]
  have hfits : (encodingOf ([.int32 (-1), .int32 errno] ++
      [.byteVector (List.replicate size.toNat 0)])).length < 2 ^ 32 := by
    simp
    omega
  rw [hfields, written_byteVector _ _ (by rw [List.length_replicate]; omega) (by simp)]
  obtain ⟨d, -, -, hread⟩ := readFields_bind [.int32 (-1), .int32 errno]
    (encodingOf [.byteVector (List.replicate size.toNat 0)]) (ok_new hfits) (by simp)
  apply Prog.lift_eq_pure_iff.mpr
  refine (congrArg (Except.map Prod.fst) (hread _)).trans ?_
  rfl

end

end Commander

/-! ## The calls, made remotely -/

section

variable {dirsToOverride : DirsToOverride} {id : UInt32} {fd : Int32} {bytes : Bytes}
  {size : UInt32} {offset : Int64}

theorem noThrow_sys (call : SysCall) : (sys call).NoThrow := fun _ => trivial

theorem noThrow_writeWith {call : Int32 → WorkerProg (Except Int32 Int64)}
    (hcall : ∀ h, (call h).NoThrow) : (Local.writeWith fd call).NoThrow :=
  fun h => (hcall h).bind fun _ => fun _ => trivial

/-- How a command is handled that looks an id up, reads, and replies with `readReply`. -/
theorem doCommand_readWith {type : UInt8} {data : Bytes}
    (call : Int32 → WorkerProg (Except Int32 Bytes)) (hcall : ∀ h, (call h).NoThrow)
    (hdispatch : Worker.dispatch dirsToOverride ⟨id, type, data⟩ = do
      let h ← FileCommandsHandler.getFd fd
      let result ← call h
      FileCommandsHandler.readReply ⟨id, type, data⟩ size result) :
    Worker.doCommand dirsToOverride ⟨id, type, data⟩ =
      Local.readWith fd call fun result errno =>
        .pure ⟨id, WorkerMessageType.commandResult.toUint8,
          written (FileCommandsHandler.readReplyFields size result errno)⟩ := by
  let p : WorkerProg (Except Int32 Bytes × Int32) :=
    Local.readWith fd call fun result errno => .pure (result, errno)
  have hp : p.NoThrow := fun h => (hcall h).bind fun _ => fun _ => trivial
  have hp' : Worker.dispatch dirsToOverride ⟨id, type, data⟩ =
      p >>= fun x => commandResult ⟨id, type, data⟩
        (FileCommandsHandler.readReplyFields size x.1 x.2) := by
    rw [hdispatch]
    simp only [p, Local.readWith, FileCommandsHandler.getFd, FileCommandsHandler.readReply,
      FileCommandsHandler.readReplyFields, Prog.call_bind, Prog.perform_bind, Prog.bind_assoc,
      Prog.pure_bind]
  rw [Worker.doCommand, hp', hp.tryCatch_bind]
  simp only [p, Local.readWith, commandResult_written, Prog.tryCatch_pure, Prog.call_bind,
    Prog.perform_bind, Prog.bind_assoc, Prog.pure_bind]

/-- The same for `writeReply`. -/
theorem doCommand_writeWith {type : UInt8} {data : Bytes}
    (call : Int32 → WorkerProg (Except Int32 Int64)) (hcall : ∀ h, (call h).NoThrow)
    (hdispatch : Worker.dispatch dirsToOverride ⟨id, type, data⟩ = do
      let h ← FileCommandsHandler.getFd fd
      let result ← call h
      FileCommandsHandler.writeReply ⟨id, type, data⟩ result) :
    Worker.doCommand dirsToOverride ⟨id, type, data⟩ =
      Local.writeWith fd call >>= fun x =>
        .pure ⟨id, WorkerMessageType.commandResult.toUint8,
          encodingOf [.int32 x.1, .int32 x.2]⟩ := by
  have hp : (Local.writeWith fd call).NoThrow := noThrow_writeWith hcall
  have hp' : Worker.dispatch dirsToOverride ⟨id, type, data⟩ =
      Local.writeWith fd call >>= fun x =>
        commandResult ⟨id, type, data⟩ [.int32 x.1, .int32 x.2] := by
    rw [hdispatch]
    simp only [Local.writeWith, FileCommandsHandler.getFd, FileCommandsHandler.writeReply,
      Prog.pure_eq, Prog.call_bind, Prog.perform_bind, Prog.bind_assoc, Prog.pure_bind]
  rw [Worker.doCommand, hp', hp.tryCatch_bind]
  simp only [commandResult_value, reply, Prog.tryCatch_pure]

/-! The commands with their argument lists as they are sent. -/

theorem doCommand_read (fd : Int32) (size : UInt32) :
    Worker.doCommand dirsToOverride
        ⟨id, CommanderMessageType.read.toUint8, encodingOf [.int32 fd, .uint32 size]⟩ =
      Local.readWith fd (fun h => sys (.read h size)) fun result errno =>
        .pure ⟨id, WorkerMessageType.commandResult.toUint8,
          written (FileCommandsHandler.readReplyFields size result errno)⟩ := by
  refine doCommand_readWith _ (fun _ => noThrow_sys _) ?_
  show FileCommandsHandler.read _ = _
  exact arguments_bind (by simp)

theorem doCommand_pread (fd : Int32) (size : UInt32) (offset : Int64) :
    Worker.doCommand dirsToOverride ⟨id, CommanderMessageType.pRead.toUint8,
        encodingOf [.int32 fd, .uint32 size, .int64 offset]⟩ =
      Local.readWith fd (fun h => sys (.pread64 h size offset)) fun result errno =>
        .pure ⟨id, WorkerMessageType.commandResult.toUint8,
          written (FileCommandsHandler.readReplyFields size result errno)⟩ := by
  refine doCommand_readWith _ (fun _ => noThrow_sys _) ?_
  show FileCommandsHandler.pread _ = _
  exact arguments_bind (by simp)

theorem doCommand_write (hsize : size.toNat ≤ bytes.length) (hfits : 8 + size.toNat < 2 ^ 32) :
    Worker.doCommand dirsToOverride ⟨id, CommanderMessageType.write.toUint8,
        encodingOf [.int32 fd, .bytes bytes size hsize]⟩ =
      Local.writeWith fd (fun h => sys (.write h (bytes.take size.toNat))) >>= fun x =>
        .pure ⟨id, WorkerMessageType.commandResult.toUint8,
          encodingOf [.int32 x.1, .int32 x.2]⟩ := by
  refine doCommand_writeWith _ (fun _ => noThrow_sys _) ?_
  show FileCommandsHandler.write _ = _
  exact arguments_bind (by simp; omega)

theorem doCommand_pwrite (hsize : size.toNat ≤ bytes.length) (hfits : 16 + size.toNat < 2 ^ 32) :
    Worker.doCommand dirsToOverride ⟨id, CommanderMessageType.pWrite.toUint8,
        encodingOf [.int32 fd, .int64 offset, .bytes bytes size hsize]⟩ =
      Local.writeWith fd (fun h => sys (.pwrite64 h (bytes.take size.toNat) offset)) >>= fun x =>
        .pure ⟨id, WorkerMessageType.commandResult.toUint8,
          encodingOf [.int32 x.1, .int32 x.2]⟩ := by
  refine doCommand_writeWith _ (fun _ => noThrow_sys _) ?_
  show FileCommandsHandler.pwrite _ = _
  exact arguments_bind (by simp; omega)

/-- What `read` and `pread` finish with: the fields are read back from the reply. -/
def finishRead (dirsToOverride : DirsToOverride) (id : UInt32) (bytes : Bytes) (size : UInt32)
    (what : Bytes) (result : Except Int32 Bytes) (errno : Int32) :
    WorkerProg ((Int32 × Int32) × Bytes) :=
  Remote dirsToOverride id (Commander.readAnswer ⟨id, WorkerMessageType.commandResult.toUint8,
    written (FileCommandsHandler.readReplyFields size result errno)⟩ bytes size what)

/-- A method that sends a command handled so. -/
theorem remote_readWith {α : Type} {type : CommanderMessageType} {fields : List Field}
    {call : Int32 → WorkerProg (Except Int32 Bytes)}
    (hfields : (encodingOf fields).length < 2 ^ 32)
    (hanswer : Worker.doCommand dirsToOverride ⟨id, type.toUint8, encodingOf fields⟩ =
      Local.readWith fd call fun result errno =>
        .pure ⟨id, WorkerMessageType.commandResult.toUint8,
          written (FileCommandsHandler.readReplyFields size result errno)⟩)
    (f : Message → CommanderProg α) :
    Remote dirsToOverride id (Commander.request type fields >>= f) =
      Local.readWith fd call fun result errno =>
        Remote dirsToOverride id (f ⟨id, WorkerMessageType.commandResult.toUint8,
          written (FileCommandsHandler.readReplyFields size result errno)⟩) := by
  have hanswer' : Worker.doCommand dirsToOverride ⟨id, type.toUint8, encodingOf fields⟩ =
      (Local.readWith fd call fun result errno => .pure (result, errno)) >>= fun x =>
        .pure ⟨id, WorkerMessageType.commandResult.toUint8,
          written (FileCommandsHandler.readReplyFields size x.1 x.2)⟩ := by
    rw [hanswer]
    simp only [Local.readWith, Prog.call_bind, Prog.perform_bind, Prog.bind_assoc, Prog.pure_bind]
  rw [remote_handled hfields hanswer']
  simp only [Local.readWith, Prog.call_bind, Prog.perform_bind, Prog.bind_assoc, Prog.pure_bind]

theorem remote_read (fd : Int32) (bytes : Bytes) (size : UInt32) :
    Remote dirsToOverride id (Commander.read fd bytes size) =
      Local.readWith fd (fun h => sys (.read h size)) (finishRead dirsToOverride id bytes size
        (ascii "read returned more bytes than requested")) :=
  remote_readWith (by simp) (doCommand_read fd size) _

theorem remote_pread (fd : Int32) (bytes : Bytes) (size : UInt32) (offset : Int64) :
    Remote dirsToOverride id (Commander.pread fd bytes size offset) =
      Local.readWith fd (fun h => sys (.pread64 h size offset)) (finishRead dirsToOverride id bytes
        size (ascii "pread returned more bytes than requested")) :=
  remote_readWith (by simp) (doCommand_pread fd size offset) _

/-- A method that sends a command handled by `writeReply`. -/
theorem remote_writeWith {type : CommanderMessageType} {fields : List Field}
    {call : Int32 → WorkerProg (Except Int32 Int64)}
    (hfields : (encodingOf fields).length < 2 ^ 32)
    (hanswer : Worker.doCommand dirsToOverride ⟨id, type.toUint8, encodingOf fields⟩ =
      Local.writeWith fd call >>= fun x =>
        .pure ⟨id, WorkerMessageType.commandResult.toUint8,
          encodingOf [.int32 x.1, .int32 x.2]⟩) :
    Remote dirsToOverride id (Commander.valueCommand type fields) = Local.writeWith fd call := by
  rw [Commander.valueCommand, remote_handled hfields hanswer]
  refine (congrArg (Local.writeWith fd call >>= ·) (funext fun x => ?_)).trans
    (Prog.bind_pure _)
  -- the two fields are read back
  have hread : Commander.response (α := Values [.int32, .int32])
      ⟨id, WorkerMessageType.commandResult.toUint8, encodingOf [.int32 x.1, .int32 x.2]⟩
      (readFields [.int32, .int32]) = .pure (x.1, x.2, ()) :=
    Prog.lift_eq_pure_iff.mpr (deserialize_value x.1 x.2)
  rw [hread]
  rfl

theorem remote_write (hsize : size.toNat ≤ bytes.length) (hfits : 8 + size.toNat < 2 ^ 32) :
    Remote dirsToOverride id (Commander.write fd bytes size hsize) =
      Local.writeWith fd fun h => sys (.write h (bytes.take size.toNat)) :=
  remote_writeWith (by simp; omega) (doCommand_write hsize hfits)

theorem remote_pwrite (hsize : size.toNat ≤ bytes.length) (hfits : 16 + size.toNat < 2 ^ 32) :
    Remote dirsToOverride id (Commander.pwrite fd bytes size offset hsize) =
      Local.writeWith fd fun h => sys (.pwrite64 h (bytes.take size.toNat) offset) :=
  remote_writeWith (by simp; omega) (doCommand_pwrite hsize hfits)

end

/-- `out` hands on what the system read: the count and the error number, and a buffer that begins
with exactly the bytes read and is otherwise the caller's. -/
def Delivers (bytes : Bytes) (size : UInt32)
    (out : Except Int32 Bytes → Int32 → WorkerProg ((Int32 × Int32) × Bytes)) : Prop :=
  (∀ (os : Bytes) (errno : Int32), os.length ≤ size.toNat → os.length ≤ 2 ^ 31 - 1 →
    ∃ value : Int32, value.toInt = os.length ∧
      out (.ok os) errno = .pure ((value, errno), os ++ bytes.drop os.length)) ∧
  ∀ e errno : Int32, 12 + size.toNat < 2 ^ 32 →
    out (.error e) errno = .pure ((-1, errno), bytes)

theorem finishRead_delivers (dirsToOverride : DirsToOverride) (id : UInt32) {bytes : Bytes}
    {size : UInt32} (what : Bytes) (hsize : size.toNat ≤ bytes.length) :
    Delivers bytes size (finishRead dirsToOverride id bytes size what) := by
  refine ⟨fun os errno hos hcount => ?_, fun e errno hfits => ?_⟩
  · have hlt : os.length < 2 ^ 31 := by omega
    refine ⟨Int32.ofNat os.length, Int32.toInt_ofNat_of_lt hlt, ?_⟩
    rw [finishRead, Commander.readAnswer_ok hlt hos hsize]
    rfl
  · rw [finishRead, Commander.readAnswer_error hfits]
    rfl

/-- The count a worker replies with is the system's, as long as an `int32_t` can hold it. -/
theorem toInt_writeValue {count : Int64} (hpos : 0 ≤ count.toInt) (hcount : count.toInt < 2 ^ 31) :
    (FileCommandsHandler.writeValue (.ok count)).toInt = count.toInt := by
  rw [FileCommandsHandler.writeValue, Int64.toInt_toInt32]
  apply Int.bmod_eq_of_le
  all_goals omega

/-- **Read and write keep the payload.** A read made remotely is the system call on the handle of
the id, with the size and offset that were asked for, followed by a step that never throws and
delivers what the system returned; a write made remotely is the system call with the caller's
bytes and offset, and returns the system's count and error number. -/
theorem payload_fidelity (dirsToOverride : DirsToOverride) (id : UInt32) (fd : Int32)
    (bytes : Bytes) (size : UInt32) (offset : Int64) (hsize : size.toNat ≤ bytes.length) :
    (∃ out, Remote dirsToOverride id (Commander.read fd bytes size) =
        Local.readWith fd (fun h => sys (.read h size)) out ∧ Delivers bytes size out) ∧
    (∃ out, Remote dirsToOverride id (Commander.pread fd bytes size offset) =
        Local.readWith fd (fun h => sys (.pread64 h size offset)) out ∧
      Delivers bytes size out) ∧
    (8 + size.toNat < 2 ^ 32 →
      Remote dirsToOverride id (Commander.write fd bytes size hsize) =
        Local.writeWith fd fun h => sys (.write h (bytes.take size.toNat))) ∧
    (16 + size.toNat < 2 ^ 32 →
      Remote dirsToOverride id (Commander.pwrite fd bytes size offset hsize) =
        Local.writeWith fd fun h => sys (.pwrite64 h (bytes.take size.toNat) offset)) ∧
    ∀ count : Int64, 0 ≤ count.toInt → count.toInt < 2 ^ 31 →
      (FileCommandsHandler.writeValue (.ok count)).toInt = count.toInt := by
  refine ⟨⟨_, remote_read fd bytes size, finishRead_delivers _ _ _ hsize⟩,
    ⟨_, remote_pread fd bytes size offset, finishRead_delivers _ _ _ hsize⟩, ?_, ?_, ?_⟩
  · exact remote_write hsize
  · exact remote_pwrite hsize
  · exact fun count => toInt_writeValue

/-- Writing three bytes of a buffer of four. -/
theorem payload_fidelity_write :
    Remote [] 7 (Commander.write 2 [10, 20, 30, 40] 3 (by decide)) =
      Local.writeWith 2 fun h => sys (.write h [10, 20, 30]) :=
  (payload_fidelity [] 7 2 [10, 20, 30, 40] 3 0 (by decide)).2.2.1 (by decide)

/-! ## Length prefixes -/

open MessageTransport in
/-- The length prefix of the frame is the number of bytes that follow it, and the peer's `read`
takes exactly this message off the stream, wherever the kernel splits it. -/
def FramedTruly (m : Message) : Prop :=
  ∃ bytes, frame m = .ok bytes ∧
    BigEndian.toNat ((bytes.drop 5).take 4) = (bytes.drop 9).length ∧
    ∀ (s : Incoming) (tail : Bytes), s.OnlySplits → s.bytes = bytes ++ tail →
      ∃ s', s'.OnlySplits ∧ s'.bytes = tail ∧ read.exec s = (.ok m, s')

open MessageTransport in
theorem framedTruly_iff (m : Message) : FramedTruly m ↔ m.data.length < 2 ^ 32 := by
  have hheader : (headerOf m).drop 5 = encodeUint32 (UInt32.ofNat m.data.length) := by
    rw [headerOf, ← List.append_assoc, List.drop_left' (by simp)]
  have hlenBytes : ((frameOf m).drop 5).take 4 = encodeUint32 (UInt32.ofNat m.data.length) := by
    rw [frameOf, List.drop_append_of_le_length (by simp), hheader, List.take_left' (by simp)]
  have hdata : (frameOf m).drop 9 = m.data := by rw [frameOf, List.drop_left' (by simp)]
  have hnat : BigEndian.toNat (encodeUint32 (UInt32.ofNat m.data.length)) =
      m.data.length % 2 ^ 32 := by
    rw [encodeUint32, BigEndian.toNat_ofNat, UInt32.toNat_ofNat', Nat.mod_eq_of_lt]
    exact Nat.mod_lt _ (by decide)
  constructor
  · rintro ⟨bytes, hbytes, hlen, -⟩
    obtain rfl := Except.ok.inj ((frame_eq m).symm.trans hbytes)
    rw [hlenBytes, hdata, hnat] at hlen
    have := Nat.mod_lt m.data.length (show 0 < 2 ^ 32 by decide)
    omega
  · intro hlen
    refine ⟨frameOf m, frame_eq m, ?_, fun s tail hs hbytes => read_frame hs hlen hbytes⟩
    rw [hlenBytes, hdata, hnat, Nat.mod_eq_of_lt hlen]

/-- The method hands `m` to `_send_command`, in some run. -/
inductive Sends (m : Message) {α : Type} : CommanderProg α → Prop where
  | here (k : Except Fault Message → CommanderProg α) :
      Sends m (.perform (.sendCommand m) k)
  | later (op : CommanderOp) (k : op.Ans → CommanderProg α) (a : op.Ans) (h : Sends m (k a)) :
      Sends m (.perform op k)

theorem not_sends_lift {m : Message} {α : Type} (r : Except Fault α) :
    ¬ Sends m (Prog.lift r : CommanderProg α) := by
  intro h
  cases r <;> cases h

theorem not_sends_lift_bind {m : Message} {α β : Type} (r : Except Fault α)
    {f : α → CommanderProg β} (hf : ∀ a, ¬ Sends m (f a)) : ¬ Sends m (Prog.lift r >>= f) := by
  intro h
  cases r with
  | ok a => exact hf a h
  | error e => cases h

/-- A method that decodes the answer sends one message. -/
theorem sends_request {m : Message} {α : Type} {type : CommanderMessageType} {fields : List Field}
    {f : Message → CommanderProg α} (hf : ∀ a, ¬ Sends m (f a))
    (h : Sends m (Commander.request type fields >>= f)) :
    ∃ id, m = ⟨id, type.toUint8, written fields⟩ := by
  obtain ⟨s, hs⟩ := writeFields_total fields BinarySerializer.new
  simp only [Commander.request, hs, Prog.lift_ok, Prog.pure_bind, Prog.call_bind,
    Prog.perform_bind] at h
  obtain - | ⟨_, _, id, h⟩ := h
  refine ⟨id, ?_⟩
  cases h with
  | here k => rw [written, hs]; rfl
  | later _ _ answer h =>
      cases answer with
      | ok a => exact absurd h (hf a)
      | error e => cases h

theorem request_sends {α : Type} (id : UInt32) (type : CommanderMessageType) (fields : List Field)
    (f : Message → CommanderProg α) :
    Sends ⟨id, type.toUint8, written fields⟩ (Commander.request type fields >>= f) := by
  obtain ⟨s, hs⟩ := writeFields_total fields BinarySerializer.new
  have hwritten : written fields = s.data.1 := by rw [written, hs]; rfl
  simp only [Commander.request, hs, Prog.lift_ok, Prog.pure_bind, Prog.call_bind,
    Prog.perform_bind, hwritten]
  exact .later _ _ id (.here _)

/-- A call of one of the four methods, with the caller's buffer. -/
inductive TransferCall where
  | read (fd : Int32) (bytes : Bytes) (size : UInt32)
  | pread (fd : Int32) (bytes : Bytes) (size : UInt32) (offset : Int64)
  | write (fd : Int32) (bytes : Bytes) (size : UInt32) (hsize : size.toNat ≤ bytes.length)
  | pwrite (fd : Int32) (bytes : Bytes) (size : UInt32) (offset : Int64)
      (hsize : size.toNat ≤ bytes.length)

namespace TransferCall

@[reducible] def Result : TransferCall → Type
  | .read _ _ _     => (Int32 × Int32) × Bytes
  | .pread _ _ _ _  => (Int32 × Int32) × Bytes
  | .write _ _ _ _  => Int32 × Int32
  | .pwrite _ _ _ _ _ => Int32 × Int32

def method : (c : TransferCall) → CommanderProg c.Result
  | .read fd bytes size                => Commander.read fd bytes size
  | .pread fd bytes size offset        => Commander.pread fd bytes size offset
  | .write fd bytes size hsize         => Commander.write fd bytes size hsize
  | .pwrite fd bytes size offset hsize => Commander.pwrite fd bytes size offset hsize

/-- The payloads stay below `2 ^ 32` bytes, `es` being what the worker did. The reply to a read has
the whole buffer in it unless the call succeeded with a count that `int32_t` can hold. -/
def Fits (es : List WorkerEvent) : TransferCall → Prop
  | .read _ _ size => 12 + size.toNat < 2 ^ 32 ∨
      ∃ h os, ⟨.sys (.read h size), .ok os⟩ ∈ es ∧ os.length < 2 ^ 31
  | .pread _ _ size offset => 12 + size.toNat < 2 ^ 32 ∨
      ∃ h os, ⟨.sys (.pread64 h size offset), .ok os⟩ ∈ es ∧ os.length < 2 ^ 31
  | .write _ _ size _ => 8 + size.toNat < 2 ^ 32
  | .pwrite _ _ size _ _ => 16 + size.toNat < 2 ^ 32

end TransferCall

section

variable {dirsToOverride : DirsToOverride} {t : ThreadId} {w : World} {m : Message}
  {es : List WorkerEvent}

/-- The worker answers `m` with a message that is framed truly, if the run is `es`. -/
def AnswersTruly (dirsToOverride : DirsToOverride) (t : ThreadId) (w : World) (m : Message)
    (es : List WorkerEvent) : Prop :=
  ∀ res w', exec (World.step t) w (Worker.doCommand dirsToOverride m) es = some (res, w') →
    ∃ r, res = .ok r ∧ FramedTruly r

theorem answersTruly_iff {r : Message} {w' : World}
    (h : exec (World.step t) w (Worker.doCommand dirsToOverride m) es = some (.ok r, w')) :
    AnswersTruly dirsToOverride t w m es ↔ FramedTruly r := by
  constructor
  · intro hanswers
    obtain ⟨_, heq, hframed⟩ := hanswers _ _ h
    cases heq
    exact hframed
  · intro hframed res w'' h'
    rw [h] at h'
    cases h'
    exact ⟨r, rfl, hframed⟩

/-- The answer to a read, by what the system returned. -/
theorem answersTruly_readReply {id : UInt32} {size : UInt32} {result : Except Int32 Bytes}
    {errno : Int32} {w' : World} (hos : ∀ os, result = .ok os → os.length ≤ size.toNat)
    (h : exec (World.step t) w (Worker.doCommand dirsToOverride m) es =
      some (.ok ⟨id, WorkerMessageType.commandResult.toUint8,
        written (FileCommandsHandler.readReplyFields size result errno)⟩, w')) :
    AnswersTruly dirsToOverride t w m es ↔
      12 + size.toNat < 2 ^ 32 ∨ ∃ os, result = .ok os ∧ os.length < 2 ^ 31 := by
  rw [answersTruly_iff h, framedTruly_iff]
  dsimp only
  exact FileCommandsHandler.length_readReply_iff errno hos

theorem answersTruly_read {id : UInt32} {fd : Int32} {size : UInt32}
    (hes : ∃ res w', exec (World.step t) w (Worker.doCommand dirsToOverride
      ⟨id, CommanderMessageType.read.toUint8, encodingOf [.int32 fd, .uint32 size]⟩) es =
        some (res, w')) :
    AnswersTruly dirsToOverride t w
        ⟨id, CommanderMessageType.read.toUint8, encodingOf [.int32 fd, .uint32 size]⟩ es ↔
      12 + size.toNat < 2 ^ 32 ∨
        ∃ h os, ⟨.sys (.read h size), .ok os⟩ ∈ es ∧ os.length < 2 ^ 31 := by
  obtain ⟨res, w', h⟩ := hes
  have hrun := h
  simp only [doCommand_read, Local.readWith, Prog.call_bind, exec_perform_iff] at hrun
  obtain ⟨handle, es₁, w₁, rfl, -, result, es₂, w₂, rfl, hsys, errno, es₃, w₃, rfl, -, hend⟩ := hrun
  obtain ⟨rfl, heq⟩ := exec_pure_iff.mp hend
  cases heq
  have hos : ∀ os, result = .ok os → os.length ≤ size.toNat := by
    rintro os rfl
    exact World.step_read hsys
  refine (answersTruly_readReply hos h).trans (or_congr_right ⟨?_, ?_⟩)
  · rintro ⟨os, rfl, hlt⟩
    exact ⟨handle, os, .tail _ (.head _), hlt⟩
  · rintro ⟨_, os, hmem, hlt⟩
    -- it is the only system call
    cases hmem with
    | tail _ hmem =>
        cases hmem with
        | head => exact ⟨os, rfl, hlt⟩
        | tail _ hmem =>
            cases hmem with
            | tail _ hnil => cases hnil

theorem answersTruly_pread {id : UInt32} {fd : Int32} {size : UInt32} {offset : Int64}
    (hes : ∃ res w', exec (World.step t) w (Worker.doCommand dirsToOverride
      ⟨id, CommanderMessageType.pRead.toUint8,
        encodingOf [.int32 fd, .uint32 size, .int64 offset]⟩) es = some (res, w')) :
    AnswersTruly dirsToOverride t w ⟨id, CommanderMessageType.pRead.toUint8,
        encodingOf [.int32 fd, .uint32 size, .int64 offset]⟩ es ↔
      12 + size.toNat < 2 ^ 32 ∨
        ∃ h os, ⟨.sys (.pread64 h size offset), .ok os⟩ ∈ es ∧ os.length < 2 ^ 31 := by
  obtain ⟨res, w', h⟩ := hes
  have hrun := h
  simp only [doCommand_pread, Local.readWith, Prog.call_bind, exec_perform_iff] at hrun
  obtain ⟨handle, es₁, w₁, rfl, -, result, es₂, w₂, rfl, hsys, errno, es₃, w₃, rfl, -, hend⟩ := hrun
  obtain ⟨rfl, heq⟩ := exec_pure_iff.mp hend
  cases heq
  have hos : ∀ os, result = .ok os → os.length ≤ size.toNat := by
    rintro os rfl
    exact World.step_pread64 hsys
  refine (answersTruly_readReply hos h).trans (or_congr_right ⟨?_, ?_⟩)
  · rintro ⟨os, rfl, hlt⟩
    exact ⟨handle, os, .tail _ (.head _), hlt⟩
  · rintro ⟨_, os, hmem, hlt⟩
    -- it is the only system call
    cases hmem with
    | tail _ hmem =>
        cases hmem with
        | head => exact ⟨os, rfl, hlt⟩
        | tail _ hmem =>
            cases hmem with
            | tail _ hnil => cases hnil

/-- The answer to a write has two fields. -/
theorem answersTruly_writeWith {fd : Int32} {call : Int32 → WorkerProg (Except Int32 Int64)}
    {id : UInt32} (hcall : ∀ h, (call h).NoThrow)
    (hanswer : Worker.doCommand dirsToOverride m = Local.writeWith fd call >>= fun x =>
      .pure ⟨id, WorkerMessageType.commandResult.toUint8,
        encodingOf [.int32 x.1, .int32 x.2]⟩) :
    AnswersTruly dirsToOverride t w m es := by
  intro res w' h
  rw [hanswer] at h
  have hframed : ∀ x : Int32 × Int32, FramedTruly
      ⟨id, WorkerMessageType.commandResult.toUint8, encodingOf [.int32 x.1, .int32 x.2]⟩ :=
    fun x => (framedTruly_iff _).mpr (by simp)
  refine Prog.Returns.exec (Q := FramedTruly) ?_ h
  exact (noThrow_writeWith hcall).returns.bind fun x _ => hframed x

end

/-- **When the length prefixes are true.** Let `m` be a message a call of `read`, `pread`, `write`
or `pwrite` sends, and `es` what the worker does when it handles `m`, with any outcome of the
system call. The request and the answer are framed with the numbers of bytes that follow exactly
if the payloads stay below `2 ^ 32` bytes. -/
theorem lengthPrefixes_true_iff (dirsToOverride : DirsToOverride) (t : ThreadId) (w : World)
    (c : TransferCall) (m : Message) (hm : Sends m c.method) (es : List WorkerEvent)
    (hes : FramedTruly m → ∃ res w', exec (World.step t) w
      (Worker.doCommand dirsToOverride m) es = some (res, w')) :
    FramedTruly m ∧ AnswersTruly dirsToOverride t w m es ↔ c.Fits es := by
  cases c with
  | read fd bytes size =>
      obtain ⟨id, rfl⟩ := sends_request (fun a => not_sends_lift _) hm
      have hwritten : written [.int32 fd, .uint32 size] = encodingOf [.int32 fd, .uint32 size] := by
        rw [written, writeFields_new (by simp)]
        rfl
      rw [hwritten] at hes ⊢
      have hframed := (framedTruly_iff ⟨id, CommanderMessageType.read.toUint8,
        encodingOf [.int32 fd, .uint32 size]⟩).mpr (by simp)
      exact (and_iff_right hframed).trans (answersTruly_read (hes hframed))
  | pread fd bytes size offset =>
      obtain ⟨id, rfl⟩ := sends_request (fun a => not_sends_lift _) hm
      have hwritten : written [.int32 fd, .uint32 size, .int64 offset] =
          encodingOf [.int32 fd, .uint32 size, .int64 offset] := by
        rw [written, writeFields_new (by simp)]
        rfl
      rw [hwritten] at hes ⊢
      have hframed := (framedTruly_iff ⟨id, CommanderMessageType.pRead.toUint8,
        encodingOf [.int32 fd, .uint32 size, .int64 offset]⟩).mpr (by simp)
      exact (and_iff_right hframed).trans (answersTruly_pread (hes hframed))
  | write fd bytes size hsize =>
      obtain ⟨id, rfl⟩ := sends_request
        (fun a => not_sends_lift_bind _ fun _ => not_sends_lift (.ok _)) hm
      have hwritten : written [.int32 fd, .bytes bytes size hsize] =
          encodingOf [.int32 fd, .bytes bytes size hsize] :=
        written_bytes [.int32 fd] hsize (by simp)
      have hframed : FramedTruly ⟨id, CommanderMessageType.write.toUint8,
          written [.int32 fd, .bytes bytes size hsize]⟩ ↔ 8 + size.toNat < 2 ^ 32 := by
        rw [framedTruly_iff, hwritten]
        simp
        omega
      refine ⟨fun h => hframed.mp h.1, fun hfits => ⟨hframed.mpr hfits, ?_⟩⟩
      rw [hwritten]
      exact answersTruly_writeWith (fun _ => noThrow_sys _) (doCommand_write hsize hfits)
  | pwrite fd bytes size offset hsize =>
      obtain ⟨id, rfl⟩ := sends_request
        (fun a => not_sends_lift_bind _ fun _ => not_sends_lift (.ok _)) hm
      have hwritten : written [.int32 fd, .int64 offset, .bytes bytes size hsize] =
          encodingOf [.int32 fd, .int64 offset, .bytes bytes size hsize] :=
        written_bytes [.int32 fd, .int64 offset] hsize (by simp)
      have hframed : FramedTruly ⟨id, CommanderMessageType.pWrite.toUint8,
          written [.int32 fd, .int64 offset, .bytes bytes size hsize]⟩ ↔
            16 + size.toNat < 2 ^ 32 := by
        rw [framedTruly_iff, hwritten]
        simp
        omega
      refine ⟨fun h => hframed.mp h.1, fun hfits => ⟨hframed.mpr hfits, ?_⟩⟩
      rw [hwritten]
      exact answersTruly_writeWith (fun _ => noThrow_sys _) (doCommand_pwrite hsize hfits)

/-- A `read` of 16 bytes through an id the worker does not know. -/
theorem failedRead_runs :
    exec (World.step 0) World.new (Worker.doCommand []
        ⟨5, CommanderMessageType.read.toUint8, encodingOf [.int32 0, .uint32 16]⟩)
        [⟨.file (.getFd 0), (-1 : Int32)⟩, ⟨.sys (.read (-1) 16), .error 9⟩,
          ⟨.errno, (9 : Int32)⟩] =
      some (.ok ⟨5, WorkerMessageType.commandResult.toUint8,
        written (FileCommandsHandler.readReplyFields 16 (.error 9) 9)⟩,
        World.new.setErrno 0 9) := by
  rw [doCommand_read]
  refine exec_perform_iff.mpr ⟨-1, _, World.new, rfl, rfl, ?_⟩
  refine exec_perform_iff.mpr ⟨.error 9, _, World.new.setErrno 0 9, rfl, rfl, ?_⟩
  exact exec_perform_iff.mpr ⟨9, _, World.new.setErrno 0 9, rfl, rfl, rfl⟩

/-- It fails with `EBADF`, and request and answer are framed truly. -/
theorem lengthPrefixes_true_iff_read :
    FramedTruly ⟨5, CommanderMessageType.read.toUint8, written [.int32 0, .uint32 16]⟩ ∧
      AnswersTruly [] 0 World.new
        ⟨5, CommanderMessageType.read.toUint8, written [.int32 0, .uint32 16]⟩
        [⟨.file (.getFd 0), (-1 : Int32)⟩, ⟨.sys (.read (-1) 16), .error 9⟩,
          ⟨.errno, (9 : Int32)⟩] := by
  refine (lengthPrefixes_true_iff [] 0 World.new (.read 0 (List.replicate 16 0) 16) _
    (request_sends 5 .read [.int32 0, .uint32 16] _) _ fun _ => ?_).mpr (.inl (by decide))
  have hwritten : written [.int32 0, .uint32 16] = encodingOf [.int32 0, .uint32 16] := by
    rw [written, writeFields_new (by simp)]
    rfl
  rw [hwritten]
  exact ⟨_, _, failedRead_runs⟩

/-- A write of `2 ^ 32 - 8` bytes: with the id and the length of the vector the payload has
`2 ^ 32` bytes, and the length prefix of the frame is 0. -/
theorem not_lengthPrefixes_true :
    ¬ ∀ (dirsToOverride : DirsToOverride) (t : ThreadId) (w : World) (c : TransferCall)
      (m : Message) (es : List WorkerEvent), Sends m c.method →
        (FramedTruly m → ∃ res w', exec (World.step t) w
          (Worker.doCommand dirsToOverride m) es = some (res, w')) →
        FramedTruly m ∧ AnswersTruly dirsToOverride t w m es := by
  intro h
  obtain ⟨bytes, hbytes⟩ : ∃ bytes : Bytes, bytes.length = 4294967288 :=
    ⟨List.replicate _ 0, List.length_replicate⟩
  have hsize : (4294967288 : UInt32).toNat ≤ bytes.length := Nat.le_of_eq hbytes.symm
  have hno : ¬ FramedTruly ⟨0, CommanderMessageType.write.toUint8,
      written [.int32 0, .bytes bytes 4294967288 hsize]⟩ := by
    have hwritten : written [.int32 0, .bytes bytes 4294967288 hsize] =
        encodingOf [.int32 0, .bytes bytes 4294967288 hsize] :=
      written_bytes [.int32 0] hsize (by simp)
    rw [framedTruly_iff, hwritten]
    simp
  exact hno (h [] 0 World.new (.write 0 bytes 4294967288 hsize) _ [] (request_sends 0 .write _ _)
    fun hframed => absurd hframed hno).1

end ZControl
