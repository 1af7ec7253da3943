import ZControl.Rpc

/-!
# What `read` and `pread` copy

The answer to a read carries two lengths, the value and the length of the vector. `read` checks
the second against the size of the buffer and copies as many bytes as the first says. So the copy
stays in bounds exactly when the value does not exceed the vector it comes with.
-/

namespace ZControl

open Interaction BinaryDeserializer

namespace Commander

/-- The answer is refused, nothing is copied, or bytes of the vector in it are copied, not more
than the buffer or the vector is long. -/
inductive BoundedCopy (bytes : Bytes) (size : UInt32) (data : Bytes) :
    CommanderProg ((Int32 × Int32) × Bytes) → Prop where
  | throws (kind : ExceptionKind) (what : Bytes) :
      BoundedCopy bytes size data (.throw (.exception kind what))
  | nothing (value errno : Int32) : BoundedCopy bytes size data (.pure ((value, errno), bytes))
  | copies (value errno : Int32) (vector tail : Bytes) (k : Nat)
      (hdata : data = encodeInt32 value ++ (encodeInt32 errno ++ (encodeSized vector ++ tail)))
      (hsize : k ≤ size.toNat) (hvector : k ≤ vector.length) :
      BoundedCopy bytes size data (.pure ((value, errno), vector.take k ++ bytes.drop k))

/-- A positive value that comes with a vector short enough for the buffer is not larger than the
vector is long. -/
def ValueFits (data : Bytes) (size : UInt32) : Prop :=
  ∀ value errno vector tail,
    data = encodeInt32 value ++ (encodeInt32 errno ++ (encodeSized vector ++ tail)) →
      0 < value → vector.length ≤ size.toNat → value.toInt ≤ vector.length

theorem undefined_not_boundedCopy {bytes data : Bytes} {size : UInt32} {what : String} :
    ¬ BoundedCopy bytes size data (.throw (.undefined what)) := by
  intro h
  cases h

section

variable {data bytes : Bytes} {size : UInt32} {id : UInt32} {type : UInt8} {what : Bytes}

/-- The two numbers in front, and the vector behind them, are read from where they are. -/
theorem read_numbers (hok : (BinaryDeserializer.new data).Ok) {value errno : Int32} {rest : Bytes}
    (hdata : data = encodeInt32 value ++ (encodeInt32 errno ++ rest)) :
    ∃ d, readFields [.int32, .int32] (BinaryDeserializer.new data) = .ok ((value, errno, ()), d) ∧
      d.rest = rest ∧ d.Ok := by
  apply (exactRead_fields [.int32, .int32]).run hok
  show data = encodeInt32 value ++ (encodeInt32 errno ++ []) ++ rest
  rw [hdata, List.append_nil, List.append_assoc]

/-- **`read` and `pread` copy within bounds** exactly on the answers whose value fits. -/
theorem readAnswer_bounded_iff (hlen : data.length < 2 ^ 32) (hbuffer : bytes.length = size.toNat) :
    BoundedCopy bytes size data (readAnswer ⟨id, type, data⟩ bytes size what) ↔
      ValueFits data size := by
  have hok := ok_new hlen
  unfold readAnswer response deserialize
  cases hnumbers : readFields [.int32, .int32] (BinaryDeserializer.new data) with
  | error e =>
      -- there are no two numbers in front
      have hsafe := (exactRead_fields [.int32, .int32]).safe hok hnumbers
      rw [ExactReader.bind_of_error hnumbers]
      refine iff_of_true ?_ ?_
      · cases e with
        | exception kind what' => exact .throws kind what'
        | undefined what' => exact hsafe.elim
      · intro value errno vector tail hdata
        obtain ⟨d, hread, -⟩ := read_numbers hok hdata
        rw [hnumbers] at hread
        cases hread
  | ok x =>
      obtain ⟨⟨value, errno, ⟨⟩⟩, d₁⟩ := x
      obtain ⟨hrest, hd₁⟩ := (exactRead_fields [.int32, .int32]).sound hok hnumbers
      have hdata : data = encodeInt32 value ++ (encodeInt32 errno ++ d₁.rest) := by
        rw [rest_new] at hrest
        rw [hrest]
        show encodeInt32 value ++ (encodeInt32 errno ++ []) ++ d₁.rest = _
        rw [List.append_nil, List.append_assoc]
      -- the numbers are what they are
      have hunique : ∀ {value' errno' rest'},
          data = encodeInt32 value' ++ (encodeInt32 errno' ++ rest') →
            value' = value ∧ errno' = errno ∧ rest' = d₁.rest := by
        intro value' errno' rest' hdata'
        obtain ⟨d, hread, hrest', -⟩ := read_numbers hok hdata'
        rw [hnumbers] at hread
        cases hread
        exact ⟨rfl, rfl, hrest'.symm⟩
      rw [ExactReader.bind_of_ok hnumbers]
      by_cases hpos : value > 0
      · simp only [hpos, if_true]
        cases hvector : deserializeByteVector d₁ with
        | error e =>
            have hsafe := exactRead_byteVector.safe hd₁ hvector
            rw [ExactReader.bind_of_error hvector]
            refine iff_of_true ?_ ?_
            · cases e with
              | exception kind what' => exact .throws kind what'
              | undefined what' => exact hsafe.elim
            · intro value' errno' vector tail hdata' hpos'
              obtain ⟨-, -, htail⟩ := hunique hdata'
              obtain ⟨d, hread, -⟩ := exactRead_byteVector.complete hd₁ htail.symm
              rw [hvector] at hread
              cases hread
        | ok y =>
            obtain ⟨vector, d₂⟩ := y
            obtain ⟨hrest₁, -⟩ := exactRead_byteVector.sound hd₁ hvector
            rw [hrest₁] at hdata
            have hsame : ∀ {value' errno' vector' tail'},
                data =
                    encodeInt32 value' ++ (encodeInt32 errno' ++ (encodeSized vector' ++ tail')) →
                  value' = value ∧ vector' = vector := by
              intro value' errno' vector' tail' hdata'
              obtain ⟨hvalue, -, htail⟩ := hunique hdata'
              obtain ⟨d, hread, -⟩ := exactRead_byteVector.complete hd₁ htail.symm
              rw [hvector] at hread
              cases hread
              exact ⟨hvalue, rfl⟩
            rw [ExactReader.bind_of_ok hvector]
            by_cases hlong : vector.length > size.toNat
            · -- the check of the length
              simp only [hlong, if_true]
              refine iff_of_true (.throws _ _) ?_
              intro value' errno' vector' tail' hdata' hpos' hshort
              obtain ⟨-, rfl⟩ := hsame hdata'
              omega
            · simp only [hlong, if_false]
              have hnonneg : 0 ≤ value.toInt := by
                rw [gt_iff_lt, Int32.lt_iff_toInt_lt] at hpos
                exact Int.le_of_lt hpos
              by_cases hfits : value.toInt ≤ vector.length
              · have hcopy : memcpy bytes vector value.toInt.toNat =
                    .ok (vector.take value.toInt.toNat ++ bytes.drop value.toInt.toNat) :=
                  if_pos ⟨by omega, by omega⟩
                simp only [hcopy]
                refine iff_of_true (.copies value errno vector d₂.rest value.toInt.toNat hdata
                  (by omega) (by omega)) ?_
                intro value' errno' vector' tail' hdata' hpos' hshort
                obtain ⟨rfl, rfl⟩ := hsame hdata'
                exact hfits
              · -- the copy runs past the end of the vector
                have hcopy : memcpy bytes vector value.toInt.toNat =
                    .error (.undefined "memcpy past the end") :=
                  if_neg fun h => hfits (by omega)
                simp only [hcopy]
                refine iff_of_false undefined_not_boundedCopy ?_
                intro h
                exact hfits (h value errno vector d₂.rest hdata hpos (by omega))
      · simp only [hpos, if_false]
        refine iff_of_true (.nothing value errno) ?_
        intro value' errno' vector tail hdata' hpos'
        obtain ⟨rfl, -⟩ := hunique hdata'
        exact absurd hpos' hpos

end

/-! ## The two methods -/

/-- `_send_command` for the request on `fields`, answered by `workerMsg`. -/
def answered (type : CommanderMessageType) (fields : List Field) (id : UInt32)
    (workerMsg : Message) : List (Event CommanderOp CommanderOp.Ans) :=
  [⟨.nextCommandId, id⟩, ⟨.sendCommand ⟨id, type.toUint8, encodingOf fields⟩, .ok workerMsg⟩]

theorem request_residual {α : Type} {type : CommanderMessageType} {fields : List Field}
    (hfields : (encodingOf fields).length < 2 ^ 32) (id : UInt32) (workerMsg : Message)
    (f : Message → CommanderProg α) :
    (request type fields >>= f).residual (answered type fields id workerMsg) =
      some (f workerMsg) := by
  rw [request_eq hfields]
  simp only [answered, Prog.perform_bind, Prog.residual_perform]
  rfl

/-- **`read` and `pread` copy within bounds** exactly on the answers whose value fits: whatever
the bytes of the answer are, they throw or copy at most `size` bytes and at most what the vector
in the answer holds, if and only if a positive value that comes with a vector short enough for
the buffer is not larger than that vector is long. -/
theorem boundedCopy_iff (fd : Int32) (bytes : Bytes) (size : UInt32) (offset : Int64) (id : UInt32)
    (workerMsg : Message) (hlen : workerMsg.data.length < 2 ^ 32)
    (hbuffer : bytes.length = size.toNat) :
    (∃ rest, (read fd bytes size).residual
        (answered .read [.int32 fd, .uint32 size] id workerMsg) = some rest ∧
      (BoundedCopy bytes size workerMsg.data rest ↔ ValueFits workerMsg.data size)) ∧
    ∃ rest, (pread fd bytes size offset).residual
        (answered .pRead [.int32 fd, .uint32 size, .int64 offset] id workerMsg) = some rest ∧
      (BoundedCopy bytes size workerMsg.data rest ↔ ValueFits workerMsg.data size) := by
  constructor
  · refine ⟨_, request_residual (by simp) id workerMsg _, ?_⟩
    exact readAnswer_bounded_iff hlen hbuffer
  · refine ⟨_, request_residual (by simp) id workerMsg _, ?_⟩
    exact readAnswer_bounded_iff hlen hbuffer

/-- A value of 5 and no error, with a vector of one byte. -/
def longValue : Bytes := encodeInt32 5 ++ (encodeInt32 0 ++ (encodeSized [7] ++ []))

theorem not_valueFits_longValue : ¬ ValueFits longValue 1 := by
  intro h
  have hle := h 5 0 [7] [] rfl (by decide) (by decide)
  exact absurd hle (by decide)

/-- The buffer and the vector hold one byte, five are copied. -/
theorem not_boundedCopy :
    ¬ ∀ (bytes : Bytes) (size : UInt32) (workerMsg : Message) (rest : _),
      workerMsg.data.length < 2 ^ 32 → bytes.length = size.toNat →
      (read 0 bytes size).residual (answered .read [.int32 0, .uint32 size] 0 workerMsg) =
        some rest → BoundedCopy bytes size workerMsg.data rest := by
  intro hall
  have hcopy := hall [0] 1 ⟨0, WorkerMessageType.commandResult.toUint8, longValue⟩ _ (by decide)
    (by decide) (request_residual (by simp) 0 _ _)
  exact not_valueFits_longValue ((readAnswer_bounded_iff (by decide) (by decide)).mp hcopy)

/-- The same answer: the buffer of one byte is overrun. -/
theorem boundedCopy_iff_longValue :
    ∃ rest, (read 0 [0] 1).residual (answered .read [.int32 0, .uint32 1] 0
        ⟨0, WorkerMessageType.commandResult.toUint8, longValue⟩) = some rest ∧
      ¬ BoundedCopy [0] 1 longValue rest := by
  obtain ⟨⟨rest, hrest, hiff⟩, -⟩ := boundedCopy_iff 0 [0] 1 0 0
    ⟨0, WorkerMessageType.commandResult.toUint8, longValue⟩ (by decide) (by decide)
  exact ⟨rest, hrest, fun h => not_valueFits_longValue (hiff.mp h)⟩

end Commander

end ZControl
