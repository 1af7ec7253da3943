import ZControl.Basic
import ZControl.Lib.BigEndian

/-!
# `BinaryDeserializer`

A read position over a byte vector it does not own. The readers are `StateT` computations over
it: `_index` is the only state they change. Subscripts and iterator ranges are checked, and so
are the signed additions: a step outside the vector or outside the integer type is undefined
behaviour, and the results below show it never happens.
-/

namespace ZControl

structure BinaryDeserializer where
  serialized : Bytes
  index : UInt32
  deriving DecidableEq, Repr

namespace BinaryDeserializer

/-- A `deserialize_*` member function. -/
abbrev Read (α : Type) := StateT BinaryDeserializer (Except Fault) α

/-- The constructor: position 0 of `serialized`. -/
def new (serialized : Bytes) : BinaryDeserializer := ⟨serialized, 0⟩

/-- `bytes_available()`: a `size_t` difference cut to 32 bits. -/
def bytesAvailable (d : BinaryDeserializer) : UInt32 :=
  (UInt64.ofNat d.serialized.length - d.index.toUInt64).toUInt32

def overflowText (size available : UInt32) : Bytes :=
  ascii ("Expected size of serialized object is larger than available bytes: "
    ++ toString size.toNat ++ " > " ++ toString available.toNat)

/-- `_validate_no_overflow(size)`. -/
def validateNoOverflow (size : UInt32) : Read Unit := fun d =>
  if size > d.bytesAvailable then
    .error (.exception .runtimeError (overflowText size d.bytesAvailable))
  else .ok ((), d)

/-- `_serialized[_index++]`. -/
def next : Read UInt8 := fun d =>
  match d.serialized[d.index.toNat]? with
  | some b => .ok (b, { d with index := d.index + 1 })
  | none   => .error (.undefined "read past the end")

/-- The loop `value <<= 8; value += _serialized[_index]`, for `n` bytes; `shiftAdd` is its body
at the integer type of `value`. -/
def accumulate {α : Type} (shiftAdd : α → UInt8 → Except Fault α) : Nat → α → Read α
  | 0,     value => pure value
  | n + 1, value => do
      let b ← next
      let value ← (shiftAdd value b : Except Fault α)
      accumulate shiftAdd n value

def shiftAddUint32 (value : UInt32) (b : UInt8) : Except Fault UInt32 :=
  .ok ((value <<< 8) + b.toUInt32)

/-- Conversion of a `uint8_t` to `int`. -/
def int32OfUint8 (b : UInt8) : Int32 := b.toUInt32.toInt32

/-- Conversion of a `uint8_t` to `int64_t`. -/
def int64OfUint8 (b : UInt8) : Int64 := b.toUInt64.toInt64

/-- The shift of a signed value is modular (C++20); the addition must not overflow. -/
def shiftAddInt32 (value : Int32) (b : UInt8) : Except Fault Int32 :=
  let shifted := value <<< 8
  if shifted.toInt + b.toNat ≤ Int32.maxValue.toInt then .ok (shifted + int32OfUint8 b)
  else .error (.undefined "signed overflow")

def shiftAddInt64 (value : Int64) (b : UInt8) : Except Fault Int64 :=
  let shifted := value <<< 8
  if shifted.toInt + b.toNat ≤ Int64.maxValue.toInt then .ok (shifted + int64OfUint8 b)
  else .error (.undefined "signed overflow")

def deserializeUint8 : Read UInt8 := do
  validateNoOverflow 1
  next

def deserializeUint32 : Read UInt32 := do
  validateNoOverflow 4
  accumulate shiftAddUint32 4 0

def deserializeInt32 : Read Int32 := do
  validateNoOverflow 4
  accumulate shiftAddInt32 4 0

def deserializeInt64 : Read Int64 := do
  validateNoOverflow 8
  accumulate shiftAddInt64 8 0

/-- The range constructor `(begin + _index, begin + _index + length)` and `_index += length`. -/
def slice (length : UInt32) : Read Bytes := fun d =>
  if d.index.toNat + length.toNat ≤ d.serialized.length then
    .ok ((d.serialized.drop d.index.toNat).take length.toNat, { d with index := d.index + length })
  else .error (.undefined "range past the end")

def deserializeStr : Read Bytes := do
  let length ← deserializeUint32
  validateNoOverflow length
  slice length

/-- `deserialize_byte_vector(length)`. -/
def deserializeByteVectorOf (length : UInt32) : Read Bytes := do
  validateNoOverflow length
  slice length

/-- `deserialize_byte_vector()`. -/
def deserializeByteVector : Read Bytes := do
  let length ← deserializeUint32
  deserializeByteVectorOf length

/-- Construct a deserializer over `serialized` and run a sequence of reads on it. -/
def deserialize {α : Type} (serialized : Bytes) (read : Read α) : Except Fault α :=
  (read (new serialized)).map Prod.fst

/-! ## The unread part -/

/-- What is left to read. -/
def rest (d : BinaryDeserializer) : Bytes := d.serialized.drop d.index.toNat

/-- The position lies in the vector, and the vector is short enough for 32-bit positions. -/
def Ok (d : BinaryDeserializer) : Prop :=
  d.serialized.length < 2 ^ 32 ∧ d.index.toNat ≤ d.serialized.length

theorem ok_new {b : Bytes} (hb : b.length < 2 ^ 32) : (new b).Ok := ⟨hb, Nat.zero_le _⟩

@[simp] theorem rest_new (b : Bytes) : (new b).rest = b := rfl

/-- The deserializer `n` bytes further on. -/
def advance (d : BinaryDeserializer) (n : Nat) : BinaryDeserializer :=
  { d with index := d.index + UInt32.ofNat n }

theorem length_rest (d : BinaryDeserializer) :
    d.rest.length = d.serialized.length - d.index.toNat := by
  rw [rest, List.length_drop]

section
variable {d : BinaryDeserializer} (hd : d.Ok)
include hd

theorem index_advance {n : Nat} (hn : n ≤ d.rest.length) :
    (d.advance n).index.toNat = d.index.toNat + n := by
  obtain ⟨hlen, hidx⟩ := hd
  rw [length_rest] at hn
  simp only [advance, UInt32.toNat_add, UInt32.toNat_ofNat']
  omega

theorem advance_ok {n : Nat} (hn : n ≤ d.rest.length) : (d.advance n).Ok := by
  have hidx := index_advance hd hn
  rw [length_rest] at hn
  refine ⟨hd.1, ?_⟩
  rw [hidx]
  show _ ≤ d.serialized.length
  have := hd.2
  omega

theorem rest_advance {n : Nat} (hn : n ≤ d.rest.length) :
    (d.advance n).rest = d.rest.drop n := by
  rw [rest, index_advance hd hn, rest, List.drop_drop]
  rfl

theorem toNat_bytesAvailable : d.bytesAvailable.toNat = d.rest.length := by
  obtain ⟨hlen, hidx⟩ := hd
  rw [bytesAvailable, UInt64.toNat_toUInt32, UInt64.toNat_sub, UInt64.toNat_ofNat',
    UInt32.toNat_toUInt64, length_rest]
  omega

/-- The size check compares with the length of the unread part. -/
theorem validateNoOverflow_eq (size : UInt32) :
    validateNoOverflow size d =
      if d.rest.length < size.toNat then
        .error (.exception .runtimeError (overflowText size d.bytesAvailable))
      else .ok ((), d) := by
  rw [validateNoOverflow]
  congr 1
  rw [gt_iff_lt, UInt32.lt_iff_toNat_lt, toNat_bytesAvailable hd]

omit hd in
theorem next_eq {b : UInt8} {bs : Bytes} (hrest : d.rest = b :: bs) :
    next d = .ok (b, d.advance 1) := by
  have hget : d.serialized[d.index.toNat]? = some b := by
    have h0 : d.rest[0]? = some b := by rw [hrest]; rfl
    rwa [rest, List.getElem?_drop, Nat.add_zero] at h0
  rw [next, hget]
  rfl

theorem slice_eq {length : UInt32} (hlen : length.toNat ≤ d.rest.length) :
    slice length d = .ok (d.rest.take length.toNat, d.advance length.toNat) := by
  have hle : d.index.toNat + length.toNat ≤ d.serialized.length := by
    have := hd.2
    rw [length_rest] at hlen
    omega
  rw [slice, if_pos hle, advance, UInt32.ofNat_toNat, rest]

end

end BinaryDeserializer
end ZControl
