import ZControl.Basic
import ZControl.Lib.BigEndian

/-!
# `BinarySerializer`

The output buffer `_serialized` together with the 32-bit write position `_index`. The position
is kept separately from the buffer, and it wraps: both facts matter once more than `2 ^ 32`
bytes are written, so neither is simplified away. Element writes are checked, a write outside
the vector being undefined behaviour.
-/

namespace ZControl

structure BinarySerializer where
  serialized : Bytes
  index : UInt32
  deriving DecidableEq, Repr

namespace BinarySerializer

/-- The constructor: an empty buffer, position 0. -/
def new : BinarySerializer := ⟨[], 0⟩

/-- `std::vector::resize`: cut, or pad with zeros. -/
def resize (v : Bytes) (n : Nat) : Bytes := v.take n ++ List.replicate (n - v.length) 0

/-- `_serialized[i] = value`. -/
def setAt (v : Bytes) (i : Nat) (value : UInt8) : Except Fault Bytes :=
  if i < v.length then .ok (v.set i value) else .error (.undefined "write past the end")

/-- The element assignments `_serialized[_index + k] = b`, for the bytes `bs` from `k` on. The
subscript is computed in 32 bits. -/
def assign (index : UInt32) : Nat → Bytes → Bytes → Except Fault Bytes
  | _, [],      v => .ok v
  | k, b :: bs, v => do
      let v ← setAt v (index + UInt32.ofNat k).toNat b
      assign index (k + 1) bs v

/-- The common body of the fixed-width serializers: make room behind `_index` (the sum in
`resize` is a `size_t`), assign the bytes one by one, advance `_index`. -/
def putFixed (s : BinarySerializer) (bs : Bytes) : Except Fault BinarySerializer := do
  let v ← assign s.index 0 bs (resize s.serialized (s.index.toNat + bs.length))
  return ⟨v, s.index + UInt32.ofNat bs.length⟩

def serializeUint8 (s : BinarySerializer) (value : UInt8) : Except Fault BinarySerializer :=
  s.putFixed [value]

def serializeUint32 (s : BinarySerializer) (value : UInt32) : Except Fault BinarySerializer :=
  s.putFixed
    [ ((value >>> 24) &&& 0xFF).toUInt8
    , ((value >>> 16) &&& 0xFF).toUInt8
    , ((value >>> 8) &&& 0xFF).toUInt8
    , (value &&& 0xFF).toUInt8 ]

/-- Conversion of an `int` to `uint8_t`: reduction modulo `2 ^ 8`. -/
def int32ToUint8 (value : Int32) : UInt8 := value.toUInt32.toUInt8

/-- Conversion of an `int64_t` to `uint8_t`. -/
def int64ToUint8 (value : Int64) : UInt8 := value.toUInt64.toUInt8

/-- The shifts are arithmetic: `value` is signed. -/
def serializeInt32 (s : BinarySerializer) (value : Int32) : Except Fault BinarySerializer :=
  s.putFixed
    [ int32ToUint8 ((value >>> 24) &&& 0xFF)
    , int32ToUint8 ((value >>> 16) &&& 0xFF)
    , int32ToUint8 ((value >>> 8) &&& 0xFF)
    , int32ToUint8 (value &&& 0xFF) ]

def serializeInt64 (s : BinarySerializer) (value : Int64) : Except Fault BinarySerializer :=
  s.putFixed
    [ int64ToUint8 ((value >>> 56) &&& 0xFF)
    , int64ToUint8 ((value >>> 48) &&& 0xFF)
    , int64ToUint8 ((value >>> 40) &&& 0xFF)
    , int64ToUint8 ((value >>> 32) &&& 0xFF)
    , int64ToUint8 ((value >>> 24) &&& 0xFF)
    , int64ToUint8 ((value >>> 16) &&& 0xFF)
    , int64ToUint8 ((value >>> 8) &&& 0xFF)
    , int64ToUint8 (value &&& 0xFF) ]

/-- The common body of the length-prefixed serializers. `length` is the size cut to 32 bits and
goes out as the prefix; `value` is appended at the end of the vector (the `reserve` before it
changes no element), and `_index` advances by `length`. -/
def putSized (s : BinarySerializer) (length : UInt32) (value : Bytes) :
    Except Fault BinarySerializer := do
  let s ← s.serializeUint32 length
  return ⟨s.serialized ++ value, s.index + length⟩

/-- `serialize_str(const std::string &)`. -/
def serializeStr (s : BinarySerializer) (value : Bytes) : Except Fault BinarySerializer :=
  s.putSized (UInt32.ofNat value.length) value

/-- `serialize_str(const char *)`. `none` is the null pointer; otherwise the argument is the
memory the pointer leads to, of which `strlen` sees the part before the first NUL and
`insert(value, value + length)` copies `length` bytes. -/
def serializeCStr (s : BinarySerializer) : Option Bytes → Except Fault BinarySerializer
  | none       => .error (.exception .invalidArgument (ascii "NULL Parameter"))
  | some value =>
      let length := UInt32.ofNat (cStr value).length
      s.putSized length (value.take length.toNat)

def serializeByteVector (s : BinarySerializer) (value : Bytes) : Except Fault BinarySerializer :=
  s.putSized (UInt32.ofNat value.length) value

/-- `serialize_bytes(bytes, length)`, for the caller's buffer `bytes` of at least `length`. -/
def serializeBytes (s : BinarySerializer) (bytes : Bytes) (length : UInt32) :
    Except Fault BinarySerializer :=
  s.putSized length (bytes.take length.toNat)

/-- `data()`: hand the buffer over and start afresh. -/
def data (s : BinarySerializer) : Bytes × BinarySerializer := (s.serialized, ⟨[], 0⟩)

/-! ## The size invariant

Between two calls `_index` is the size of the buffer, as long as the total stays below `2 ^ 32`.
Under it every serializer simply appends. -/

/-- `_index` has not wrapped: it is the number of bytes written. -/
def Synced (s : BinarySerializer) : Prop := s.index.toNat = s.serialized.length

@[simp] theorem synced_new : new.Synced := rfl

@[simp] theorem data_snd (s : BinarySerializer) : s.data.2 = new := rfl

theorem resize_append (v : Bytes) (n : Nat) :
    resize v (v.length + n) = v ++ List.replicate n 0 := by
  rw [resize, List.take_of_length_le (by omega), Nat.add_sub_cancel_left]

/-- Assigning consecutive bytes replaces that stretch of the vector. -/
theorem assign_eq (index : UInt32) :
    ∀ (bs : Bytes) (k : Nat) (pre post : Bytes), pre.length = index.toNat + k →
      index.toNat + k + bs.length ≤ 2 ^ 32 →
      assign index k bs (pre ++ List.replicate bs.length 0 ++ post) = .ok (pre ++ bs ++ post)
  | [], _, pre, post, _, _ => by simp [assign]
  | b :: bs, k, pre, post, hpre, hbound => by
      have hidx : (index + UInt32.ofNat k).toNat = pre.length := by
        rw [UInt32.toNat_add, UInt32.toNat_ofNat', hpre]
        simp only [List.length_cons] at hbound
        omega
      have hset : setAt (pre ++ List.replicate (b :: bs).length 0 ++ post) pre.length b
          = .ok ((pre ++ [b]) ++ List.replicate bs.length 0 ++ post) := by
        rw [setAt, if_pos (by simp)]
        simp [List.replicate_succ]
      have ih := assign_eq index bs (k + 1) (pre ++ [b]) post (by simp [hpre]; omega)
        (by simp only [List.length_cons] at hbound; omega)
      rw [assign, hidx, hset]
      simpa [bind, Except.bind] using ih

/-- A fixed-width serializer appends its bytes. -/
theorem putFixed_eq {s : BinarySerializer} {bs : Bytes} (hs : s.Synced)
    (hbound : s.serialized.length + bs.length ≤ 2 ^ 32) :
    s.putFixed bs = .ok ⟨s.serialized ++ bs, s.index + UInt32.ofNat bs.length⟩ := by
  have hresize : resize s.serialized (s.index.toNat + bs.length)
      = s.serialized ++ List.replicate bs.length 0 ++ [] := by
    rw [hs, resize_append, List.append_nil]
  have hassign := assign_eq s.index bs 0 s.serialized [] hs.symm (by rw [hs]; omega)
  rw [putFixed, hresize, hassign]
  simp [bind, Except.bind, pure, Except.pure]

/-! ## No serializer writes out of bounds

The subscripts of `putFixed` are computed in 32 bits, but wrapping only makes them smaller. -/

theorem length_resize (v : Bytes) (n : Nat) : (resize v n).length = n := by
  simp only [resize, List.length_append, List.length_take, List.length_replicate]
  omega

theorem assign_total (index : UInt32) :
    ∀ (bs : Bytes) (k : Nat) (v : Bytes), index.toNat + k + bs.length ≤ v.length →
      ∃ v', assign index k bs v = .ok v'
  | [], _, v, _ => ⟨v, rfl⟩
  | b :: bs, k, v, hlen => by
      simp only [List.length_cons] at hlen
      have hidx : (index + UInt32.ofNat k).toNat ≤ index.toNat + k := by
        rw [UInt32.toNat_add, UInt32.toNat_ofNat']
        have := Nat.mod_le (index.toNat + k % 2 ^ 32) (2 ^ 32)
        have := Nat.mod_le k (2 ^ 32)
        omega
      have hset : setAt v (index + UInt32.ofNat k).toNat b =
          .ok (v.set (index + UInt32.ofNat k).toNat b) := if_pos (by omega)
      obtain ⟨v', hv'⟩ := assign_total index bs (k + 1)
        (v.set (index + UInt32.ofNat k).toNat b) (by rw [List.length_set]; omega)
      refine ⟨v', ?_⟩
      rw [assign, hset]
      exact hv'

theorem putFixed_total (s : BinarySerializer) (bs : Bytes) : ∃ s', s.putFixed bs = .ok s' := by
  obtain ⟨v, hv⟩ := assign_total s.index bs 0 (resize s.serialized (s.index.toNat + bs.length))
    (by rw [length_resize]; omega)
  exact ⟨⟨v, s.index + UInt32.ofNat bs.length⟩, by rw [putFixed, hv]; rfl⟩

theorem putSized_total (s : BinarySerializer) (length : UInt32) (value : Bytes) :
    ∃ s', s.putSized length value = .ok s' := by
  obtain ⟨s₁, h₁⟩ : ∃ s₁, s.serializeUint32 length = .ok s₁ := putFixed_total s _
  exact ⟨⟨s₁.serialized ++ value, s₁.index + length⟩, by rw [putSized, h₁]; rfl⟩

/-! ## The bytes of the fixed-width fields are big-endian

Masking after an arithmetic shift leaves the same byte as after a logical one, so the signed
serializers write the two's-complement representation. -/

theorem setWidth_shiftRight {w : Nat} (x : BitVec w) (k : Nat) (hk : k + 8 ≤ w) :
    ((x >>> k) &&& 255#w).setWidth 8 = BitVec.ofNat 8 (x.toNat / 2 ^ k) := by
  apply BitVec.eq_of_toNat_eq
  have h255 : (255#w).toNat = 2 ^ 8 - 1 := by
    have : 2 ^ 8 ≤ 2 ^ w := Nat.pow_le_pow_right (by decide) (by omega)
    exact Nat.mod_eq_of_lt (by omega)
  rw [BitVec.toNat_setWidth, BitVec.toNat_and, h255, Nat.and_two_pow_sub_one_eq_mod,
    BitVec.toNat_ushiftRight, BitVec.toNat_ofNat, Nat.shiftRight_eq_div_pow, Nat.mod_mod]

theorem setWidth_sshiftRight {w : Nat} (x : BitVec w) (k : Nat) (hk : k + 8 ≤ w) :
    ((x.sshiftRight k) &&& 255#w).setWidth 8 = BitVec.ofNat 8 (x.toNat / 2 ^ k) := by
  rw [← setWidth_shiftRight x k hk]
  apply BitVec.eq_of_getLsbD_eq
  intro i hi
  have hlt : k + i < w := by omega
  have hlt' : i < w := by omega
  simp only [BitVec.getLsbD_setWidth, BitVec.getLsbD_and, BitVec.getLsbD_sshiftRight,
    BitVec.getLsbD_ushiftRight]
  simp [hlt, Nat.not_le.mpr hlt']

theorem setWidth_and {w : Nat} (x : BitVec w) (hw : 8 ≤ w) :
    (x &&& 255#w).setWidth 8 = BitVec.ofNat 8 (x.toNat / 2 ^ 0) := by
  have h := setWidth_shiftRight x 0 (by omega)
  rwa [BitVec.ushiftRight_zero] at h

theorem serializeUint8_eq (s : BinarySerializer) (v : UInt8) :
    s.serializeUint8 v = s.putFixed (BigEndian.ofNat 1 v.toNat) := by
  have h : BigEndian.ofNat 1 v.toNat = [v] := by simp [BigEndian.ofNat]
  rw [serializeUint8, h]

theorem serializeUint32_eq (s : BinarySerializer) (v : UInt32) :
    s.serializeUint32 v = s.putFixed (BigEndian.ofNat 4 v.toNat) := by
  have h3 : ((v >>> 24) &&& 0xFF).toUInt8 = UInt8.ofNat (v.toNat / 256 ^ 3) :=
    UInt8.toBitVec_inj.mp (setWidth_shiftRight v.toBitVec 24 (by decide))
  have h2 : ((v >>> 16) &&& 0xFF).toUInt8 = UInt8.ofNat (v.toNat / 256 ^ 2) :=
    UInt8.toBitVec_inj.mp (setWidth_shiftRight v.toBitVec 16 (by decide))
  have h1 : ((v >>> 8) &&& 0xFF).toUInt8 = UInt8.ofNat (v.toNat / 256 ^ 1) :=
    UInt8.toBitVec_inj.mp (setWidth_shiftRight v.toBitVec 8 (by decide))
  have h0 : (v &&& 0xFF).toUInt8 = UInt8.ofNat (v.toNat / 256 ^ 0) :=
    UInt8.toBitVec_inj.mp (setWidth_and v.toBitVec (by decide))
  rw [serializeUint32, h3, h2, h1, h0]
  rfl

theorem serializeInt32_eq (s : BinarySerializer) (v : Int32) :
    s.serializeInt32 v = s.putFixed (BigEndian.ofNat 4 v.toUInt32.toNat) := by
  have h3 : int32ToUint8 ((v >>> 24) &&& 0xFF) = UInt8.ofNat (v.toUInt32.toNat / 256 ^ 3) :=
    UInt8.toBitVec_inj.mp (setWidth_sshiftRight v.toBitVec 24 (by decide))
  have h2 : int32ToUint8 ((v >>> 16) &&& 0xFF) = UInt8.ofNat (v.toUInt32.toNat / 256 ^ 2) :=
    UInt8.toBitVec_inj.mp (setWidth_sshiftRight v.toBitVec 16 (by decide))
  have h1 : int32ToUint8 ((v >>> 8) &&& 0xFF) = UInt8.ofNat (v.toUInt32.toNat / 256 ^ 1) :=
    UInt8.toBitVec_inj.mp (setWidth_sshiftRight v.toBitVec 8 (by decide))
  have h0 : int32ToUint8 (v &&& 0xFF) = UInt8.ofNat (v.toUInt32.toNat / 256 ^ 0) :=
    UInt8.toBitVec_inj.mp (setWidth_and v.toBitVec (by decide))
  rw [serializeInt32, h3, h2, h1, h0]
  rfl

theorem int64ToUint8_shiftRight (v k : Int64) (n : Nat)
    (hk : (v >>> k).toBitVec = v.toBitVec.sshiftRight (8 * n)) (hn : n < 8) :
    int64ToUint8 ((v >>> k) &&& 0xFF) = UInt8.ofNat (v.toUInt64.toNat / 256 ^ n) := by
  have h256 : 256 ^ n = 2 ^ (8 * n) := by rw [Nat.pow_mul]
  have h := setWidth_sshiftRight v.toBitVec (8 * n) (by omega)
  rw [← hk, ← h256] at h
  exact UInt8.toBitVec_inj.mp h

theorem serializeInt64_eq (s : BinarySerializer) (v : Int64) :
    s.serializeInt64 v = s.putFixed (BigEndian.ofNat 8 v.toUInt64.toNat) := by
  have h0 : int64ToUint8 (v &&& 0xFF) = UInt8.ofNat (v.toUInt64.toNat / 256 ^ 0) :=
    UInt8.toBitVec_inj.mp (setWidth_and v.toBitVec (by decide))
  rw [serializeInt64, int64ToUint8_shiftRight v 56 7 rfl (by decide),
    int64ToUint8_shiftRight v 48 6 rfl (by decide), int64ToUint8_shiftRight v 40 5 rfl (by decide),
    int64ToUint8_shiftRight v 32 4 rfl (by decide), int64ToUint8_shiftRight v 24 3 rfl (by decide),
    int64ToUint8_shiftRight v 16 2 rfl (by decide), int64ToUint8_shiftRight v 8 1 rfl (by decide),
    h0]
  rfl

/-! ## Appending -/

/-- The serializer with `bs` written behind what it holds. -/
def append (s : BinarySerializer) (bs : Bytes) : BinarySerializer :=
  ⟨s.serialized ++ bs, s.index + UInt32.ofNat bs.length⟩

@[simp] theorem append_serialized (s : BinarySerializer) (bs : Bytes) :
    (s.append bs).serialized = s.serialized ++ bs := rfl

@[simp] theorem append_append (s : BinarySerializer) (as bs : Bytes) :
    (s.append as).append bs = s.append (as ++ bs) := by
  simp [append, UInt32.ofNat_add, UInt32.add_assoc]

theorem append_synced {s : BinarySerializer} {bs : Bytes} (hs : s.Synced)
    (hbound : s.serialized.length + bs.length < 2 ^ 32) : (s.append bs).Synced := by
  simp only [Synced, append, UInt32.toNat_add, UInt32.toNat_ofNat', List.length_append]
  rw [Synced] at hs
  omega

theorem putFixed_append {s : BinarySerializer} {bs : Bytes} (hs : s.Synced)
    (hbound : s.serialized.length + bs.length ≤ 2 ^ 32) :
    s.putFixed bs = .ok (s.append bs) := putFixed_eq hs hbound

/-- A length-prefixed serializer appends prefix and contents. Only the prefix has to fit: once
it is out, `_index` is not used for the contents, and may wrap. -/
theorem putSized_append {s : BinarySerializer} {length : UInt32} (value : Bytes) (hs : s.Synced)
    (hlen : length = UInt32.ofNat value.length) (hbound : s.serialized.length + 4 ≤ 2 ^ 32) :
    s.putSized length value
      = .ok (s.append (BigEndian.ofNat 4 length.toNat ++ value)) := by
  have hput : s.serializeUint32 length = .ok (s.append (BigEndian.ofNat 4 length.toNat)) := by
    rw [serializeUint32_eq]
    exact putFixed_append hs (by simpa using hbound)
  rw [← append_append]
  simp only [putSized, hput, bind, Except.bind, pure, Except.pure]
  rw [hlen]
  rfl

end BinarySerializer
end ZControl
