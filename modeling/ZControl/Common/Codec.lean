import ZControl.Common.BinarySerializer
import ZControl.Common.BinaryDeserializer

/-!
# The wire codec is a bijection

Each field type has one encoding: its big-endian bytes, or a 32-bit length followed by the
contents. Every `deserialize_*` is an exact reader for the encoding of its type, every
`serialize_*` appends that encoding, and so a sequence of fields reads back from a byte string
exactly when the string begins with what the serializer writes for it.
-/

namespace ZControl

open ExactReader BinaryDeserializer

/-! ## Encodings -/

def encodeUint8 (v : UInt8) : Bytes := BigEndian.ofNat 1 v.toNat

def encodeUint32 (v : UInt32) : Bytes := BigEndian.ofNat 4 v.toNat

def encodeInt32 (v : Int32) : Bytes := BigEndian.ofNat 4 v.toUInt32.toNat

def encodeInt64 (v : Int64) : Bytes := BigEndian.ofNat 8 v.toUInt64.toNat

/-- Strings and byte vectors: the length, then the contents. -/
def encodeSized (v : Bytes) : Bytes := BigEndian.ofNat 4 v.length ++ v

@[simp] theorem length_encodeUint8 (v : UInt8) : (encodeUint8 v).length = 1 := by
  simp [encodeUint8]

@[simp] theorem length_encodeUint32 (v : UInt32) : (encodeUint32 v).length = 4 := by
  simp [encodeUint32]

@[simp] theorem length_encodeInt32 (v : Int32) : (encodeInt32 v).length = 4 := by
  simp [encodeInt32]

@[simp] theorem length_encodeInt64 (v : Int64) : (encodeInt64 v).length = 8 := by
  simp [encodeInt64]

@[simp] theorem length_encodeSized (v : Bytes) : (encodeSized v).length = 4 + v.length := by
  simp [encodeSized]

/-! ## The accumulator loops

`rep` is the unsigned number an integer's bits denote. One turn of the loop multiplies it by 256
and adds the byte, modulo the width. For the signed types this includes that the addition cannot
overflow: after the shift the low byte is zero. -/

theorem shiftAddUint32_rep (v : UInt32) (b : UInt8) :
    ∃ v', shiftAddUint32 v b = .ok v' ∧ v'.toNat = (v.toNat * 256 + b.toNat) % 256 ^ 4 := by
  refine ⟨_, rfl, ?_⟩
  have h8 : (8 : UInt32).toNat % 32 = 8 := rfl
  rw [UInt32.toNat_add, UInt32.toNat_shiftLeft, UInt8.toNat_toUInt32, h8, Nat.shiftLeft_eq]
  omega

theorem shiftAddInt32_rep (v : Int32) (b : UInt8) :
    ∃ v', shiftAddInt32 v b = .ok v' ∧
      v'.toUInt32.toNat = (v.toUInt32.toNat * 256 + b.toNat) % 256 ^ 4 := by
  have hb := b.toNat_lt
  have hshift : (v <<< 8).toBitVec.toNat = v.toUInt32.toNat * 256 % 2 ^ 32 := by
    show (v.toBitVec <<< 8).toNat = _
    rw [BitVec.toNat_shiftLeft, Nat.shiftLeft_eq]
    rfl
  have hint : (v <<< 8).toInt + b.toNat ≤ Int32.maxValue.toInt := by
    have hmax : Int32.maxValue.toInt = 2 ^ 31 - 1 := rfl
    have hcond := BitVec.toInt_eq_toNat_cond (v <<< 8).toBitVec
    rw [hshift] at hcond
    rw [hmax, ← Int32.toInt_toBitVec, hcond]
    split <;> omega
  refine ⟨_, if_pos hint, ?_⟩
  show ((v <<< 8).toBitVec + (int32OfUint8 b).toBitVec).toNat = _
  have hbyte : (int32OfUint8 b).toBitVec.toNat = b.toNat := by
    show b.toUInt32.toNat = b.toNat
    exact UInt8.toNat_toUInt32 b
  rw [BitVec.toNat_add, hshift, hbyte]
  omega

theorem shiftAddInt64_rep (v : Int64) (b : UInt8) :
    ∃ v', shiftAddInt64 v b = .ok v' ∧
      v'.toUInt64.toNat = (v.toUInt64.toNat * 256 + b.toNat) % 256 ^ 8 := by
  have hb := b.toNat_lt
  have hshift : (v <<< 8).toBitVec.toNat = v.toUInt64.toNat * 256 % 2 ^ 64 := by
    show (v.toBitVec <<< 8).toNat = _
    rw [BitVec.toNat_shiftLeft, Nat.shiftLeft_eq]
    rfl
  have hint : (v <<< 8).toInt + b.toNat ≤ Int64.maxValue.toInt := by
    have hmax : Int64.maxValue.toInt = 2 ^ 63 - 1 := rfl
    have hcond := BitVec.toInt_eq_toNat_cond (v <<< 8).toBitVec
    rw [hshift] at hcond
    rw [hmax, ← Int64.toInt_toBitVec, hcond]
    split <;> omega
  refine ⟨_, if_pos hint, ?_⟩
  show ((v <<< 8).toBitVec + (int64OfUint8 b).toBitVec).toNat = _
  have hbyte : (int64OfUint8 b).toBitVec.toNat = b.toNat := by
    show b.toUInt64.toNat = b.toNat
    exact UInt8.toNat_toUInt64 b
  rw [BitVec.toNat_add, hshift, hbyte]
  omega

/-- Reading `n` bytes with enough left: the accumulator ends at the number they denote. -/
theorem accumulate_eq {α : Type} {shiftAdd : α → UInt8 → Except Fault α} {rep : α → Nat} {m : Nat}
    (hstep : ∀ v b, ∃ v', shiftAdd v b = .ok v' ∧ rep v' = (rep v * 256 + b.toNat) % m) :
    ∀ (n : Nat) (v : α) (d : BinaryDeserializer), d.Ok → n ≤ d.rest.length →
      ∃ v', accumulate shiftAdd n v d = .ok (v', d.advance n) ∧
        rep v' % m = (rep v * 256 ^ n + BigEndian.toNat (d.rest.take n)) % m
  | 0, v, d, _, _ => ⟨v, by simp [accumulate, advance]; rfl, by simp⟩
  | n + 1, v, d, hd, hn => by
      obtain ⟨b, bs, hrest⟩ : ∃ b bs, d.rest = b :: bs := by
        cases h : d.rest with
        | nil => rw [h] at hn; exact absurd hn (by simp)
        | cons b bs => exact ⟨b, bs, rfl⟩
      have hone : 1 ≤ d.rest.length := by omega
      obtain ⟨w, hw, hrep⟩ := hstep v b
      have hbs : (d.advance 1).rest = bs := by rw [rest_advance hd hone, hrest]; rfl
      have hlen : n ≤ bs.length := by rw [hrest] at hn; simpa using hn
      obtain ⟨v', hacc, hrep'⟩ :=
        accumulate_eq hstep n w (d.advance 1) (advance_ok hd hone) (hbs ▸ hlen)
      refine ⟨v', ?_, ?_⟩
      · have hadv : (d.advance 1).advance n = d.advance (n + 1) := by
          simp [advance, UInt32.add_assoc, UInt32.add_comm (UInt32.ofNat n)]
        rw [hadv] at hacc
        refine bind_ok_iff.mpr ⟨b, d.advance 1, next_eq hrest, ?_⟩
        exact bind_ok_iff.mpr ⟨w, d.advance 1, by rw [hw]; rfl, hacc⟩
      · rw [hrep', hbs, hrest, List.take_succ_cons, BigEndian.toNat_cons, hrep,
          List.length_take, Nat.min_eq_left hlen, Nat.pow_succ]
        have hmod : (rep v * 256 + b.toNat) % m * 256 ^ n % m
            = (rep v * 256 + b.toNat) * 256 ^ n % m := Nat.mod_mul_mod _ _ _
        rw [Nat.add_mod, hmod, ← Nat.add_mod]
        congr 1
        ring

/-! ## Every reader is exact -/

/-- `read` succeeds on exactly the inputs that begin with an encoded value, and otherwise throws. -/
abbrev ExactRead {α : Type} (read : Read α) (encode : α → Bytes) : Prop :=
  Exact rest Ok Fault.IsException read encode

theorem validateNoOverflow_ok {d d' : BinaryDeserializer} {size : UInt32} (hd : d.Ok)
    (h : validateNoOverflow size d = .ok ((), d')) : d' = d ∧ size.toNat ≤ d.rest.length := by
  rw [validateNoOverflow_eq hd] at h
  split at h
  · cases h
  · next hle => cases h; exact ⟨rfl, Nat.le_of_not_lt hle⟩

theorem validateNoOverflow_of_le {d : BinaryDeserializer} {size : UInt32} (hd : d.Ok)
    (h : size.toNat ≤ d.rest.length) : validateNoOverflow size d = .ok ((), d) := by
  rw [validateNoOverflow_eq hd, if_neg (Nat.not_lt.mpr h)]

theorem validateNoOverflow_safe {d : BinaryDeserializer} {size : UInt32} {e : Fault} (hd : d.Ok)
    (h : validateNoOverflow size d = .error e) : e.IsException := by
  rw [validateNoOverflow_eq hd] at h
  split at h
  · cases h; trivial
  · cases h

/-- A size check followed by a step that, given `n` bytes, consumes them and returns the value
whose bits they are. -/
theorem exactRead_fixed {α : Type} {size : UInt32} (n : Nat) (rep : α → Nat) {step : Read α}
    (hsize : size.toNat = n)
    (hstep : ∀ d : BinaryDeserializer, d.Ok → n ≤ d.rest.length →
      ∃ v, step d = .ok (v, d.advance n) ∧ rep v = BigEndian.toNat (d.rest.take n))
    (hinj : ∀ v w, rep v = rep w → v = w) (hlt : ∀ v, rep v < 256 ^ n) :
    ExactRead (do validateNoOverflow size; step) (fun v => BigEndian.ofNat n (rep v)) where
  sound := by
    intro d v d' hd hread
    obtain ⟨_, d₁, hval, hvalue⟩ := bind_ok_iff.mp hread
    obtain ⟨rfl, hle⟩ := validateNoOverflow_ok hd hval
    rw [hsize] at hle
    obtain ⟨w, hw, hrep⟩ := hstep d₁ hd hle
    rw [hw] at hvalue
    cases hvalue
    have hbytes : BigEndian.ofNat n (BigEndian.toNat (d₁.rest.take n)) = d₁.rest.take n := by
      have h := BigEndian.ofNat_toNat (d₁.rest.take n)
      rwa [List.length_take, Nat.min_eq_left hle] at h
    refine ⟨?_, advance_ok hd hle⟩
    rw [hrep, rest_advance hd hle, hbytes, List.take_append_drop]
  complete := by
    intro d v tail hd hrest
    have hle : n ≤ d.rest.length := by rw [hrest]; simp
    obtain ⟨w, hw, hrep⟩ := hstep d hd hle
    have htake : d.rest.take n = BigEndian.ofNat n (rep v) := by
      rw [hrest, List.take_left' (BigEndian.length_ofNat n _)]
    have hwv : w = v := by
      apply hinj
      rw [hrep, htake, BigEndian.toNat_ofNat, Nat.mod_eq_of_lt (hlt v)]
    subst hwv
    refine ⟨d.advance n, bind_ok_iff.mpr ⟨(), d, validateNoOverflow_of_le hd (hsize ▸ hle), hw⟩, ?_⟩
    rw [rest_advance hd hle, hrest, List.drop_left' (BigEndian.length_ofNat n _)]
  safe := by
    intro d e hd hread
    rcases bind_error_iff.mp hread with hval | ⟨_, d₁, hval, hvalue⟩
    · exact validateNoOverflow_safe hd hval
    · obtain ⟨rfl, hle⟩ := validateNoOverflow_ok hd hval
      obtain ⟨w, hw, _⟩ := hstep d₁ hd (hsize ▸ hle)
      rw [hw] at hvalue
      cases hvalue

/-- The accumulator loop over all `n` bytes of the type, in the form `exactRead_fixed` takes. -/
theorem accumulate_full {α : Type} {shiftAdd : α → UInt8 → Except Fault α} {rep : α → Nat}
    {n : Nat} {zero : α} (hzero : rep zero = 0) (hlt : ∀ v, rep v < 256 ^ n)
    (hstep : ∀ v b, ∃ v', shiftAdd v b = .ok v' ∧ rep v' = (rep v * 256 + b.toNat) % 256 ^ n)
    (d : BinaryDeserializer) (hd : d.Ok) (hn : n ≤ d.rest.length) :
    ∃ v, accumulate shiftAdd n zero d = .ok (v, d.advance n) ∧
      rep v = BigEndian.toNat (d.rest.take n) := by
  obtain ⟨v, hv, hrep⟩ := accumulate_eq hstep n zero d hd hn
  have hbytes : BigEndian.toNat (d.rest.take n) < 256 ^ n := by
    have h := BigEndian.toNat_lt (d.rest.take n)
    rwa [List.length_take, Nat.min_eq_left hn] at h
  rw [hzero, Nat.zero_mul, Nat.zero_add, Nat.mod_eq_of_lt (hlt v), Nat.mod_eq_of_lt hbytes] at hrep
  exact ⟨v, hv, hrep⟩

theorem exactRead_uint8 : ExactRead deserializeUint8 encodeUint8 := by
  refine exactRead_fixed 1 UInt8.toNat rfl ?_
    (fun _ _ => UInt8.toNat_inj.mp) (fun v => v.toNat_lt)
  intro d _ hn
  cases hrest : d.rest with
  | nil => rw [hrest] at hn; exact absurd hn (by simp)
  | cons b bs => exact ⟨b, next_eq hrest, by simp [BigEndian.toNat]⟩

theorem exactRead_uint32 : ExactRead deserializeUint32 encodeUint32 :=
  exactRead_fixed 4 UInt32.toNat rfl
    (accumulate_full rfl UInt32.toNat_lt shiftAddUint32_rep)
    (fun _ _ => UInt32.toNat_inj.mp) UInt32.toNat_lt

theorem exactRead_int32 : ExactRead deserializeInt32 encodeInt32 :=
  exactRead_fixed 4 (fun v : Int32 => v.toUInt32.toNat) rfl
    (accumulate_full rfl (fun v => v.toUInt32.toNat_lt) shiftAddInt32_rep)
    (fun _ _ h => Int32.toBitVec_inj.mp (BitVec.eq_of_toNat_eq h)) (fun v => v.toUInt32.toNat_lt)

theorem exactRead_int64 : ExactRead deserializeInt64 encodeInt64 :=
  exactRead_fixed 8 (fun v : Int64 => v.toUInt64.toNat) rfl
    (accumulate_full rfl (fun v => v.toUInt64.toNat_lt) shiftAddInt64_rep)
    (fun _ _ h => Int64.toBitVec_inj.mp (BitVec.eq_of_toNat_eq h)) (fun v => v.toUInt64.toNat_lt)

/-- The length prefix of a text that fits in the vector at hand reads back as its length. -/
theorem encodeUint32_ofNat {n : Nat} (hn : n < 2 ^ 32) :
    encodeUint32 (UInt32.ofNat n) = BigEndian.ofNat 4 n := by
  rw [encodeUint32, UInt32.toNat_ofNat', Nat.mod_eq_of_lt hn]

theorem exactRead_str : ExactRead deserializeStr encodeSized where
  sound := by
    intro d v d' hd hread
    obtain ⟨length, d₁, hlength, hread⟩ := bind_ok_iff.mp hread
    obtain ⟨hrest, hd₁⟩ := exactRead_uint32.sound hd hlength
    obtain ⟨_, d₂, hval, hslice⟩ := bind_ok_iff.mp hread
    obtain ⟨rfl, hle⟩ := validateNoOverflow_ok hd₁ hval
    rw [slice_eq hd₁ hle] at hslice
    cases hslice
    refine ⟨?_, advance_ok hd₁ hle⟩
    rw [hrest, rest_advance hd₁ hle, encodeSized, List.length_take, Nat.min_eq_left hle,
      List.append_assoc, List.take_append_drop]
    rfl
  complete := by
    intro d v tail hd hrest
    have hv : v.length < 2 ^ 32 := by
      have h := congrArg List.length hrest
      have := hd.1
      rw [length_rest] at h
      simp at h
      omega
    rw [encodeSized, ← encodeUint32_ofNat hv, List.append_assoc] at hrest
    obtain ⟨d₁, hlength, hrest₁, hd₁⟩ := exactRead_uint32.run hd hrest
    have hnat : (UInt32.ofNat v.length).toNat = v.length := by
      rw [UInt32.toNat_ofNat', Nat.mod_eq_of_lt hv]
    have hle : (UInt32.ofNat v.length).toNat ≤ d₁.rest.length := by rw [hnat, hrest₁]; simp
    have hslice := slice_eq hd₁ hle
    rw [hnat, hrest₁, List.take_left' rfl] at hslice
    refine ⟨d₁.advance v.length, ?_, ?_⟩
    · exact bind_ok_iff.mpr ⟨_, d₁, hlength,
        bind_ok_iff.mpr ⟨(), d₁, validateNoOverflow_of_le hd₁ hle, hslice⟩⟩
    · rw [rest_advance hd₁ (by rw [hrest₁]; simp), hrest₁, List.drop_left' rfl]
  safe := by
    intro d e hd hread
    rcases bind_error_iff.mp hread with hlength | ⟨length, d₁, hlength, hread⟩
    · exact exactRead_uint32.safe hd hlength
    · have hd₁ := (exactRead_uint32.sound hd hlength).2
      rcases bind_error_iff.mp hread with hval | ⟨_, d₂, hval, hslice⟩
      · exact validateNoOverflow_safe hd₁ hval
      · obtain ⟨rfl, hle⟩ := validateNoOverflow_ok hd₁ hval
        rw [slice_eq hd₁ hle] at hslice
        cases hslice

/-- `deserialize_byte_vector()` makes the same reads as `deserialize_str()`. -/
theorem exactRead_byteVector : ExactRead deserializeByteVector encodeSized := exactRead_str

/-! ## Sequences of fields

The reading side is a list of field kinds, one `deserialize_*` call each. The writing side is a
list of `serialize_*` calls; the overloads of one kind differ only in how the value is handed
over, so several calls share a kind. -/

inductive FieldKind where
  | uint8
  | uint32
  | int32
  | int64
  | str
  | byteVector
  deriving DecidableEq, Repr

namespace FieldKind

@[reducible] def Value : FieldKind → Type
  | .uint8      => UInt8
  | .uint32     => UInt32
  | .int32      => Int32
  | .int64      => Int64
  | .str        => Bytes
  | .byteVector => Bytes

def read : (k : FieldKind) → Read k.Value
  | .uint8      => deserializeUint8
  | .uint32     => deserializeUint32
  | .int32      => deserializeInt32
  | .int64      => deserializeInt64
  | .str        => deserializeStr
  | .byteVector => deserializeByteVector

def encode : (k : FieldKind) → k.Value → Bytes
  | .uint8      => encodeUint8
  | .uint32     => encodeUint32
  | .int32      => encodeInt32
  | .int64      => encodeInt64
  | .str        => encodeSized
  | .byteVector => encodeSized

theorem exactRead : (k : FieldKind) → ExactRead k.read k.encode
  | .uint8      => exactRead_uint8
  | .uint32     => exactRead_uint32
  | .int32      => exactRead_int32
  | .int64      => exactRead_int64
  | .str        => exactRead_str
  | .byteVector => exactRead_byteVector

end FieldKind

/-- The values of a sequence of fields. -/
@[reducible] def Values : List FieldKind → Type
  | []      => Unit
  | k :: ks => k.Value × Values ks

def readFields : (ks : List FieldKind) → Read (Values ks)
  | []      => pure ()
  | k :: ks => do
      let v ← k.read
      let vs ← readFields ks
      pure (v, vs)

def encodeFields : (ks : List FieldKind) → Values ks → Bytes
  | [],      _  => []
  | k :: ks, vs => k.encode vs.1 ++ encodeFields ks vs.2

/-- Exactness of the whole sequence, by induction on the fields. -/
theorem exactRead_fields : (ks : List FieldKind) → ExactRead (readFields ks) (encodeFields ks)
  | []      => Exact.unit
  | k :: ks => k.exactRead.pair (exactRead_fields ks)

/-- One `serialize_*` call. A `cStr` argument points to a NUL-terminated text; a `bytes`
argument to a buffer of at least `length` bytes. -/
inductive Field where
  | uint8 (v : UInt8)
  | uint32 (v : UInt32)
  | int32 (v : Int32)
  | int64 (v : Int64)
  | str (v : Bytes)
  | cStr (v : Bytes) (nulFree : NulFree v)
  | byteVector (v : Bytes)
  | bytes (buffer : Bytes) (length : UInt32) (fits : length.toNat ≤ buffer.length)

namespace Field

@[reducible] def kind : Field → FieldKind
  | .uint8 _      => .uint8
  | .uint32 _     => .uint32
  | .int32 _      => .int32
  | .int64 _      => .int64
  | .str _        => .str
  | .cStr _ _     => .str
  | .byteVector _ => .byteVector
  | .bytes _ _ _  => .byteVector

/-- The value a reader of this field is to get. -/
def value : (f : Field) → f.kind.Value
  | .uint8 v               => v
  | .uint32 v              => v
  | .int32 v               => v
  | .int64 v               => v
  | .str v                 => v
  | .cStr v _              => v
  | .byteVector v          => v
  | .bytes buffer length _ => buffer.take length.toNat

def write (f : Field) (s : BinarySerializer) : Except Fault BinarySerializer :=
  match f with
  | .uint8 v               => s.serializeUint8 v
  | .uint32 v              => s.serializeUint32 v
  | .int32 v               => s.serializeInt32 v
  | .int64 v               => s.serializeInt64 v
  | .str v                 => s.serializeStr v
  | .cStr v _              => s.serializeCStr (some (v ++ [0]))
  | .byteVector v          => s.serializeByteVector v
  | .bytes buffer length _ => s.serializeBytes buffer length

/-- The field's encoding. -/
def encoded (f : Field) : Bytes := f.kind.encode f.value

end Field

theorem cStr_terminated {v : Bytes} (h : NulFree v) : cStr (v ++ [0]) = v := by
  have hall : ∀ b ∈ v, decide (b ≠ 0) = true := by
    intro b hb
    have hne : b ≠ 0 := fun h0 => h (h0 ▸ hb)
    simpa using hne
  rw [cStr, List.takeWhile_append_of_pos hall]
  simp

open BinarySerializer in
/-- The length-prefixed serializers append the sized encoding. -/
theorem putSized_encodeSized {s : BinarySerializer} {length : UInt32} {value : Bytes}
    (hs : s.Synced) (hbound : s.serialized.length + (encodeSized value).length < 2 ^ 32)
    (hlen : length = UInt32.ofNat value.length) :
    s.putSized length value = .ok (s.append (encodeSized value)) := by
  rw [length_encodeSized] at hbound
  have hnat : length.toNat = value.length := by
    rw [hlen, UInt32.toNat_ofNat', Nat.mod_eq_of_lt (by omega)]
  rw [putSized_append _ hs hlen (by omega), hnat, encodeSized]

open BinarySerializer in
/-- Every `serialize_*` call appends the encoding of its field. -/
theorem Field.write_append {s : BinarySerializer} (f : Field) (hs : s.Synced)
    (hbound : s.serialized.length + f.encoded.length < 2 ^ 32) :
    f.write s = .ok (s.append f.encoded) := by
  cases f with
  | uint8 v =>
      exact (serializeUint8_eq s v).trans (putFixed_append hs (Nat.le_of_lt hbound))
  | uint32 v =>
      exact (serializeUint32_eq s v).trans (putFixed_append hs (Nat.le_of_lt hbound))
  | int32 v =>
      exact (serializeInt32_eq s v).trans (putFixed_append hs (Nat.le_of_lt hbound))
  | int64 v =>
      exact (serializeInt64_eq s v).trans (putFixed_append hs (Nat.le_of_lt hbound))
  | str v => exact putSized_encodeSized hs hbound rfl
  | cStr v hv =>
      have hlen : v.length < 2 ^ 32 := by
        have h : s.serialized.length + (encodeSized v).length < 2 ^ 32 := hbound
        rw [length_encodeSized] at h
        omega
      have htake : (v ++ [0]).take (UInt32.ofNat v.length).toNat = v := by
        rw [UInt32.toNat_ofNat', Nat.mod_eq_of_lt hlen, List.take_left' rfl]
      show s.serializeCStr (some (v ++ [0])) = _
      simp only [serializeCStr, cStr_terminated hv, htake]
      exact putSized_encodeSized hs hbound rfl
  | byteVector v => exact putSized_encodeSized hs hbound rfl
  | bytes buffer length hfits =>
      refine putSized_encodeSized hs hbound ?_
      show length = UInt32.ofNat (buffer.take length.toNat).length
      rw [List.length_take, Nat.min_eq_left hfits, UInt32.ofNat_toNat]

/-- A sequence of `serialize_*` calls on one serializer. -/
def writeFields : List Field → BinarySerializer → Except Fault BinarySerializer
  | [],      s => .ok s
  | f :: fs, s => do
      let s ← f.write s
      writeFields fs s

/-- A serializer accepts every field, whether or not the whole still fits. -/
theorem Field.write_total (f : Field) (s : BinarySerializer) : ∃ s', f.write s = .ok s' := by
  cases f with
  | uint8 v => exact s.putFixed_total _
  | uint32 v => exact s.putFixed_total _
  | int32 v => exact s.putFixed_total _
  | int64 v => exact s.putFixed_total _
  | str v => exact s.putSized_total _ _
  | cStr v hv => exact s.putSized_total _ _
  | byteVector v => exact s.putSized_total _ _
  | bytes buffer length hfits => exact s.putSized_total _ _

theorem writeFields_total : ∀ (fs : List Field) (s : BinarySerializer),
    ∃ s', writeFields fs s = .ok s'
  | [], s => ⟨s, rfl⟩
  | f :: fs, s => by
      obtain ⟨s₁, h₁⟩ := f.write_total s
      obtain ⟨s', hs'⟩ := writeFields_total fs s₁
      exact ⟨s', by rw [writeFields, h₁]; exact hs'⟩

/-- The values to be read back. -/
def valuesOf : (fs : List Field) → Values (fs.map Field.kind)
  | []      => ()
  | f :: fs => (f.value, valuesOf fs)

/-- The encoding of a sequence of fields. -/
def encodingOf (fs : List Field) : Bytes := encodeFields (fs.map Field.kind) (valuesOf fs)

@[simp] theorem encodingOf_nil : encodingOf [] = [] := rfl

@[simp] theorem encodingOf_cons (f : Field) (fs : List Field) :
    encodingOf (f :: fs) = f.encoded ++ encodingOf fs := rfl

@[simp] theorem length_encoded_uint8 (v : UInt8) : (Field.uint8 v).encoded.length = 1 :=
  length_encodeUint8 v

@[simp] theorem length_encoded_uint32 (v : UInt32) : (Field.uint32 v).encoded.length = 4 :=
  length_encodeUint32 v

@[simp] theorem length_encoded_int32 (v : Int32) : (Field.int32 v).encoded.length = 4 :=
  length_encodeInt32 v

@[simp] theorem length_encoded_int64 (v : Int64) : (Field.int64 v).encoded.length = 8 :=
  length_encodeInt64 v

@[simp] theorem length_encoded_str (v : Bytes) : (Field.str v).encoded.length = 4 + v.length :=
  length_encodeSized v

@[simp] theorem length_encoded_cStr (v : Bytes) (nulFree : NulFree v) :
    (Field.cStr v nulFree).encoded.length = 4 + v.length :=
  length_encodeSized v

@[simp] theorem length_encoded_byteVector (v : Bytes) :
    (Field.byteVector v).encoded.length = 4 + v.length :=
  length_encodeSized v

@[simp] theorem length_encoded_bytes (buffer : Bytes) (length : UInt32)
    (fits : length.toNat ≤ buffer.length) :
    (Field.bytes buffer length fits).encoded.length = 4 + length.toNat :=
  (length_encodeSized (buffer.take length.toNat)).trans
    (by rw [List.length_take, Nat.min_eq_left fits])

open BinarySerializer in
theorem writeFields_append : ∀ (fs : List Field) (s : BinarySerializer), s.Synced →
    s.serialized.length + (encodingOf fs).length < 2 ^ 32 →
    writeFields fs s = .ok (s.append (encodingOf fs))
  | [], s, _, _ => by
      show Except.ok s = Except.ok (s.append [])
      simp [append]
  | f :: fs, s, hs, hbound => by
      have henc : encodingOf (f :: fs) = f.encoded ++ encodingOf fs := rfl
      rw [henc, List.length_append] at hbound
      have hsf : (s.append f.encoded).Synced := append_synced hs (by omega)
      have hfs := writeFields_append fs (s.append f.encoded) hsf
        (by rw [append_serialized, List.length_append]; omega)
      rw [writeFields, f.write_append hs (by omega), henc, ← append_append]
      exact hfs

/-- On a new serializer. -/
theorem writeFields_new {fs : List Field} (hfs : (encodingOf fs).length < 2 ^ 32) :
    writeFields fs BinarySerializer.new = .ok (BinarySerializer.new.append (encodingOf fs)) :=
  writeFields_append fs _ BinarySerializer.synced_new (by simpa [BinarySerializer.new] using hfs)

open BinaryDeserializer in
/-- Reading back a sequence of fields. -/
theorem readFields_append (fs : List Field) (tail : Bytes) {d : BinaryDeserializer} (hd : d.Ok)
    (hrest : d.rest = encodingOf fs ++ tail) :
    ∃ d', readFields (fs.map Field.kind) d = .ok (valuesOf fs, d') ∧ d'.rest = tail ∧ d'.Ok :=
  (exactRead_fields _).run hd hrest

open BinaryDeserializer in
theorem deserialize_encodingOf (fs : List Field) (hfs : (encodingOf fs).length < 2 ^ 32) :
    deserialize (encodingOf fs) (readFields (fs.map Field.kind)) = .ok (valuesOf fs) := by
  obtain ⟨d', hread, -, -⟩ := readFields_append fs [] (ok_new hfs) (by simp)
  rw [deserialize, hread]
  rfl

theorem encodingOf_append (fs gs : List Field) :
    encodingOf (fs ++ gs) = encodingOf fs ++ encodingOf gs := by
  induction fs with
  | nil => rfl
  | cons f fs ih => rw [List.cons_append, encodingOf_cons, encodingOf_cons, ih, List.append_assoc]

theorem writeFields_bind (fs gs : List Field) (s : BinarySerializer) :
    writeFields (fs ++ gs) s = writeFields fs s >>= writeFields gs := by
  induction fs generalizing s with
  | nil => rfl
  | cons f fs ih =>
      show (f.write s >>= fun s => writeFields (fs ++ gs) s) = _
      simp only [ih, writeFields, bind_assoc]

open BinarySerializer in
/-- A vector at the end may be so long that the whole does not fit: only its prefix has to. -/
theorem writeFields_byteVector (fs : List Field) {bytes : Bytes} (hlen : bytes.length < 2 ^ 32)
    (hfs : (encodingOf fs).length + 4 < 2 ^ 32) :
    writeFields (fs ++ [.byteVector bytes]) BinarySerializer.new =
      .ok (BinarySerializer.new.append (encodingOf (fs ++ [.byteVector bytes]))) := by
  have hsynced : (BinarySerializer.new.append (encodingOf fs)).Synced :=
    append_synced synced_new (by simp only [BinarySerializer.new, List.length_nil]; omega)
  have hput := putSized_append bytes hsynced rfl
    (by
      rw [append_serialized, List.length_append]
      simp only [BinarySerializer.new, List.length_nil]
      omega)
  rw [UInt32.toNat_ofNat', Nat.mod_eq_of_lt hlen] at hput
  have hvector : writeFields [.byteVector bytes] (BinarySerializer.new.append (encodingOf fs)) =
      .ok ((BinarySerializer.new.append (encodingOf fs)).append (encodeSized bytes)) :=
    congrArg (Except.bind · Except.ok) hput
  rw [writeFields_bind, writeFields_new (by omega), encodingOf_append, ← append_append,
    encodingOf_cons, encodingOf_nil, List.append_nil]
  exact hvector

/-- Some sequence of calls that writes the values `vs`. -/
def fieldsOf : (ks : List FieldKind) → Values ks → List Field
  | [],                _  => []
  | .uint8 :: ks,      vs => .uint8 vs.1 :: fieldsOf ks vs.2
  | .uint32 :: ks,     vs => .uint32 vs.1 :: fieldsOf ks vs.2
  | .int32 :: ks,      vs => .int32 vs.1 :: fieldsOf ks vs.2
  | .int64 :: ks,      vs => .int64 vs.1 :: fieldsOf ks vs.2
  | .str :: ks,        vs => .str vs.1 :: fieldsOf ks vs.2
  | .byteVector :: ks, vs => .byteVector vs.1 :: fieldsOf ks vs.2

theorem kind_fieldsOf : ∀ (ks : List FieldKind) (vs : Values ks),
    (fieldsOf ks vs).map Field.kind = ks
  | [], _ => rfl
  | k :: ks, vs => by
      have ih := kind_fieldsOf ks vs.2
      cases k <;> simp [fieldsOf, ih]

theorem encodingOf_fieldsOf : ∀ (ks : List FieldKind) (vs : Values ks),
    encodingOf (fieldsOf ks vs) = encodeFields ks vs
  | [], _ => rfl
  | k :: ks, vs => by
      have ih := encodingOf_fieldsOf ks vs.2
      cases k <;> exact congrArg (_ ++ ·) ih

/-- **The wire codec is a bijection.** Whatever was written before, a serializer that is new or
was emptied by `data()` accepts every sequence of fields whose encoding is shorter than `2 ^ 32`,
and the matching `deserialize_*` calls return these values from `b`, leaving `rest`, exactly
when `b` is that output followed by `rest`. A byte string that begins with no such output makes
some call throw, and no call does anything worse than throw. -/
theorem codec_bijection :
    (∀ (fs : List Field) (used : BinarySerializer), (encodingOf fs).length < 2 ^ 32 →
      ∃ s, writeFields fs BinarySerializer.new = .ok s ∧ writeFields fs used.data.2 = .ok s ∧
        ∀ b rest : Bytes, b.length < 2 ^ 32 →
          ((∃ d, readFields (fs.map Field.kind) (BinaryDeserializer.new b) = .ok (valuesOf fs, d) ∧
              d.rest = rest)
            ↔ b = s.data.1 ++ rest)) ∧
    (∀ (ks : List FieldKind) (b : Bytes), b.length < 2 ^ 32 →
      ((¬ ∃ fs s rest, fs.map Field.kind = ks ∧ (encodingOf fs).length < 2 ^ 32 ∧
          writeFields fs BinarySerializer.new = .ok s ∧ b = s.data.1 ++ rest) →
        ∃ e, readFields ks (BinaryDeserializer.new b) = .error e) ∧
      ∀ e, readFields ks (BinaryDeserializer.new b) = .error e → e.IsException) := by
  constructor
  · intro fs used hlen
    have hwrite : writeFields fs BinarySerializer.new
        = .ok (BinarySerializer.new.append (encodingOf fs)) :=
      writeFields_append fs _ BinarySerializer.synced_new
        (by simpa [BinarySerializer.new] using hlen)
    refine ⟨_, hwrite, by rw [BinarySerializer.data_snd]; exact hwrite, ?_⟩
    intro b rest hb
    exact (exactRead_fields _).read_iff (ok_new hb)
  · intro ks b hb
    have hok := ok_new hb
    refine ⟨fun hno => ?_, fun e he => (exactRead_fields ks).safe hok he⟩
    have hnone : ¬ ∃ vs tail, (BinaryDeserializer.new b).rest = encodeFields ks vs ++ tail := by
      rintro ⟨vs, tail, hrest⟩
      rw [rest_new] at hrest
      have hlen : (encodingOf (fieldsOf ks vs)).length < 2 ^ 32 := by
        rw [encodingOf_fieldsOf]
        have h := congrArg List.length hrest
        rw [List.length_append] at h
        omega
      have hwrite := writeFields_append (fieldsOf ks vs) _ BinarySerializer.synced_new
        (by simpa [BinarySerializer.new] using hlen)
      refine hno ⟨fieldsOf ks vs, _, tail, kind_fieldsOf ks vs, hlen, hwrite, ?_⟩
      rw [hrest, ← encodingOf_fieldsOf]
      rfl
    obtain ⟨e, _, he⟩ := ((exactRead_fields ks).error_iff hok).mpr hnone
    exact ⟨e, he⟩

/-- The law at a concrete sequence: a byte and a C string, with one byte left over. -/
theorem codec_bijection_uint8_str :
    ∃ d, readFields [.uint8, .str] (BinaryDeserializer.new [7, 0, 0, 0, 1, 97, 9])
      = .ok (((7 : UInt8), ([97] : Bytes), ()), d) ∧ d.rest = [9] := by
  obtain ⟨s, hwrite, _, hread⟩ :=
    codec_bijection.1 [.uint8 7, .cStr [97] (by decide)] BinarySerializer.new (by decide)
  have hs : s = ⟨[7, 0, 0, 0, 1, 97], 6⟩ := by
    have h : writeFields [.uint8 7, .cStr [97] (by decide)] BinarySerializer.new
        = .ok ⟨[7, 0, 0, 0, 1, 97], 6⟩ := by decide
    exact Except.ok.inj (hwrite.symm.trans h)
  exact (hread [7, 0, 0, 0, 1, 97, 9] [9] (by decide)).mpr (by rw [hs]; rfl)

end ZControl
