import ZControl.Worker.Steps

/-!
# Frames that arrive in pieces

`_transport.read()` holds a part of one frame between two calls of `::recv`. How far it has come
is what `_read_exactly` was called for and what of it has been received; together with the bytes
that follow, that part is the rest of the stream.
-/

namespace ZControl

namespace MessageTransport

open BinaryDeserializer Worker

/-- What `read` comes to after some bytes: it waits for more, or it ends. -/
inductive Progress where
  | waits (stage : ReadStage) (buffer : Bytes)
  | returns (m : Message)
  | throws (e : Fault)
  deriving DecidableEq

/-- The last part of `read`: the body, which takes no `recv` if it is empty. -/
def bodyProgress (id : UInt32) (type : UInt8) (dataSize : UInt32) (buffer : Bytes) : Progress :=
  if buffer.length < dataSize.toNat then .waits (.body id type dataSize) buffer
  else
    match deserialize buffer (deserializeByteVectorOf dataSize) with
    | .ok data => .returns ⟨id, type, data⟩
    | .error e => .throws e

/-- `read`, after `buffer` has been received of what `_read_exactly` was called for. -/
def progress : ReadStage → Bytes → Progress
  | .body id type dataSize, buffer => bodyProgress id type dataSize buffer
  | .header, buffer =>
      if buffer.length < ReadStage.header.count then .waits .header buffer
      else
        match deserialize buffer readHeader with
        | .ok (id, type, dataSize) => bodyProgress id type dataSize []
        | .error e                 => .throws e

/-- The worker's `read` is that function too. -/
theorem readOn_progress {n : Nat} (s : Worker.State n) (stage : ReadStage) (buffer : Bytes) :
    s.readOn stage buffer =
      match progress stage buffer with
      | .waits stage buffer => { s with reader := .polling stage buffer }
      | .returns m =>
          { s with reader := .received ⟨s.reads.length, m⟩, reads := s.reads ++ [m] }
      | .throws e => { s with reader := .catching e } := by
  have hbody : ∀ id type dataSize buffer, s.readBody id type dataSize buffer =
      match bodyProgress id type dataSize buffer with
      | .waits stage buffer => { s with reader := .polling stage buffer }
      | .returns m =>
          { s with reader := .received ⟨s.reads.length, m⟩, reads := s.reads ++ [m] }
      | .throws e => { s with reader := .catching e } := by
    intro id type dataSize buffer
    unfold State.readBody bodyProgress
    split
    · rfl
    · cases deserialize buffer (deserializeByteVectorOf dataSize) <;> rfl
  cases stage with
  | body id type dataSize => exact hbody id type dataSize buffer
  | header =>
      simp only [State.readOn, progress]
      split
      · rfl
      · cases deserialize buffer readHeader with
        | ok p => exact hbody p.1 p.2.1 p.2.2 []
        | error e => rfl

/-! ## Where in a frame -/

/-- What has been received of the frame. -/
def received : ReadStage → Bytes → Bytes
  | .header, buffer                => buffer
  | .body id type dataSize, buffer =>
      encodeUint32 id ++ (encodeUint8 type ++ encodeUint32 dataSize) ++ buffer

@[simp] theorem received_header (buffer : Bytes) : received .header buffer = buffer := rfl

theorem received_append (stage : ReadStage) (buffer piece : Bytes) :
    received stage (buffer ++ piece) = received stage buffer ++ piece := by
  cases stage with
  | header => rfl
  | body id type dataSize => exact (List.append_assoc _ _ _).symm

/-- `read` has come as far as the bytes go: it waits inside a frame, or it returns the message of
the whole frame. -/
inductive Reaches (bytes : Bytes) : Progress → Prop where
  | waits (stage : ReadStage) (buffer : Bytes) (hbytes : received stage buffer = bytes)
      (hlt : buffer.length < stage.count) : Reaches bytes (.waits stage buffer)
  | returns (m : Message) (hbytes : frameOf m = bytes) (hm : m.data.length < 2 ^ 32) :
      Reaches bytes (.returns m)

theorem exists_of_deserialize {α : Type} {b : Bytes} {read : Read α} {v : α}
    (h : deserialize b read = .ok v) : ∃ d, read (.new b) = .ok (v, d) := by
  unfold deserialize at h
  cases hread : read (.new b) with
  | error e => rw [hread] at h; cases h
  | ok p =>
      rw [hread] at h
      cases h
      exact ⟨p.2, rfl⟩

theorem bodyProgress_reaches {id : UInt32} {type : UInt8} {dataSize : UInt32} {buffer : Bytes}
    (hle : buffer.length ≤ dataSize.toNat) :
    Reaches (received (.body id type dataSize) buffer) (bodyProgress id type dataSize buffer) := by
  unfold bodyProgress
  split
  case isTrue hlt => exact .waits _ _ rfl hlt
  case isFalse hlt =>
    have hlen : buffer.length = dataSize.toNat := by omega
    rw [deserialize_body_total hlen]
    refine .returns ⟨id, type, buffer⟩ ?_ ?_
    · rw [frameOf, headerOf, hlen, UInt32.ofNat_toNat]
      rfl
    · show buffer.length < 2 ^ 32
      rw [hlen]
      exact dataSize.toNat_lt

theorem progress_reaches {stage : ReadStage} {buffer : Bytes} (hle : buffer.length ≤ stage.count) :
    Reaches (received stage buffer) (progress stage buffer) := by
  cases stage with
  | body id type dataSize => exact bodyProgress_reaches hle
  | header =>
      rw [progress]
      split
      case isTrue hlt => exact .waits _ _ rfl hlt
      case isFalse hlt =>
        have hlen : buffer.length = 9 := Nat.le_antisymm hle (Nat.le_of_not_lt hlt)
        obtain ⟨id, type, dataSize, hheader⟩ := deserialize_header_total hlen
        -- the header is what its fields are encoded to
        have hbytes : received (.body id type dataSize) [] = buffer := by
          have hok : (BinaryDeserializer.new buffer).Ok := ok_new (by rw [hlen]; decide)
          obtain ⟨d, hread⟩ := exists_of_deserialize hheader
          have hrest := (exactRead_header.sound hok hread).1
          have hlen' := congrArg List.length hrest
          rw [rest_new, hlen] at hlen'
          have hnil : d.rest = [] := List.eq_nil_of_length_eq_zero (by simp at hlen'; omega)
          rw [rest_new, hnil] at hrest
          exact hrest.symm
        rw [hheader, received_header, ← hbytes]
        exact bodyProgress_reaches (Nat.zero_le _)

/-! ## Whole frames -/

/-- Where a frame ends is written in it. -/
theorem frameOf_append_inj {m m' : Message} {t t' : Bytes} (hm : m.data.length < 2 ^ 32)
    (hm' : m'.data.length < 2 ^ 32) (h : frameOf m ++ t = frameOf m' ++ t') : m = m' ∧ t = t' := by
  obtain ⟨id, type, data⟩ := m
  obtain ⟨id', type', data'⟩ := m'
  simp only [frameOf, List.append_assoc] at h
  obtain ⟨hheader, hrest⟩ := List.append_inj h (by simp)
  have hfields : id = id' ∧ type = type' ∧
      UInt32.ofNat data.length = UInt32.ofNat data'.length := by
    have hread := deserialize_header ⟨id, type, data⟩
    rw [hheader, deserialize_header] at hread
    have h := Except.ok.inj hread
    simp only [Prod.mk.injEq] at h
    exact ⟨h.1.symm, h.2.1.symm, h.2.2.symm⟩
  obtain ⟨rfl, rfl, hsize⟩ := hfields
  have hlen : data.length = data'.length := by
    have hnat := congrArg UInt32.toNat hsize
    rwa [UInt32.toNat_ofNat', UInt32.toNat_ofNat', Nat.mod_eq_of_lt hm, Nat.mod_eq_of_lt hm']
      at hnat
  obtain ⟨rfl, rfl⟩ := List.append_inj hrest hlen
  exact ⟨rfl, rfl⟩

/-- What is received of a frame holds no whole frame. -/
theorem received_ne_frame {stage : ReadStage} {buffer : Bytes} (hlt : buffer.length < stage.count)
    {m : Message} (hm : m.data.length < 2 ^ 32) (t : Bytes) :
    received stage buffer ≠ frameOf m ++ t := by
  intro h
  cases stage with
  | header =>
      have hlen := congrArg List.length h
      have hlt : buffer.length < 9 := hlt
      simp at hlen
      omega
  | body id type dataSize =>
      -- with what is missing it would be the frame of another message
      have hlt : buffer.length < dataSize.toNat := hlt
      let rest : Bytes := List.replicate (dataSize.toNat - buffer.length) 0
      have hsize : (buffer ++ rest).length = dataSize.toNat := by
        simp only [rest, List.length_append, List.length_replicate]
        omega
      have hwhole : frameOf ⟨id, type, buffer ++ rest⟩ =
          received (.body id type dataSize) buffer ++ rest := by
        simp [frameOf, headerOf, hsize, UInt32.ofNat_toNat, received]
      have hsmall : (buffer ++ rest).length < 2 ^ 32 := by
        rw [hsize]
        exact dataSize.toNat_lt
      have heq : frameOf ⟨id, type, buffer ++ rest⟩ ++ [] = frameOf m ++ (t ++ rest) := by
        rw [hwhole, h, List.append_nil, List.append_assoc]
      have hnil := (frameOf_append_inj hsmall hm heq).2
      have hlen := congrArg List.length hnil
      simp only [rest, List.length_nil, List.length_append, List.length_replicate] at hlen
      omega

/-- A stream of which no whole frame is received yet, and nothing is on the way, is empty. -/
theorem streamOf_eq_received {stage : ReadStage} {buffer : Bytes}
    (hlt : buffer.length < stage.count) {ms : List Message}
    (hms : ∀ m ∈ ms, m.data.length < 2 ^ 32) (h : received stage buffer = streamOf ms) :
    ms = [] := by
  cases ms with
  | nil => rfl
  | cons m rest =>
      rw [streamOf_cons] at h
      exact absurd h (received_ne_frame hlt (hms m List.mem_cons_self) _)

/-- A stream that begins with a frame begins with that message. -/
theorem streamOf_frame {m : Message} {ms : List Message} {t : Bytes} (hm : m.data.length < 2 ^ 32)
    (hms : ∀ m' ∈ ms, m'.data.length < 2 ^ 32) (h : frameOf m ++ t = streamOf ms) :
    ∃ rest, ms = m :: rest ∧ t = streamOf rest := by
  cases ms with
  | nil =>
      have hlen := congrArg List.length h
      simp at hlen
  | cons m' rest =>
      rw [streamOf_cons] at h
      obtain ⟨rfl, rfl⟩ := frameOf_append_inj hm (hms m' List.mem_cons_self) h
      exact ⟨rest, rfl, rfl⟩

end MessageTransport

end ZControl
