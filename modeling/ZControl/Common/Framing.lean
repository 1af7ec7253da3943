import ZControl.Common.MessageTransport

/-!
# Framing

A frame is the id, the type and the length-prefixed data. The reading loop gathers exactly the
bytes it was asked for however the kernel splits them, so reading a stream of frames cut at any
byte gives back the messages whose frames are complete, and then only `TransportClosed`. The
writers' mutex makes the stream a concatenation of frames, provided each `::send` takes its whole
buffer; `send` does not check that it did, and a short count breaks the stream.
-/

namespace ZControl

open BinaryDeserializer ExactReader

/-! ## The receiving computations, run -/

/-- Run a receiving computation. -/
def Receive.exec {α : Type} (p : Receive α) (s : Incoming) : Except Fault α × Incoming := p s

namespace Receive

variable {α β : Type}

@[simp] theorem exec_pure (a : α) (s : Incoming) : exec (pure a : Receive α) s = (.ok a, s) := rfl

/-- A step that does not touch the stream. -/
theorem exec_lift (a : α) (s : Incoming) :
    exec (liftM (Except.ok a : Except Fault α) : Receive α) s = (.ok a, s) := rfl

theorem exec_bind_ok {p : Receive α} {f : α → Receive β} {s s' : Incoming} {a : α}
    (h : p.exec s = (.ok a, s')) : (p >>= f).exec s = (f a).exec s' := by
  have h' : p s = (.ok a, s') := h
  simp [exec, bind, ExceptT.bind, ExceptT.mk, StateT.bind, h', ExceptT.bindCont]

theorem exec_bind_error {p : Receive α} {f : α → Receive β} {s s' : Incoming} {e : Fault}
    (h : p.exec s = (.error e, s')) : (p >>= f).exec s = (.error e, s') := by
  have h' : p s = (.error e, s') := h
  simp only [exec, bind, ExceptT.bind, ExceptT.mk, StateT.bind, h']
  rfl

end Receive

/-- The kernel only splits the stream: no call fails, no cancellation is signalled. -/
def Incoming.OnlySplits (s : Incoming) : Prop :=
  ∀ n, s.poll n = .socketReadable ∧ s.recv n ≠ none

namespace MessageTransport

open Receive

theorem poll_exec {s : Incoming} (hs : s.OnlySplits) : TcpSocket.poll.exec s = (.ok true, s) := by
  have hget : (get : Receive Incoming).exec s = (.ok s, s) := rfl
  rw [TcpSocket.poll, exec_bind_ok hget, (hs s.calls).1]
  rfl

/-- One `recv` takes some positive number of bytes off the stream, if there are any. -/
theorem recv_exec {s : Incoming} (size : Nat) (hs : s.OnlySplits) (hsize : 0 < size) :
    ∃ n s', 0 < n ∧ n ≤ size ∧ s'.OnlySplits ∧ s'.bytes = s.bytes.drop n ∧
      (TcpSocket.recv size).exec s = (.ok (s.bytes.take n), s') := by
  obtain ⟨k, hk⟩ := Option.ne_none_iff_exists'.mp (hs s.calls).2
  refine ⟨max 1 (min k size),
    { s with bytes := s.bytes.drop (max 1 (min k size)), calls := s.calls + 1 },
    by omega, by omega, hs, rfl, ?_⟩
  have hget : (get : Receive Incoming).exec s = (.ok s, s) := rfl
  rw [TcpSocket.recv, exec_bind_ok hget]
  dsimp only
  rw [hk]
  rfl

/-- One turn of the loop: the end of the stream ends it, anything else goes into the buffer. -/
theorem readLoop_turn {count : Nat} {buffer : Bytes} {s : Incoming} (hs : s.OnlySplits)
    (hlt : buffer.length < count) :
    ∃ n s', 0 < n ∧ n ≤ count - buffer.length ∧ s'.OnlySplits ∧ s'.bytes = s.bytes.drop n ∧
      (readLoop count buffer).exec s =
        if s.bytes.take n = [] then (.error transportClosed, s')
        else (readLoop count (buffer ++ s.bytes.take n)).exec s' := by
  obtain ⟨n, s', hpos, hle, hs', hbytes, hrecv⟩ :=
    recv_exec (count - buffer.length) hs (by omega)
  refine ⟨n, s', hpos, hle, hs', hbytes, ?_⟩
  rw [readLoop, dif_pos hlt, exec_bind_ok (poll_exec hs)]
  show (TcpSocket.recv (count - buffer.length) >>= _).exec s = _
  rw [exec_bind_ok hrecv]
  split
  · next h => rw [if_pos (List.eq_nil_of_length_eq_zero h)]; rfl
  · next h => rw [if_neg (fun h0 => h (by rw [h0]; rfl))]

/-- The loop fills the buffer with the next bytes of the stream, or finds the stream too short. -/
theorem readLoop_exec (count : Nat) (buffer : Bytes) (s : Incoming) (hs : s.OnlySplits)
    (hle : buffer.length ≤ count) :
    ∃ s', s'.OnlySplits ∧ s'.bytes = s.bytes.drop (count - buffer.length) ∧
      (readLoop count buffer).exec s =
        (if count - buffer.length ≤ s.bytes.length then
          .ok (buffer ++ s.bytes.take (count - buffer.length))
        else .error transportClosed, s') := by
  induction hm : count - buffer.length using Nat.strongRecOn generalizing buffer s with
  | ind m ih =>
      by_cases hlt : buffer.length < count
      · obtain ⟨n, s₁, hpos, hn, hs₁, hbytes, hturn⟩ := readLoop_turn hs hlt
        rw [hturn]
        by_cases hnil : s.bytes.take n = []
        · have hempty : s.bytes = [] := by
            rcases List.take_eq_nil_iff.mp hnil with h0 | h
            · omega
            · exact h
          refine ⟨s₁, hs₁, by rw [hbytes, hempty, List.drop_nil, List.drop_nil], ?_⟩
          rw [if_pos hnil, if_neg (by rw [hempty]; simp; omega)]
        · have hlen : (buffer ++ s.bytes.take n).length = buffer.length + min n s.bytes.length := by
            rw [List.length_append, List.length_take]
          have hmin : 0 < min n s.bytes.length := by
            have := List.length_pos_of_ne_nil hnil
            rwa [List.length_take] at this
          obtain ⟨s', hs', hrest, hexec⟩ :=
            ih (count - (buffer ++ s.bytes.take n).length) (by rw [hlen]; omega)
              (buffer ++ s.bytes.take n) s₁ hs₁ (by rw [hlen]; omega) rfl
          rw [if_neg hnil]
          by_cases hshort : s.bytes.length < n
          · -- the piece was the whole rest of the stream
            have hdrop : s₁.bytes = [] := by rw [hbytes]; exact List.drop_of_length_le (by omega)
            refine ⟨s', hs', ?_, ?_⟩
            · rw [hrest, hdrop, List.drop_nil, List.drop_of_length_le (by omega)]
            · rw [hexec, hdrop, if_neg (by simp; omega), if_neg (by omega)]
          · have hm' : count - (buffer ++ s.bytes.take n).length = m - n := by
              rw [hlen, Nat.min_eq_left (by omega)]; omega
            rw [hm', hbytes] at hexec
            rw [hm', hbytes] at hrest
            refine ⟨s', hs', ?_, ?_⟩
            · rw [hrest, List.drop_drop]; congr 1; omega
            · rw [hexec]
              congr 1
              rw [List.length_drop]
              by_cases hfit : m ≤ s.bytes.length
              · rw [if_pos (by omega), if_pos hfit, List.append_assoc]
                congr 2
                have hsplit : m = n + (m - n) := by omega
                conv_rhs => rw [hsplit, List.take_add]
              · rw [if_neg (by omega), if_neg hfit]
      · refine ⟨s, hs, ?_, ?_⟩
        · have h0 : m = 0 := by omega
          rw [h0, List.drop_zero]
        · have h0 : m = 0 := by omega
          rw [readLoop, dif_neg hlt, h0, if_pos (Nat.zero_le _), List.take_zero, List.append_nil]
          rfl

/-- `_read_exactly` returns the next `count` bytes, or consumes a shorter stream and throws. -/
theorem readExactly_exec (count : Nat) (s : Incoming) (hs : s.OnlySplits) :
    ∃ s', s'.OnlySplits ∧ s'.bytes = s.bytes.drop count ∧
      (readExactly count).exec s =
        (if count ≤ s.bytes.length then .ok (s.bytes.take count) else .error transportClosed,
          s') := by
  simpa [readExactly] using readLoop_exec count [] s hs (Nat.zero_le _)

/-! ## One frame -/

/-- The fixed part of a frame: id, type and the length of the data, cut to 32 bits. -/
def headerOf (m : Message) : Bytes :=
  encodeUint32 m.id ++ (encodeUint8 m.type ++ encodeUint32 (UInt32.ofNat m.data.length))

/-- The frame of a message. -/
def frameOf (m : Message) : Bytes := headerOf m ++ m.data

@[simp] theorem length_headerOf (m : Message) : (headerOf m).length = 9 := by simp [headerOf]

@[simp] theorem length_frameOf (m : Message) : (frameOf m).length = 9 + m.data.length := by
  simp [frameOf]

open BinarySerializer in
/-- `write` serializes every message to its frame. For data of `2 ^ 32 - 9` bytes and more the
serializer's `_index` wraps while the data goes out, without consequence: nothing follows. -/
theorem frame_eq (m : Message) : frame m = .ok (frameOf m) := by
  have hid : BinarySerializer.new.serializeUint32 m.id
      = .ok (BinarySerializer.new.append (encodeUint32 m.id)) :=
    (serializeUint32_eq _ _).trans (putFixed_append synced_new (by simp [BinarySerializer.new]))
  have hs₁ : (BinarySerializer.new.append (encodeUint32 m.id)).Synced :=
    append_synced synced_new (by simp [BinarySerializer.new])
  have htype : (BinarySerializer.new.append (encodeUint32 m.id)).serializeUint8 m.type
      = .ok (BinarySerializer.new.append (encodeUint32 m.id ++ encodeUint8 m.type)) := by
    rw [← append_append]
    exact (serializeUint8_eq _ _).trans (putFixed_append hs₁ (by simp [BinarySerializer.new]))
  have hs₂ : (BinarySerializer.new.append (encodeUint32 m.id ++ encodeUint8 m.type)).Synced :=
    append_synced synced_new (by simp [BinarySerializer.new])
  have hdata := putSized_append m.data hs₂ rfl (by simp [BinarySerializer.new])
  simp only [frame, hid, htype, serializeByteVector, hdata, bind, Except.bind, pure, Except.pure]
  simp [data, frameOf, headerOf, encodeUint32, BinarySerializer.new]

theorem exactRead_header : ExactRead readHeader
    (fun p => encodeUint32 p.1 ++ (encodeUint8 p.2.1 ++ encodeUint32 p.2.2)) := by
  have h := exactRead_uint32.pair (exactRead_uint8.pair exactRead_uint32)
  simpa [readHeader, bind_assoc] using h

theorem deserialize_header (m : Message) :
    deserialize (headerOf m) readHeader = .ok (m.id, m.type, UInt32.ofNat m.data.length) := by
  have hok : (BinaryDeserializer.new (headerOf m)).Ok := ok_new (by rw [length_headerOf]; decide)
  obtain ⟨d, hread, _⟩ :=
    exactRead_header.complete (v := (m.id, m.type, UInt32.ofNat m.data.length)) hok
      (by simp [headerOf] : _ = _ ++ [])
  rw [deserialize, hread]
  rfl

/-- The deserializer in `read` only copies: the buffer has exactly the size it is asked for. -/
theorem deserialize_body {b : Bytes} (hb : b.length < 2 ^ 32) :
    deserialize b (deserializeByteVectorOf (UInt32.ofNat b.length)) = .ok b := by
  have hok := ok_new hb
  have hnat : (UInt32.ofNat b.length).toNat = b.length := by
    rw [UInt32.toNat_ofNat', Nat.mod_eq_of_lt hb]
  have hle : (UInt32.ofNat b.length).toNat ≤ (BinaryDeserializer.new b).rest.length := by
    rw [hnat, rest_new]
  have hread : deserializeByteVectorOf (UInt32.ofNat b.length) (BinaryDeserializer.new b)
      = .ok (b, (BinaryDeserializer.new b).advance b.length) := by
    refine bind_ok_iff.mpr ⟨(), _, validateNoOverflow_of_le hok hle, ?_⟩
    rw [slice_eq hok hle, hnat, rest_new, List.take_length]
  rw [deserialize, hread]
  rfl

/-- `read` at a stream that holds at least the whole header of `m`. -/
theorem read_exec_header {m : Message} {s : Incoming} (hs : s.OnlySplits)
    (hheader : headerOf m <+: s.bytes) :
    ∃ s₁, s₁.OnlySplits ∧ s₁.bytes = s.bytes.drop 9 ∧
      read.exec s = (do
        let msgBuffer ← readExactly (UInt32.ofNat m.data.length).toNat
        let data ← (deserialize msgBuffer
          (deserializeByteVectorOf (UInt32.ofNat m.data.length)) : Except Fault _)
        return (⟨m.id, m.type, data⟩ : Message) : Receive Message).exec s₁ := by
  obtain ⟨s₁, hs₁, hbytes, hexec⟩ := readExactly_exec 9 s hs
  have hlen : 9 ≤ s.bytes.length := by
    have := hheader.length_le
    rwa [length_headerOf] at this
  have htake : s.bytes.take 9 = headerOf m := by
    obtain ⟨t, ht⟩ := hheader
    rw [← ht, List.take_left' (length_headerOf m)]
  rw [if_pos hlen, htake] at hexec
  refine ⟨s₁, hs₁, hbytes, ?_⟩
  rw [read, exec_bind_ok hexec, deserialize_header, exec_bind_ok (exec_lift _ _)]

/-- **A whole frame**: `read` returns its message and leaves what follows. -/
theorem read_frame {m : Message} {s : Incoming} {tail : Bytes} (hs : s.OnlySplits)
    (hm : m.data.length < 2 ^ 32) (hbytes : s.bytes = frameOf m ++ tail) :
    ∃ s', s'.OnlySplits ∧ s'.bytes = tail ∧ read.exec s = (.ok m, s') := by
  have hheader : headerOf m <+: s.bytes := by
    rw [hbytes, frameOf, List.append_assoc]; exact List.prefix_append _ _
  obtain ⟨s₁, hs₁, hb₁, hread⟩ := read_exec_header hs hheader
  have hrest : s₁.bytes = m.data ++ tail := by
    rw [hb₁, hbytes, frameOf, List.append_assoc, List.drop_left' (length_headerOf m)]
  have hnat : (UInt32.ofNat m.data.length).toNat = m.data.length := by
    rw [UInt32.toNat_ofNat', Nat.mod_eq_of_lt hm]
  obtain ⟨s₂, hs₂, hb₂, hexec⟩ := readExactly_exec m.data.length s₁ hs₁
  rw [if_pos (by rw [hrest]; simp), hrest, List.take_left' rfl] at hexec
  refine ⟨s₂, hs₂, by rw [hb₂, hrest, List.drop_left' rfl], ?_⟩
  rw [hread, hnat, exec_bind_ok hexec, deserialize_body hm, exec_bind_ok (exec_lift _ _)]
  rfl

/-- **A cut frame**: `read` consumes what is there and throws `TransportClosed`. -/
theorem read_cut {m : Message} {s : Incoming} (hs : s.OnlySplits) (hm : m.data.length < 2 ^ 32)
    (hbytes : s.bytes <+: frameOf m) (hcut : s.bytes.length < (frameOf m).length) :
    ∃ s', s'.OnlySplits ∧ s'.bytes = [] ∧ read.exec s = (.error transportClosed, s') := by
  rw [length_frameOf] at hcut
  by_cases hlen : 9 ≤ s.bytes.length
  · have hheader : headerOf m <+: s.bytes :=
      List.prefix_of_prefix_length_le (List.prefix_append _ _) hbytes
        (by rw [length_headerOf]; exact hlen)
    obtain ⟨s₁, hs₁, hb₁, hread⟩ := read_exec_header hs hheader
    have hnat : (UInt32.ofNat m.data.length).toNat = m.data.length := by
      rw [UInt32.toNat_ofNat', Nat.mod_eq_of_lt hm]
    obtain ⟨s₂, hs₂, hb₂, hexec⟩ := readExactly_exec m.data.length s₁ hs₁
    have hshort : s₁.bytes.length < m.data.length := by rw [hb₁, List.length_drop]; omega
    rw [if_neg (Nat.not_le.mpr hshort)] at hexec
    refine ⟨s₂, hs₂, by rw [hb₂]; exact List.drop_of_length_le (by omega), ?_⟩
    rw [hread, hnat, exec_bind_error hexec]
  · obtain ⟨s₁, hs₁, hb₁, hexec⟩ := readExactly_exec 9 s hs
    rw [if_neg hlen] at hexec
    refine ⟨s₁, hs₁, by rw [hb₁]; exact List.drop_of_length_le (by omega), ?_⟩
    rw [read, exec_bind_error hexec]

/-- Whatever `read` returns was on the stream as a whole frame. -/
theorem read_sound {m : Message} {s s' : Incoming} (hs : s.OnlySplits)
    (hread : read.exec s = (.ok m, s')) : s'.OnlySplits ∧ s.bytes = frameOf m ++ s'.bytes := by
  obtain ⟨s₁, hs₁, hb₁, hexec₁⟩ := readExactly_exec 9 s hs
  by_cases hlen : 9 ≤ s.bytes.length
  · rw [if_pos hlen] at hexec₁
    have hok : (BinaryDeserializer.new (s.bytes.take 9)).Ok := ok_new (by simp)
    cases hheader : deserialize (s.bytes.take 9) readHeader with
    | error e =>
        rw [read, exec_bind_ok hexec₁, hheader,
          exec_bind_error (show exec (liftM (Except.error e : Except Fault _)) s₁ = (.error e, s₁)
            from rfl)] at hread
        cases hread
    | ok p =>
        obtain ⟨id, type, dataSize⟩ := p
        obtain ⟨d, hrun⟩ : ∃ d, readHeader (BinaryDeserializer.new (s.bytes.take 9))
            = .ok ((id, type, dataSize), d) := by
          cases h : readHeader (BinaryDeserializer.new (s.bytes.take 9)) with
          | error e => rw [deserialize, h] at hheader; cases hheader
          | ok q =>
              obtain ⟨v, d⟩ := q
              rw [deserialize, h] at hheader
              cases hheader
              exact ⟨d, rfl⟩
        have htake := (exactRead_header.sound hok hrun).1
        have hd : d.rest = [] := by
          have h := congrArg List.length htake
          rw [rest_new] at h
          simp at h
          exact List.eq_nil_of_length_eq_zero (by omega)
        rw [rest_new, hd, List.append_nil] at htake
        obtain ⟨s₂, hs₂, hb₂, hexec₂⟩ := readExactly_exec dataSize.toNat s₁ hs₁
        rw [read, exec_bind_ok hexec₁, hheader, exec_bind_ok (exec_lift _ _)] at hread
        by_cases hfit : dataSize.toNat ≤ s₁.bytes.length
        · rw [if_pos hfit] at hexec₂
          have hbody : (s₁.bytes.take dataSize.toNat).length = dataSize.toNat := by
            rw [List.length_take, Nat.min_eq_left hfit]
          have hcopy := deserialize_body (b := s₁.bytes.take dataSize.toNat)
            (by rw [hbody]; exact dataSize.toNat_lt)
          rw [hbody, UInt32.ofNat_toNat] at hcopy
          rw [exec_bind_ok hexec₂, hcopy, exec_bind_ok (exec_lift _ _)] at hread
          cases hread
          refine ⟨hs₂, ?_⟩
          rw [hb₂, frameOf, headerOf, hbody, UInt32.ofNat_toNat, ← htake, List.append_assoc,
            List.take_append_drop, hb₁, List.take_append_drop]
        · rw [if_neg hfit] at hexec₂
          rw [exec_bind_error hexec₂] at hread
          cases hread
  · rw [if_neg hlen] at hexec₁
    rw [read, exec_bind_error hexec₁] at hread
    cases hread

/-! ## A stream of frames -/

/-- The concatenated frames of some messages. -/
def streamOf (ms : List Message) : Bytes := (ms.map frameOf).flatten

@[simp] theorem streamOf_nil : streamOf [] = [] := rfl

@[simp] theorem streamOf_cons (m : Message) (ms : List Message) :
    streamOf (m :: ms) = frameOf m ++ streamOf ms := rfl

theorem streamOf_append (ms ns : List Message) :
    streamOf (ms ++ ns) = streamOf ms ++ streamOf ns := by
  simp [streamOf]

/-- The outcomes of `n` successive calls of `read`. -/
def readCalls : Nat → Incoming → List (Except Fault Message)
  | 0,     _ => []
  | n + 1, s => (read.exec s).1 :: readCalls n (read.exec s).2

/-- The messages whose frames end at or before byte `cut` of their stream. -/
def completeBefore : List Message → Nat → List Message
  | [],      _   => []
  | m :: ms, cut =>
      if (frameOf m).length ≤ cut then m :: completeBefore ms (cut - (frameOf m).length) else []

theorem completeBefore_all (ms : List Message) :
    completeBefore ms (streamOf ms).length = ms := by
  induction ms with
  | nil => rfl
  | cons m ms ih =>
      rw [completeBefore, streamOf_cons, List.length_append, if_pos (Nat.le_add_right _ _),
        Nat.add_sub_cancel_left, ih]

/-- The outcomes of `n` calls for a reader that is to get `ms`: these messages in order, and
`TransportClosed` from then on. -/
def outcomes (ms : List Message) (n : Nat) : List (Except Fault Message) :=
  (ms.map Except.ok ++ List.replicate n (Except.error transportClosed)).take n

@[simp] theorem outcomes_zero (ms : List Message) : outcomes ms 0 = [] := rfl

@[simp] theorem outcomes_nil (n : Nat) :
    outcomes [] n = List.replicate n (Except.error transportClosed) := by
  simp [outcomes]

@[simp] theorem outcomes_cons (m : Message) (ms : List Message) (n : Nat) :
    outcomes (m :: ms) (n + 1) = Except.ok m :: outcomes ms n := by
  have hmin : min (n - ms.length) (n + 1) = min (n - ms.length) n := by omega
  simp [outcomes, List.take_append, List.take_replicate, hmin]

/-- As many calls as there are messages: no call throws. -/
theorem outcomes_length (ms : List Message) : outcomes ms ms.length = ms.map Except.ok := by
  rw [outcomes, List.take_left' (by simp)]

/-- At the end of the stream every call throws. -/
theorem readCalls_eof (n : Nat) (s : Incoming) (hs : s.OnlySplits) (hbytes : s.bytes = []) :
    readCalls n s = outcomes [] n := by
  rw [outcomes_nil]
  induction n generalizing s with
  | zero => rfl
  | succ n ih =>
      obtain ⟨s', hs', hb', hread⟩ := read_cut (m := ⟨0, 0, []⟩) hs (by decide)
        (by rw [hbytes]; exact List.nil_prefix) (by rw [hbytes]; simp)
      rw [readCalls, hread, List.replicate_succ, ih s' hs' hb']

/-- A stream of frames cut at any byte: the complete messages in order, then `TransportClosed`. -/
theorem readCalls_stream (ms : List Message) (hms : ∀ m ∈ ms, m.data.length < 2 ^ 32)
    (cut n : Nat) (s : Incoming) (hs : s.OnlySplits) (hbytes : s.bytes = (streamOf ms).take cut) :
    readCalls n s = outcomes (completeBefore ms cut) n := by
  induction ms generalizing cut n s with
  | nil => exact readCalls_eof n s hs (by rw [hbytes, streamOf_nil, List.take_nil])
  | cons m ms ih =>
      have hm : m.data.length < 2 ^ 32 := hms m List.mem_cons_self
      cases n with
      | zero => rfl
      | succ n =>
          rw [streamOf_cons] at hbytes
          by_cases hcut : (frameOf m).length ≤ cut
          · rw [List.take_append, List.take_of_length_le hcut] at hbytes
            obtain ⟨s', hs', hb', hread⟩ := read_frame hs hm hbytes
            have hrest := ih (fun m' hm' => hms m' (List.mem_cons_of_mem _ hm'))
              (cut - (frameOf m).length) n s' hs' hb'
            rw [readCalls, hread, hrest, completeBefore, if_pos hcut, outcomes_cons]
          · rw [List.take_append_of_le_length (by omega)] at hbytes
            obtain ⟨s', hs', hb', hread⟩ := read_cut hs hm (hbytes ▸ List.take_prefix _ _)
              (by rw [hbytes, List.length_take]; omega)
            rw [readCalls, hread, readCalls_eof n s' hs' hb', completeBefore, if_neg hcut,
              outcomes_nil, outcomes_nil, List.replicate_succ]

/-- Calls that all return messages have consumed exactly their frames. -/
theorem readCalls_sound (ms : List Message) (s : Incoming) (hs : s.OnlySplits)
    (hread : readCalls ms.length s = ms.map Except.ok) : ∃ tail, s.bytes = streamOf ms ++ tail := by
  induction ms generalizing s with
  | nil => exact ⟨s.bytes, rfl⟩
  | cons m ms ih =>
      simp only [List.length_cons, readCalls, List.map_cons, List.cons.injEq] at hread
      obtain ⟨hs', hbytes⟩ := @read_sound _ _ (read.exec s).2 hs (Prod.ext hread.1 rfl)
      obtain ⟨tail, htail⟩ := ih _ hs' hread.2
      exact ⟨tail, by rw [hbytes, htail, streamOf_cons, List.append_assoc]⟩

end MessageTransport
end ZControl
