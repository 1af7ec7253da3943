import ZControl.Common.Framing

/-!
# The writing side

Any number of threads call `write` on one transport. A call serializes its message, takes
`_write_mx`, makes one `::send` and releases the mutex. If each `::send` accepts its whole buffer
the stream is a concatenation of frames, and the peer gets the messages in the order of the sends.
`send` does not make up for a `::send` that accepts less, so the condition is necessary too.
-/

namespace ZControl

open MessageTransport Transition

/-! ## Concurrent writers -/

/-- Where a thread stands in `write`. -/
inductive WriterPc where
  | idle
  | serialized (m : Message) (bytes : Bytes)
  | locked (m : Message) (bytes : Bytes)
  | sent (m : Message)
  deriving DecidableEq

/-- The shared stream and mutex, the threads, and, for the record, the messages sent so far, each
with its thread. -/
structure Writers where
  stream : Bytes
  writeMx : Option Nat
  pc : Nat → WriterPc
  written : List (Nat × Message)

inductive WriterAction where
  | serialize (t : Nat) (m : Message)
  | lock (t : Nat)
  | send (t : Nat) (accepted : Nat)
  | unlock (t : Nat)

namespace Writers

def init : Writers := ⟨[], none, fun _ => .idle, []⟩

def step (w : Writers) : WriterAction → Option Writers
  | .serialize t m =>
      match w.pc t, frame m with
      | .idle, .ok bytes => some { w with pc := Function.update w.pc t (.serialized m bytes) }
      | _, _ => none
  | .lock t =>
      match w.pc t, w.writeMx with
      | .serialized m bytes, none =>
          some { w with writeMx := some t, pc := Function.update w.pc t (.locked m bytes) }
      | _, _ => none
  | .send t accepted =>
      match w.pc t with
      | .locked m bytes =>
          match TcpSocket.send w.stream bytes (some accepted) with
          | .ok stream =>
              some { w with
                stream := stream
                pc := Function.update w.pc t (.sent m)
                written := w.written ++ [(t, m)] }
          | .error _ => none
      | _ => none
  | .unlock t =>
      match w.pc t with
      | .sent _ => some { w with writeMx := none, pc := Function.update w.pc t .idle }
      | _ => none

/-- The messages have data shorter than `2 ^ 32`, and each `::send` accepts its whole buffer. -/
def WholeSends (w : Writers) : WriterAction → Prop
  | .serialize _ m   => m.data.length < 2 ^ 32
  | .send t accepted =>
      match w.pc t with
      | .locked _ bytes => accepted = bytes.length
      | _               => True
  | _                => True

/-- The message and the bytes a thread is about to send. -/
def WriterPc.pending : WriterPc → Option (Message × Bytes)
  | .serialized m bytes => some (m, bytes)
  | .locked m bytes     => some (m, bytes)
  | _                   => none

/-- The stream is made of the frames of the messages written, and what the threads are about to
send are frames. -/
structure Framed (w : Writers) : Prop where
  stream : w.stream = streamOf (w.written.map Prod.snd)
  small : ∀ m ∈ w.written.map Prod.snd, m.data.length < 2 ^ 32
  pending : ∀ t m bytes, WriterPc.pending (w.pc t) = some (m, bytes) →
    bytes = frameOf m ∧ m.data.length < 2 ^ 32

theorem framed_init : Framed init where
  stream := rfl
  small := by intro m hm; cases hm
  pending := by intro t m bytes h; cases h

/-- Moving a thread keeps the `pending` clause if its new position satisfies it. -/
theorem pending_update {w : Writers} {t : Nat} {pc : WriterPc}
    (hw : ∀ t m bytes, WriterPc.pending (w.pc t) = some (m, bytes) →
      bytes = frameOf m ∧ m.data.length < 2 ^ 32)
    (hpc : ∀ m bytes, WriterPc.pending pc = some (m, bytes) →
      bytes = frameOf m ∧ m.data.length < 2 ^ 32) :
    ∀ t' m bytes, WriterPc.pending (Function.update w.pc t pc t') = some (m, bytes) →
      bytes = frameOf m ∧ m.data.length < 2 ^ 32 := by
  intro t' m bytes h
  by_cases ht : t' = t
  · subst ht
    rw [Function.update_self] at h
    exact hpc m bytes h
  · rw [Function.update_of_ne ht] at h
    exact hw t' m bytes h

theorem step_framed (w : Writers) (a : WriterAction) (w' : Writers) (ha : WholeSends w a)
    (hw : Framed w) (h : step w a = some w') : Framed w' := by
  cases a with
  | serialize t m =>
      simp only [step, frame_eq] at h
      split at h
      · next hpc hframe =>
          cases hframe
          cases h
          refine ⟨hw.stream, hw.small, pending_update hw.pending ?_⟩
          rintro m' bytes' ⟨⟩
          exact ⟨rfl, ha⟩
      · cases h
  | lock t =>
      simp only [step] at h
      split at h
      · next m bytes hpc hmx =>
          cases h
          refine ⟨hw.stream, hw.small, pending_update hw.pending ?_⟩
          rintro m' bytes' ⟨⟩
          exact hw.pending t m bytes (by rw [hpc]; rfl)
      · cases h
  | send t accepted =>
      simp only [step, TcpSocket.send] at h
      split at h
      · next m bytes hpc =>
          cases h
          obtain ⟨hbytes, hm⟩ := hw.pending t m bytes (by rw [hpc]; rfl)
          refine ⟨?_, ?_, pending_update hw.pending ?_⟩
          · have hall : accepted = bytes.length := by
              simp only [WholeSends, hpc] at ha
              exact ha
            show w.stream ++ bytes.take accepted = streamOf ((w.written ++ [(t, m)]).map Prod.snd)
            rw [hall, List.take_length, hw.stream, hbytes, List.map_append, streamOf_append]
            simp
          · intro m' hm'
            rw [List.map_append] at hm'
            rcases List.mem_append.mp hm' with h | h
            · exact hw.small m' h
            · rw [List.mem_singleton.mp h]; exact hm
          · rintro m' bytes' ⟨⟩
      · cases h
  | unlock t =>
      simp only [step] at h
      split at h
      · cases h
        refine ⟨hw.stream, hw.small, pending_update hw.pending ?_⟩
        rintro m' bytes' ⟨⟩
      · cases h

/-! ### What has been written -/

/-- The messages with which thread `t` has called `write`, in order. -/
def callsOf (t : Nat) (as : List WriterAction) : List Message :=
  as.filterMap fun
    | .serialize u m => if u = t then some m else none
    | _              => none

/-- The threads that have made their `::send`, in the order of the critical sections. -/
def sections (as : List WriterAction) : List Nat :=
  as.filterMap fun
    | .send t _ => some t
    | _         => none

/-- What the call the thread is in has still to send. -/
def WriterPc.unsent : WriterPc → List Message
  | .serialized m _ => [m]
  | .locked m _     => [m]
  | _               => []

/-- What thread `t` has written. -/
def writtenBy (w : Writers) (t : Nat) : List Message :=
  (w.written.filter fun p => p.1 = t).map Prod.snd

/-- The record of a run whose actions are `as`: one entry for each `::send`, and for each thread the
messages of its calls, up to the one it has still to send. -/
structure Recorded (as : List WriterAction) (w : Writers) : Prop where
  order : w.written.map Prod.fst = sections as
  calls : ∀ t, w.writtenBy t ++ WriterPc.unsent (w.pc t) = callsOf t as

theorem callsOf_append (t : Nat) (as bs : List WriterAction) :
    callsOf t (as ++ bs) = callsOf t as ++ callsOf t bs := List.filterMap_append

theorem sections_append (as bs : List WriterAction) :
    sections (as ++ bs) = sections as ++ sections bs := List.filterMap_append

theorem writtenBy_append (w : Writers) (t u : Nat) (m : Message) (w' : Writers)
    (hw' : w'.written = w.written ++ [(u, m)]) :
    w'.writtenBy t = w.writtenBy t ++ if u = t then [m] else [] := by
  simp only [writtenBy, hw', List.filter_append, List.map_append]
  congr 1
  by_cases hut : u = t <;> simp [hut]

/-- A step of thread `t` that sends nothing: the other threads' accounts stay as they are. -/
theorem Recorded.move {as : List WriterAction} {w : Writers} (hw : Recorded as w) {t : Nat}
    {a : WriterAction} {pc : WriterPc} {mx : Option Nat} (hsection : sections [a] = [])
    (hself : WriterPc.unsent pc = WriterPc.unsent (w.pc t) ++ callsOf t [a])
    (hother : ∀ u, u ≠ t → callsOf u [a] = []) :
    Recorded (as ++ [a]) { w with writeMx := mx, pc := Function.update w.pc t pc } where
  order := by
    rw [sections_append, hsection, List.append_nil]
    exact hw.order
  calls := by
    intro u
    rw [callsOf_append, ← hw.calls u]
    show w.writtenBy u ++ WriterPc.unsent (Function.update w.pc t pc u) = _
    rw [List.append_assoc]
    congr 1
    by_cases hut : u = t
    · rw [hut, Function.update_self, hself]
    · rw [Function.update_of_ne hut, hother u hut, List.append_nil]

theorem step_recorded (as : List WriterAction) (w : Writers) (a : WriterAction) (w' : Writers)
    (hw : Recorded as w) (h : step w a = some w') : Recorded (as ++ [a]) w' := by
  cases a with
  | serialize t m =>
      simp only [step] at h
      split at h
      · next hpc hframe =>
          cases h
          refine hw.move rfl ?_ ?_
          · simp [hpc, WriterPc.unsent, callsOf]
          · intro u hut
            simp [callsOf, Ne.symm hut]
      · cases h
  | lock t =>
      simp only [step] at h
      split at h
      · next m bytes hpc hmx =>
          cases h
          refine hw.move rfl ?_ fun u hut => rfl
          rw [hpc]
          rfl
      · cases h
  | send t accepted =>
      simp only [step, TcpSocket.send] at h
      split at h
      · next m bytes hpc =>
          cases h
          constructor
          · rw [sections_append, ← hw.order, List.map_append]
            rfl
          · intro u
            rw [callsOf_append, ← hw.calls u, writtenBy_append w u t m _ rfl]
            show _ ++ WriterPc.unsent (Function.update w.pc t (.sent m) u) = _
            by_cases hut : u = t
            · rw [hut, Function.update_self, if_pos rfl, hpc]
              rfl
            · rw [Function.update_of_ne hut, if_neg (Ne.symm hut)]
              show w.writtenBy u ++ [] ++ _ = w.writtenBy u ++ _ ++ []
              rw [List.append_nil, List.append_nil]
      · cases h
  | unlock t =>
      simp only [step] at h
      split at h
      · next m hpc =>
          cases h
          refine hw.move rfl ?_ fun u hut => rfl
          rw [hpc]
          rfl
      · cases h

/-- **Framing under any chunking and any writers.** In any interleaving of any number of `write`
calls the messages written are those of the calls, each thread's in the order of its calls and all
of them in the order of the critical sections, but for the calls that have not made their `::send`
yet. The stream is the concatenation of their frames, and a reader of that stream, cut by
end-of-file at any byte and split by the kernel in any way, gets exactly the messages whose frames
are complete, in order, and `TransportClosed` from then on. -/
theorem reads_match_writes {as : List WriterAction} {w : Writers}
    (hrun : run step init as = some w) (hsends : AllSteps step WholeSends init as) :
    w.written.map Prod.fst = sections as ∧
      (∀ t, w.writtenBy t ++ WriterPc.unsent (w.pc t) = callsOf t as) ∧
      w.stream = streamOf (w.written.map Prod.snd) ∧
      ∀ (cut : Nat) (s : Incoming), cut ≤ w.stream.length → s.OnlySplits →
        s.bytes = w.stream.take cut →
        ∀ n, readCalls n s = outcomes (completeBefore (w.written.map Prod.snd) cut) n := by
  have hrecorded : Recorded ([] ++ as) w :=
    run_history step_recorded ⟨rfl, fun t => rfl⟩ hrun
  have hw : Framed w := hsends.invariant step_framed framed_init hrun
  refine ⟨hrecorded.order, hrecorded.calls, hw.stream, ?_⟩
  intro cut s _ hs hbytes n
  rw [hw.stream] at hbytes
  exact readCalls_stream _ hw.small cut n s hs hbytes

/-- Two threads whose critical sections fall in the opposite order of their calls: the peer gets
the messages in the order of the sends. -/
theorem reads_match_writes_two_threads :
    ∃ w, run step init
        [.serialize 0 ⟨0, 1, [65]⟩, .serialize 1 ⟨1, 2, []⟩, .lock 1, .send 1 9, .unlock 1,
          .lock 0, .send 0 10, .unlock 0] = some w ∧
      w.written.map Prod.fst = [1, 0] ∧ w.writtenBy 0 ++ [] = [⟨0, 1, [65]⟩] ∧
      ∀ (s : Incoming), s.OnlySplits → s.bytes = w.stream.take 18 →
        readCalls 2 s = outcomes (completeBefore (w.written.map Prod.snd) 18) 2 := by
  refine ⟨_, rfl, ?_⟩
  have h := @reads_match_writes
    [.serialize 0 ⟨0, 1, [65]⟩, .serialize 1 ⟨1, 2, []⟩, .lock 1, .send 1 9, .unlock 1,
      .lock 0, .send 0 10, .unlock 0] _ rfl
    ⟨(by decide : 1 < 2 ^ 32), (by decide : 0 < 2 ^ 32), trivial, rfl, trivial, trivial, rfl,
      trivial, trivial⟩
  refine ⟨h.1, h.2.1 0, ?_⟩
  intro s hs hbytes
  exact h.2.2.2 18 s (by decide) hs hbytes 2

end Writers

/-! ## Short sends -/

/-- Successive `write` calls, each with the count its `::send` accepts. -/
def writeAll : Bytes → List (Message × Nat) → Except Fault Bytes
  | stream, []           => .ok stream
  | stream, (m, n) :: ws => do
      let stream ← write stream m (some n)
      writeAll stream ws

/-- The counts are ones a kernel may return: positive, and no larger than the buffer. -/
def LegalCounts (ws : List (Message × Nat)) : Prop :=
  ∀ p ∈ ws, 0 < p.2 ∧ p.2 ≤ (frameOf p.1).length

/-- What arrives is the beginning of each frame, as far as its `::send` took it. -/
theorem writeAll_eq (ws : List (Message × Nat)) (stream : Bytes) :
    writeAll stream ws = .ok (stream ++ (ws.map fun p => (frameOf p.1).take p.2).flatten) := by
  induction ws generalizing stream with
  | nil => simp [writeAll]
  | cons p ws ih =>
      obtain ⟨m, n⟩ := p
      have hwrite : write stream m (some n) = .ok (stream ++ (frameOf m).take n) := by
        simp [write, frame_eq, TcpSocket.send, bind, Except.bind]
      rw [writeAll, hwrite]
      simp only [bind, Except.bind]
      rw [ih]
      simp

theorem length_taken_le {ws : List (Message × Nat)} (hws : LegalCounts ws) :
    ((ws.map fun p => (frameOf p.1).take p.2).flatten).length
      ≤ (streamOf (ws.map Prod.fst)).length := by
  induction ws with
  | nil => exact Nat.le_refl _
  | cons p ws ih =>
      have ih' := ih fun q hq => hws q (List.mem_cons_of_mem _ hq)
      have hp := (hws p List.mem_cons_self).2
      simp only [List.map_cons, List.flatten_cons, List.length_append, streamOf_cons,
        List.length_take]
      omega

/-- Nothing is missing only if no `::send` was short. -/
theorem length_taken_eq_iff {ws : List (Message × Nat)} (hws : LegalCounts ws) :
    ((ws.map fun p => (frameOf p.1).take p.2).flatten).length
      = (streamOf (ws.map Prod.fst)).length ↔ ∀ p ∈ ws, p.2 = (frameOf p.1).length := by
  induction ws with
  | nil => simp
  | cons p ws ih =>
      have hws' : LegalCounts ws := fun q hq => hws q (List.mem_cons_of_mem _ hq)
      have hle := length_taken_le hws'
      have hp := (hws p List.mem_cons_self).2
      simp only [List.map_cons, List.flatten_cons, List.length_append, streamOf_cons,
        List.length_take, List.forall_mem_cons]
      rw [← ih hws']
      omega

theorem taken_eq {ws : List (Message × Nat)} (hfull : ∀ p ∈ ws, p.2 = (frameOf p.1).length) :
    (ws.map fun p => (frameOf p.1).take p.2).flatten = streamOf (ws.map Prod.fst) := by
  rw [streamOf, List.map_map]
  congr 1
  refine List.map_congr_left fun p hp => ?_
  rw [hfull p hp, List.take_length]
  rfl

/-- **When sends are complete.** For all messages and all counts the kernel may return, the write
calls succeed; the stream is the concatenation of the frames exactly when every `::send` accepted
its whole frame; and exactly then do as many reads, under any chunking, return the messages. -/
theorem writeAll_complete_iff (ws : List (Message × Nat)) (hws : LegalCounts ws) :
    ∃ stream, writeAll [] ws = .ok stream ∧
      (stream = streamOf (ws.map Prod.fst) ↔ ∀ p ∈ ws, p.2 = (frameOf p.1).length) ∧
      ((∀ p ∈ ws, p.1.data.length < 2 ^ 32) →
        ∀ s : Incoming, s.OnlySplits → s.bytes = stream →
          (readCalls ws.length s = (ws.map Prod.fst).map Except.ok
            ↔ ∀ p ∈ ws, p.2 = (frameOf p.1).length)) := by
  refine ⟨_, writeAll_eq ws [], ?_, ?_⟩
  · rw [List.nil_append]
    constructor
    · intro h
      exact (length_taken_eq_iff hws).mp (congrArg List.length h)
    · exact taken_eq
  · intro hsmall s hs hbytes
    rw [List.nil_append] at hbytes
    have hlen : ws.length = (ws.map Prod.fst).length := (List.length_map _).symm
    rw [hlen]
    constructor
    · intro hread
      -- what was decoded is on the stream, so the stream cannot be the shorter one
      obtain ⟨tail, htail⟩ := readCalls_sound _ s hs hread
      have hle := length_taken_le hws
      rw [← hbytes, htail, List.length_append] at hle
      refine (length_taken_eq_iff hws).mp ?_
      rw [← hbytes, htail, List.length_append]
      omega
    · intro hfull
      rw [taken_eq hfull] at hbytes
      have hms : ∀ m ∈ ws.map Prod.fst, m.data.length < 2 ^ 32 := by
        intro m hm
        obtain ⟨p, hp, rfl⟩ := List.mem_map.mp hm
        exact hsmall p hp
      have hread := readCalls_stream _ hms (streamOf (ws.map Prod.fst)).length
        (ws.map Prod.fst).length s hs (by rw [hbytes, List.take_length])
      rw [hread, completeBefore_all, outcomes_length]

/-- Two empty messages, all sends complete. -/
theorem writeAll_complete_two :
    ∃ stream, writeAll [] [(⟨0, 0, []⟩, 9), (⟨1, 0, []⟩, 9)] = .ok stream ∧
      stream = streamOf [⟨0, 0, []⟩, ⟨1, 0, []⟩] := by
  obtain ⟨stream, hwrite, hiff, _⟩ := writeAll_complete_iff [(⟨0, 0, []⟩, 9), (⟨1, 0, []⟩, 9)]
    (by unfold LegalCounts; decide)
  exact ⟨stream, hwrite, hiff.mpr (by decide)⟩

/-- **Sends need not be complete**: a `::send` that takes one byte of the nine of a frame makes
`write` return normally with the rest of the frame lost. -/
theorem not_writeAll_complete :
    ¬ ∀ (ws : List (Message × Nat)) (stream : Bytes), LegalCounts ws →
      writeAll [] ws = .ok stream → stream = streamOf (ws.map Prod.fst) := by
  intro h
  have hbad := h [(⟨0, 0, []⟩, 1)] [0] (by unfold LegalCounts; decide) (by decide)
  exact absurd hbad (by decide)

end ZControl
