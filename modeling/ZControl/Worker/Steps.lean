import ZControl.Common.Framing
import ZControl.Lib.Transition
import ZControl.Worker.Machine

/-!
# What the threads of a `Worker` can do

`Step` is the step function read backwards, one case for each thing a thread can do.
-/

namespace ZControl

open Interaction

namespace Worker

variable {n : Nat} {dirsToOverride : DirsToOverride}

namespace State

@[simp, grind =] theorem setHandler_handler (s : State n) (i j : Fin n) (pc : HandlerPc) :
    (s.setHandler i pc).handler j = if j = i then pc else s.handler j := by
  simp [setHandler, Function.update_apply]

@[simp, grind =] theorem setWaiter_waiter (s : State n) (w v : Nat) (pc : WaiterPc) :
    (s.setWaiter w pc).waiter v = if v = w then pc else s.waiter v := by
  simp [setWaiter, Function.update_apply]

@[simp, grind =] theorem setCloser_closer (s : State n) (c d : Nat) (pc : CloserPc) :
    (s.setCloser c pc).closer d = if d = c then pc else s.closer d := by
  simp [setCloser, Function.update_apply]

attribute [grind =] stop_world_shouldStop stop_reader stop_handler stop_waiter stop_closer
  stop_pipe stop_socket stop_writeMx stop_queue stop_queueMx stop_queueShutdown stop_reads
  stop_disconnects stop_answers notifyStop_world notifyStop_reader notifyStop_handler
  notifyStop_waiter notifyStop_closer notifyStop_pipe notifyStop_socket notifyStop_writeMx
  notifyStop_queue notifyStop_queueMx notifyStop_queueShutdown notifyStop_reads
  notifyStop_disconnects notifyStop_answers notifyQueue_world notifyQueue_reader
  notifyQueue_handler notifyQueue_waiter notifyQueue_closer notifyQueue_pipe notifyQueue_socket
  notifyQueue_writeMx notifyQueue_queue notifyQueue_queueMx notifyQueue_queueShutdown
  notifyQueue_reads notifyQueue_disconnects notifyQueue_answers setHandler_world setHandler_reader
  setHandler_waiter setHandler_closer setHandler_pipe setHandler_socket setHandler_writeMx
  setHandler_queue setHandler_queueMx setHandler_queueShutdown setHandler_reads
  setHandler_disconnects setHandler_answers setWaiter_world setWaiter_reader setWaiter_handler
  setWaiter_closer setWaiter_pipe setWaiter_socket setWaiter_writeMx setWaiter_queue
  setWaiter_queueMx setWaiter_queueShutdown setWaiter_reads setWaiter_disconnects
  setWaiter_answers setCloser_world setCloser_reader setCloser_handler setCloser_waiter
  setCloser_pipe setCloser_socket setCloser_writeMx setCloser_queue setCloser_queueMx
  setCloser_queueShutdown setCloser_reads setCloser_disconnects setCloser_answers

end State

/-! ## Reading

Any nine bytes are a header, and a body of the size it announces is the data, so the deserializers
in `read` never throw. -/

theorem exists_encodeUint32 {b : Bytes} (hb : b.length = 4) : ∃ v, encodeUint32 v = b := by
  have hlt : BigEndian.toNat b < 2 ^ 32 := by
    have h := BigEndian.toNat_lt b
    rwa [hb] at h
  refine ⟨UInt32.ofNat (BigEndian.toNat b), ?_⟩
  rw [encodeUint32_ofNat hlt, ← hb, BigEndian.ofNat_toNat]

theorem exists_encodeUint8 {b : Bytes} (hb : b.length = 1) : ∃ v, encodeUint8 v = b := by
  obtain ⟨v, rfl⟩ := List.length_eq_one_iff.mp hb
  refine ⟨v, ?_⟩
  have h := BigEndian.ofNat_toNat [v]
  simpa [encodeUint8, BigEndian.toNat] using h

theorem deserialize_header_total {b : Bytes} (hb : b.length = 9) :
    ∃ id type dataSize,
      BinaryDeserializer.deserialize b MessageTransport.readHeader = .ok (id, type, dataSize) := by
  obtain ⟨id, hid⟩ := @exists_encodeUint32 (b.take 4) (by simp; omega)
  obtain ⟨type, htype⟩ := @exists_encodeUint8 ((b.drop 4).take 1) (by simp; omega)
  obtain ⟨dataSize, hsize⟩ := @exists_encodeUint32 ((b.drop 4).drop 1) (by simp; omega)
  have hsplit : b = encodeUint32 id ++ (encodeUint8 type ++ encodeUint32 dataSize) ++ [] := by
    rw [hid, htype, hsize, List.take_append_drop, List.take_append_drop, List.append_nil]
  have hok : (BinaryDeserializer.new b).Ok := BinaryDeserializer.ok_new (by rw [hb]; decide)
  obtain ⟨d, hread, -⟩ :=
    @MessageTransport.exactRead_header.complete _ (id, type, dataSize) _ hok hsplit
  refine ⟨id, type, dataSize, ?_⟩
  rw [BinaryDeserializer.deserialize, hread]
  rfl

theorem deserialize_body_total {b : Bytes} {dataSize : UInt32} (hb : b.length = dataSize.toNat) :
    BinaryDeserializer.deserialize b (BinaryDeserializer.deserializeByteVectorOf dataSize) =
      .ok b := by
  have hsize : dataSize = UInt32.ofNat b.length := by
    rw [hb, UInt32.ofNat_toNat]
  have hlt : b.length < 2 ^ 32 := by
    rw [hb]
    exact dataSize.toNat_lt
  rw [hsize]
  exact MessageTransport.deserialize_body hlt

/-- What `read` comes to after some bytes: another `poll`, or a message. -/
inductive Reading (s : State n) : State n → Prop where
  | polls (stage : ReadStage) (buffer : Bytes) :
      Reading s { s with reader := .polling stage buffer }
  | receives (m : Message) (hm : m.data.length < 2 ^ 32) :
      Reading s { s with reader := .received ⟨s.reads.length, m⟩, reads := s.reads ++ [m] }

theorem readBody_reading (s : State n) (id : UInt32) (type : UInt8) {dataSize : UInt32}
    {buffer : Bytes} (hle : buffer.length ≤ dataSize.toNat) :
    Reading s (s.readBody id type dataSize buffer) := by
  unfold State.readBody
  by_cases hlt : buffer.length < dataSize.toNat
  · rw [if_pos hlt]
    exact .polls _ _
  · have hlen : buffer.length = dataSize.toNat := by omega
    rw [if_neg hlt, deserialize_body_total hlen]
    refine .receives ⟨id, type, buffer⟩ ?_
    show buffer.length < 2 ^ 32
    rw [hlen]
    exact dataSize.toNat_lt

theorem readOn_reading (s : State n) {stage : ReadStage} {buffer : Bytes}
    (hle : buffer.length ≤ stage.count) : Reading s (s.readOn stage buffer) := by
  cases stage with
  | body id type dataSize => exact readBody_reading s id type hle
  | header =>
      unfold State.readOn
      by_cases hlt : buffer.length < ReadStage.header.count
      · simp only [if_pos hlt]
        exact .polls _ _
      · have hlen : buffer.length = 9 := Nat.le_antisymm hle (Nat.le_of_not_lt hlt)
        obtain ⟨id, type, dataSize, hheader⟩ := deserialize_header_total hlen
        simp only [if_neg hlt, hheader]
        exact readBody_reading s id type (Nat.zero_le _)

/-! ## The steps, one case each -/

/-- The steps of a call of `close()`. -/
inductive Closing (s : State n) (c : Nat) : State n → Prop where
  | starts (hpc : s.closer c = .idle) : Closing s c (s.setCloser c .storing)
  | stores (hpc : s.closer c = .storing) : Closing s c (s.stop.setCloser c .notifying)
  | notifies (hpc : s.closer c = .notifying) : Closing s c (s.notifyStop.setCloser c .piping)
  | pipes (hpc : s.closer c = .piping) :
      Closing s c ({ s with pipe := s.pipe + 1 }.setCloser c .testing)
  | finds (hpc : s.closer c = .testing) (hsocket : s.socket ≠ .cleared) :
      Closing s c (s.setCloser c .shutting)
  | skips (hpc : s.closer c = .testing) (hsocket : s.socket = .cleared) :
      Closing s c (s.setCloser c .queueTesting)
  | shuts (socket : Connection) (hpc : s.closer c = .shutting) (hsocket : socket ≠ .connected) :
      Closing s c ({ s with socket := socket }.setCloser c .closing)
  | releases (socket : Connection) (hpc : s.closer c = .closing) (hsocket : socket ≠ .connected) :
      Closing s c ({ s with socket := socket }.setCloser c .clearing)
  | clears (hpc : s.closer c = .clearing) :
      Closing s c ({ s with socket := .cleared }.setCloser c .queueTesting)
  | returnsEarly (hpc : s.closer c = .queueTesting) (hshut : s.queueShutdown = true) :
      Closing s c (s.setCloser c .returned)
  | goesOn (hpc : s.closer c = .queueTesting) (hopen : s.queueShutdown = false) :
      Closing s c (s.setCloser c .queueFlagging)
  | flags (hpc : s.closer c = .queueFlagging) :
      Closing s c ({ s with queueShutdown := true }.setCloser c .queueLocking)
  | locks (hpc : s.closer c = .queueLocking) (hmx : s.queueMx = none) :
      Closing s c ({ s with queueMx := some (.closer c) }.setCloser c .queueNotifying)
  | returns (hpc : s.closer c = .queueNotifying) :
      Closing s c ({ s.notifyQueue with queueMx := none }.setCloser c .returned)

/-- Everything a step can be, with what it requires and what it changes. -/
inductive Step (dirsToOverride : DirsToOverride) (s : State n) : Action n → State n → Prop where
  | readerLeaves (hr : s.reader = .testing) (hstop : s.world.shouldStop = true) :
      Step dirsToOverride s .reader { s with reader := .left }
  | reads (a : Action n) (s' : State n) (hread : Reading s s')
      (ha : (a = .reader ∧ s.reader = .testing ∧ s.world.shouldStop = false) ∨
        ∃ piece stage buffer, a = .recv (some piece) ∧ piece ≠ [] ∧
          s.reader = .receiving stage buffer) :
      Step dirsToOverride s a s'
  | readFails (a : Action n) (e : Fault)
      (ha : (∃ stage buffer, s.reader = .polling stage buffer ∧ a = .poll .failed) ∨
        ∃ stage buffer, s.reader = .receiving stage buffer ∧
          (a = .recv none ∨ a = .recv (some []))) :
      Step dirsToOverride s a { s with reader := .catching e }
  | cancelled (stage : ReadStage) (buffer : Bytes) (e : Fault)
      (hr : s.reader = .polling stage buffer) (hpipe : 0 < s.pipe) :
      Step dirsToOverride s (.poll .pipeReadable)
        { s with pipe := s.pipe - 64, reader := .catching e }
  | ready (stage : ReadStage) (buffer : Bytes) (hr : s.reader = .polling stage buffer)
      (hpipe : s.pipe = 0) :
      Step dirsToOverride s (.poll .socketReadable) { s with reader := .receiving stage buffer }
  | pushLocks (c : Command) (hr : s.reader = .received c) (hmx : s.queueMx = none) :
      Step dirsToOverride s .reader { s with queueMx := some .reader, reader := .pushing c }
  | pushes (c : Command) (hr : s.reader = .pushing c) :
      Step dirsToOverride s .reader { s with queue := s.queue ++ [c], reader := .notifying }
  | notifiesOne (i : Fin n) (hr : s.reader = .notifying) (hi : s.handler i = .sleeping) :
      Step dirsToOverride s (.notifyOne (some i))
        ({ s with queueMx := none, reader := .testing }.setHandler i .woken)
  | notifiesNone (hr : s.reader = .notifying) (hall : ∀ i, s.handler i ≠ .sleeping) :
      Step dirsToOverride s (.notifyOne none) { s with queueMx := none, reader := .testing }
  | readerCatches (e : Fault) (hr : s.reader = .catching e) :
      Step dirsToOverride s .reader { s.stop with reader := .flagged }
  | readerNotifies (hr : s.reader = .flagged) :
      Step dirsToOverride s .reader { s.notifyStop with reader := .testing }
  | leaves (i : Fin n) (hpc : s.handler i = .testing) (hstop : s.world.shouldStop = true) :
      Step dirsToOverride s (.handler i) (s.setHandler i .left)
  | loops (i : Fin n) (hpc : s.handler i = .testing) (hstop : s.world.shouldStop = false) :
      Step dirsToOverride s (.handler i) (s.setHandler i .locking)
  | popLocks (i : Fin n) (hpc : s.handler i = .locking ∨ s.handler i = .woken)
      (hmx : s.queueMx = none) :
      Step dirsToOverride s (.handler i)
        ({ s with queueMx := some (.handler i) }.setHandler i .waiting)
  | waitReturns (i : Fin n) (hpc : s.handler i = .waiting)
      (htest : s.queue ≠ [] ∨ s.queueShutdown = true) :
      Step dirsToOverride s (.handler i) (s.setHandler i .popping)
  | waitBlocks (i : Fin n) (hpc : s.handler i = .waiting) (hempty : s.queue = [])
      (hopen : s.queueShutdown = false) :
      Step dirsToOverride s (.handler i) (s.setHandler i .blocking)
  | sleeps (i : Fin n) (hpc : s.handler i = .blocking) :
      Step dirsToOverride s (.handler i) ({ s with queueMx := none }.setHandler i .sleeping)
  | popThrows (i : Fin n) (e : Fault) (hpc : s.handler i = .popping)
      (hshut : s.queueShutdown = true) :
      Step dirsToOverride s (.handler i) ({ s with queueMx := none }.setHandler i (.catching e))
  | pops (i : Fin n) (c : Command) (rest : List Command) (hpc : s.handler i = .popping)
      (hopen : s.queueShutdown = false) (hq : s.queue = c :: rest) :
      Step dirsToOverride s (.handler i)
        ({ s with queueMx := none, queue := rest }.setHandler i
          (.running c [] (doCommand dirsToOverride c.item)))
  | performs (i : Fin n) (e : Event WorkerOp WorkerOp.Ans) (c : Command) (es : Events)
      (p q : WorkerProg Message) (world : World) (hpc : s.handler i = .running c es p)
      (hresume : p.resume e = some q) (hworld : World.step i s.world e.1 e.2 = some world)
      (hop : e.1 ≠ .setShouldStop) :
      Step dirsToOverride s (.op i e)
        ({ s with world := world }.setHandler i (.running c (es ++ [e]) q))
  | disconnects (i : Fin n) (e : Event WorkerOp WorkerOp.Ans) (c : Command) (es : Events)
      (p q : WorkerProg Message) (hpc : s.handler i = .running c es p)
      (hresume : p.resume e = some q) (hop : e.1 = .setShouldStop) :
      Step dirsToOverride s (.op i e)
        ({ s.stop with disconnects := s.disconnects ++ [c] }.setHandler i
          (.stopping c (es ++ [e]) q))
  | disconnectNotifies (i : Fin n) (c : Command) (es : Events) (p : WorkerProg Message)
      (hpc : s.handler i = .stopping c es p) :
      Step dirsToOverride s (.handler i) (s.notifyStop.setHandler i (.running c es p))
  | returns (i : Fin n) (c : Command) (es : Events) (m : Message)
      (hpc : s.handler i = .running c es (.pure m)) :
      Step dirsToOverride s (.handler i) (s.setHandler i (.answering c es m))
  | throws (i : Fin n) (c : Command) (es : Events) (e : Fault)
      (hpc : s.handler i = .running c es (.throw e)) :
      Step dirsToOverride s (.handler i) (s.setHandler i (.catching e))
  | writeLocks (i : Fin n) (c : Command) (es : Events) (m : Message)
      (hpc : s.handler i = .answering c es m) (hmx : s.writeMx = none) :
      Step dirsToOverride s (.handler i)
        ({ s with writeMx := some i }.setHandler i (.sending c es m))
  | sends (i : Fin n) (c : Command) (es : Events) (m : Message)
      (hpc : s.handler i = .sending c es m) (hconn : s.socket = .connected) :
      Step dirsToOverride s (.send i none)
        ({ s with
          writeMx := none
          answers := s.answers ++ [Answer.mk c es m] }.setHandler i .testing)
  | sendFails (i : Fin n) (c : Command) (es : Events) (m : Message) (e : Fault)
      (hpc : s.handler i = .sending c es m) :
      Step dirsToOverride s (.send i (some e))
        ({ s with writeMx := none }.setHandler i (.catching e))
  | catches (i : Fin n) (e : Fault) (hpc : s.handler i = .catching e) :
      Step dirsToOverride s (.handler i) (s.stop.setHandler i .flagged)
  | notifies (i : Fin n) (hpc : s.handler i = .flagged) :
      Step dirsToOverride s (.handler i) (s.notifyStop.setHandler i .testing)
  | wakes (i : Fin n) (hpc : s.handler i = .sleeping) :
      Step dirsToOverride s (.wakeHandler i) (s.setHandler i .woken)
  | enters (w : Nat) (hpc : s.waiter w = .idle) :
      Step dirsToOverride s (.waiter w) (s.setWaiter w .entered)
  | waitEnds (w : Nat) (hpc : s.waiter w = .entered ∨ s.waiter w = .woken)
      (hstop : s.world.shouldStop = true) :
      Step dirsToOverride s (.waiter w) (s.setWaiter w .returned)
  | waitSleeps (w : Nat) (hpc : s.waiter w = .entered ∨ s.waiter w = .woken)
      (hstop : s.world.shouldStop = false) :
      Step dirsToOverride s (.waiter w) (s.setWaiter w .sleeping)
  | waitWakes (w : Nat) (hpc : s.waiter w = .sleeping) :
      Step dirsToOverride s (.wakeWaiter w) (s.setWaiter w .woken)
  | closes (c : Nat) (s' : State n) (hclose : Closing s c s') :
      Step dirsToOverride s (.closer c) s'

section

variable {s s' : State n}

theorem stepReader_cases (h : s.stepReader = some s') : Step dirsToOverride s .reader s' := by
  unfold State.stepReader at h
  split at h
  case h_1 hr =>
    cases hstop : s.world.shouldStop with
    | true =>
        simp only [hstop, if_true, Option.some.injEq] at h
        subst h
        exact .readerLeaves hr hstop
    | false =>
        simp only [hstop, Bool.false_eq_true, if_false, Option.some.injEq] at h
        subst h
        exact .reads .reader _ (readOn_reading s (Nat.zero_le _)) (.inl ⟨rfl, hr, hstop⟩)
  case h_2 c hr =>
    split at h
    case h_1 hmx => cases h; exact .pushLocks c hr hmx
    case h_2 => cases h
  case h_3 c hr => cases h; exact .pushes c hr
  case h_4 e hr => cases h; exact .readerCatches e hr
  case h_5 hr => cases h; exact .readerNotifies hr
  case h_6 => cases h

theorem poll_cases {result : PollResult} (h : s.poll result = some s') :
    Step dirsToOverride s (.poll result) s' := by
  unfold State.poll at h
  split at h
  case h_1 stage buffer hr => cases h; exact .readFails _ _ (.inl ⟨stage, buffer, hr, rfl⟩)
  case h_2 stage buffer hr =>
    split at h
    case isTrue hpipe => cases h; exact .cancelled stage buffer _ hr hpipe
    case isFalse => cases h
  case h_3 stage buffer hr =>
    split at h
    case isTrue hpipe => cases h; exact .ready stage buffer hr hpipe
    case isFalse => cases h
  case h_4 => cases h

theorem recv_cases {result : Option Bytes} (h : s.recv result = some s') :
    Step dirsToOverride s (.recv result) s' := by
  unfold State.recv at h
  split at h
  case h_1 stage buffer hr =>
    cases h
    exact .readFails _ _ (.inr ⟨stage, buffer, hr, .inl rfl⟩)
  case h_2 stage buffer piece hr =>
    split at h
    case isTrue hnil =>
      cases h
      subst hnil
      exact .readFails _ _ (.inr ⟨stage, buffer, hr, .inr rfl⟩)
    case isFalse hne =>
      split at h
      case isTrue hle =>
        cases h
        refine .reads _ _ (readOn_reading s ?_) (.inr ⟨piece, stage, buffer, rfl, hne, hr⟩)
        rw [List.length_append]
        exact hle
      case isFalse => cases h
  case h_3 => cases h

theorem notifyOne_cases {woken : Option (Fin n)} (h : s.notifyOne woken = some s') :
    Step dirsToOverride s (.notifyOne woken) s' := by
  unfold State.notifyOne at h
  split at h
  case h_1 i hr =>
    split at h
    case h_1 hi => cases h; exact .notifiesOne i hr hi
    case h_2 => cases h
  case h_2 hr =>
    split at h
    case isTrue hall =>
      cases h
      refine .notifiesNone hr ?_
      intro i hi
      have := hall i
      rw [hi] at this
      cases this
    case isFalse => cases h
  case h_3 => cases h

theorem stepHandler_cases {i : Fin n} (h : s.stepHandler dirsToOverride i = some s') :
    Step dirsToOverride s (.handler i) s' := by
  unfold State.stepHandler at h
  split at h
  case h_1 hpc =>
    cases hstop : s.world.shouldStop with
    | true =>
        simp only [hstop, if_true, Option.some.injEq] at h
        subst h
        exact .leaves i hpc hstop
    | false =>
        simp only [hstop, Bool.false_eq_true, if_false, Option.some.injEq] at h
        subst h
        exact .loops i hpc hstop
  case h_2 hpc =>
    split at h
    case h_1 hmx => cases h; exact .popLocks i (.inl hpc) hmx
    case h_2 => cases h
  case h_3 hpc =>
    split at h
    case h_1 hmx => cases h; exact .popLocks i (.inr hpc) hmx
    case h_2 => cases h
  case h_4 hpc =>
    by_cases htest : s.queue ≠ [] ∨ s.queueShutdown = true
    · simp only [if_pos htest, Option.some.injEq] at h
      subst h
      exact .waitReturns i hpc htest
    · simp only [if_neg htest, Option.some.injEq] at h
      subst h
      rw [not_or, not_not, Bool.not_eq_true] at htest
      exact .waitBlocks i hpc htest.1 htest.2
  case h_5 hpc => cases h; exact .sleeps i hpc
  case h_6 hpc =>
    split at h
    case isTrue hshut => cases h; exact .popThrows i _ hpc hshut
    case isFalse hopen =>
      split at h
      case h_1 c rest hq => cases h; exact .pops i c rest hpc (Bool.eq_false_iff.mpr hopen) hq
      case h_2 => cases h
  case h_7 c es m hpc => cases h; exact .returns i c es m hpc
  case h_8 c es e hpc => cases h; exact .throws i c es e hpc
  case h_9 c es p hpc => cases h; exact .disconnectNotifies i c es p hpc
  case h_10 c es m hpc =>
    rw [MessageTransport.frame_eq] at h
    split at h
    case h_1 hmx => cases h; exact .writeLocks i c es m hpc hmx
    case h_2 => cases h
    case h_3 hframe => cases hframe
  case h_11 e hpc => cases h; exact .catches i e hpc
  case h_12 hpc => cases h; exact .notifies i hpc
  case h_13 => cases h

theorem op_cases {i : Fin n} {e : Event WorkerOp WorkerOp.Ans} (h : s.op i e = some s') :
    Step dirsToOverride s (.op i e) s' := by
  unfold State.op at h
  split at h
  case h_1 c es p hpc =>
    obtain ⟨q, hresume, h⟩ := Option.bind_eq_some_iff.mp h
    obtain ⟨world, hworld, h⟩ := Option.bind_eq_some_iff.mp h
    split at h
    case isTrue hop =>
      cases h
      obtain ⟨op, a⟩ := e
      cases hop
      cases hworld
      exact .disconnects i _ c es p q hpc hresume rfl
    case isFalse hop =>
      cases h
      exact .performs i e c es p q world hpc hresume hworld hop
  case h_2 => cases h

theorem send_cases {i : Fin n} {failure : Option Fault} (h : s.send i failure = some s') :
    Step dirsToOverride s (.send i failure) s' := by
  unfold State.send at h
  split at h
  case h_1 c es m hpc =>
    split at h
    case isTrue hconn => cases h; exact .sends i c es m hpc hconn
    case isFalse => cases h
  case h_2 c es m e hpc => cases h; exact .sendFails i c es m e hpc
  case h_3 => cases h

theorem stepWaiter_cases {w : Nat} (h : s.stepWaiter w = some s') :
    Step dirsToOverride s (.waiter w) s' := by
  have htest : ∀ {s'}, s.waiter w = .entered ∨ s.waiter w = .woken →
      some (s.setWaiter w (if s.world.shouldStop then .returned else .sleeping)) = some s' →
      Step dirsToOverride s (.waiter w) s' := by
    intro s' hpc h
    cases hstop : s.world.shouldStop with
    | true =>
        simp only [hstop, if_true, Option.some.injEq] at h
        subst h
        exact .waitEnds w hpc hstop
    | false =>
        simp only [hstop, Bool.false_eq_true, if_false, Option.some.injEq] at h
        subst h
        exact .waitSleeps w hpc hstop
  unfold State.stepWaiter at h
  split at h
  case h_1 hpc => cases h; exact .enters w hpc
  case h_2 hpc => exact htest (.inl hpc) h
  case h_3 hpc => exact htest (.inr hpc) h
  case h_4 => cases h

theorem stepCloser_cases {c : Nat} (h : s.stepCloser c = some s') : Closing s c s' := by
  unfold State.stepCloser at h
  split at h
  case h_1 hpc => cases h; exact .starts hpc
  case h_2 hpc => cases h; exact .stores hpc
  case h_3 hpc => cases h; exact .notifies hpc
  case h_4 hpc => cases h; exact .pipes hpc
  case h_5 hpc =>
    by_cases hsocket : s.socket = .cleared
    · simp only [if_pos hsocket, Option.some.injEq] at h
      subst h
      exact .skips hpc hsocket
    · simp only [if_neg hsocket, Option.some.injEq] at h
      subst h
      exact .finds hpc hsocket
  case h_6 hpc =>
    cases h
    refine .shuts _ hpc ?_
    by_cases hsocket : s.socket = .connected <;> simp [hsocket]
  case h_7 hpc =>
    cases h
    refine .releases _ hpc ?_
    by_cases hsocket : s.socket = .cleared <;> simp [hsocket]
  case h_8 hpc => cases h; exact .clears hpc
  case h_9 hpc =>
    cases hshut : s.queueShutdown with
    | true =>
        simp only [hshut, if_true, Option.some.injEq] at h
        subst h
        exact .returnsEarly hpc hshut
    | false =>
        simp only [hshut, Bool.false_eq_true, if_false, Option.some.injEq] at h
        subst h
        exact .goesOn hpc hshut
  case h_10 hpc => cases h; exact .flags hpc
  case h_11 hpc =>
    split at h
    case h_1 hmx => cases h; exact .locks hpc hmx
    case h_2 => cases h
  case h_12 hpc => cases h; exact .returns hpc
  case h_13 => cases h

/-- The step function read backwards. -/
theorem step_cases {a : Action n} (h : step dirsToOverride s a = some s') :
    Step dirsToOverride s a s' := by
  cases a with
  | reader => exact stepReader_cases h
  | poll result => exact poll_cases h
  | recv result => exact recv_cases h
  | notifyOne woken => exact notifyOne_cases h
  | handler i => exact stepHandler_cases h
  | op i e => exact op_cases h
  | send i failure => exact send_cases h
  | wakeHandler i =>
      simp only [step, State.wakeHandler] at h
      split at h
      case h_1 hpc => cases h; exact .wakes i hpc
      case h_2 => cases h
  | waiter w => exact stepWaiter_cases h
  | wakeWaiter w =>
      simp only [step, State.wakeWaiter] at h
      split at h
      case h_1 hpc => cases h; exact .waitWakes w hpc
      case h_2 => cases h
  | closer c => exact .closes c s' (stepCloser_cases h)

/-- Only `close()` shuts anything down. -/
theorem Step.outsideClose {a : Action n} (h : Step dirsToOverride s a s') :
    (s'.socket = s.socket ∧ s'.closer = s.closer ∧ s'.queueShutdown = s.queueShutdown) ∨
      ∃ c, a = .closer c ∧ Closing s c s' := by
  cases h
  case closes c hclose => exact .inr ⟨c, rfl, hclose⟩
  case reads ha hread => cases hread <;> exact .inl ⟨rfl, rfl, rfl⟩
  all_goals exact .inl ⟨rfl, rfl, rfl⟩

end

end Worker

end ZControl
