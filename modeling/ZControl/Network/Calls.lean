import ZControl.Network.Invariant

/-!
# The calls of the mount

What a call of the mount returns is what it returns when each of its commands is handled in one go
by the worker it has looked up; and a worker is asked by calls on paths under its own name only.
-/

namespace ZControl

open Interaction Transition Zcfs

/-! ## How an operation was carried out -/

namespace Network

variable {n : ConnId → Nat} {dirsToOverride : ConnId → DirsToOverride} {s : State n}

/-- What a worker did for a command, as the network sees it. -/
def atSiteEvents (conn : ConnId) (es : Worker.Events) : List SiteEvent :=
  es.map fun e => ⟨.worker conn e.1, e.2⟩

theorem residual_atWorker {α : Type} (conn : ConnId) {p q : WorkerProg α} {es : Worker.Events}
    (h : p.residual es = some q) :
    (atWorker conn p).residual (atSiteEvents conn es) = some (atWorker conn q) := by
  induction es generalizing p with
  | nil =>
      obtain rfl : p = q := Option.some.inj h
      rfl
  | cons e es ih =>
      obtain ⟨p', hp', hrest⟩ := Option.bind_eq_some_iff.mp h
      obtain ⟨op, a⟩ := e
      obtain ⟨k, rfl, rfl⟩ := Prog.resume_iff.mp hp'
      have hperform : atWorker conn (.perform op k) =
          .perform (SiteOp.worker conn op) fun a => atWorker conn (k a) := rfl
      rw [hperform, atSiteEvents, List.map_cons, Prog.residual_perform]
      exact ih hrest

/-- The operations that stand behind one operation of a call. A command whose answer came was
answered by its worker once; the rest is what the worker did for it. -/
def Evidence (s : State n) (e : ZcfsEvent) (fs : List SiteEvent) : Prop :=
  match e with
  | ⟨.getCommander client, conn⟩ => fs = [⟨.getCommander client, conn⟩]
  | ⟨.getClients, clients⟩       => fs = [⟨.getClients, clients⟩]
  | ⟨.filler name st, full⟩      => fs = [⟨.filler name st, full⟩]
  | ⟨.commander conn .nextCommandId, id⟩ => fs = [⟨.nextCommandId conn, id⟩]
  | ⟨.commander conn (.sendCommand _), .error e⟩ => fs = [⟨.transport conn, some e⟩]
  | ⟨.commander conn (.sendCommand msg), .ok m⟩ =>
      ∃ x ∈ (s.conns conn).worker.answers, x.command.item = msg ∧ x.response = m ∧
        (∀ y ∈ (s.conns conn).worker.answers, y.command.item.id = msg.id → y = x) ∧
        fs = ⟨.transport conn, none⟩ :: atSiteEvents conn x.events

theorem deliver_sendCommand (conn : ConnId) (msg : Message) :
    deliver dirsToOverride (.commander conn (.sendCommand msg)) =
      .perform (.transport conn) fun
        | some e => .pure (.error e)
        | none   => atWorker conn (Worker.doCommand (dirsToOverride conn) msg) >>= fun m =>
            .pure (Commander.responseOf m) := by
  refine congrArg (Prog.perform _) (funext fun failure => ?_)
  cases failure <;> rfl

theorem Evidence.residual (hs : Inv dirsToOverride s) {t : Nat} {r : Running}
    (ht : s.calls t = some r) {e : ZcfsEvent} (he : e ∈ r.events) :
    ∃ fs, Evidence s e fs ∧ (deliver dirsToOverride e.1).residual fs = some (.pure e.2) := by
  obtain ⟨op, a⟩ := e
  cases op with
  | getCommander client => exact ⟨_, rfl, by simp [deliver, Prog.call]⟩
  | getClients => exact ⟨_, rfl, by simp [deliver, Prog.call]⟩
  | filler name st => exact ⟨_, rfl, by simp [deliver, Prog.call]⟩
  | commander conn op =>
      cases op with
      | nextCommandId => exact ⟨_, rfl, by simp [deliver, Prog.call]⟩
      | sendCommand msg =>
          rcases a with e | m
          · refine ⟨_, rfl, ?_⟩
            rw [deliver_sendCommand, Prog.residual_perform]
            rfl
          · obtain ⟨htype, x, hx, rfl, rfl⟩ := (hs.call t r ht).answered conn msg m he
            obtain ⟨S, hm, hi⟩ := hs.sound conn
            obtain ⟨finished, haccount⟩ := hm.account
            refine ⟨_, ⟨x, hx, rfl, rfl, ?_, rfl⟩, ?_⟩
            · intro y hy hid
              exact hm.answer_unique hi hy hx hid
            · have hresponse : Commander.responseOf x.response = .ok x.response := by
                rw [Commander.responseOf, if_pos htype]
              rw [deliver_sendCommand, Prog.residual_perform,
                Prog.residual_bind (residual_atWorker conn (haccount.traced.answers x hx))]
              show some (Prog.pure (Commander.responseOf x.response)) = _
              rw [hresponse]

/-! ## What a call returns -/

/-- **A call of the mount returns what its commands come to at their worker.** In every run of the
network whose steps all `Fits`, however its threads take turns and whatever fails: if a call has
returned, then its program returns the same when it is run by itself, against the answers of the
registry and, for every command, either an exception or the operations that the worker performed for
this command, which it has answered once. -/
theorem call_returns {as : List (Action n)}
    (hfits : AllSteps (step dirsToOverride) Fits (init n) as)
    (hrun : run (step dirsToOverride) (init n) as = some s) {t : Nat} {r : Running}
    (ht : s.calls t = some r) {result : r.call.Result} (hrest : r.rest = .pure result) :
    ∃ fss, List.Forall₂ (Evidence s) r.events fss ∧
      (Delivered dirsToOverride r.call.program).residual fss.flatten = some (.pure result) := by
  have hs := inv_of_run hfits hrun
  have hevents : ∀ es : List ZcfsEvent, (∀ e ∈ es, e ∈ r.events) →
      ∃ fss, List.Forall₂ (fun e fs => Evidence s e fs ∧
        (deliver dirsToOverride e.1).residual fs = some (.pure e.2)) es fss := by
    intro es
    induction es with
    | nil => exact fun _ => ⟨[], .nil⟩
    | cons e es ih =>
        intro hsub
        obtain ⟨fs, hfs⟩ := Evidence.residual hs ht (hsub e List.mem_cons_self)
        obtain ⟨fss, hfss⟩ := ih fun e' he' => hsub e' (List.mem_cons_of_mem _ he')
        exact ⟨fs :: fss, .cons hfs hfss⟩
  obtain ⟨fss, hall⟩ := hevents r.events fun _ he => he
  refine ⟨fss, hall.imp fun _ _ h => h.1, ?_⟩
  have htraced := (hs.call t r ht).traced
  rw [hrest] at htraced
  exact Prog.residual_translate (hall.imp fun _ _ h => h.2) htraced

/-- A call of `zcfs_unlink` that has returned. -/
def Running.unlinked : Running → Option (Bytes × Int32)
  | ⟨.fixed (.unlink path), .pure result, _, _⟩ => some (path, result)
  | _ => none

theorem unlinked_cases {r : Running} {path : Bytes} {result : Int32}
    (h : r.unlinked = some (path, result)) :
    ∃ sending events, r = ⟨.fixed (.unlink path), .pure result, sending, events⟩ := by
  unfold Running.unlinked at h
  split at h
  case h_1 path' result' sending events =>
    cases h
    exact ⟨sending, events, rfl⟩
  case h_2 => cases h

/-- A worker connects from 127.0.0.1, and a file of its is removed. -/
def oneCall : List (Action fun _ => 1) :=
  [.accept 0x0100007F 0, .start 0 (.fixed (.unlink (ascii "/127.0.0.1/a"))),
    .perform 0 ⟨.getCommander (ascii "127.0.0.1"), some (0 : Nat)⟩, .number 0 0 0] ++
  (Connection.oneUnlink.drop 1).map (Action.connection 0) ++ [.finish 0]

theorem oneCall_returns :
    AllSteps (step fun _ => []) Fits (init fun _ => 1) oneCall ∧
      ∃ s sending events, run (step fun _ => []) (init fun _ => 1) oneCall = some s ∧
        s.calls 0 =
          some ⟨.fixed (.unlink (ascii "/127.0.0.1/a")), .pure (0 : Int32), sending, events⟩ := by
  refine ⟨by decide +kernel, ?_⟩
  have hends : ((run (step fun _ => []) (init fun _ => 1) oneCall).bind fun s =>
      (s.calls 0).bind Running.unlinked) = some (ascii "/127.0.0.1/a", 0) := by
    decide +kernel
  obtain ⟨s, hrun, hs⟩ := Option.bind_eq_some_iff.mp hends
  obtain ⟨r, hr, hresult⟩ := Option.bind_eq_some_iff.mp hs
  obtain ⟨sending, events, rfl⟩ := unlinked_cases hresult
  exact ⟨s, sending, events, hrun, hr⟩

theorem call_returns_oneCall :
    ∃ s events fss, run (step fun _ => []) (init fun _ => 1) oneCall = some s ∧
      List.Forall₂ (Evidence s) events fss ∧
      (Delivered (fun _ => []) (Zcfs.unlink (ascii "/127.0.0.1/a"))).residual fss.flatten =
        some (.pure 0) := by
  obtain ⟨hfits, s, sending, events, hrun, ht⟩ := oneCall_returns
  obtain ⟨fss, hall, hresidual⟩ := call_returns hfits hrun ht rfl
  exact ⟨s, events, fss, hrun, hall, hresidual⟩

/-! ## Whom a worker works for -/

/-- Two calls that send one command are one. -/
theorem Inv.sends_unique (hs : Inv dirsToOverride s) {t u : Nat} {r q : Running} {conn : ConnId}
    {msg : Message} (ht : s.calls t = some r) (hu : s.calls u = some q)
    (hr : r.Sends conn msg) (hq : q.Sends conn msg) : t = u := by
  obtain ⟨-, -, c, hc, hct⟩ := (hs.call t r ht).sent conn msg hr
  obtain ⟨-, -, d, hd, hdu⟩ := (hs.call u q hu).sent conn msg hq
  obtain rfl := (hs.sound conn).command_unique hc hd rfl
  exact Option.some.inj (hct.symm.trans hdu)

/-- **Clients are kept apart.** In every run of the network whose steps all `Fits`: a call sends its
commands only to connections that were accepted from the address in its path. Every command that a
worker's handler has begun to work on is that of `disconnect()`, or it was sent by exactly one call;
and no command has been begun twice. -/
theorem isolated {as : List (Action n)}
    (hfits : AllSteps (step dirsToOverride) Fits (init n) as)
    (hrun : run (step dirsToOverride) (init n) as = some s) :
    (∀ t r conn msg, s.calls t = some r → r.Sends conn msg →
      conn < s.accepted ∧ s.origin conn = r.call.client) ∧
    ∀ conn,
      (∀ msg ∈ (s.conns conn).started.map WorkQueue.Ticket.item,
        msg.type = CommanderMessageType.disconnect.toUint8 ∨
          ∃! t, ∃ r, s.calls t = some r ∧ r.Sends conn msg) ∧
      (((s.conns conn).started.map WorkQueue.Ticket.item).map Message.id).Nodup := by
  have hs := inv_of_run hfits hrun
  refine ⟨?_, fun conn => ?_⟩
  · intro t r conn msg ht hr
    obtain ⟨hlt, horigin, -⟩ := (hs.call t r ht).sent conn msg hr
    exact ⟨hlt, horigin⟩
  · obtain ⟨S, hm, hi⟩ := hs.sound conn
    obtain ⟨finished, haccount⟩ := hm.account
    obtain ⟨pending, hwritten, -⟩ := hm.outgoing
    have hbegan : (s.conns conn).started.map WorkQueue.Ticket.item <+: (s.conns conn).written := by
      rw [haccount.started_eq, hwritten]
      exact (List.take_prefix _ _).trans (List.prefix_append _ _)
    refine ⟨?_, (hm.nodup_written hi).sublist (hbegan.sublist.map _)⟩
    intro msg hmem
    obtain ⟨c, hc, -⟩ := hi.seen.written msg (hm.seen.mem_iff.mpr (hbegan.subset hmem))
    rw [hm.threads] at hc
    rcases hs.owned conn c msg hc with htype | ⟨t, r, -, ht, hsends⟩
    · exact .inl htype
    · refine .inr ⟨t, ⟨r, ht, hsends⟩, ?_⟩
      rintro u ⟨q, hu, hq⟩
      exact hs.sends_unique hu ht hq hsends

theorem isolated_oneCall :
    ∃ s, run (step fun _ => []) (init fun _ => 1) oneCall = some s ∧
      ∀ t r msg, s.calls t = some r → r.Sends 0 msg → s.origin 0 = r.call.client := by
  obtain ⟨hfits, s, -, -, hrun, -⟩ := oneCall_returns
  exact ⟨s, hrun, fun t r msg ht hr => ((isolated hfits hrun).1 t r 0 msg ht hr).2⟩

end Network

end ZControl
