import ZControl.Worker.Replies
import ZControl.Worker.Requests

/-!
# What a response depends on

A handler thread keeps its `errno` from one command to the next, and most handlers put it into
their response whether or not a call of theirs has failed. Two runs are compared here that were
asked the same, found the same tables and got the same outcomes from the system, but started with
another `errno` and found something else in the structures they do not initialise.
-/

namespace ZControl

open Interaction BinaryDeserializer

/-! ## Two runs that agree -/

def WorkerEvent.isCall : WorkerEvent → Bool
  | ⟨.sys _, _⟩ => true
  | _ => false

/-- The system calls of a run with their outcomes. -/
def outcomes (es : List WorkerEvent) : List WorkerEvent := es.filter WorkerEvent.isCall

/-- A system call of the run has failed. -/
def AnyFails (es : List WorkerEvent) : Prop := ∃ e ∈ es, e.1.Fails e.2

section

variable {e : WorkerEvent} {es : List WorkerEvent} {call : SysCall} {r : Except Int32 call.Val}

@[simp] theorem outcomes_nil : outcomes [] = [] := rfl

@[simp] theorem outcomes_sys :
    outcomes (⟨.sys call, r⟩ :: es) = ⟨.sys call, r⟩ :: outcomes es := rfl

theorem outcomes_other (he : e.isCall = false) : outcomes (e :: es) = outcomes es := by
  rw [outcomes, List.filter_cons_of_neg (by rw [he]; exact Bool.false_ne_true)]
  rfl

theorem anyFails_cons : AnyFails (e :: es) ↔ e.1.Fails e.2 ∨ AnyFails es := by
  simp [AnyFails]

@[simp] theorem anyFails_nil : ¬ AnyFails [] := by simp [AnyFails]

end

namespace WorkerOp

/-- What the operation answers is known from the tables. -/
def OfTables : WorkerOp → Bool
  | .file _        => true
  | .dir _         => true
  | .overridden _  => true
  | .setShouldStop => true
  | _              => false

theorem not_isCall {op : WorkerOp} (hop : op.OfTables = true) (a : op.Ans) :
    WorkerEvent.isCall ⟨op, a⟩ = false := by
  cases op <;> first | rfl | cases hop

theorem not_fails {op : WorkerOp} (hop : op.OfTables = true) (a : op.Ans) :
    ¬ op.Fails a := by
  cases op <;> first | exact id | cases hop

end WorkerOp

/-- A table gives one answer to each operation. -/
theorem Table.step_unique {H : Type} [DecidableEq H] {table t₁ t₂ : Table H} {null : H}
    {op : TableOp H} {a₁ a₂ : op.Ans} (h₁ : table.step null op a₁ = some t₁)
    (h₂ : table.step null op a₂ = some t₂) : a₁ = a₂ ∧ t₁ = t₂ := by
  cases op with
  | emplace fdId fd => cases h₁; cases h₂; exact ⟨rfl, rfl⟩
  | erase fdId => cases h₁; cases h₂; exact ⟨rfl, rfl⟩
  | nextFdId =>
      simp only [Table.step, Option.ite_none_right_eq_some, Option.some.injEq] at h₁ h₂
      obtain ⟨rfl, rfl⟩ := h₁
      obtain ⟨rfl, rfl⟩ := h₂
      exact ⟨rfl, rfl⟩
  | getFd fdId =>
      simp only [Table.step, Option.ite_none_right_eq_some, Option.some.injEq] at h₁ h₂
      obtain ⟨rfl, rfl⟩ := h₁
      obtain ⟨rfl, rfl⟩ := h₂
      exact ⟨rfl, rfl⟩

namespace World

variable {w w' w₂ w₂' : World} {t t₂ : ThreadId}

/-- Two workers with the same tables give the same answers from them and change them alike. -/
theorem step_same {op : WorkerOp} (hop : op.OfTables = true) {a a₂ : op.Ans}
    (hw : SameTables w w₂) (h : w.step t op a = some w') (h₂ : w₂.step t₂ op a₂ = some w₂') :
    a = a₂ ∧ SameTables w' w₂' ∧ w'.errno t = w.errno t ∧ w₂'.errno t₂ = w₂.errno t₂ := by
  cases op with
  | sys call => cases hop
  | errno => cases hop
  | setErrno value => cases hop
  | uninitStatvfs => cases hop
  | setShouldStop =>
      cases h
      cases h₂
      exact ⟨rfl, ⟨hw.file, hw.dir, hw.overriddenFds⟩, rfl, rfl⟩
  | file op =>
      obtain ⟨file, hfile, rfl⟩ := Option.map_eq_some_iff.mp h
      obtain ⟨file₂, hfile₂, rfl⟩ := Option.map_eq_some_iff.mp h₂
      rw [← hw.file] at hfile₂
      obtain ⟨rfl, rfl⟩ := Table.step_unique hfile hfile₂
      exact ⟨rfl, ⟨rfl, hw.dir, hw.overriddenFds⟩, rfl, rfl⟩
  | dir op =>
      obtain ⟨dir, hdir, rfl⟩ := Option.map_eq_some_iff.mp h
      obtain ⟨dir₂, hdir₂, rfl⟩ := Option.map_eq_some_iff.mp h₂
      rw [← hw.dir] at hdir₂
      obtain ⟨rfl, rfl⟩ := Table.step_unique hdir hdir₂
      exact ⟨rfl, ⟨hw.file, rfl, hw.overriddenFds⟩, rfl, rfl⟩
  | overridden op =>
      cases op with
      | emplace fdId entries =>
          obtain rfl := step_emplace h
          obtain rfl := step_emplace h₂
          refine ⟨rfl, ⟨hw.file, hw.dir, ?_⟩, rfl, rfl⟩
          simp only [hw.overriddenFds]
      | find fdId =>
          obtain ⟨rfl, rfl⟩ := step_find h
          obtain ⟨rfl, rfl⟩ := step_find h₂
          exact ⟨by rw [hw.overriddenFds], hw, rfl, rfl⟩
      | erase fdId =>
          cases h
          cases h₂
          refine ⟨rfl, ⟨hw.file, hw.dir, ?_⟩, rfl, rfl⟩
          show w.overriddenFds.erase fdId = w₂.overriddenFds.erase fdId
          rw [hw.overriddenFds]

/-- Operations that do not look at `errno` go the same way whatever it is. -/
theorem step_tables_setErrno {op : WorkerOp} (hop : op.OfTables = true) {a : op.Ans}
    (h : w.step t op a = some w') (value : Int32) :
    (w.setErrno t value).step t op a = some (w'.setErrno t value) := by
  cases op with
  | sys call => cases hop
  | errno => cases hop
  | setErrno value => cases hop
  | uninitStatvfs => cases hop
  | setShouldStop => cases h; rfl
  | file op =>
      obtain ⟨file, hfile, rfl⟩ := Option.map_eq_some_iff.mp h
      exact Option.map_eq_some_iff.mpr ⟨file, hfile, rfl⟩
  | dir op =>
      obtain ⟨dir, hdir, rfl⟩ := Option.map_eq_some_iff.mp h
      exact Option.map_eq_some_iff.mpr ⟨dir, hdir, rfl⟩
  | overridden op =>
      cases op with
      | emplace fdId entries =>
          simp only [step, overriddenStep, setErrno] at h ⊢
          split at h <;> cases h <;> rfl
      | find fdId =>
          obtain ⟨rfl, rfl⟩ := step_find h
          exact if_pos rfl
      | erase fdId => cases h; rfl

theorem step_ok_setErrno {call : SysCall} {x : call.Val}
    (h : w.step t (.sys call) (.ok x) = some w') (value : Int32) :
    (w.setErrno t value).step t (.sys call) (.ok x) = some (w'.setErrno t value) := by
  have hif : w.sysStep t call (.ok x) = some w' := h
  unfold sysStep at hif
  split at hif
  case isFalse => cases hif
  case isTrue hallows =>
    cases hif
    have hafter : (w.setErrno t value).handlesAfter call (.ok x) =
        (w.handlesAfter call (.ok x)).setErrno t value := by
      cases call with
      | «open» path flags mode =>
          by_cases hnew : w.files.serial x = none ∧ x ≠ -1
          · rw [show w.handlesAfter (.open path flags mode) (.ok x) = _ from dif_pos hnew]
            exact dif_pos hnew
          · rw [show w.handlesAfter (.open path flags mode) (.ok x) = _ from dif_neg hnew]
            exact dif_neg hnew
      | opendir path =>
          by_cases hnew : w.dirs.serial (some x) = none ∧ some x ≠ none
          · rw [show w.handlesAfter (.opendir path) (.ok x) = _ from dif_pos hnew]
            exact dif_pos hnew
          · rw [show w.handlesAfter (.opendir path) (.ok x) = _ from dif_neg hnew]
            exact dif_neg hnew
      | _ => rfl
    have hallows' : (w.setErrno t value).allows call (.ok x) = true := hallows
    show (if _ then _ else _) = _
    rw [if_pos hallows', hafter]

end World

/-! ## Programs whose result the outcomes fix -/

/-- The program reads `errno` only where this request has set it, itself or through a failing
call; `known` says that it has done so before. -/
inductive Fixed {α : Type} : Bool → WorkerProg α → Prop where
  | pure {known : Bool} (a : α) : Fixed known (.pure a)
  | throw {known : Bool} (e : Fault) : Fixed known (.throw e)
  | errno {k : Int32 → WorkerProg α} (hk : ∀ v, Fixed true (k v)) :
      Fixed true (.perform .errno k)
  | setErrno {known : Bool} {value : Int32} {k : Unit → WorkerProg α}
      (hk : ∀ u, Fixed true (k u)) : Fixed known (.perform (.setErrno value) k)
  | sys {known : Bool} {call : SysCall} {k : Except Int32 call.Val → WorkerProg α}
      (hok : ∀ x, Fixed known (k (.ok x))) (herror : ∀ e, Fixed true (k (.error e))) :
      Fixed known (.perform (.sys call) k)
  | tables {known : Bool} {op : WorkerOp} {k : op.Ans → WorkerProg α}
      (hop : op.OfTables = true) (hk : ∀ a, Fixed known (k a)) : Fixed known (.perform op k)

section

variable {α β : Type} {known : Bool}

theorem Fixed.toKnown {p : WorkerProg α} (hp : Fixed known p) : Fixed true p := by
  induction hp with
  | pure a => exact .pure a
  | throw e => exact .throw e
  | errno _ ih => exact .errno ih
  | setErrno _ ih => exact .setErrno ih
  | sys _ _ ihok iherror => exact .sys ihok iherror
  | tables hop _ ih => exact .tables hop ih

theorem Fixed.bind {p : WorkerProg α} {f : α → WorkerProg β} (hp : Fixed known p)
    (hf : ∀ a, Fixed known (f a)) : Fixed known (p >>= f) := by
  induction hp with
  | pure a => exact hf a
  | throw e => exact .throw e
  | errno _ ih => exact .errno fun v => ih v hf
  | setErrno _ ih => exact .setErrno fun u => ih u fun a => (hf a).toKnown
  | sys _ _ ihok iherror =>
      exact .sys (fun x => ihok x hf) fun e => iherror e fun a => (hf a).toKnown
  | tables hop _ ih => exact .tables hop fun a => ih a hf

theorem fixed_lift (r : Except Fault α) : Fixed known (Prog.lift r : WorkerProg α) := by
  cases r with
  | ok a => exact .pure a
  | error e => exact .throw e

/-- Such a program returns the same in both runs, if they agree. -/
theorem Fixed.same {p : WorkerProg α} (hp : Fixed known p) {t t₂ : ThreadId}
    {w w' w₂ w₂' : World} {es es₂ : List WorkerEvent} {r r₂ : Except Fault α}
    (hw : SameTables w w₂) (herrno : known = true → w.errno t = w₂.errno t₂)
    (hes : outcomes es = outcomes es₂) (h : exec (World.step t) w p es = some (r, w'))
    (h₂ : exec (World.step t₂) w₂ p es₂ = some (r₂, w₂')) : r₂ = r := by
  induction hp generalizing w w₂ es es₂ with
  | pure a =>
      obtain ⟨-, heq⟩ := exec_pure_iff.mp h
      obtain ⟨-, heq₂⟩ := exec_pure_iff.mp h₂
      cases heq
      cases heq₂
      rfl
  | throw e =>
      obtain ⟨-, heq⟩ := exec_throw_iff.mp h
      obtain ⟨-, heq₂⟩ := exec_throw_iff.mp h₂
      cases heq
      cases heq₂
      rfl
  | errno _ ih =>
      obtain ⟨v, es', s, rfl, hstep, hrest⟩ := exec_perform_iff.mp h
      obtain ⟨v₂, es₂', s₂, rfl, hstep₂, hrest₂⟩ := exec_perform_iff.mp h₂
      obtain ⟨rfl, rfl⟩ := World.step_errno_iff.mp hstep
      obtain ⟨rfl, rfl⟩ := World.step_errno_iff.mp hstep₂
      rw [outcomes_other rfl, outcomes_other rfl] at hes
      rw [← herrno rfl] at hrest₂
      exact ih _ hw herrno hes hrest hrest₂
  | @setErrno _ value k _ ih =>
      obtain ⟨v, es', s, rfl, hstep, hrest⟩ := exec_perform_iff.mp h
      obtain ⟨v₂, es₂', s₂, rfl, hstep₂, hrest₂⟩ := exec_perform_iff.mp h₂
      cases hstep
      cases hstep₂
      rw [outcomes_other rfl, outcomes_other rfl] at hes
      have hset : SameTables (w.setErrno t value) (w₂.setErrno t₂ value) :=
        ⟨hw.file, hw.dir, hw.overriddenFds⟩
      refine ih _ hset (fun _ => ?_) hes hrest hrest₂
      rw [World.setErrno_errno, World.setErrno_errno]
  | sys _ _ ihok iherror =>
      obtain ⟨a, es', s, rfl, hstep, hrest⟩ := exec_perform_iff.mp h
      obtain ⟨a₂, es₂', s₂, rfl, hstep₂, hrest₂⟩ := exec_perform_iff.mp h₂
      rw [outcomes_sys, outcomes_sys] at hes
      obtain ⟨heq, hes'⟩ := List.cons.inj hes
      cases heq
      obtain ⟨hs, hsErrno⟩ := World.step_call hstep
      obtain ⟨hs₂, hsErrno₂⟩ := World.step_call hstep₂
      have htables : SameTables s s₂ :=
        ⟨hs.file.symm.trans (hw.file.trans hs₂.file), hs.dir.symm.trans (hw.dir.trans hs₂.dir),
          hs.overriddenFds.symm.trans (hw.overriddenFds.trans hs₂.overriddenFds)⟩
      cases a with
      | ok x =>
          refine ihok x htables (fun hknown => ?_) hes' hrest hrest₂
          exact hsErrno.trans ((herrno hknown).trans hsErrno₂.symm)
      | error e =>
          exact iherror e htables (fun _ => hsErrno.trans hsErrno₂.symm) hes' hrest hrest₂
  | tables hop _ ih =>
      obtain ⟨a, es', s, rfl, hstep, hrest⟩ := exec_perform_iff.mp h
      obtain ⟨a₂, es₂', s₂, rfl, hstep₂, hrest₂⟩ := exec_perform_iff.mp h₂
      obtain ⟨rfl, hs, hsErrno, hsErrno₂⟩ := World.step_same hop hw hstep hstep₂
      rw [outcomes_other (WorkerOp.not_isCall hop a),
        outcomes_other (WorkerOp.not_isCall hop a)] at hes
      refine ih a hs (fun hknown => ?_) hes hrest hrest₂
      rw [hsErrno, hsErrno₂, herrno hknown]

end

/-! ## Results that depend on the outcomes only -/

/-- Every run of `p` that finds the same tables and gets the same outcomes from the system ends
with the same result. -/
def SameResult {α : Type} (p : WorkerProg α) (w : World) (es : List WorkerEvent)
    (r : Except Fault α) : Prop :=
  ∀ t₂ w₂ es₂ r₂ w₂', SameTables w w₂ → outcomes es = outcomes es₂ →
    exec (World.step t₂) w₂ p es₂ = some (r₂, w₂') → r₂ = r

/-- With `v` left over in `errno`, and everything else as it was, `p` ends with another result. -/
def Differs {α : Type} (v : Int32) (p : WorkerProg α) (t : ThreadId) (w : World)
    (es : List WorkerEvent) (r : Except Fault α) : Prop :=
  ∃ es₂ r₂ w₂', outcomes es = outcomes es₂ ∧
    exec (World.step t) (w.setErrno t v) p es₂ = some (r₂, w₂') ∧ r₂ ≠ r

section

variable {α : Type} {p : WorkerProg α} {t : ThreadId} {w w' : World} {es : List WorkerEvent}
  {r : Except Fault α} {v : Int32}

theorem Differs.not_sameResult (h : Differs v p t w es r) : ¬ SameResult p w es r := by
  obtain ⟨es₂, r₂, w₂', hes, hrun, hne⟩ := h
  intro hall
  exact hne (hall t (w.setErrno t v) es₂ r₂ w₂' ⟨rfl, rfl, rfl⟩ hes hrun)

theorem Fixed.sameResult (hp : Fixed false p) (h : exec (World.step t) w p es = some (r, w')) :
    SameResult p w es r :=
  fun _ _ _ _ _ hw hes h₂ => hp.same hw (fun hknown => nomatch hknown) hes h h₂

variable {op : WorkerOp} {k : op.Ans → WorkerProg α} {a : op.Ans} {s : World}

/-- An answer from the tables is the same in every run. -/
theorem SameResult.tables (hop : op.OfTables = true) (hstep : w.step t op a = some s)
    (h : SameResult (k a) s es r) : SameResult (.perform op k) w (⟨op, a⟩ :: es) r := by
  intro t₂ w₂ es₂ r₂ w₂' hw hes h₂
  obtain ⟨a₂, es₂', s₂, rfl, hstep₂, hrest₂⟩ := exec_perform_iff.mp h₂
  obtain ⟨rfl, hs, -, -⟩ := World.step_same hop hw hstep hstep₂
  rw [outcomes_other (WorkerOp.not_isCall hop a), outcomes_other (WorkerOp.not_isCall hop a)] at hes
  exact h t₂ s₂ es₂' r₂ w₂' hs hes hrest₂

theorem Differs.tables (hop : op.OfTables = true) (hstep : w.step t op a = some s)
    (h : Differs v (k a) t s es r) : Differs v (.perform op k) t w (⟨op, a⟩ :: es) r := by
  obtain ⟨es₂, r₂, w₂', hes, hrun, hne⟩ := h
  refine ⟨⟨op, a⟩ :: es₂, r₂, w₂', ?_, ?_, hne⟩
  · rw [outcomes_other (WorkerOp.not_isCall hop a), outcomes_other (WorkerOp.not_isCall hop a)]
    exact hes
  · exact exec_perform_iff.mpr
      ⟨a, es₂, s.setErrno t v, rfl, World.step_tables_setErrno hop hstep v, hrun⟩

end

/-! ## Programs that report `errno` -/

/-- The last thing the program does before it returns is to read `errno`, which shows in what it
returns; nothing else in it looks at `errno` or sets it. -/
inductive Reports : WorkerProg Message → Prop where
  | last {f : Int32 → Message} (hf : Function.Injective f) :
      Reports (.perform .errno fun v => .pure (f v))
  | sys {call : SysCall} {k : Except Int32 call.Val → WorkerProg Message}
      (hk : ∀ r, Reports (k r)) : Reports (.perform (.sys call) k)
  | tables {op : WorkerOp} {k : op.Ans → WorkerProg Message} (hop : op.OfTables = true)
      (hk : ∀ a, Reports (k a)) : Reports (.perform op k)

theorem Reports.fixed {p : WorkerProg Message} (hp : Reports p) : Fixed true p := by
  induction hp with
  | last _ => exact .errno fun v => .pure _
  | sys _ ih => exact .sys (fun x => ih (.ok x)) fun e => ih (.error e)
  | tables hop _ ih => exact .tables hop ih

section

variable {p : WorkerProg Message} {t t₂ : ThreadId} {w w' w₂ w₂' : World}
  {es es₂ : List WorkerEvent} {r r₂ : Except Fault Message}

/-- A call that fails fixes what is reported. -/
theorem Reports.same (hp : Reports p) (hfails : AnyFails es) (hw : SameTables w w₂)
    (hes : outcomes es = outcomes es₂) (h : exec (World.step t) w p es = some (r, w'))
    (h₂ : exec (World.step t₂) w₂ p es₂ = some (r₂, w₂')) : r₂ = r := by
  induction hp generalizing w w₂ es es₂ with
  | last hf =>
      -- there is no call left that could fail
      obtain ⟨v, es', s, rfl, hstep, hrest⟩ := exec_perform_iff.mp h
      obtain ⟨rfl, -⟩ := exec_pure_iff.mp hrest
      rcases anyFails_cons.mp hfails with hfails | hfails
      · exact absurd hfails id
      · exact absurd hfails anyFails_nil
  | sys hk ih =>
      obtain ⟨a, es', s, rfl, hstep, hrest⟩ := exec_perform_iff.mp h
      obtain ⟨a₂, es₂', s₂, rfl, hstep₂, hrest₂⟩ := exec_perform_iff.mp h₂
      rw [outcomes_sys, outcomes_sys] at hes
      obtain ⟨heq, hes'⟩ := List.cons.inj hes
      cases heq
      obtain ⟨hs, hsErrno⟩ := World.step_call hstep
      obtain ⟨hs₂, hsErrno₂⟩ := World.step_call hstep₂
      have htables : SameTables s s₂ :=
        ⟨hs.file.symm.trans (hw.file.trans hs₂.file), hs.dir.symm.trans (hw.dir.trans hs₂.dir),
          hs.overriddenFds.symm.trans (hw.overriddenFds.trans hs₂.overriddenFds)⟩
      cases a with
      | ok x =>
          rcases anyFails_cons.mp hfails with ⟨e, he⟩ | hfails
          · cases he
          · exact ih _ hfails htables hes' hrest hrest₂
      | error e =>
          exact (hk (.error e)).fixed.same htables (fun _ => hsErrno.trans hsErrno₂.symm) hes'
            hrest hrest₂
  | tables hop _ ih =>
      obtain ⟨a, es', s, rfl, hstep, hrest⟩ := exec_perform_iff.mp h
      obtain ⟨a₂, es₂', s₂, rfl, hstep₂, hrest₂⟩ := exec_perform_iff.mp h₂
      obtain ⟨rfl, hs, -, -⟩ := World.step_same hop hw hstep hstep₂
      rw [outcomes_other (WorkerOp.not_isCall hop a),
        outcomes_other (WorkerOp.not_isCall hop a)] at hes
      rcases anyFails_cons.mp hfails with hfails | hfails
      · exact absurd hfails (WorkerOp.not_fails hop a)
      · exact ih a hfails hs hes hrest hrest₂

/-- Where no call fails, another `errno` left over from before is reported as well. -/
theorem Reports.differs (hp : Reports p) (hfails : ¬ AnyFails es)
    (h : exec (World.step t) w p es = some (r, w')) {v : Int32} (hv : v ≠ w.errno t) :
    Differs v p t w es r := by
  induction hp generalizing w es with
  | @last f hf =>
      obtain ⟨a, es', s, rfl, hstep, hrest⟩ := exec_perform_iff.mp h
      obtain ⟨rfl, hs⟩ := World.step_errno_iff.mp hstep
      obtain ⟨rfl, heq⟩ := exec_pure_iff.mp hrest
      cases heq
      have hread : (w.setErrno t v).step t .errno v = some (w.setErrno t v) :=
        if_pos (World.setErrno_errno v).symm
      refine ⟨[⟨.errno, v⟩], .ok (f v), w.setErrno t v, rfl, ?_, ?_⟩
      · exact exec_perform_iff.mpr ⟨v, [], w.setErrno t v, rfl, hread, exec_pure_iff.mpr ⟨rfl, rfl⟩⟩
      · intro heq
        exact hv (hf (Except.ok.inj heq))
  | @sys call k _ ih =>
      obtain ⟨a, es', s, rfl, hstep, hrest⟩ := exec_perform_iff.mp h
      cases a with
      | error e =>
          have hthis : (WorkerOp.sys call).Fails (.error e) := ⟨e, rfl⟩
          exact absurd (anyFails_cons.mpr (.inl hthis)) hfails
      | ok x =>
          have hfails' : ¬ AnyFails es' := fun hany => hfails (anyFails_cons.mpr (.inr hany))
          have hv' : v ≠ s.errno t := by rw [(World.step_call hstep).2]; exact hv
          obtain ⟨es₂, r₂, w₂', hes, hrun, hne⟩ := ih _ hfails' hrest hv'
          refine ⟨⟨.sys call, .ok x⟩ :: es₂, r₂, w₂', ?_, ?_, hne⟩
          · rw [outcomes_sys, outcomes_sys, hes]
          · exact exec_perform_iff.mpr
              ⟨.ok x, es₂, s.setErrno t v, rfl, World.step_ok_setErrno hstep v, hrun⟩
  | tables hop _ ih =>
      obtain ⟨a, es', s, rfl, hstep, hrest⟩ := exec_perform_iff.mp h
      have hfails' : ¬ AnyFails es' := fun hany => hfails (anyFails_cons.mpr (.inr hany))
      have herrno : s.errno t = w.errno t :=
        (World.step_same hop ⟨rfl, rfl, rfl⟩ hstep hstep).2.2.1
      exact (ih a hfails' hrest (herrno ▸ hv)).tables hop hstep

/-- What reports `errno` depends on nothing else exactly if a call has failed. -/
theorem Reports.sameResult_iff (hp : Reports p)
    (h : exec (World.step t) w p es = some (r, w')) : SameResult p w es r ↔ AnyFails es := by
  constructor
  · intro hall
    by_contra hfails
    -- some number is not the one left in `errno`
    have hv : w.errno t + 1 ≠ w.errno t := by simp
    exact (hp.differs hfails h hv).not_sameResult hall
  · intro hfails t₂ w₂ es₂ r₂ w₂' hw hes h₂
    exact hp.same hfails hw hes h h₂

end

/-! ## The replies -/

section

variable {message : Message}

theorem encodeInt32_injective : Function.Injective encodeInt32 := by
  intro v v' h
  have hread : ∀ v : Int32, deserialize (encodingOf [.int32 v]) (readFields [.int32]) =
      .ok (v, ()) := fun v => deserialize_encodingOf [.int32 v] (by simp)
  have hsame : encodingOf [.int32 v] = encodingOf [.int32 v'] := congrArg (· ++ []) h
  have hvalues := (hread v).symm.trans ((congrArg (deserialize · _) hsame).trans (hread v'))
  exact congrArg Prod.fst (Except.ok.inj hvalues)

/-- The error number of a reply shows in its bytes. -/
theorem reply_injective (first : Field) (rest : List Field) :
    Function.Injective fun errno => reply message (first :: .int32 errno :: rest) := by
  intro v v' h
  have hdata : first.encoded ++ (encodeInt32 v ++ encodingOf rest) =
      first.encoded ++ (encodeInt32 v' ++ encodingOf rest) := congrArg Message.data h
  have htail := List.append_cancel_left hdata
  exact encodeInt32_injective (List.append_cancel_right htail)

theorem reports_errno {first : Field} {rest : List Field} {k : Int32 → WorkerProg Message}
    (hk : ∀ errno, k errno = .pure (reply message (first :: .int32 errno :: rest))) :
    Reports (.perform .errno k) := by
  obtain rfl : k = fun errno => .pure (reply message (first :: .int32 errno :: rest)) :=
    funext hk
  exact .last (reply_injective first rest)

theorem reports_statusReply {α : Type} (r : Except Int32 α) : Reports (statusReply message r) :=
  reports_errno fun errno => commandResult_status message r errno

theorem reports_status (call : SysCall) :
    Reports (sys call >>= fun r => statusReply message r) :=
  .sys fun r => reports_statusReply r

/-! ## The handlers, once their arguments are decoded -/

namespace FileCommandsHandler

theorem getattr_reports {args : Values [.str]} (hargs : arguments message [.str] = .pure args) :
    Reports (getattr message) := by
  have hok : ∀ info errno, commandResult message (.uint8 1 :: .int32 errno :: statFields info) =
      .pure (reply message (.uint8 1 :: .int32 errno :: statFields info)) :=
    fun info errno => commandResult_eq message (by simp [statFields])
  have herror : ∀ errno, commandResult message [.uint8 0, .int32 errno] =
      .pure (reply message [.uint8 0, .int32 errno]) :=
    fun errno => commandResult_eq message (by simp)
  simp only [getattr, hargs, Prog.pure_bind, Prog.call_bind]
  refine .sys fun r => ?_
  cases r with
  | ok info => exact reports_errno (hok info)
  | error e => exact reports_errno herror

theorem open_reports {args : Values [.str, .int32, .int32]}
    (hargs : arguments message [.str, .int32, .int32] = .pure args) :
    Reports («open» message) := by
  simp only [«open», hargs, Prog.pure_bind, Prog.call_bind]
  refine .sys fun r => ?_
  cases r with
  | ok fd =>
      simp only [Prog.pure_eq, Prog.pure_bind]
      refine .tables rfl fun fdId => .tables rfl fun _ => ?_
      exact reports_errno (commandResult_value message fdId)
  | error e =>
      simp only [Prog.pure_eq, Prog.pure_bind]
      exact reports_errno (commandResult_value message (-1))

theorem close_reports {args : Values [.int32]} (hargs : arguments message [.int32] = .pure args) :
    Reports (close message) := by
  simp only [close, getFd, hargs, Prog.pure_bind, Prog.call_bind]
  refine .tables rfl fun fd => .sys fun r => .tables rfl fun _ => ?_
  exact reports_statusReply r

theorem reports_writeReply (r : Except Int32 Int64) : Reports (writeReply message r) := by
  simp only [writeReply, Prog.call_bind]
  exact reports_errno (commandResult_value message (writeValue r))

theorem write_reports {args : Values [.int32, .byteVector]}
    (hargs : arguments message [.int32, .byteVector] = .pure args) : Reports (write message) := by
  simp only [write, getFd, hargs, Prog.pure_bind, Prog.call_bind]
  refine .tables rfl fun fd => .sys fun r => ?_
  exact reports_writeReply r

theorem pwrite_reports {args : Values [.int32, .int64, .byteVector]}
    (hargs : arguments message [.int32, .int64, .byteVector] = .pure args) :
    Reports (pwrite message) := by
  simp only [pwrite, getFd, hargs, Prog.pure_bind, Prog.call_bind]
  refine .tables rfl fun fd => .sys fun r => ?_
  exact reports_writeReply r

/-- Both flags that are not left to `::rename` set `errno` before it is read. -/
theorem rename_fixed {args : Values [.str, .str, .uint8]}
    (hargs : arguments message [.str, .str, .uint8] = .pure args)
    (hflags : args.2.2.1 &&& renameNoreplace ≠ 0 ∨ args.2.2.1 &&& renameExchange ≠ 0) :
    Fixed false (rename message) := by
  have hstatus : ∀ {α : Type} (r : Except Int32 α), Fixed true (statusReply message r) :=
    fun r => (reports_statusReply r).fixed
  rw [rename, hargs, Prog.pure_bind]
  by_cases hexchange : args.2.2.1 &&& renameExchange = 0
  · have hnoreplace : args.2.2.1 &&& renameNoreplace ≠ 0 :=
      hflags.resolve_right fun hne => hne hexchange
    simp only [hnoreplace, hexchange, ne_eq, not_true_eq_false, not_false_eq_true, if_true,
      if_false, Prog.call_bind]
    apply Fixed.sys
    · intro info
      exact .setErrno fun _ => hstatus _
    · intro e
      exact (reports_status (.rename _ _)).fixed
  · simp only [hexchange, ne_eq, not_false_eq_true, if_true, Prog.call_bind]
    have hrefuse : ∀ known : Bool, Fixed known
        (Prog.perform (.setErrno EINVAL) fun _ =>
          statusReply message (.error EINVAL : Except Int32 Unit)) :=
      fun known => .setErrno fun _ => hstatus _
    by_cases hnoreplace : args.2.2.1 &&& renameNoreplace = 0
    · simp only [hnoreplace, not_true_eq_false, if_false, Prog.pure_eq, Prog.pure_bind]
      exact hrefuse false
    · simp only [hnoreplace, not_false_eq_true, if_true]
      apply Fixed.sys
      · intro info
        exact .setErrno fun _ => hrefuse true
      · intro e
        exact hrefuse true

theorem rename_reports {args : Values [.str, .str, .uint8]}
    (hargs : arguments message [.str, .str, .uint8] = .pure args)
    (hnoreplace : args.2.2.1 &&& renameNoreplace = 0)
    (hexchange : args.2.2.1 &&& renameExchange = 0) : Reports (rename message) := by
  rw [rename, hargs, Prog.pure_bind]
  simp only [hnoreplace, hexchange, ne_eq, not_true_eq_false, if_false, Prog.pure_eq,
    Prog.pure_bind]
  exact reports_status _

end FileCommandsHandler

namespace DirCommandsHandler

theorem opendir_fixed {dirsToOverride : DirsToOverride} {args : Values [.str]}
    (hargs : arguments message [.str] = .pure args)
    (hover : (dirsToOverride.lookup args.1).isSome = true) :
    Fixed false (opendir dirsToOverride message) := by
  obtain ⟨entries, hentries⟩ := Option.isSome_iff_exists.mp hover
  rw [opendir, hargs, Prog.pure_bind]
  simp only [hentries, Prog.call_bind]
  refine .tables rfl fun fdId => .tables rfl fun _ => ?_
  exact fixed_lift _

theorem opendir_reports {dirsToOverride : DirsToOverride} {args : Values [.str]}
    (hargs : arguments message [.str] = .pure args)
    (hover : dirsToOverride.lookup args.1 = none) :
    Reports (opendir dirsToOverride message) := by
  rw [opendir, hargs, Prog.pure_bind]
  simp only [hover, Prog.call_bind]
  apply Reports.sys
  intro r
  cases r with
  | ok fd =>
      refine .tables rfl fun fdId => .tables rfl fun _ => ?_
      exact reports_errno fun errno => commandResult_value message fdId errno
  | error e => exact reports_errno fun errno => commandResult_value message (-1) errno

/-- With an entry to read, the loop sets `errno` first. -/
theorem fixed_readdirLoop (fd : DirPtr) : ∀ (n : Nat) (s : BinarySerializer),
    Fixed true (readdirLoop fd n s)
  | 0, s => .pure s
  | n + 1, s => by
      refine .setErrno fun _ => .sys (fun entry => ?_) fun e => .pure s
      cases entry with
      | none => exact .pure s
      | some dir => exact (fixed_lift _).bind fun s' => fixed_readdirLoop fd n s'

theorem fixed_readdirLoop_bind (fd : DirPtr) {n : Nat} (hn : n ≠ 0) (s : BinarySerializer)
    {f : BinarySerializer → WorkerProg Message} (hf : ∀ s, Fixed true (f s)) :
    Fixed false (readdirLoop fd n s >>= f) := by
  have hall : Fixed true (readdirLoop fd n s >>= f) := (fixed_readdirLoop fd n s).bind hf
  cases n with
  | zero => exact absurd rfl hn
  | succ n =>
      cases hall with
      | setErrno hk => exact .setErrno hk
      | tables hop _ => cases hop

theorem readdir_fixed {args : Values [.int32, .uint32]}
    (hargs : arguments message [.int32, .uint32] = .pure args) (hentries : args.2.1 ≠ 0) :
    Fixed false (readdir message) := by
  have hn : args.2.1.toNat ≠ 0 := fun h => hentries (UInt32.toNat_inj.mp h)
  simp only [readdir, getFd, hargs, Prog.pure_bind, Prog.call_bind]
  refine .tables rfl fun overridden => ?_
  cases overridden with
  | some entries => exact (fixed_lift _).bind fun s => fixed_lift _
  | none =>
      refine .tables rfl fun fd => ?_
      cases fd with
      | none => exact fixed_lift _
      | some fd =>
          exact fixed_readdirLoop_bind _ hn _ fun s => .errno fun v => fixed_lift _

end DirCommandsHandler

end

/-! ## Responses -/

/-- The response to the message depends on nothing but the tables and the outcomes of the calls
made for it. -/
def OnlyOwnOutcome (dirsToOverride : DirsToOverride) (message : Message) (w : World)
    (es : List WorkerEvent) (res : Except Fault Message) : Prop :=
  SameResult (Worker.doCommand dirsToOverride message) w es res

/-- The id is neither that of an overridden directory nor that of an open one. -/
def World.UnknownDir (w : World) (fdId : Int32) : Prop :=
  w.overriddenFds.lookup fdId = none ∧ w.dir.getFd none fdId = none

/-- The error number behind a listing is 0, unless a `::readdir` made for it has failed or the id
is unknown. -/
def ReaddirErrno (message : Message) (w : World) (es : List WorkerEvent)
    (res : Except Fault Message) : Prop :=
  CommanderMessageType.ofUint8 message.type = some .readDir → ∀ m, res = .ok m →
    m.type = WorkerMessageType.commandResult.toUint8 →
    ∃ listing errno, DirCommandsHandler.readdirReply message listing errno = .pure m ∧
      (errno ≠ 0 → (∃ dir e, (⟨.sys (.readdir dir), .error e⟩ : WorkerEvent) ∈ es) ∨
        ∃ fdId, dirId? message = some fdId ∧ w.UnknownDir fdId)

/-- Where the arguments can be decoded, `P` holds of them. -/
def OnArguments (message : Message) (kinds : List FieldKind) (P : Values kinds → Prop) : Prop :=
  ∀ args, deserialize message.data (readFields kinds) = .ok args → P args

/-- When a command sets all it puts into its response. Those that report `errno` do so when a call
of theirs fails; `rename` sets it for the flags it handles itself, and a listing before each entry
it tries to read. -/
def SetsItsOutcome (dirsToOverride : DirsToOverride) (message : Message) (w : World)
    (es : List WorkerEvent) : Prop :=
  match CommanderMessageType.ofUint8 message.type with
  | none => True
  | some .disconnect => True
  | some .rename =>
      OnArguments message [.str, .str, .uint8] fun (_, _, flags, _) =>
        flags &&& FileCommandsHandler.renameNoreplace ≠ 0 ∨
          flags &&& FileCommandsHandler.renameExchange ≠ 0 ∨ AnyFails es
  | some .statFileSystem => OnArguments message [.str] fun _ => False
  | some .openDir =>
      OnArguments message [.str] fun (dirPath, _) =>
        (dirsToOverride.lookup dirPath).isSome = true ∨ AnyFails es
  | some .closeDir =>
      OnArguments message [.int32] fun (fdId, _) =>
        (w.overriddenFds.lookup fdId).isSome = true ∨ AnyFails es
  | some .readDir =>
      OnArguments message [.int32, .uint32] fun (fdId, entries, _) =>
        entries ≠ 0 ∨ (w.overriddenFds.lookup fdId).isSome = true ∨ w.UnknownDir fdId
  | some type =>
      match argumentKinds type with
      | some kinds => OnArguments message kinds fun _ => AnyFails es
      | none       => True

section

variable {dirsToOverride : DirsToOverride} {message : Message} {t : ThreadId} {w w' : World}
  {es : List WorkerEvent} {res : Except Fault Message}

/-- The reply of `statvfs`. -/
def statvfsReply (message : Message) (success : UInt8) (errno : Int32) (stbuf : Statvfs) :
    Message :=
  reply message (.uint8 success :: .int32 errno :: FileCommandsHandler.statvfsFields stbuf)

theorem statvfs_decoded {args : Values [.str]} (hargs : arguments message [.str] = .pure args) :
    FileCommandsHandler.statvfs message =
      .perform (.sys (.statvfs (cStr args.1))) fun value =>
        match value with
        | .ok stbuf => .perform .errno fun errno => .pure (statvfsReply message 1 errno stbuf)
        | .error _  => .perform .uninitStatvfs fun stbuf =>
            .perform .errno fun errno => .pure (statvfsReply message 0 errno stbuf) := by
  have hresult : ∀ success errno stbuf, commandResult message
      (.uint8 success :: .int32 errno :: FileCommandsHandler.statvfsFields stbuf) =
        .pure (statvfsReply message success errno stbuf) :=
    fun success errno stbuf => commandResult_eq message
      (by simp [FileCommandsHandler.statvfsFields])
  simp only [FileCommandsHandler.statvfs, hargs, Prog.pure_bind, Prog.call_bind]
  refine congrArg (Prog.perform _) (funext fun value => ?_)
  cases value with
  | ok stbuf =>
      simp only [Prog.pure_eq, Prog.pure_bind, successField]
      exact congrArg (Prog.perform _) (funext fun errno => hresult 1 errno stbuf)
  | error e =>
      simp only [successField]
      refine congrArg (Prog.perform _) (funext fun stbuf => ?_)
      exact congrArg (Prog.perform _) (funext fun errno => hresult 0 errno stbuf)

/-- What the structure holds shows in the reply. -/
theorem statvfsReply_ne (success : UInt8) (errno : Int32) (stbuf : Statvfs) :
    statvfsReply message success errno { stbuf with fBsize := stbuf.fBsize + 1 } ≠
      statvfsReply message success errno stbuf := by
  intro heq
  have hread : ∀ stbuf : Statvfs,
      deserialize (statvfsReply message success errno stbuf).data
        (readFields [.uint8, .int32, .uint32, .uint32, .uint32, .uint32, .uint32, .uint32,
          .uint32, .uint32, .uint32, .uint32, .uint32]) =
        .ok (valuesOf (.uint8 success :: .int32 errno ::
          FileCommandsHandler.statvfsFields stbuf)) :=
    fun stbuf => deserialize_encodingOf _ (by simp [FileCommandsHandler.statvfsFields])
  have hvalues := hread { stbuf with fBsize := stbuf.fBsize + 1 }
  rw [heq, hread stbuf] at hvalues
  have hsize : stbuf.fBsize.toUInt32 = (stbuf.fBsize + 1).toUInt32 :=
    congrArg (fun vs => vs.2.2.1) (Except.ok.inj hvalues)
  simp at hsize

/-- A `statvfs` that succeeds reports an old `errno`; one that fails, an old structure. -/
theorem not_sameResult_statvfs {args : Values [.str]}
    (hargs : arguments message [.str] = .pure args)
    (h : exec (World.step t) w (FileCommandsHandler.statvfs message) es = some (res, w')) :
    ¬ SameResult (FileCommandsHandler.statvfs message) w es res := by
  rw [statvfs_decoded hargs] at h ⊢
  intro hall
  obtain ⟨value, es₁, w₁, rfl, hcall, h₁⟩ := exec_perform_iff.mp h
  cases value with
  | ok stbuf =>
      obtain ⟨errno, es₂, w₂, rfl, herrno, h₂⟩ := exec_perform_iff.mp h₁
      obtain ⟨rfl, heq⟩ := exec_pure_iff.mp h₂
      obtain ⟨rfl, -⟩ := Prod.mk.inj heq
      -- the same with another `errno` left over
      have hrun := hall t (w.setErrno t (errno + 1))
        [⟨.sys (.statvfs (cStr args.1)), .ok stbuf⟩, ⟨.errno, errno + 1⟩]
        (.ok (statvfsReply message 1 (errno + 1) stbuf)) (w₁.setErrno t (errno + 1))
        ⟨rfl, rfl, rfl⟩ rfl (exec_perform_iff.mpr ⟨.ok stbuf, _, w₁.setErrno t (errno + 1), rfl,
          World.step_ok_setErrno hcall _, exec_perform_iff.mpr
            ⟨errno + 1, [], w₁.setErrno t (errno + 1), rfl,
              if_pos (World.setErrno_errno (errno + 1)).symm, exec_pure_iff.mpr ⟨rfl, rfl⟩⟩⟩)
      have hsame := reply_injective _ _ (Except.ok.inj hrun)
      simp at hsame
  | error e =>
      obtain ⟨stbuf, es₂, w₂, rfl, huninit, h₂⟩ := exec_perform_iff.mp h₁
      obtain ⟨errno, es₃, w₃, rfl, herrno, h₃⟩ := exec_perform_iff.mp h₂
      obtain ⟨rfl, heq⟩ := exec_pure_iff.mp h₃
      obtain ⟨rfl, -⟩ := Prod.mk.inj heq
      -- the same with another structure on the stack
      have hrun := hall t w
        [⟨.sys (.statvfs (cStr args.1)), .error e⟩,
          ⟨.uninitStatvfs, { stbuf with fBsize := stbuf.fBsize + 1 }⟩, ⟨.errno, errno⟩]
        (.ok (statvfsReply message 0 errno { stbuf with fBsize := stbuf.fBsize + 1 })) w₃
        ⟨rfl, rfl, rfl⟩ rfl (exec_perform_iff.mpr ⟨.error e, _, w₁, rfl, hcall,
          exec_perform_iff.mpr ⟨_, _, w₂, rfl, huninit, exec_perform_iff.mpr
            ⟨errno, [], w₃, rfl, herrno, exec_pure_iff.mpr ⟨rfl, rfl⟩⟩⟩⟩)
      exact statvfsReply_ne 0 errno stbuf (Except.ok.inj hrun)

theorem closedir_sameResult_iff {args : Values [.int32]}
    (hargs : arguments message [.int32] = .pure args)
    (h : exec (World.step t) w (DirCommandsHandler.closedir message) es = some (res, w')) :
    SameResult (DirCommandsHandler.closedir message) w es res ↔
      (w.overriddenFds.lookup args.1).isSome = true ∨ AnyFails es := by
  simp only [DirCommandsHandler.closedir, DirCommandsHandler.getFd, hargs, Prog.pure_bind,
    Prog.call_bind] at h ⊢
  obtain ⟨overridden, es₁, w₁, rfl, hfind, h₁⟩ := exec_perform_iff.mp h
  obtain ⟨hover, rfl⟩ := World.step_find hfind
  rw [← hover]
  cases overridden with
  | some entries =>
      refine iff_of_true (SameResult.tables rfl hfind (Fixed.sameResult ?_ h₁)) (.inl rfl)
      exact .tables rfl fun _ => fixed_lift _
  | none =>
      have hrest : Reports (.perform (.dir (.getFd args.1)) fun fd => .perform (.sys (.closedir fd))
          fun value => .perform (.dir (.erase args.1)) fun _ => statusReply message value) :=
        .tables rfl fun fd => .sys fun value => .tables rfl fun _ => reports_statusReply value
      have hcons : AnyFails (⟨.overridden (.find args.1), none⟩ :: es₁) ↔ AnyFails es₁ := by
        rw [anyFails_cons]
        exact or_iff_right id
      constructor
      · intro hall
        right
        by_contra hfails
        have hv : w₁.errno t + 1 ≠ w₁.errno t := by simp
        have hdiffers := hrest.differs (fun hany => hfails (hcons.mpr hany)) h₁ hv
        exact (hdiffers.tables rfl hfind).not_sameResult hall
      · rintro (hsome | hfails)
        · cases hsome
        · exact SameResult.tables rfl hfind ((hrest.sameResult_iff h₁).mpr (hcons.mp hfails))

/-- The loop over an empty range leaves `errno` as it is; otherwise it is 0 in the end, unless a
`::readdir` has failed. -/
theorem readdirLoop_errno {dir : DirPtr} :
    ∀ {n : Nat} {s s' : BinarySerializer} {w : World} {es : List WorkerEvent},
      exec (World.step t) w (DirCommandsHandler.readdirLoop dir n s) es = some (.ok s', w') →
      n ≠ 0 ∨ w.errno t = 0 → w'.errno t ≠ 0 →
      ∃ e, (⟨.sys (.readdir dir), .error e⟩ : WorkerEvent) ∈ es
  | 0, s, s', w, es, h, hzero, herrno => by
      obtain ⟨-, heq⟩ := exec_pure_iff.mp h
      obtain ⟨-, rfl⟩ := Prod.mk.inj heq
      exact absurd (hzero.resolve_left (absurd rfl)) herrno
  | n + 1, s, s', w, es, h, hzero, herrno => by
      simp only [DirCommandsHandler.readdirLoop, Prog.call_bind, exec_perform_iff] at h
      obtain ⟨_, es₁, w₁, rfl, hset, entry, es₂, w₂, rfl, hcall, h₂⟩ := h
      cases hset
      have hcalled := (World.step_call hcall).2
      rcases entry with e | _ | d
      · exact ⟨e, by simp⟩
      · -- the end of the directory
        obtain ⟨-, heq⟩ := exec_pure_iff.mp h₂
        obtain ⟨-, rfl⟩ := Prod.mk.inj heq
        exact absurd (hcalled.trans (World.setErrno_errno 0)) herrno
      · cases hfields : DirCommandsHandler.direntFields d s with
        | error e =>
            simp only [hfields, Prog.lift_error, Prog.throw_bind] at h₂
            obtain ⟨-, heq⟩ := exec_throw_iff.mp h₂
            cases heq
        | ok s₁ =>
            simp only [hfields, Prog.lift_ok, Prog.pure_bind] at h₂
            have hzero₂ : w₂.errno t = 0 := hcalled.trans (World.setErrno_errno 0)
            obtain ⟨e, he⟩ := readdirLoop_errno h₂ (.inr hzero₂) herrno
            exact ⟨e, List.mem_cons_of_mem _ (List.mem_cons_of_mem _ he)⟩

theorem readdir_sameResult_iff {args : Values [.int32, .uint32]}
    (hargs : arguments message [.int32, .uint32] = .pure args)
    (h : exec (World.step t) w (DirCommandsHandler.readdir message) es = some (res, w')) :
    SameResult (DirCommandsHandler.readdir message) w es res ↔
      args.2.1 ≠ 0 ∨ (w.overriddenFds.lookup args.1).isSome = true ∨ w.UnknownDir args.1 := by
  by_cases hentries : args.2.1 = 0
  case neg =>
    have hfixed := DirCommandsHandler.readdir_fixed hargs hentries
    exact iff_of_true (Fixed.sameResult hfixed h) (.inl hentries)
  simp only [DirCommandsHandler.readdir, DirCommandsHandler.getFd, hargs, Prog.pure_bind,
    Prog.call_bind] at h ⊢
  obtain ⟨overridden, es₁, w₁, rfl, hfind, h₁⟩ := exec_perform_iff.mp h
  obtain ⟨hover, rfl⟩ := World.step_find hfind
  cases overridden with
  | some entries =>
      refine iff_of_true (SameResult.tables rfl hfind (Fixed.sameResult ?_ h₁)) ?_
      · exact (fixed_lift _).bind fun s => fixed_lift _
      · rw [← hover]
        exact .inr (.inl rfl)
  | none =>
      obtain ⟨fd, es₂, w₂, rfl, hgetFd, h₂⟩ := exec_perform_iff.mp h₁
      obtain ⟨hfd, rfl⟩ := World.step_dirGetFd hgetFd
      cases fd with
      | none =>
          refine iff_of_true (SameResult.tables rfl hfind (SameResult.tables rfl hgetFd
            (Fixed.sameResult (fixed_lift _) h₂))) ?_
          exact .inr (.inr ⟨hover.symm, hfd.symm⟩)
      | some fd =>
          have hzero : args.2.1.toNat = 0 := by rw [hentries]; rfl
          simp only [hzero, DirCommandsHandler.readdirLoop, Prog.pure_eq, Prog.pure_bind,
            readdirReply_new] at h₂
          have hreports : Reports (.perform .errno fun errno =>
              .pure (reply message [.int32 errno])) := by
            refine .last fun v v' hsame => ?_
            exact encodeInt32_injective (List.append_cancel_right (congrArg Message.data hsame))
          have hfails : ¬ AnyFails es₂ := by
            obtain ⟨errno, es₃, w₃, rfl, -, h₃⟩ := exec_perform_iff.mp h₂
            obtain ⟨rfl, -⟩ := exec_pure_iff.mp h₃
            rw [anyFails_cons]
            exact not_or.mpr ⟨id, anyFails_nil⟩
          have hv : w₂.errno t + 1 ≠ w₂.errno t := by simp
          have hdiffers := hreports.differs hfails h₂ hv
          refine iff_of_false (fun hall => ?_) ?_
          · refine (Differs.tables (v := w₂.errno t + 1) rfl hfind
              (Differs.tables rfl hgetFd ?_)).not_sameResult hall
            simp only [hzero, DirCommandsHandler.readdirLoop, Prog.pure_eq, Prog.pure_bind,
              readdirReply_new]
            exact hdiffers
          · rintro (hne | hsome | hunknown)
            · exact hne hentries
            · rw [← hover] at hsome
              cases hsome
            · rw [World.UnknownDir, ← hfd] at hunknown
              cases hunknown.2

theorem readdirReply_exec {s : BinarySerializer} {errno : Int32} {m : Message}
    (h : exec (World.step t) w (DirCommandsHandler.readdirReply message s errno) es =
      some (.ok m, w')) : DirCommandsHandler.readdirReply message s errno = .pure m := by
  rw [DirCommandsHandler.readdirReply] at h ⊢
  obtain ⟨-, heq⟩ := exec_lift_iff.mp h
  exact Prog.lift_eq_pure_iff.mpr (Prod.mk.inj heq).1.symm

theorem readdir_errno {args : Values [.int32, .uint32]} {m : Message}
    (hargs : arguments message [.int32, .uint32] = .pure args)
    (hsets : args.2.1 ≠ 0 ∨ (w.overriddenFds.lookup args.1).isSome = true ∨ w.UnknownDir args.1)
    (h : exec (World.step t) w (DirCommandsHandler.readdir message) es = some (.ok m, w')) :
    ∃ listing errno, DirCommandsHandler.readdirReply message listing errno = .pure m ∧
      (errno ≠ 0 → (∃ dir e, (⟨.sys (.readdir dir), .error e⟩ : WorkerEvent) ∈ es) ∨
        w.UnknownDir args.1) := by
  simp only [DirCommandsHandler.readdir, DirCommandsHandler.getFd, hargs, Prog.pure_bind,
    Prog.call_bind] at h
  obtain ⟨overridden, es₁, w₁, rfl, hfind, h₁⟩ := exec_perform_iff.mp h
  obtain ⟨hover, rfl⟩ := World.step_find hfind
  cases overridden with
  | some entries =>
      obtain ⟨s, hs⟩ :=
        DirCommandsHandler.overriddenLoop_total entries args.2.1.toNat BinarySerializer.new
      simp only [hs, Prog.lift_ok, Prog.pure_bind] at h₁
      exact ⟨s, 0, readdirReply_exec h₁, fun hne => absurd rfl hne⟩
  | none =>
      obtain ⟨fd, es₂, w₂, rfl, hgetFd, h₂⟩ := exec_perform_iff.mp h₁
      obtain ⟨hfd, rfl⟩ := World.step_dirGetFd hgetFd
      cases fd with
      | none =>
          exact ⟨_, _, readdirReply_exec h₂, fun _ => .inr ⟨hover.symm, hfd.symm⟩⟩
      | some fd =>
          have hentries : args.2.1 ≠ 0 := by
            rcases hsets with hne | hsome | hunknown
            · exact hne
            · rw [← hover] at hsome
              cases hsome
            · rw [World.UnknownDir, ← hfd] at hunknown
              cases hunknown.2
          have hn : args.2.1.toNat ≠ 0 := fun hzero => hentries (UInt32.toNat_inj.mp hzero)
          obtain ⟨r, w₃, es₃, es₄, rfl, hloop, h₃⟩ := exec_bind h₂
          cases r with
          | error e =>
              obtain ⟨-, heq⟩ := h₃
              cases heq
          | ok s =>
              obtain ⟨errno, es₅, w₅, rfl, herrno, h₅⟩ := exec_perform_iff.mp h₃
              obtain ⟨rfl, rfl⟩ := World.step_errno_iff.mp herrno
              refine ⟨s, w₅.errno t, readdirReply_exec h₅, fun hne => .inl ?_⟩
              obtain ⟨e, he⟩ := readdirLoop_errno hloop (.inl hn) hne
              exact ⟨some fd, e, by simp [he]⟩

/-! ## Every command -/

/-- A request whose arguments cannot be decoded is answered by its own error. -/
theorem setsItsOutcome_of_error {kinds : List FieldKind} {e : Fault}
    (hkinds : dispatchedKinds message.type = some kinds)
    (hargs : deserialize message.data (readFields kinds) = .error e) :
    SetsItsOutcome dirsToOverride message w es := by
  obtain ⟨type, htype, hkinds⟩ := Option.bind_eq_some_iff.mp hkinds
  have hnone : ∀ P : Values kinds → Prop, OnArguments message kinds P := by
    intro P args hok
    rw [hargs] at hok
    cases hok
  simp only [SetsItsOutcome, htype]
  cases type <;> cases hkinds <;> first | trivial | exact hnone _

theorem setsItsOutcome_of_unknown (hkinds : dispatchedKinds message.type = none) :
    SetsItsOutcome dirsToOverride message w es := by
  rw [dispatchedKinds] at hkinds
  simp only [SetsItsOutcome]
  cases htype : CommanderMessageType.ofUint8 message.type with
  | none => trivial
  | some type =>
      rw [htype] at hkinds
      cases type <;> trivial

/-- Decoded arguments are the only ones. -/
theorem onArguments_iff {kinds : List FieldKind} {args : Values kinds}
    {P : Values kinds → Prop} (hargs : deserialize message.data (readFields kinds) = .ok args) :
    OnArguments message kinds P ↔ P args := by
  constructor
  · intro h
    exact h args hargs
  · intro h args' hargs'
    rw [hargs] at hargs'
    obtain rfl := Except.ok.inj hargs'
    exact h

theorem arguments_of_ok {kinds : List FieldKind} {args : Values kinds}
    (hargs : deserialize message.data (readFields kinds) = .ok args) :
    arguments message kinds = .pure args := by
  rw [arguments, hargs]
  rfl

/-- What the `switch` dispatches to, where it has its arguments. -/
theorem dispatch_sameResult_iff {type : CommanderMessageType} {kinds : List FieldKind}
    {args : Values kinds} (htype : CommanderMessageType.ofUint8 message.type = some type)
    (hkinds : argumentKinds type = some kinds)
    (hargs : deserialize message.data (readFields kinds) = .ok args)
    (hread : type ≠ .read) (hpread : type ≠ .pRead)
    (h : exec (World.step t) w (Worker.dispatch dirsToOverride message) es = some (res, w')) :
    SameResult (Worker.dispatch dirsToOverride message) w es res ↔
      SetsItsOutcome dirsToOverride message w es := by
  have hdecoded := arguments_of_ok hargs
  simp only [Worker.dispatch, SetsItsOutcome, htype] at h ⊢
  cases type <;> cases hkinds
  case read => exact absurd rfl hread
  case pRead => exact absurd rfl hpread
  all_goals simp only [argumentKinds, onArguments_iff hargs] at h ⊢
  case disconnect => exact iff_of_true (Fixed.sameResult (.tables rfl fun _ => .pure _) h) trivial
  case getAttr =>
    exact (FileCommandsHandler.getattr_reports hdecoded).sameResult_iff h
  case rename =>
    by_cases hflags : args.2.2.1 &&& FileCommandsHandler.renameNoreplace ≠ 0 ∨
        args.2.2.1 &&& FileCommandsHandler.renameExchange ≠ 0
    · have hfixed := FileCommandsHandler.rename_fixed hdecoded hflags
      exact iff_of_true (hfixed.sameResult h) (or_assoc.mp (.inl hflags))
    · obtain ⟨hnoreplace, hexchange⟩ := not_or.mp hflags
      have hreports := FileCommandsHandler.rename_reports hdecoded (not_not.mp hnoreplace)
        (not_not.mp hexchange)
      rw [hreports.sameResult_iff h, ← or_assoc]
      exact (or_iff_right hflags).symm
  case statFileSystem => exact iff_of_false (not_sameResult_statvfs hdecoded h) id
  case «open» => exact (FileCommandsHandler.open_reports hdecoded).sameResult_iff h
  case close => exact (FileCommandsHandler.close_reports hdecoded).sameResult_iff h
  case write => exact (FileCommandsHandler.write_reports hdecoded).sameResult_iff h
  case pWrite => exact (FileCommandsHandler.pwrite_reports hdecoded).sameResult_iff h
  case openDir =>
    cases hover : dirsToOverride.lookup args.1 with
    | some entries =>
        have hsome : (dirsToOverride.lookup args.1).isSome = true := by rw [hover]; rfl
        have hfixed := DirCommandsHandler.opendir_fixed hdecoded hsome
        exact iff_of_true (hfixed.sameResult h) (.inl rfl)
    | none =>
        rw [(DirCommandsHandler.opendir_reports hdecoded hover).sameResult_iff h]
        exact (or_iff_right Bool.false_ne_true).symm
  case closeDir => exact closedir_sameResult_iff hdecoded h
  case readDir => exact readdir_sameResult_iff hdecoded h
  -- what is left makes one call and reports its status
  all_goals
    simp only [FileCommandsHandler.access, FileCommandsHandler.truncate,
      FileCommandsHandler.unlink, FileCommandsHandler.chmod, FileCommandsHandler.chown,
      FileCommandsHandler.utimens, DirCommandsHandler.mkdir, DirCommandsHandler.rmdir,
      hdecoded, Prog.pure_bind] at h ⊢
    exact (reports_status _).sameResult_iff h

theorem onlyOwnOutcome_iff_sets (hlen : message.data.length < 2 ^ 32)
    (hread : CommanderMessageType.ofUint8 message.type ≠ some .read)
    (hpread : CommanderMessageType.ofUint8 message.type ≠ some .pRead)
    (h : exec (World.step t) w (Worker.doCommand dirsToOverride message) es = some (res, w')) :
    OnlyOwnOutcome dirsToOverride message w es res ↔
      SetsItsOutcome dirsToOverride message w es := by
  rw [OnlyOwnOutcome]
  cases hkinds : dispatchedKinds message.type with
  | none =>
      rw [Worker.doCommand_unknown dirsToOverride hkinds] at h ⊢
      exact iff_of_true (Fixed.sameResult (.pure _) h) (setsItsOutcome_of_unknown hkinds)
  | some kinds =>
      cases hargs : deserialize message.data (readFields kinds) with
      | error e =>
          have hdata : ¬ BeginsWith kinds message.data := by
            intro hbegins
            obtain ⟨args, hpure⟩ := arguments_of_beginsWith hlen hbegins
            rw [arguments, hargs] at hpure
            cases hpure
          obtain ⟨_, _, -, hdo, -⟩ := Worker.doCommand_malformed dirsToOverride hlen hkinds hdata
          rw [hdo] at h ⊢
          exact iff_of_true (Fixed.sameResult (.pure _) h) (setsItsOutcome_of_error hkinds hargs)
      | ok args =>
          have hdata : BeginsWith kinds message.data := by
            by_contra hno
            obtain ⟨_, _, hthrow, -⟩ := arguments_of_not_beginsWith hlen hno
            rw [arguments_of_ok hargs] at hthrow
            cases hthrow
          rw [Worker.doCommand_wellFormed dirsToOverride hlen hkinds hdata] at h ⊢
          obtain ⟨type, htype, htypeKinds⟩ := Option.bind_eq_some_iff.mp hkinds
          refine dispatch_sameResult_iff htype htypeKinds hargs ?_ ?_ h
          · rintro rfl
            exact hread htype
          · rintro rfl
            exact hpread htype

theorem readdirErrno_of_sets (hlen : message.data.length < 2 ^ 32)
    (h : exec (World.step t) w (Worker.doCommand dirsToOverride message) es = some (res, w'))
    (hsets : SetsItsOutcome dirsToOverride message w es) : ReaddirErrno message w es res := by
  rintro htype m rfl hm
  have hkinds : dispatchedKinds message.type = some [.int32, .uint32] := by
    rw [dispatchedKinds, htype]
    rfl
  by_cases hdata : BeginsWith [.int32, .uint32] message.data
  · rw [Worker.doCommand_wellFormed dirsToOverride hlen hkinds hdata] at h
    simp only [Worker.dispatch, htype] at h
    cases hargs : deserialize message.data (readFields [.int32, .uint32]) with
    | error e =>
        obtain ⟨args, hpure⟩ := arguments_of_beginsWith hlen hdata
        rw [arguments, hargs] at hpure
        cases hpure
    | ok args =>
        simp only [SetsItsOutcome, htype, onArguments_iff hargs] at hsets
        obtain ⟨listing, errno, hreply, herrno⟩ := readdir_errno (arguments_of_ok hargs) hsets h
        refine ⟨listing, errno, hreply, fun hne => (herrno hne).imp_right fun hunknown => ?_⟩
        have hid : dirId? message = some args.1 := by
          simp only [dirId?, htype, idArgument, hargs]
        exact ⟨args.1, hid, hunknown⟩
  · obtain ⟨_, _, -, hdo, -⟩ := Worker.doCommand_malformed dirsToOverride hlen hkinds hdata
    rw [hdo] at h
    obtain ⟨-, heq⟩ := exec_pure_iff.mp h
    cases heq
    cases hm

end

/-- **A response carries its own outcome only** exactly when the command has set all it puts into
it. For every request to a handler other than `read` and `pread`, and every run of it: each run
that agrees on the request, the tables and the outcomes of its calls gives the same response, and
a listing carries an error number only for a failing `::readdir` or an unknown id, if and only if
`SetsItsOutcome` holds. -/
theorem onlyOwnOutcome_iff (dirsToOverride : DirsToOverride) (message : Message)
    (hlen : message.data.length < 2 ^ 32)
    (hread : CommanderMessageType.ofUint8 message.type ≠ some .read)
    (hpread : CommanderMessageType.ofUint8 message.type ≠ some .pRead)
    (t : ThreadId) (w w' : World) (es : List WorkerEvent) (res : Except Fault Message)
    (h : exec (World.step t) w (Worker.doCommand dirsToOverride message) es = some (res, w')) :
    (OnlyOwnOutcome dirsToOverride message w es res ∧ ReaddirErrno message w es res) ↔
      SetsItsOutcome dirsToOverride message w es := by
  have hiff := onlyOwnOutcome_iff_sets hlen hread hpread h
  constructor
  · rintro ⟨honly, -⟩
    exact hiff.mp honly
  · intro hsets
    exact ⟨hiff.mpr hsets, readdirErrno_of_sets hlen h hsets⟩

def accessRoot : Message :=
  ⟨7, CommanderMessageType.access.toUint8, encodingOf [.str (ascii "/"), .int32 0]⟩

/-- The command succeeds on a thread that has `left` left over in `errno`. -/
theorem accessRoot_runs (left : Int32) :
    exec (World.step 0) (World.new.setErrno 0 left) (Worker.doCommand [] accessRoot)
        [⟨.sys (.access (cStr (ascii "/")) 0), .ok ()⟩, ⟨.errno, left⟩] =
      some (.ok (reply accessRoot [.uint8 1, .int32 left]), World.new.setErrno 0 left) := by
  have hargs : arguments accessRoot [.str, .int32] = .pure (ascii "/", 0, ()) :=
    arguments_of_ok (deserialize_encodingOf [.str (ascii "/"), .int32 0] (by decide))
  have hdo : Worker.doCommand [] accessRoot =
      (FileCommandsHandler.access accessRoot).tryCatch (Worker.onException accessRoot) := rfl
  rw [hdo, FileCommandsHandler.access, hargs]
  refine exec_perform_iff.mpr ⟨.ok (), _, World.new.setErrno 0 left, rfl, rfl, ?_⟩
  refine exec_perform_iff.mpr ⟨left, _, World.new.setErrno 0 left, rfl, ?_, ?_⟩
  · exact if_pos (World.setErrno_errno left).symm
  · show exec _ _ (Prog.tryCatch (commandResult accessRoot
      [successField (.ok () : Except Int32 Unit), .int32 left]) _) _ = _
    rw [commandResult_status]
    exact exec_pure_iff.mpr ⟨rfl, rfl⟩

/-- The same successful `access` after a command that has failed with `ENOENT`. -/
theorem not_onlyOwnOutcome :
    ¬ ∀ (dirsToOverride : DirsToOverride) (message : Message) (t : ThreadId) (w w' : World)
      (es : List WorkerEvent) (res : Except Fault Message), message.data.length < 2 ^ 32 →
      CommanderMessageType.ofUint8 message.type ≠ some .read →
      CommanderMessageType.ofUint8 message.type ≠ some .pRead →
      exec (World.step t) w (Worker.doCommand dirsToOverride message) es = some (res, w') →
      OnlyOwnOutcome dirsToOverride message w es res ∧ ReaddirErrno message w es res := by
  intro h
  obtain ⟨honly, -⟩ := h [] accessRoot 0 _ _ _ _ (by decide) (by decide) (by decide)
    (accessRoot_runs 0)
  have hsame := honly 0 (World.new.setErrno 0 2)
    [⟨.sys (.access (cStr (ascii "/")) 0), .ok ()⟩, ⟨.errno, 2⟩] _ _ ⟨rfl, rfl, rfl⟩ rfl
    (accessRoot_runs 2)
  have herrno : (2 : Int32) = 0 := reply_injective _ _ (Except.ok.inj hsame)
  exact absurd herrno (by decide)

theorem onlyOwnOutcome_iff_accessRoot :
    ∃ es res w', exec (World.step 0) (World.new.setErrno 0 2) (Worker.doCommand [] accessRoot) es =
        some (res, w') ∧
      ((OnlyOwnOutcome [] accessRoot (World.new.setErrno 0 2) es res ∧
          ReaddirErrno accessRoot (World.new.setErrno 0 2) es res) ↔
        SetsItsOutcome [] accessRoot (World.new.setErrno 0 2) es) :=
  ⟨_, _, _, accessRoot_runs 2, onlyOwnOutcome_iff [] accessRoot (by decide) (by decide) (by decide)
    0 _ _ _ _ (accessRoot_runs 2)⟩

end ZControl
