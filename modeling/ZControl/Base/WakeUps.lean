import ZControl.Base.ConcurrentQueue
import Mathlib.Algebra.BigOperators.Group.Finset.Basic
import Mathlib.Data.Fintype.Basic

/-!
# Waking the threads in `pop`

Nobody sleeps in `pop` while there is something to do that nobody has been told about. As long as
the queue is open, the threads that have been notified and have yet to pass the queue are as many
as the values in it; a call of `shutdown()` that sets the flag wakes everybody.
-/

namespace ZControl

open Transition

namespace ConcurrentQueue

variable {T : Type} {n : Nat} {s s' : State T n} {a : Action T n}

/-! ## Counting the notified threads -/

/-- A notification has woken the thread, and it has neither taken a value since nor gone back to
sleep. -/
def Pc.notified : Pc T → Bool
  | .waking notified  => notified
  | .waiting notified => notified
  | .popping notified => notified
  | .taking notified  => notified
  | _                 => false

/-- 1 for a thread that is counted. -/
def Pc.weight (pc : Pc T) : Nat := if pc.notified then 1 else 0

/-- How many threads have been notified and not resumed. -/
def State.notified (s : State T n) : Nat := ∑ t, (s.pc t).weight

/-- When one thread moves, the count changes by that thread. -/
theorem notified_setPc (s : State T n) (t : Fin n) (pc : Pc T) :
    (s.setPc t pc).notified + (s.pc t).weight = s.notified + pc.weight := by
  have hrest : ∑ u ∈ Finset.univ.erase t, ((s.setPc t pc).pc u).weight =
      ∑ u ∈ Finset.univ.erase t, (s.pc u).weight := by
    refine Finset.sum_congr rfl ?_
    intro u hu
    rw [State.setPc_pc, if_neg (Finset.ne_of_mem_erase hu)]
  have hbefore := Finset.add_sum_erase Finset.univ (fun u => (s.pc u).weight) (Finset.mem_univ t)
  have hafter := Finset.add_sum_erase Finset.univ (fun u => ((s.setPc t pc).pc u).weight)
    (Finset.mem_univ t)
  simp only [State.setPc_pc, if_true] at hafter
  simp only [State.setPc_pc] at hrest
  simp only [State.notified, State.setPc_pc]
  omega

theorem notified_of_setPc {r : State T n} {t : Fin n} {pc : Pc T}
    (hpc : pc.notified = (r.pc t).notified) : (r.setPc t pc).notified = r.notified := by
  have hcount := notified_setPc r t pc
  rw [Pc.weight, Pc.weight, hpc] at hcount
  omega

theorem Pc.weight_le (pc : Pc T) : pc.weight ≤ 1 := by
  unfold Pc.weight
  split <;> omega

/-- As long as the queue is open and somebody sleeps, every value queued has somebody who has been
notified. Nobody is about to sleep while there is a value. -/
structure Counted (s : State T n) : Prop where
  exclusive : Mutex.Exclusive s.mutex
  blocking : ∀ t, s.pc t = .blocking → s.queue = []
  enough : s.shutdown = false → (∃ t, s.pc t = .sleeping) → s.queue.length ≤ s.notified

theorem counted_init : Counted (init : State T n) where
  exclusive := exclusive_init
  blocking := by intro t h; cases h
  enough := by
    rintro - ⟨t, ht⟩
    cases ht

/-- Nobody is at a place, if nobody was there and the thread that moves does not come there. -/
theorem ne_setPc {r : State T n} {t : Fin n} {pc target : Pc T} (hr : ∀ u, r.pc u ≠ target)
    (hpc : pc ≠ target) (u : Fin n) : (r.setPc t pc).pc u ≠ target := by
  rw [State.setPc_pc]
  split
  · exact hpc
  · exact hr u

theorem exists_of_setPc {r : State T n} {t : Fin n} {pc target : Pc T} (hpc : pc ≠ target)
    (h : ∃ u, (r.setPc t pc).pc u = target) : ∃ u, r.pc u = target := by
  by_contra hnone
  obtain ⟨u, hu⟩ := h
  exact ne_setPc (fun u hu => hnone ⟨u, hu⟩) hpc u hu

theorem Counted.blocking_step (hs : Counted s) (h : Step s a s') :
    ∀ t, s'.pc t = .blocking → s'.queue = [] := by
  intro u hu
  -- the queue stays as it is, and a thread that blocks did so before
  have hkeep : ∀ {r : State T n} {t : Fin n} {pc : Pc T}, pc ≠ .blocking → r.pc = s.pc →
      r.queue = s.queue → (r.setPc t pc).pc u = .blocking → (r.setPc t pc).queue = [] := by
    intro r t pc hpc hr hqueue hu
    have hbefore := exists_of_setPc hpc ⟨u, hu⟩
    rw [hr] at hbefore
    obtain ⟨v, hv⟩ := hbefore
    show r.queue = []
    rw [hqueue]
    exact hs.blocking v hv
  -- whoever changes the queue is inside, and so is a thread that blocks
  have hchange : ∀ {r : State T n} {t : Fin n} {result : Result T}, (s.pc t).holdsMx = true →
      (∀ v, r.pc v = .blocking → s.pc v = .blocking) →
      (r.setPc t (.unlocking result)).pc u = .blocking → False := by
    intro r t result hin hr hu
    rw [State.setPc_pc] at hu
    split at hu
    case isTrue => cases hu
    case isFalse hut =>
      refine hut (eq_of_holdsMx hs.exclusive ?_ hin)
      rw [hr u hu]
      rfl
  cases h
  case waitBlocks t notified hpc hempty hopen => exact hempty
  case takes t notified value rest hpc hq =>
    exact (hchange (by rw [hpc]; rfl) (fun v hv => hv) hu).elim
  case enqueuesFor t v value hpc hv =>
    refine (hchange (by rw [hpc]; rfl) ?_ hu).elim
    intro w hw
    rw [State.setPc_pc] at hw
    split at hw
    · cases hw
    · exact hw
  case enqueues t value hpc hall => exact (hchange (by rw [hpc]; rfl) (fun v hv => hv) hu).elim
  case notifiesAll t hpc =>
    rw [State.setPc_pc] at hu
    split at hu
    case isTrue => cases hu
    case isFalse =>
      have hu : (s.pc u).notify = .blocking := hu
      refine hs.blocking u ?_
      cases hbefore : s.pc u <;> rw [hbefore] at hu <;> first | rfl | cases hu
  case calls t pc result hpc hnext ha =>
    refine hkeep ?_ rfl rfl hu
    rcases hnext with ⟨value, rfl | rfl⟩ | rfl | rfl <;> simp
  case locks t pc hmx hpc =>
    refine @hkeep { s with mx := some t } t pc ?_ rfl rfl hu
    rcases hpc with ⟨value, -, rfl⟩ | ⟨-, rfl⟩ | ⟨notified, -, rfl⟩ | ⟨-, rfl⟩ <;> simp
  case sleeps t hpc => exact @hkeep { s with mx := none } t _ (by simp) rfl rfl hu
  case unlocks t result hpc => exact @hkeep { s with mx := none } t _ (by simp) rfl rfl hu
  case shutUnlocks t hpc =>
    exact @hkeep { s with mx := none, shutdowns := s.shutdowns + 1 } t _ (by simp) rfl rfl hu
  case flags t hpc => exact @hkeep { s with shutdown := true } t _ (by simp) rfl rfl hu
  all_goals exact hkeep (by simp) rfl rfl hu

theorem Counted.enough_step (hs : Counted s) (h : Step s a s') (hopen' : s'.shutdown = false)
    (hsleeps : ∃ t, s'.pc t = .sleeping) : s'.queue.length ≤ s'.notified := by
  have hopen : s.shutdown = false := by
    by_contra hshut
    rw [h.shutdown (Bool.not_eq_false _ ▸ hshut)] at hopen'
    cases hopen'
  -- a thread that is counted as before, or one that is not
  have hkeep : ∀ {r : State T n} {t : Fin n} {pc : Pc T}, pc ≠ .sleeping →
      pc.notified = (s.pc t).notified → r.pc = s.pc → r.queue = s.queue →
      (∃ u, (r.setPc t pc).pc u = .sleeping) →
      (r.setPc t pc).queue.length ≤ (r.setPc t pc).notified := by
    intro r t pc hpc hnotified hr hqueue hsleeps
    have hbefore := exists_of_setPc hpc hsleeps
    rw [hr] at hbefore
    have hcount : (r.setPc t pc).notified = s.notified := by
      rw [notified_of_setPc (by rw [hnotified, hr]), State.notified, hr]
      rfl
    rw [hcount]
    show r.queue.length ≤ s.notified
    rw [hqueue]
    exact hs.enough hopen hbefore
  cases h
  case takes t notified value rest hpc hq =>
    -- one value less, and one thread less if it had been notified
    have hbefore := hs.enough hopen (exists_of_setPc (by simp) hsleeps)
    have hcount := notified_setPc { s with queue := rest, popped := s.popped ++ [(t, value)] } t
      (.unlocking (.popped value))
    have hsame : State.notified { s with queue := rest, popped := s.popped ++ [(t, value)] } =
        s.notified := rfl
    have hweight := Pc.weight_le (s.pc t)
    have hzero : (Pc.unlocking (.popped value) : Pc T).weight = 0 := rfl
    rw [hq, List.length_cons] at hbefore
    rw [hsame, hzero] at hcount
    show rest.length ≤ _
    have hcount : _ + (s.pc t).weight = s.notified + 0 := hcount
    omega
  case enqueuesFor t u value hpc hu =>
    -- one value more, and one thread more
    have hbefore := hs.enough hopen ⟨u, hu⟩
    let pushed := { s with queue := s.queue ++ [value], pushed := s.pushed ++ [(t, value)] }
    have hwoken := notified_setPc pushed u (.waking true)
    have hpushed : pushed.notified = s.notified := rfl
    have hsleeper : (pushed.pc u).weight = 0 := by
      show (s.pc u).weight = 0
      rw [hu]
      rfl
    have hone : (Pc.waking true : Pc T).weight = 1 := rfl
    have htu : t ≠ u := by
      rintro rfl
      rw [hpc] at hu
      cases hu
    have hmove : ((pushed.setPc u (.waking true)).setPc t (.unlocking (.pushed value))).notified =
        (pushed.setPc u (.waking true)).notified := by
      refine notified_of_setPc ?_
      rw [State.setPc_pc, if_neg htu]
      show _ = (s.pc t).notified
      rw [hpc]
      rfl
    show (s.queue ++ [value]).length ≤
      ((pushed.setPc u (.waking true)).setPc t (.unlocking (.pushed value))).notified
    rw [hmove, List.length_append, List.length_singleton]
    omega
  case enqueues t value hpc hall =>
    obtain ⟨u, hu⟩ := hsleeps
    exact absurd hu (ne_setPc (r := { s with
      queue := s.queue ++ [value], pushed := s.pushed ++ [(t, value)] }) hall (by simp) u)
  case notifiesAll t hpc =>
    obtain ⟨u, hu⟩ := hsleeps
    refine absurd hu (ne_setPc (r := { s with pc := fun u => (s.pc u).notify }) ?_ (by simp) u)
    intro v hv
    have hv : (s.pc v).notify = .sleeping := hv
    cases hpc : s.pc v <;> rw [hpc] at hv <;> cases hv
  case waitBlocks t notified hpc hempty _ =>
    show s.queue.length ≤ _
    rw [hempty]
    exact Nat.zero_le _
  case sleeps t hpc =>
    show s.queue.length ≤ _
    rw [hs.blocking t hpc]
    exact Nat.zero_le _
  case popThrows t notified hpc hshut =>
    rw [hopen] at hshut
    cases hshut
  case flags t hpc => cases hopen'
  case calls t pc result hpc hnext ha =>
    refine hkeep ?_ ?_ rfl rfl hsleeps
    · rcases hnext with ⟨value, rfl | rfl⟩ | rfl | rfl <;> simp
    · rcases hnext with ⟨value, rfl | rfl⟩ | rfl | rfl <;> (rw [hpc]; rfl)
  case locks t pc hmx hpc =>
    refine @hkeep { s with mx := some t } t pc ?_ ?_ rfl rfl hsleeps
    · rcases hpc with ⟨value, -, rfl⟩ | ⟨-, rfl⟩ | ⟨notified, -, rfl⟩ | ⟨-, rfl⟩ <;> simp
    · rcases hpc with ⟨value, hpc, rfl⟩ | ⟨hpc, rfl⟩ | ⟨notified, hpc, rfl⟩ | ⟨hpc, rfl⟩ <;>
        (rw [hpc]; rfl)
  case unlocks t result hpc =>
    exact @hkeep { s with mx := none } t _ (by simp) (by rw [hpc]; rfl) rfl rfl hsleeps
  case shutUnlocks t hpc =>
    exact @hkeep { s with mx := none, shutdowns := s.shutdowns + 1 } t _ (by simp)
      (by rw [hpc]; rfl) rfl rfl hsleeps
  case pushThrows t value hpc | pushGoesOn t value hpc | waitReturns t notified hpc _ |
      popGoesOn t notified hpc _ | shutReturns t hpc | shutGoesOn t hpc | wakes t hpc =>
    exact hkeep (by simp) (by rw [hpc]; rfl) rfl rfl hsleeps

theorem Counted.step (hs : Counted s) (h : Step s a s') : Counted s' where
  exclusive := h.exclusive hs.exclusive
  blocking := hs.blocking_step h
  enough := hs.enough_step h

/-! ## After `shutdown()` -/

/-- The thread sleeps, or is about to. -/
def Pc.rests : Pc T → Bool
  | .blocking => true
  | .sleeping => true
  | _         => false

/-- The thread has set `_shutdown` and is still in `shutdown()`. -/
def Pc.flagged : Pc T → Bool
  | .shutLocking   => true
  | .shutNotifying => true
  | .shutUnlocking => true
  | _              => false

/-- Some call of `shutdown()` has notified everybody. -/
def State.told (s : State T n) : Prop := (∃ t, s.pc t = .shutUnlocking) ∨ 0 < s.shutdowns

/-- Nobody goes to sleep once `_shutdown` is set. -/
theorem Step.rests_of (h : Step s a s') (hshut : s.shutdown = true) {t : Fin n}
    (ht : (s'.pc t).rests = true) : (s.pc t).rests = true := by
  cases h
  case waitBlocks u notified hpc hempty hopen =>
    rw [hshut] at hopen
    cases hopen
  case sleeps u hpc =>
    by_cases htu : t = u
    · rw [htu, hpc]
      rfl
    · rw [State.setPc_pc, if_neg htu] at ht
      exact ht
  case calls u pc result hpc hnext ha =>
    refine of_setPc (fun v => rfl) ?_ ht
    rcases hnext with ⟨value, rfl | rfl⟩ | rfl | rfl <;> rfl
  case locks u pc hmx hpc =>
    refine of_setPc (r := { s with mx := some u }) (fun v => rfl) ?_ ht
    rcases hpc with ⟨value, -, rfl⟩ | ⟨-, rfl⟩ | ⟨notified, -, rfl⟩ | ⟨-, rfl⟩ <;> rfl
  case notifiesAll u hpc =>
    rw [State.setPc_pc] at ht
    split at ht
    · cases ht
    · have ht : (s.pc t).notify.rests = true := ht
      cases hbefore : s.pc t <;> rw [hbefore] at ht <;> first | rfl | cases ht
  case enqueuesFor u v value hpc hv =>
    rw [State.setPc_pc] at ht
    split at ht
    · cases ht
    · exact of_setPc (fun w => rfl) rfl ht
  all_goals exact of_setPc (fun v => rfl) rfl ht

/-- Whoever is in `shutdown()` behind the flag was so before, or sets it. -/
theorem Step.flagged_of (h : Step s a s') {t : Fin n} (ht : (s'.pc t).flagged = true) :
    (∃ u, (s.pc u).flagged = true) ∨ s'.shutdown = true := by
  cases h
  case flags u hpc => exact .inr rfl
  case calls u pc result hpc hnext ha =>
    refine .inl ⟨t, of_setPc (fun v => rfl) ?_ ht⟩
    rcases hnext with ⟨value, rfl | rfl⟩ | rfl | rfl <;> rfl
  case locks u pc hmx hpc =>
    rcases hpc with ⟨value, -, rfl⟩ | ⟨-, rfl⟩ | ⟨notified, -, rfl⟩ | ⟨hpc, rfl⟩
    case inr.inr.inr => exact .inl ⟨u, by rw [hpc]; rfl⟩
    all_goals exact .inl ⟨t, of_setPc (fun v => rfl) rfl ht⟩
  case notifiesAll u hpc => exact .inl ⟨u, by rw [hpc]; rfl⟩
  case enqueuesFor u v value hpc hv =>
    refine .inl ⟨t, of_setPc ?_ rfl ht⟩
    intro w
    rw [State.setPc_pc]
    split
    case isTrue heq => rw [heq, hv]; rfl
    case isFalse => rfl
  all_goals exact .inl ⟨t, of_setPc (fun v => rfl) rfl ht⟩

/-- Everybody has been notified before, or is now, and then nobody rests. -/
theorem Step.told_of (h : Step s a s') (hexclusive : Mutex.Exclusive s.mutex) (ht : s'.told) :
    s.told ∨ ∃ t, (s.pc t).flagged = true ∧ ∀ u, (s'.pc u).rests = false := by
  have hmove : ∀ {r : State T n} {t : Fin n} {pc : Pc T}, pc ≠ .shutUnlocking →
      (∀ u, r.pc u = .shutUnlocking → s.pc u = .shutUnlocking) → r.shutdowns = s.shutdowns →
      (r.setPc t pc).told → s.told := by
    rintro r t pc hpc hr hcount (hsome | hpos)
    · obtain ⟨u, hu⟩ := exists_of_setPc hpc hsome
      exact .inl ⟨u, hr u hu⟩
    · exact .inr (hcount ▸ hpos)
  cases h
  case notifiesAll t hpc =>
    refine .inr ⟨t, by rw [hpc]; rfl, ?_⟩
    intro u
    rw [State.setPc_pc]
    split
    case isTrue => rfl
    case isFalse hut =>
      -- a thread that blocks would be inside with the one that notifies
      show (s.pc u).notify.rests = false
      cases hu : s.pc u with
      | blocking =>
          have heq := eq_of_holdsMx hexclusive (t := u) (u := t) (by rw [hu]; rfl)
            (by rw [hpc]; rfl)
          exact absurd heq hut
      | _ => rfl
  case shutUnlocks t hpc => exact .inl (.inl ⟨t, hpc⟩)
  case calls t pc result hpc hnext ha =>
    refine .inl (hmove ?_ (fun u hu => hu) rfl ht)
    rcases hnext with ⟨value, rfl | rfl⟩ | rfl | rfl <;> simp
  case locks t pc hmx hpc =>
    refine .inl (@hmove { s with mx := some t } t pc ?_ (fun u hu => hu) rfl ht)
    rcases hpc with ⟨value, -, rfl⟩ | ⟨-, rfl⟩ | ⟨notified, -, rfl⟩ | ⟨-, rfl⟩ <;> simp
  case enqueuesFor t u value hpc hu =>
    refine .inl (@hmove ({ s with
      queue := s.queue ++ [value], pushed := s.pushed ++ [(t, value)] }.setPc u (.waking true)) t
      (.unlocking (.pushed value)) (by simp) ?_ rfl ht)
    intro v hv
    rw [State.setPc_pc] at hv
    split at hv
    · cases hv
    · exact hv
  all_goals exact .inl (hmove (by simp) (fun u hu => hu) rfl ht)

/-- Whoever is behind the flag has set it, and nobody rests once everybody has been notified. -/
structure Quiet (s : State T n) : Prop where
  exclusive : Mutex.Exclusive s.mutex
  flagged : ∀ t, (s.pc t).flagged = true → s.shutdown = true
  shutdown : 0 < s.shutdowns → s.shutdown = true
  awake : s.told → ∀ t, (s.pc t).rests = false

theorem quiet_init : Quiet (init : State T n) where
  exclusive := exclusive_init
  flagged := by intro t h; cases h
  shutdown := by intro h; cases h
  awake := by
    rintro (⟨t, ht⟩ | hpos)
    · cases ht
    · cases hpos

theorem Quiet.shutdown_of_told (hs : Quiet s) (ht : s.told) : s.shutdown = true := by
  rcases ht with ⟨t, ht⟩ | hpos
  · exact hs.flagged t (by rw [ht]; rfl)
  · exact hs.shutdown hpos

theorem Quiet.step (hs : Quiet s) (h : Step s a s') : Quiet s' where
  exclusive := h.exclusive hs.exclusive
  flagged := by
    intro t ht
    rcases h.flagged_of ht with ⟨u, hu⟩ | hset
    · exact h.shutdown (hs.flagged u hu)
    · exact hset
  shutdown := by
    intro hpos
    rcases h.told_of hs.exclusive (.inr hpos) with htold | ⟨t, ht, -⟩
    · exact h.shutdown (hs.shutdown_of_told htold)
    · exact h.shutdown (hs.flagged t ht)
  awake := by
    intro ht u
    rcases h.told_of hs.exclusive ht with htold | ⟨-, -, hawake⟩
    · by_contra hrests
      have hbefore := h.rests_of (hs.shutdown_of_told htold) (Bool.not_eq_false _ ▸ hrests)
      rw [hs.awake htold u] at hbefore
      cases hbefore
    · exact hawake u

/-- A notified thread that does not hold `_mx` has been woken and not resumed. -/
theorem Counted.notified_iff (hs : Counted s) (hmx : s.mx = none) (t : Fin n) :
    (s.pc t).notified = true ↔ s.pc t = .waking true := by
  have hout : (s.pc t).holdsMx ≠ true := by
    intro hin
    have howner : s.mx = some t := (hs.exclusive t).mp hin
    rw [hmx] at howner
    cases howner
  cases hpc : s.pc t with
  | waking notified => simp [Pc.notified]
  | waiting notified => exact absurd (by rw [hpc]; rfl) hout
  | popping notified => exact absurd (by rw [hpc]; rfl) hout
  | taking notified => exact absurd (by rw [hpc]; rfl) hout
  | _ => simp [Pc.notified]

/-- **No notification is lost**: as long as the queue is open and somebody sleeps in `pop`, every
value in the queue has a thread that has been notified and has not come for it yet; while nobody
holds `_mx`, these threads are those that have been woken and have not resumed. Once a call of
`shutdown()` that has set the flag has returned, nobody sleeps in `pop`, and nobody will. -/
theorem no_lost_wakeup {as : List (Action T n)} (hrun : run step init as = some s) :
    (s.shutdown = false → (∃ t, s.pc t = .sleeping) → s.queue.length ≤ s.notified) ∧
    (s.mx = none → ∀ t, (s.pc t).notified = true ↔ s.pc t = .waking true) ∧
    (0 < s.shutdowns → ∀ bs s', run step s bs = some s' → ∀ t, s'.pc t ≠ .sleeping) := by
  have hcounted : Counted s :=
    run_invariant (fun _ _ _ hs h => hs.step (step_cases h)) counted_init hrun
  have hquiet : Quiet s := run_invariant (fun _ _ _ hs h => hs.step (step_cases h)) quiet_init hrun
  refine ⟨hcounted.enough, fun hmx t => hcounted.notified_iff hmx t, ?_⟩
  intro hpos bs s' hbs t hsleeping
  have hrests : s'.shutdown = true ∧ ∀ u, (s'.pc u).rests = false := by
    refine run_invariant (I := fun r : State T n => r.shutdown = true ∧ ∀ u, (r.pc u).rests = false)
      ?_ ⟨hquiet.shutdown hpos, hquiet.awake (.inr hpos)⟩ hbs
    rintro r b r' ⟨hshut, hnone⟩ h
    refine ⟨(step_cases h).shutdown hshut, ?_⟩
    intro u
    by_contra hu
    have hbefore := (step_cases h).rests_of hshut (Bool.not_eq_false _ ▸ hu)
    rw [hnone u] at hbefore
    cases hbefore
  have hawake := hrests.2 t
  rw [hsleeping] at hawake
  cases hawake

/-- Two threads sleep, and for a value that is pushed one of them is woken. -/
def pushWhileTwoSleep : List (Action Nat 3) :=
  [.pop 1, .thread 1, .thread 1, .thread 1, .pop 2, .thread 2, .thread 2, .thread 2,
    .push 0 7 true, .thread 0, .thread 0, .enqueue 0 (some 1), .thread 0]

/-- The value in the queue has its thread, and after `shutdown()` the other one has been woken
as well. -/
theorem no_lost_wakeup_pushWhileTwoSleep :
    ∃ s s' : State Nat 3, run step init pushWhileTwoSleep = some s ∧ s.queue = [7] ∧
      s.pc 2 = .sleeping ∧ s.queue.length ≤ s.notified ∧
      run step s [.shutdown 0, .thread 0, .thread 0, .thread 0, .thread 0, .thread 0] = some s' ∧
      ∀ t, s'.pc t ≠ .sleeping := by
  refine ⟨_, _, rfl, rfl, rfl, ?_, rfl, ?_⟩
  · exact (@no_lost_wakeup Nat 3 _ pushWhileTwoSleep rfl).1 rfl ⟨2, rfl⟩
  · exact (@no_lost_wakeup Nat 3 _ (pushWhileTwoSleep ++
      [.shutdown 0, .thread 0, .thread 0, .thread 0, .thread 0, .thread 0]) rfl).2.2
      (by decide) [] _ rfl

end ConcurrentQueue

end ZControl
