import Mathlib.Data.List.Nodup
import Mathlib.Logic.Function.Basic
import Mathlib.Tactic.Common

/-!
# A queue between one producer and many consumers

The producer takes items one at a time and puts each into the queue before it takes the next. A
consumer removes the oldest item and finishes it before it removes another. Items are numbered in
the order in which they are taken, so that two equal items can be told apart.

The invariant is a ledger: the numbers in the queue are consecutive, below them are the items
removed so far, above them at most the one the producer holds.
-/

namespace WorkQueue

/-- An item with its number in the order of taking. -/
structure Ticket (α : Type) where
  number : Nat
  item : α
  deriving DecidableEq, Repr

structure State (ι α : Type) where
  taken : List α
  producer : Option (Ticket α)
  queue : List (Ticket α)
  consumer : ι → Option (Ticket α)
  finished : List (Ticket α)

variable {ι α : Type} [DecidableEq ι]

/-- What can happen to an item. -/
inductive Step (s : State ι α) : State ι α → Prop where
  | take (a : α) (hp : s.producer = none) :
      Step s { s with taken := s.taken ++ [a], producer := some ⟨s.taken.length, a⟩ }
  | enqueue (t : Ticket α) (hp : s.producer = some t) :
      Step s { s with producer := none, queue := s.queue ++ [t] }
  | dequeue (i : ι) (t : Ticket α) (rest : List (Ticket α)) (hq : s.queue = t :: rest)
      (hi : s.consumer i = none) :
      Step s { s with queue := rest, consumer := Function.update s.consumer i (some t) }
  | finish (i : ι) (t : Ticket α) (hi : s.consumer i = some t) :
      Step s { s with
        consumer := Function.update s.consumer i none
        finished := s.finished ++ [t] }

/-! ## Where an item is -/

/-- The places an item can be in; a queue has one for each position, and so has the list of what
is finished. -/
inductive Place (ι : Type) where
  | producer
  | queue (k : Nat)
  | consumer (i : ι)
  | finished (k : Nat)
  deriving DecidableEq

omit [DecidableEq ι] in
/-- The item in a place. -/
def State.at? (s : State ι α) : Place ι → Option (Ticket α)
  | .producer   => s.producer
  | .queue k    => s.queue[k]?
  | .consumer i => s.consumer i
  | .finished k => s.finished[k]?

/-- The item of `t` has been finished. -/
def State.Finished (s : State ι α) (k : Nat) : Prop := ∃ t ∈ s.finished, t.number = k

/-- `dequeued` items have left the queue. -/
structure Ledger (s : State ι α) (dequeued : Nat) : Prop where
  total : dequeued + s.queue.length + s.producer.toList.length = s.taken.length
  queue : ∀ k t, s.queue[k]? = some t → t.number = dequeued + k
  producer : ∀ t, s.producer = some t → t.number + 1 = s.taken.length
  consumer : ∀ i t, s.consumer i = some t → t.number < dequeued
  finished : ∀ t ∈ s.finished, t.number < dequeued
  consumerInj : ∀ i j t u, s.consumer i = some t → s.consumer j = some u →
    t.number = u.number → i = j
  finishedNodup : (s.finished.map Ticket.number).Nodup
  apart : ∀ i t, s.consumer i = some t → ¬ s.Finished t.number
  covered : ∀ k < dequeued, (∃ i t, s.consumer i = some t ∧ t.number = k) ∨ s.Finished k
  items : ∀ p t, s.at? p = some t → s.taken[t.number]? = some t.item

def State.start : State ι α := ⟨[], none, [], fun _ => none, []⟩

omit [DecidableEq ι] in
theorem ledger_start : Ledger (State.start : State ι α) 0 where
  total := rfl
  queue := by intro k t h; simp [State.start] at h
  producer := by intro t h; cases h
  consumer := by intro i t h; cases h
  finished := by intro t h; cases h
  consumerInj := by intro i j t u h; cases h
  finishedNodup := List.nodup_nil
  apart := by intro i t h; cases h
  covered := by intro k hk; omega
  items := by
    intro p t h
    cases p <;> simp [State.at?, State.start] at h

omit [DecidableEq ι] in
/-- What is in a place has been taken. -/
theorem Ledger.number_lt {s : State ι α} {d : Nat} (h : Ledger s d) {p : Place ι} {t : Ticket α}
    (ht : s.at? p = some t) : t.number < s.taken.length :=
  (List.getElem?_eq_some_iff.mp (h.items p t ht)).1

section

variable {s s' : State ι α} {d : Nat}

omit [DecidableEq ι] in
theorem Ledger.take (h : Ledger s d) (a : α) (hp : s.producer = none) :
    Ledger { s with taken := s.taken ++ [a], producer := some ⟨s.taken.length, a⟩ } d where
  total := by
    have htotal := h.total
    rw [hp] at htotal
    simp only [Option.toList_none, List.length_nil] at htotal
    simp only [Option.toList_some, List.length_cons, List.length_nil, List.length_append]
    omega
  queue := h.queue
  producer := by
    rintro t ⟨⟩
    simp
  consumer := h.consumer
  finished := h.finished
  consumerInj := h.consumerInj
  finishedNodup := h.finishedNodup
  apart := h.apart
  covered := h.covered
  items := by
    -- an item taken before keeps its number
    have hold : ∀ p t, s.at? p = some t → (s.taken ++ [a])[t.number]? = some t.item := by
      intro p t ht
      rw [List.getElem?_append_left (h.number_lt ht)]
      exact h.items p t ht
    intro p t ht
    cases p with
    | producer =>
        obtain rfl : Ticket.mk s.taken.length a = t := Option.some.inj ht
        exact List.getElem?_concat_length
    | queue k => exact hold (.queue k) t ht
    | consumer i => exact hold (.consumer i) t ht
    | finished k => exact hold (.finished k) t ht

omit [DecidableEq ι] in
theorem Ledger.enqueue (h : Ledger s d) (t : Ticket α) (hp : s.producer = some t) :
    Ledger { s with producer := none, queue := s.queue ++ [t] } d where
  total := by
    have htotal := h.total
    rw [hp] at htotal
    simp only [Option.toList_some, List.length_cons, List.length_nil] at htotal
    simp only [Option.toList_none, List.length_nil, List.length_append, List.length_cons]
    omega
  queue := by
    intro k u hu
    rcases Nat.lt_or_ge k s.queue.length with hk | hk
    · rw [List.getElem?_append_left hk] at hu
      exact h.queue k u hu
    · -- the position behind the last is that of the new item
      have htotal := h.total
      have hnumber := h.producer t hp
      rw [hp] at htotal
      simp only [Option.toList_some, List.length_cons, List.length_nil] at htotal
      rw [List.getElem?_append_right hk] at hu
      have hzero : k - s.queue.length = 0 := by
        have hlt := (List.getElem?_eq_some_iff.mp hu).1
        simp only [List.length_cons, List.length_nil] at hlt
        omega
      rw [hzero] at hu
      obtain rfl : t = u := Option.some.inj hu
      omega
  producer := by intro u hu; cases hu
  consumer := h.consumer
  finished := h.finished
  consumerInj := h.consumerInj
  finishedNodup := h.finishedNodup
  apart := h.apart
  covered := h.covered
  items := by
    intro p u hu
    cases p with
    | producer => cases hu
    | queue k =>
        have hmem : u ∈ s.queue ++ [t] := List.mem_of_getElem? hu
        rcases List.mem_append.mp hmem with hmem | hmem
        · obtain ⟨j, hj⟩ := List.mem_iff_getElem?.mp hmem
          exact h.items (.queue j) u hj
        · obtain rfl := List.mem_singleton.mp hmem
          exact h.items .producer u hp
    | consumer i => exact h.items (.consumer i) u hu
    | finished k => exact h.items (.finished k) u hu

theorem Ledger.dequeue (h : Ledger s d) (i : ι) (t : Ticket α) (rest : List (Ticket α))
    (hq : s.queue = t :: rest) (hi : s.consumer i = none) :
    Ledger { s with queue := rest, consumer := Function.update s.consumer i (some t) } (d + 1) := by
  have hnumber : t.number = d := h.queue 0 t (by rw [hq]; rfl)
  have hcases : ∀ {j u}, Function.update s.consumer i (some t) j = some u →
      (j = i ∧ u = t) ∨ (j ≠ i ∧ s.consumer j = some u) := by
    intro j u hu
    by_cases hj : j = i
    · subst hj
      rw [Function.update_self] at hu
      exact .inl ⟨rfl, (Option.some.inj hu).symm⟩
    · rw [Function.update_of_ne hj] at hu
      exact .inr ⟨hj, hu⟩
  refine ⟨?_, ?_, h.producer, ?_, ?_, ?_, h.finishedNodup, ?_, ?_, ?_⟩
  · have htotal := h.total
    rw [hq, List.length_cons] at htotal
    show d + 1 + rest.length + s.producer.toList.length = s.taken.length
    omega
  · intro k u hu
    have hold := h.queue (k + 1) u (by rw [hq]; exact hu)
    omega
  · intro j u hu
    rcases hcases hu with ⟨-, rfl⟩ | ⟨-, hu⟩
    · omega
    · exact Nat.lt_succ_of_lt (h.consumer j u hu)
  · intro u hu
    exact Nat.lt_succ_of_lt (h.finished u hu)
  · intro j₁ j₂ u v hu hv heq
    rcases hcases hu with ⟨rfl, rfl⟩ | ⟨-, hu'⟩
    · rcases hcases hv with ⟨rfl, rfl⟩ | ⟨-, hv'⟩
      · rfl
      · have := h.consumer j₂ v hv'
        omega
    · rcases hcases hv with ⟨rfl, rfl⟩ | ⟨-, hv'⟩
      · have := h.consumer j₁ u hu'
        omega
      · exact h.consumerInj j₁ j₂ u v hu' hv' heq
  · rintro j u hu ⟨v, hv, heq⟩
    rcases hcases hu with ⟨-, rfl⟩ | ⟨-, hu⟩
    · have := h.finished v hv
      omega
    · exact h.apart j u hu ⟨v, hv, heq⟩
  · intro k hk
    rcases Nat.lt_succ_iff_lt_or_eq.mp hk with hk | rfl
    · rcases h.covered k hk with ⟨j, u, hu, heq⟩ | hfin
      · have hj : j ≠ i := by
          rintro rfl
          rw [hi] at hu
          cases hu
        exact .inl ⟨j, u, by simpa only [Function.update_of_ne hj] using hu, heq⟩
      · exact .inr hfin
    · exact .inl ⟨i, t, Function.update_self i _ _, hnumber⟩
  · intro p u hu
    cases p with
    | producer => exact h.items .producer u hu
    | queue k => exact h.items (.queue (k + 1)) u (by rw [State.at?, hq]; exact hu)
    | consumer j =>
        rcases hcases hu with ⟨-, rfl⟩ | ⟨-, hu⟩
        · exact h.items (.queue 0) u (by rw [State.at?, hq]; rfl)
        · exact h.items (.consumer j) u hu
    | finished k => exact h.items (.finished k) u hu

theorem Ledger.finish (h : Ledger s d) (i : ι) (t : Ticket α) (hi : s.consumer i = some t) :
    Ledger { s with
      consumer := Function.update s.consumer i none
      finished := s.finished ++ [t] } d := by
  have hother : ∀ {j u}, Function.update s.consumer i none j = some u →
      j ≠ i ∧ s.consumer j = some u := by
    intro j u hu
    by_cases hj : j = i
    · subst hj
      rw [Function.update_self] at hu
      cases hu
    · rw [Function.update_of_ne hj] at hu
      exact ⟨hj, hu⟩
  refine ⟨h.total, h.queue, h.producer, ?_, ?_, ?_, ?_, ?_, ?_, ?_⟩
  · intro j u hu
    exact h.consumer j u (hother hu).2
  · intro u hu
    rcases List.mem_append.mp hu with hu | hu
    · exact h.finished u hu
    · obtain rfl := List.mem_singleton.mp hu
      exact h.consumer i u hi
  · intro j₁ j₂ u v hu hv
    exact h.consumerInj j₁ j₂ u v (hother hu).2 (hother hv).2
  · show ((s.finished ++ [t]).map Ticket.number).Nodup
    rw [List.map_append, List.nodup_append]
    refine ⟨h.finishedNodup, by simp, ?_⟩
    rintro a ha b hb rfl
    obtain ⟨u, hu, rfl⟩ := List.mem_map.mp ha
    obtain ⟨v, hv, heq⟩ := List.mem_map.mp hb
    obtain rfl := List.mem_singleton.mp hv
    exact h.apart i v hi ⟨u, hu, heq.symm⟩
  · rintro j u hu ⟨v, hv, heq⟩
    obtain ⟨hj, hu'⟩ := hother hu
    rcases List.mem_append.mp hv with hv | hv
    · exact h.apart j u hu' ⟨v, hv, heq⟩
    · obtain rfl := List.mem_singleton.mp hv
      exact hj (h.consumerInj j i u v hu' hi heq.symm)
  · intro k hk
    rcases h.covered k hk with ⟨j, u, hu, heq⟩ | ⟨v, hv, heq⟩
    · by_cases hj : j = i
      · subst hj
        obtain rfl : t = u := Option.some.inj (hi.symm.trans hu)
        exact .inr ⟨t, by simp, heq⟩
      · exact .inl ⟨j, u, by simpa only [Function.update_of_ne hj] using hu, heq⟩
    · exact .inr ⟨v, List.mem_append_left _ hv, heq⟩
  · intro p u hu
    cases p with
    | producer => exact h.items .producer u hu
    | queue k => exact h.items (.queue k) u hu
    | consumer j => exact h.items (.consumer j) u (hother hu).2
    | finished k =>
        have hmem : u ∈ s.finished ++ [t] := List.mem_of_getElem? hu
        rcases List.mem_append.mp hmem with hmem | hmem
        · obtain ⟨j, hj⟩ := List.mem_iff_getElem?.mp hmem
          exact h.items (.finished j) u hj
        · obtain rfl := List.mem_singleton.mp hmem
          exact h.items (.consumer i) u hi

/-- Every step keeps the ledger. -/
theorem Step.ledger (hstep : Step s s') (h : Ledger s d) : ∃ d', Ledger s' d' := by
  cases hstep with
  | take a hp => exact ⟨d, h.take a hp⟩
  | enqueue t hp => exact ⟨d, h.enqueue t hp⟩
  | dequeue i t rest hq hi => exact ⟨d + 1, h.dequeue i t rest hq hi⟩
  | finish i t hi => exact ⟨d, h.finish i t hi⟩

/-- A step is possible where more is finished, and keeps the ledger there; an item that leaves the
queue is the next one. -/
theorem Step.extend (hstep : Step s s') {finished : List (Ticket α)}
    (h : Ledger { s with finished := finished } d) (hsub : s.finished.Sublist finished) :
    ∃ finished', s'.finished.Sublist finished' ∧
      ((s.queue.length ≤ s'.queue.length ∧ Ledger { s' with finished := finished' } d) ∨
        ∃ t, s.queue = t :: s'.queue ∧ t.number = d ∧
          Ledger { s' with finished := finished' } (d + 1)) := by
  cases hstep with
  | take a hp => exact ⟨finished, hsub, .inl ⟨Nat.le_refl _, h.take a hp⟩⟩
  | enqueue t hp => exact ⟨finished, hsub, .inl ⟨by simp, h.enqueue t hp⟩⟩
  | dequeue i t rest hq hi =>
      have hnumber : t.number = d := h.queue 0 t (by simp [hq])
      exact ⟨finished, hsub, .inr ⟨t, hq, hnumber, h.dequeue i t rest hq hi⟩⟩
  | finish i t hi =>
      exact ⟨finished ++ [t], hsub.append_right [t], .inl ⟨Nat.le_refl _, h.finish i t hi⟩⟩

/-- The item has left the queue. -/
def State.Dequeued (s : State ι α) (t : Ticket α) : Prop :=
  (∃ i, s.consumer i = some t) ∨ t ∈ s.finished

/-- What has left the queue is being worked on until it is finished, and stays finished. -/
theorem Step.dequeued (hstep : Step s s') {t : Ticket α} (ht : s.Dequeued t) : s'.Dequeued t := by
  cases hstep with
  | take a hp => exact ht
  | enqueue u hp => exact ht
  | dequeue i u rest hq hi =>
      rcases ht with ⟨j, hj⟩ | hfin
      · have hne : j ≠ i := by
          rintro rfl
          rw [hi] at hj
          cases hj
        exact .inl ⟨j, by simpa only [Function.update_of_ne hne] using hj⟩
      · exact .inr hfin
  | finish i u hi =>
      rcases ht with ⟨j, hj⟩ | hfin
      · by_cases hji : j = i
        · subst hji
          obtain rfl : u = t := Option.some.inj (hi.symm.trans hj)
          exact .inr (by simp)
        · exact .inl ⟨j, by simpa only [Function.update_of_ne hji] using hj⟩
      · exact .inr (List.mem_append_left _ hfin)

/-! ## What the ledger says -/

omit [DecidableEq ι]

/-- Two places never hold the same item. -/
theorem Ledger.place_unique (h : Ledger s d) {p q : Place ι} {t u : Ticket α}
    (ht : s.at? p = some t) (hu : s.at? q = some u) (heq : t.number = u.number) : p = q := by
  -- the numbers fall into three disjoint ranges: removed, in the queue, held by the producer
  have hqueue : ∀ {k v}, s.at? (.queue k) = some v →
      v.number = d + k ∧ k < s.queue.length := by
    intro k v hv
    exact ⟨h.queue k v hv, (List.getElem?_eq_some_iff.mp hv).1⟩
  have hproducer : ∀ {v}, s.at? .producer = some v → v.number = d + s.queue.length := by
    intro v hv
    have hnumber := h.producer v hv
    have htotal := h.total
    rw [show s.producer = some v from hv] at htotal
    simp only [Option.toList_some, List.length_cons, List.length_nil] at htotal
    omega
  have hconsumer : ∀ {i v}, s.at? (.consumer i) = some v → v.number < d := by
    intro i v hv
    exact h.consumer i v hv
  have hfinished : ∀ {k v}, s.at? (.finished k) = some v →
      v.number < d ∧ s.Finished v.number := by
    intro k v hv
    have hmem := List.mem_of_getElem? hv
    exact ⟨h.finished v hmem, v, hmem, rfl⟩
  cases p with
  | producer =>
      have ht := hproducer ht
      cases q with
      | producer => rfl
      | queue k => have := hqueue hu; omega
      | consumer i => have := hconsumer hu; omega
      | finished k => have := hfinished hu; omega
  | queue j =>
      have ht := hqueue ht
      cases q with
      | producer => have := hproducer hu; omega
      | queue k =>
          have hu := hqueue hu
          exact congrArg Place.queue (by omega)
      | consumer i => have := hconsumer hu; omega
      | finished k => have := hfinished hu; omega
  | consumer i =>
      have hi := hconsumer ht
      cases q with
      | producer => have := hproducer hu; omega
      | queue k => have := hqueue hu; omega
      | consumer j => exact congrArg Place.consumer (h.consumerInj i j t u ht hu heq)
      | finished k => exact absurd (heq ▸ (hfinished hu).2) (h.apart i t ht)
  | finished j =>
      have hj := hfinished ht
      cases q with
      | producer => have := hproducer hu; omega
      | queue k => have := hqueue hu; omega
      | consumer i => exact absurd (heq.symm ▸ hj.2) (h.apart i u hu)
      | finished k =>
          have hget : ∀ {m v}, s.at? (.finished m) = some v →
              (s.finished.map Ticket.number)[m]? = some v.number := by
            intro m v hv
            rw [List.getElem?_map, show s.finished[m]? = some v from hv]
            rfl
          have hlt : j < (s.finished.map Ticket.number).length :=
            (List.getElem?_eq_some_iff.mp (hget ht)).1
          have hsame := (hget ht).trans (heq ▸ (hget hu).symm)
          exact congrArg Place.finished ((List.getElem?_inj hlt h.finishedNodup).mp hsame)

/-- An item that has been taken is in some place. -/
theorem Ledger.place_exists (h : Ledger s d) {k : Nat} (hk : k < s.taken.length) :
    ∃ p t, s.at? p = some t ∧ t.number = k := by
  rcases Nat.lt_or_ge k d with hd | hd
  · rcases h.covered k hd with ⟨i, t, ht, heq⟩ | ⟨t, ht, heq⟩
    · exact ⟨.consumer i, t, ht, heq⟩
    · obtain ⟨j, hj⟩ := List.mem_iff_getElem?.mp ht
      exact ⟨.finished j, t, hj, heq⟩
  · rcases Nat.lt_or_ge (k - d) s.queue.length with hlt | hge
    · have hget : s.queue[k - d]? = some s.queue[k - d] := List.getElem?_eq_getElem hlt
      refine ⟨.queue (k - d), _, hget, ?_⟩
      have := h.queue (k - d) _ hget
      omega
    · -- above the queue there is only the item of the producer
      have htotal := h.total
      cases hp : s.producer with
      | none =>
          rw [hp] at htotal
          simp only [Option.toList_none, List.length_nil] at htotal
          omega
      | some t =>
          rw [hp] at htotal
          simp only [Option.toList_some, List.length_cons, List.length_nil] at htotal
          have := h.producer t hp
          exact ⟨.producer, t, hp, by omega⟩

/-- **Each item taken is in exactly one place.** -/
theorem Ledger.place_existsUnique (h : Ledger s d) {k : Nat} {a : α} (hk : s.taken[k]? = some a) :
    ∃! p, s.at? p = some ⟨k, a⟩ := by
  obtain ⟨p, t, ht, heq⟩ := h.place_exists (List.getElem?_eq_some_iff.mp hk).1
  have hitem := h.items p t ht
  rw [heq, hk] at hitem
  obtain rfl : t = ⟨k, a⟩ := by
    cases t
    cases heq
    cases hitem
    rfl
  refine ⟨p, ht, ?_⟩
  intro q hq
  exact h.place_unique hq ht rfl

/-- Once no consumer works on anything, everything taken before a finished item is finished. -/
theorem Ledger.finished_of_le (h : Ledger s d) (hidle : ∀ i, s.consumer i = none) {t : Ticket α}
    (ht : t ∈ s.finished) {k : Nat} (hk : k ≤ t.number) : s.Finished k := by
  rcases h.covered k (Nat.lt_of_le_of_lt hk (h.finished t ht)) with ⟨i, u, hu, -⟩ | hfin
  · rw [hidle i] at hu
    cases hu
  · exact hfin

end

end WorkQueue
