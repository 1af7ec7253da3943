import Mathlib.Data.Nat.Find
import Mathlib.Tactic.Common

/-!
# Offering items in batches

Items are offered one by one to somebody who may say, after any of them, that there is no room for
more; whether there is depends on everything offered so far. The items come in batches of `b`. Who
offers them leaves the batch when there is no room, but goes on with the next batch as long as the
batches are whole.
-/

namespace Batches

variable {α : Type} (full : List α → Bool)

/-- What is offered of one batch, after `before`: everything up to the first item that leaves no
room. -/
def passed (before : List α) : List α → List α
  | []      => []
  | c :: cs => c :: if full (before ++ [c]) then [] else passed (before ++ [c]) cs

/-- What is offered in at most `n` batches of `b`. -/
def inBatches (b : Nat) : Nat → List α → List α → List α
  | 0,     _,      _     => []
  | n + 1, before, items =>
      let now := passed full before (items.take b)
      now ++ if b ≤ items.length then inBatches b n (before ++ now) (items.drop b) else []

/-- The offers stop in time: they are the first of the items, and there was room after each but
the last. -/
structure Stops (before calls items : List α) : Prop where
  isPrefix : calls <+: items
  room : ∀ i, i + 1 < calls.length → full (before ++ calls.take (i + 1)) = false

/-- The item at `i` is the first after which there is no room. -/
structure FirstFull (before items : List α) (i : Nat) : Prop where
  lt : i < items.length
  noRoom : full (before ++ items.take (i + 1)) = true
  room : ∀ j < i, full (before ++ items.take (j + 1)) = false

variable {full} {before items : List α} {b i n : Nat}

/-! ## One batch -/

@[simp] theorem passed_never (before items : List α) :
    passed (fun _ => false) before items = items := by
  induction items generalizing before with
  | nil => rfl
  | cons c cs ih => simp [passed, ih]

theorem passed_of_room
    (hroom : ∀ j < items.length, full (before ++ items.take (j + 1)) = false) :
    passed full before items = items := by
  induction items generalizing before with
  | nil => rfl
  | cons c cs ih =>
      have hc : full (before ++ [c]) = false := hroom 0 (Nat.succ_pos _)
      have hcs : passed full (before ++ [c]) cs = cs := by
        apply ih
        intro j hj
        have h := hroom (j + 1) (Nat.succ_lt_succ hj)
        rwa [List.take_succ_cons, List.append_cons] at h
      rw [passed, hc, hcs]
      rfl

theorem passed_of_firstFull (h : FirstFull full before items i) :
    passed full before items = items.take (i + 1) := by
  induction items generalizing before i with
  | nil => exact absurd h.lt (Nat.not_lt_zero _)
  | cons c cs ih =>
      cases i with
      | zero =>
          have hc : full (before ++ [c]) = true := h.noRoom
          rw [passed, hc]
          rfl
      | succ i =>
          have hc : full (before ++ [c]) = false := h.room 0 (Nat.succ_pos _)
          have hcs : FirstFull full (before ++ [c]) cs i := by
            refine ⟨Nat.lt_of_succ_lt_succ h.lt, ?_, ?_⟩
            · have hi := h.noRoom
              rwa [List.take_succ_cons, List.append_cons] at hi
            · intro j hj
              have hj := h.room (j + 1) (Nat.succ_lt_succ hj)
              rwa [List.take_succ_cons, List.append_cons] at hj
          rw [passed, hc, List.take_succ_cons, ← ih hcs]
          rfl

variable (full) in
theorem firstFull_or (before items : List α) :
    (∃ i, FirstFull full before items i) ∨
      ∀ j < items.length, full (before ++ items.take (j + 1)) = false := by
  by_cases h : ∃ j, j < items.length ∧ full (before ++ items.take (j + 1)) = true
  · left
    refine ⟨Nat.find h, (Nat.find_spec h).1, (Nat.find_spec h).2, ?_⟩
    intro j hj
    have hmin := Nat.find_min h hj
    have hlt := Nat.lt_trans hj (Nat.find_spec h).1
    exact Bool.eq_false_iff.mpr fun hfull => hmin ⟨hlt, hfull⟩
  · right
    intro j hj
    exact Bool.eq_false_iff.mpr fun hfull => h ⟨j, hj, hfull⟩

/-! ## Across batches -/

@[simp] theorem inBatches_nil (hb : 0 < b) (n : Nat) (before : List α) :
    inBatches full b n before [] = [] := by
  cases n with
  | zero => rfl
  | succ n =>
      have hshort : ¬ b ≤ 0 := Nat.not_le.mpr hb
      simp [inBatches, passed, hshort]

variable (full) in
/-- Where a batch has items, some are offered. -/
theorem inBatches_cons (hb : 0 < b) (n : Nat) (before : List α) (c : α) (items : List α) :
    ∃ cs, inBatches full b (n + 1) before (c :: items) = c :: cs := by
  obtain ⟨b, rfl⟩ := Nat.exists_eq_succ_of_ne_zero (Nat.ne_of_gt hb)
  exact ⟨_, rfl⟩

/-- The first item that leaves no room, seen from its batch. -/
theorem firstFull_take_iff (hib : i < b) :
    FirstFull full before (items.take b) i ↔ FirstFull full before items i := by
  have htake : ∀ j, j ≤ i → (items.take b).take (j + 1) = items.take (j + 1) := by
    intro j hj
    rw [List.take_take, Nat.min_eq_left (by omega)]
  constructor
  · intro h
    have hlt := h.lt
    rw [List.length_take] at hlt
    refine ⟨by omega, ?_, ?_⟩
    · rw [← htake i (Nat.le_refl i)]
      exact h.noRoom
    · intro j hj
      rw [← htake j (Nat.le_of_lt hj)]
      exact h.room j hj
  · intro h
    have hlt := h.lt
    refine ⟨by rw [List.length_take]; omega, ?_, ?_⟩
    · rw [htake i (Nat.le_refl i)]
      exact h.noRoom
    · intro j hj
      rw [htake j (Nat.le_of_lt hj)]
      exact h.room j hj

/-- The same from the batches before it. -/
theorem firstFull_drop_iff (hroom : ∀ j < b, full (before ++ items.take (j + 1)) = false)
    (hb : b ≤ items.length) :
    FirstFull full (before ++ items.take b) (items.drop b) i ↔
      FirstFull full before items (b + i) := by
  have htake : ∀ j, before ++ items.take b ++ (items.drop b).take (j + 1) =
      before ++ items.take (b + j + 1) := by
    intro j
    have h : items.take (b + (j + 1)) = items.take b ++ (items.drop b).take (j + 1) :=
      List.take_add
    rw [List.append_assoc, Nat.add_assoc, h]
  constructor
  · intro h
    have hlt := h.lt
    rw [List.length_drop] at hlt
    refine ⟨by omega, ?_, ?_⟩
    · rw [← htake]
      exact h.noRoom
    · intro j hj
      by_cases hjb : j < b
      · exact hroom j hjb
      · obtain ⟨k, rfl⟩ := Nat.exists_eq_add_of_le (Nat.le_of_not_lt hjb)
        rw [← htake]
        exact h.room k (by omega)
  · intro h
    have hlt := h.lt
    refine ⟨by rw [List.length_drop]; omega, ?_, ?_⟩
    · rw [htake]
      exact h.noRoom
    · intro j hj
      rw [htake]
      exact h.room (b + j) (by omega)

/-- With room for a whole batch, the rest is offered as if it came alone. -/
theorem Stops.append {calls : List α}
    (hroom : ∀ j < b, full (before ++ items.take (j + 1)) = false) (hb : b ≤ items.length)
    (h : Stops full (before ++ items.take b) calls (items.drop b)) :
    Stops full before (items.take b ++ calls) items := by
  have hlength : (items.take b).length = b := by
    rw [List.length_take, Nat.min_eq_left hb]
  constructor
  · have hprefix := (List.prefix_append_right_inj (items.take b)).mpr h.isPrefix
    rwa [List.take_append_drop] at hprefix
  · intro j hj
    rw [List.length_append, hlength] at hj
    by_cases hjb : j < b
    · rw [List.take_append_of_le_length (by omega), List.take_take, Nat.min_eq_left (by omega)]
      exact hroom j hjb
    · obtain ⟨k, rfl⟩ := Nat.exists_eq_add_of_le (Nat.le_of_not_lt hjb)
      have htake : (items.take b ++ calls).take (b + k + 1) =
          items.take b ++ calls.take (k + 1) := by
        rw [Nat.add_assoc]
        nth_rewrite 1 [← hlength]
        exact List.take_length_add_append _
      rw [htake, ← List.append_assoc]
      exact h.room k (by omega)

/-- Nothing is offered too much if the batch in which room runs out is the last. -/
theorem stops_inBatches (hb : 0 < b)
    (hlast : ∀ i, FirstFull full before items i → items.length ≤ b * (i / b + 1)) (n : Nat) :
    Stops full before (inBatches full b n before items) items := by
  induction n generalizing before items with
  | zero => exact ⟨List.nil_prefix, fun i hi => absurd hi (Nat.not_lt_zero _)⟩
  | succ n ih =>
      rw [inBatches]
      rcases firstFull_or full before (items.take b) with ⟨i, hfirst⟩ | hroom
      · -- room runs out in this batch, which is the last
        have hlt := hfirst.lt
        rw [List.length_take] at hlt
        have hib : i < b := by omega
        have hfirst' := (firstFull_take_iff hib).mp hfirst
        have hlen := hlast i hfirst'
        rw [Nat.div_eq_of_lt hib, Nat.zero_add, Nat.mul_one] at hlen
        have hnow : passed full before (items.take b) = items.take (i + 1) := by
          rw [passed_of_firstFull hfirst, List.take_take, Nat.min_eq_left hib]
        have hrest : (if b ≤ items.length then
            inBatches full b n (before ++ items.take (i + 1)) (items.drop b) else []) = [] := by
          rw [List.drop_of_length_le hlen, inBatches_nil hb, ite_self]
        simp only [hnow, hrest, List.append_nil]
        refine ⟨List.take_prefix _ _, ?_⟩
        intro j hj
        rw [List.length_take] at hj
        rw [List.take_take, Nat.min_eq_left (by omega)]
        exact hfirst'.room j (by omega)
      · -- there is room for the batch
        rw [passed_of_room hroom]
        rw [List.length_take] at hroom
        by_cases hwhole : b ≤ items.length
        · have hroom' : ∀ j < b, full (before ++ items.take (j + 1)) = false := by
            intro j hj
            have h := hroom j (by omega)
            rwa [List.take_take, Nat.min_eq_left hj] at h
          simp only [hwhole, if_true]
          apply Stops.append hroom' hwhole
          apply ih
          intro i hfirst
          have hlen := hlast (b + i) ((firstFull_drop_iff hroom' hwhole).mp hfirst)
          rw [Nat.add_div_left _ hb, Nat.mul_succ] at hlen
          rw [List.length_drop]
          omega
        · have hall : items.take b = items := List.take_of_length_le (by omega)
          simp only [hwhole, if_false, List.append_nil, hall]
          refine ⟨List.prefix_refl _, ?_⟩
          intro j hj
          have h := hroom j (by omega)
          rwa [hall] at h

/-- Otherwise the next batch is begun. -/
theorem inBatches_goes_on (hb : 0 < b) {q : Nat} (hq : i / b = q)
    (hfirst : FirstFull full before items i) (hmore : b * (q + 1) < items.length) :
    ∃ c cs, inBatches full b (q + 2) before items = items.take (i + 1) ++ c :: cs := by
  induction q generalizing before items i with
  | zero =>
      have hib : i < b := by
        rcases Nat.div_eq_zero_iff.mp hq with hzero | hlt
        · omega
        · exact hlt
      rw [Nat.mul_one] at hmore
      have hnow : passed full before (items.take b) = items.take (i + 1) := by
        rw [passed_of_firstFull ((firstFull_take_iff hib).mpr hfirst), List.take_take,
          Nat.min_eq_left hib]
      obtain ⟨c, rest, hdrop⟩ : ∃ c rest, items.drop b = c :: rest := by
        apply List.exists_cons_of_length_pos
        rw [List.length_drop]
        omega
      obtain ⟨cs, hcs⟩ := inBatches_cons full hb 0 (before ++ items.take (i + 1)) c rest
      refine ⟨c, cs, ?_⟩
      rw [inBatches]
      simp only [hnow, if_pos (Nat.le_of_lt hmore), hdrop, hcs]
  | succ q ih =>
      have hbi : b ≤ i := by
        by_contra hlt
        rw [Nat.div_eq_of_lt (Nat.lt_of_not_le hlt)] at hq
        cases hq
      obtain ⟨k, rfl⟩ := Nat.exists_eq_add_of_le hbi
      have hlt := hfirst.lt
      have hwhole : b ≤ items.length := by omega
      have hroom : ∀ j < b, full (before ++ items.take (j + 1)) = false :=
        fun j hj => hfirst.room j (by omega)
      have hnow : passed full before (items.take b) = items.take b := by
        apply passed_of_room
        intro j hj
        rw [List.length_take] at hj
        rw [List.take_take, Nat.min_eq_left (by omega)]
        exact hroom j (by omega)
      rw [Nat.add_div_left _ hb] at hq
      obtain ⟨c, cs, hcs⟩ := ih (Nat.succ.inj hq) ((firstFull_drop_iff hroom hwhole).mpr hfirst) (by
        rw [List.length_drop]
        rw [Nat.mul_succ] at hmore
        omega)
      have htake : items.take (b + (k + 1)) = items.take b ++ (items.drop b).take (k + 1) :=
        List.take_add
      refine ⟨c, cs, ?_⟩
      rw [inBatches]
      simp only [hnow, if_pos hwhole, hcs]
      rw [Nat.add_assoc, htake, List.append_assoc]

variable (full before items) in
/-- **When offering in batches stops in time**: exactly when the batch in which room runs out is
the last. -/
theorem stops_inBatches_iff (hb : 0 < b) :
    (∀ n, Stops full before (inBatches full b n before items) items) ↔
      ∀ i, FirstFull full before items i → items.length ≤ b * (i / b + 1) := by
  constructor
  · intro hstops i hfirst
    by_contra hmore
    obtain ⟨c, cs, hcalls⟩ := inBatches_goes_on hb rfl hfirst (Nat.lt_of_not_le hmore)
    have hstop := hstops (i / b + 2)
    rw [hcalls] at hstop
    have hlt := hfirst.lt
    have hlength : (items.take (i + 1)).length = i + 1 := by
      rw [List.length_take]
      omega
    have hroom := hstop.room i (by simp [hlength])
    rw [List.take_append_of_le_length (by omega), List.take_take, Nat.min_self,
      hfirst.noRoom] at hroom
    cases hroom
  · intro hlast n
    exact stops_inBatches hb hlast n

end Batches
