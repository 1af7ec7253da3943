import Mathlib.Tactic.Common

/-!
# Exact readers

A reader runs over a state `σ` (a cursor, a stream) of which only the unread input `rest s` is
visible to a format. It is *exact* for an encoding when it succeeds on precisely the inputs that
begin with an encoded value, hands that value back and leaves the remainder:

    (∃ s', read s = .ok (v, s') ∧ rest s' = tail) ↔ rest s = encode v ++ tail

and when all its failures are of a declared harmless kind. Exactness is closed under sequencing,
so the law of a composite format follows from the laws of its fields.
-/

namespace ExactReader

variable {σ ε β α α₁ α₂ : Type}

/-- `read` is exact for `encode` on the states satisfying `ok`, failing only with a `fault`. -/
structure Exact (rest : σ → List β) (ok : σ → Prop) (fault : ε → Prop)
    (read : StateT σ (Except ε) α) (encode : α → List β) : Prop where
  sound : ∀ {s v s'}, ok s → read s = .ok (v, s') → rest s = encode v ++ rest s' ∧ ok s'
  complete : ∀ {s v tail}, ok s → rest s = encode v ++ tail →
    ∃ s', read s = .ok (v, s') ∧ rest s' = tail
  safe : ∀ {s e}, ok s → read s = .error e → fault e

variable {rest : σ → List β} {ok : σ → Prop} {fault : ε → Prop}

/-- Completeness together with the `ok` state it leaves, the form a sequence needs. -/
theorem Exact.run {read : StateT σ (Except ε) α} {encode : α → List β}
    (h : Exact rest ok fault read encode) {s : σ} {v : α} {tail : List β}
    (hs : ok s) (hrest : rest s = encode v ++ tail) :
    ∃ s', read s = .ok (v, s') ∧ rest s' = tail ∧ ok s' := by
  obtain ⟨s', hread, htail⟩ := h.complete hs hrest
  exact ⟨s', hread, htail, (h.sound hs hread).2⟩

/-- The defining equivalence of an exact reader. -/
theorem Exact.read_iff {read : StateT σ (Except ε) α} {encode : α → List β}
    (h : Exact rest ok fault read encode) {s : σ} {v : α} {tail : List β} (hs : ok s) :
    (∃ s', read s = .ok (v, s') ∧ rest s' = tail) ↔ rest s = encode v ++ tail := by
  constructor
  · rintro ⟨s', hread, rfl⟩
    exact (h.sound hs hread).1
  · exact h.complete hs

/-- An exact reader fails, harmlessly, exactly where no encoded value begins. -/
theorem Exact.error_iff {read : StateT σ (Except ε) α} {encode : α → List β}
    (h : Exact rest ok fault read encode) {s : σ} (hs : ok s) :
    (∃ e, fault e ∧ read s = .error e) ↔ ¬ ∃ v tail, rest s = encode v ++ tail := by
  constructor
  · rintro ⟨e, _, herr⟩ ⟨v, tail, hrest⟩
    obtain ⟨s', hread, _⟩ := h.complete hs hrest
    rw [herr] at hread
    cases hread
  · intro hno
    cases hread : read s with
    | error e => exact ⟨e, h.safe hs hread, rfl⟩
    | ok p =>
        obtain ⟨v, s'⟩ := p
        exact absurd ⟨v, rest s', (h.sound hs hread).1⟩ hno

/-! ## Sequencing -/

theorem bind_ok_iff {read₁ : StateT σ (Except ε) α₁} {read₂ : α₁ → StateT σ (Except ε) α₂}
    {s s' : σ} {b : α₂} :
    (read₁ >>= read₂) s = .ok (b, s') ↔
      ∃ a s₁, read₁ s = .ok (a, s₁) ∧ read₂ a s₁ = .ok (b, s') := by
  cases h : read₁ s with
  | error e => simp [bind, StateT.bind, Except.bind, h]
  | ok p => obtain ⟨a, s₁⟩ := p; simp [bind, StateT.bind, Except.bind, h]

theorem bind_error_iff {read₁ : StateT σ (Except ε) α₁} {read₂ : α₁ → StateT σ (Except ε) α₂}
    {s : σ} {e : ε} :
    (read₁ >>= read₂) s = .error e ↔
      read₁ s = .error e ∨ ∃ a s₁, read₁ s = .ok (a, s₁) ∧ read₂ a s₁ = .error e := by
  cases h : read₁ s with
  | error e => simp [bind, StateT.bind, Except.bind, h]
  | ok p => obtain ⟨a, s₁⟩ := p; simp [bind, StateT.bind, Except.bind, h]

theorem bind_of_ok {read₁ : StateT σ (Except ε) α₁} {read₂ : α₁ → StateT σ (Except ε) α₂}
    {s s₁ : σ} {a : α₁} (h : read₁ s = .ok (a, s₁)) : (read₁ >>= read₂) s = read₂ a s₁ := by
  simp [bind, StateT.bind, Except.bind, h]

theorem bind_of_error {read₁ : StateT σ (Except ε) α₁} {read₂ : α₁ → StateT σ (Except ε) α₂}
    {s : σ} {e : ε} (h : read₁ s = .error e) : (read₁ >>= read₂) s = .error e := by
  simp [bind, StateT.bind, Except.bind, h]

/-- Reading nothing is exact for the empty encoding. -/
theorem Exact.unit :
    Exact rest ok fault (pure () : StateT σ (Except ε) Unit) (fun _ => []) where
  sound := by
    intro s v s' hs hread
    cases hread
    exact ⟨rfl, hs⟩
  complete := by
    intro s v tail _ hrest
    exact ⟨s, rfl, hrest⟩
  safe := by
    intro s e _ hread
    cases hread

/-- Two exact readers in sequence are exact for the concatenated encodings. -/
theorem Exact.pair {read₁ : StateT σ (Except ε) α₁} {read₂ : StateT σ (Except ε) α₂}
    {encode₁ : α₁ → List β} {encode₂ : α₂ → List β}
    (h₁ : Exact rest ok fault read₁ encode₁) (h₂ : Exact rest ok fault read₂ encode₂) :
    Exact rest ok fault
      (do
        let a ← read₁
        let b ← read₂
        pure (a, b) : StateT σ (Except ε) (α₁ × α₂))
      (fun p => encode₁ p.1 ++ encode₂ p.2) where
  sound := by
    intro s v s' hs hread
    obtain ⟨a, s₁, hr₁, hread⟩ := bind_ok_iff.mp hread
    obtain ⟨b, s₂, hr₂, hread⟩ := bind_ok_iff.mp hread
    cases hread
    obtain ⟨hrest₁, hs₁⟩ := h₁.sound hs hr₁
    obtain ⟨hrest₂, hs₂⟩ := h₂.sound hs₁ hr₂
    exact ⟨by rw [hrest₁, hrest₂, List.append_assoc], hs₂⟩
  complete := by
    intro s v tail hs hrest
    rw [List.append_assoc] at hrest
    obtain ⟨s₁, hr₁, hrest₁, hs₁⟩ := h₁.run hs hrest
    obtain ⟨s₂, hr₂, hrest₂⟩ := h₂.complete hs₁ hrest₁
    exact ⟨s₂, bind_ok_iff.mpr ⟨_, s₁, hr₁, bind_ok_iff.mpr ⟨_, s₂, hr₂, rfl⟩⟩, hrest₂⟩
  safe := by
    intro s e hs hread
    rcases bind_error_iff.mp hread with hr₁ | ⟨a, s₁, hr₁, hread⟩
    · exact h₁.safe hs hr₁
    · have hs₁ := (h₁.sound hs hr₁).2
      rcases bind_error_iff.mp hread with hr₂ | ⟨b, s₂, _, hread⟩
      · exact h₂.safe hs₁ hr₂
      · cases hread

/-- Reading a value in another form. -/
theorem Exact.map {read : StateT σ (Except ε) α₁} {encode : α₁ → List β}
    (h : Exact rest ok fault read encode) (f : α₁ → α₂) (g : α₂ → α₁) (hfg : ∀ b, f (g b) = b)
    (hgf : ∀ a, g (f a) = a) :
    Exact rest ok fault
      (do
        let a ← read
        pure (f a) : StateT σ (Except ε) α₂)
      (fun b => encode (g b)) where
  sound := by
    intro s v s' hs hread
    obtain ⟨a, s₁, hr, hread⟩ := bind_ok_iff.mp hread
    cases hread
    rw [hgf]
    exact h.sound hs hr
  complete := by
    intro s v tail hs hrest
    obtain ⟨s', hr, htail⟩ := h.complete hs hrest
    refine ⟨s', bind_ok_iff.mpr ⟨g v, s', hr, ?_⟩, htail⟩
    rw [hfg]
    rfl
  safe := by
    intro s e hs hread
    rcases bind_error_iff.mp hread with hr | ⟨a, s₁, -, hread⟩
    · exact h.safe hs hr
    · cases hread

end ExactReader
