import AnchorLayout.Proofs.Journal.Action

/-!
# What runs are made of

A run of an action is a sequence of steps, however the action is put together
and wherever it fails. Given which changes the single steps make, a run makes
the changes of its steps, one after the other (`Action.Makes`). An invariant
that relates the state to the changes made so far is kept by a run if it is
kept by the steps (`Action.Makes.preserves`).
-/

namespace AnchorLayout.Action

variable {σ χ α β : Type}

/-- The run of an action from a state is made of steps, and these make the
    changes of a list, in its order. Which changes a step makes is told by
    `S`. -/
inductive Makes (S : ∀ ⦃α : Type⦄, Action σ α → Journaled σ → List χ → Prop) :
    ∀ {α : Type}, Action σ α → Journaled σ → List χ → Prop where
  | step {α : Type} {a : Action σ α} {s : Journaled σ} {h : List χ} : S a s h → Makes S a s h
  | pure {α : Type} (x : α) (s : Journaled σ) : Makes S (pure x) s []
  | throw {α : Type} (e : Failure) (s : Journaled σ) : Makes S (throw e : Action σ α) s []
  /-- Both parts of a sequence are run if the first one ends with a result. -/
  | bind {α β : Type} {a : Action σ α} {f : α → Action σ β} {s s₁ : Journaled σ} {x : α}
      {h h' : List χ} :
      Makes S a s h → a s = (.ok x, s₁) → Makes S (f x) s₁ h' → Makes S (a >>= f) s (h ++ h')
  | stop {α β : Type} {a : Action σ α} {f : α → Action σ β} {s s₁ : Journaled σ} {e : Failure}
      {h : List χ} : Makes S a s h → a s = (.error e, s₁) → Makes S (a >>= f) s h

variable {S : ∀ ⦃α : Type⦄, Action σ α → Journaled σ → List χ → Prop}

/-- What is kept by every step is kept by every run. -/
theorem Makes.preserves {I : List χ → σ → Prop}
    (hI : ∀ ⦃α : Type⦄ ⦃a : Action σ α⦄ ⦃s h h₀⦄, S a s h → I h₀ s.state →
      I (h₀ ++ h) (a s).2.state)
    {a : Action σ α} {s : Journaled σ} {h h₀ : List χ} (hm : Makes S a s h) (h₀s : I h₀ s.state) :
    I (h₀ ++ h) (a s).2.state := by
  induction hm generalizing h₀ with
  | step hs => exact hI hs h₀s
  | pure x s | throw e s =>
    rw [List.append_nil]
    exact h₀s
  | bind _ ha _ ih ih' =>
    have h₁ := ih h₀s
    rw [ha] at h₁
    rw [bind_apply, ha, ← List.append_assoc]
    exact ih' h₁
  | stop _ ha ih =>
    have h₁ := ih h₀s
    rw [ha] at h₁
    rw [bind_apply, ha]
    exact h₁

/-! ## Actions that are made of steps -/

/-- Every run of an action is made of steps. -/
def Made (S : ∀ ⦃α : Type⦄, Action σ α → Journaled σ → List χ → Prop) (a : Action σ α) : Prop :=
  ∀ s, ∃ h, Makes S a s h

/-- A single step is a run of its own. -/
theorem made_of_step {a : Action σ α} (ha : ∀ s, ∃ h, S a s h) : Made S a :=
  fun s => (ha s).imp fun _ => .step

theorem made_pure (x : α) : Made S (pure x : Action σ α) := fun s => ⟨[], .pure x s⟩

theorem made_throw (e : Failure) : Made S (throw e : Action σ α) := fun s => ⟨[], .throw e s⟩

/-- A run of a sequence makes the changes of the first part, and then those of
    the second one if it is run. -/
theorem Made.bind {a : Action σ α} {f : α → Action σ β} (ha : Made S a)
    (hf : ∀ x, Made S (f x)) : Made S (a >>= f) := by
  intro s
  obtain ⟨h, hm⟩ := ha s
  rcases hs : a s with ⟨e | x, s₁⟩
  · exact ⟨h, .stop hm hs⟩
  · obtain ⟨h', hm'⟩ := hf x s₁
    exact ⟨h ++ h', .bind hm hs hm'⟩

end AnchorLayout.Action
