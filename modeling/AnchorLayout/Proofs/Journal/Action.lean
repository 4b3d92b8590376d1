import AnchorLayout.Journal
import Mathlib

/-!
# Runs of actions

An action is run by applying it to a state. This module says what the parts that
actions are made of do when they are run, how a run of a sequence splits into
the runs of its parts (`bind_eq_ok`), and what can be said of all runs from the
parts alone:

* a run that ends with a result goes along a relation of states with their
  journals (`Along`);
* any run goes along a relation of states (`Frames`);
* two runs from related states end alike, in related states (`Agrees`).

A traced call does what its body does (`exists_call_eq`), so the last two do not
depend on whether it is traced.
-/

namespace AnchorLayout

namespace Action

variable {σ α β : Type}

/-! ## The parts of actions -/

/-- A sequence ends where its first part fails, and otherwise as its second
    part does. -/
theorem bind_apply (a : Action σ α) (f : α → Action σ β) (s : Journaled σ) :
    (a >>= f) s =
      match a s with
      | (.ok x, s₁) => f x s₁
      | (.error e, s₁) => (.error e, s₁) := by
  change ExceptT.bindCont f (a s).1 (a s).2 = _
  rcases a s with ⟨x | e, s₁⟩ <;> rfl

@[simp] theorem pure_apply (x : α) (s : Journaled σ) : (pure x : Action σ α) s = (.ok x, s) := rfl

@[simp] theorem throw_apply (e : Failure) (s : Journaled σ) :
    (throw e : Action σ α) s = (.error e, s) := rfl

@[simp] theorem read_apply (s : Journaled σ) : Action.read s = (.ok s.state, s) := rfl

theorem read_bind_apply (f : σ → Action σ α) (s : Journaled σ) :
    (Action.read >>= f) s = f s.state s := rfl

@[simp] theorem change_apply (f : σ → σ) (s : Journaled σ) :
    Action.change f s = (.ok (), { s with state := f s.state }) := rfl

@[simp] theorem note_apply (e : Event) (s : Journaled σ) :
    Action.note e s = (.ok (), { s with journal := s.journal.write e }) := rfl

@[simp] theorem ofExcept_apply (r : Except Failure α) (s : Journaled σ) :
    (Action.ofExcept r : Action σ α) s = (r, s) := by
  cases r <;> rfl

/-- A sequence ends with a result if both of its parts do. -/
theorem bind_eq_ok {a : Action σ α} {f : α → Action σ β} {s s' : Journaled σ} {y : β} :
    (a >>= f) s = (.ok y, s') ↔ ∃ x s₁, a s = (.ok x, s₁) ∧ f x s₁ = (.ok y, s') := by
  rw [bind_apply]
  constructor
  · intro h
    split at h
    · next x s₁ ha => exact ⟨x, s₁, ha, h⟩
    · cases h
  · rintro ⟨x, s₁, ha, hf⟩
    rw [ha]
    exact hf

/-- A sequence that begins with a step without an effect ends with a result if
    both have one. -/
theorem ofExcept_bind_eq_ok {r : Except Failure α} {f : α → Action σ β} {s s' : Journaled σ}
    {y : β} : (Action.ofExcept r >>= f) s = (.ok y, s') ↔ ∃ x, r = .ok x ∧ f x s = (.ok y, s') := by
  rw [bind_eq_ok]
  constructor
  · rintro ⟨x, s₁, hr, hf⟩
    rw [ofExcept_apply] at hr
    cases hr
    exact ⟨x, rfl, hf⟩
  · rintro ⟨x, rfl, hf⟩
    exact ⟨x, s, rfl, hf⟩

/-- What is done to a part of the state is done to that part. -/
theorem zoom_apply {τ : Type} (get : τ → σ) (set : τ → σ → τ) (a : Action σ α) (s : Journaled τ) :
    Action.zoom get set a s =
      ((a ⟨get s.state, s.journal⟩).1, ⟨set s.state (a ⟨get s.state, s.journal⟩).2.state,
        (a ⟨get s.state, s.journal⟩).2.journal⟩) := rfl

/-- A handler is run in the state that the failure has left. -/
theorem tryCatch_apply (a : Action σ α) (handle : Failure → Action σ α) (s : Journaled σ) :
    tryCatch a handle s =
      match a s with
      | (.ok x, s₁) => (.ok x, s₁)
      | (.error e, s₁) => handle e s₁ := by
  change ExceptT.tryCatch a handle s = _
  simp only [ExceptT.tryCatch, ExceptT.mk, bind, StateT.bind]
  generalize a s = r
  rcases r with ⟨e | x, s₁⟩ <;> rfl

/-- A traced call is its body, with an event before it and one after it if
    calls are traced. -/
theorem call_apply (t : Tracing) (args : List Argument) (named : List (String × Argument))
    (result : α → Argument) (body : Action σ α) (s : Journaled σ) :
    t.call args named result body s =
      if s.journal.accepts .debug then
        match body { s with journal := s.journal.write (.entered t args named) } with
        | (.ok x, s₁) => (.ok x, { s₁ with journal := s₁.journal.write (.left t (result x)) })
        | (.error e, s₁) => (.error e, { s₁ with journal := s₁.journal.write (.raised t e) })
      else body s := by
  rw [Tracing.call, bind_apply]
  change (if s.journal.accepts .debug then _ else body : Action σ α) s = _
  split_ifs
  · simp only [bind_apply, note_apply, tryCatch_apply]
    generalize body _ = r
    rcases r with ⟨e | x, s₁⟩ <;> rfl
  · rfl

/-- Traced or not, a call ends as its body does with some journal. -/
theorem exists_call_eq (t : Tracing) (args : List Argument) (named : List (String × Argument))
    (result : α → Argument) (body : Action σ α) (s : Journaled σ) :
    ∃ j, (t.call args named result body s).1 = (body ⟨s.state, j⟩).1 ∧
      (t.call args named result body s).2.state = (body ⟨s.state, j⟩).2.state := by
  rw [call_apply]
  split_ifs
  · refine ⟨s.journal.write (.entered t args named), ?_⟩
    generalize body _ = r
    obtain ⟨e | x, s₁⟩ := r <;> exact ⟨rfl, rfl⟩
  · exact ⟨s.journal, rfl, rfl⟩

/-- A question that is put to the state has its answer, traced or not, and
    leaves the state as it is. -/
theorem call_ask (t : Tracing) (args : List Argument) (named : List (String × Argument))
    (result : α → Argument) (f : σ → Except Failure α) (s : Journaled σ) :
    (t.call args named result (do Action.ofExcept (f (← Action.read))) s).1 = f s.state ∧
      (t.call args named result (do Action.ofExcept (f (← Action.read))) s).2.state = s.state := by
  obtain ⟨j, hr, hs⟩ :=
    exists_call_eq t args named result (do Action.ofExcept (f (← Action.read))) s
  rw [hr, hs, read_bind_apply, ofExcept_apply]
  exact ⟨rfl, rfl⟩

/-! ## Runs that end with a result -/

/-- Every run of an action that ends with a result has the property `P`. -/
def Ensures (a : Action σ α) (P : Journaled σ → α → Journaled σ → Prop) : Prop :=
  ∀ ⦃s x s'⦄, a s = (.ok x, s') → P s x s'

theorem ensures_throw {P : Journaled σ → α → Journaled σ → Prop} (e : Failure) :
    Ensures (throw e : Action σ α) P := by
  intro s x s' h
  cases h

/-- Every run of an action that ends with a result goes along a relation of
    states. -/
def Along (R : Journaled σ → Journaled σ → Prop) (a : Action σ α) : Prop :=
  Ensures a fun s _ s' => R s s'

section

variable {R : Journaled σ → Journaled σ → Prop} [IsPreorder (Journaled σ) R]

theorem along_pure (x : α) : Along R (pure x) := by
  intro s y s' h
  cases h
  exact refl s

theorem along_read : Along R Action.read := by
  intro s y s' h
  cases h
  exact refl s

/-- A sequence goes where its parts go, one after the other. -/
theorem Along.bind {a : Action σ α} {f : α → Action σ β} (ha : Along R a)
    (hf : ∀ x, Along R (f x)) : Along R (a >>= f) := by
  intro s y s' h
  obtain ⟨x, s₁, ha', hf'⟩ := bind_eq_ok.1 h
  exact IsTrans.trans _ _ _ (ha ha') (hf x hf')

end

/-! ## All runs -/

/-- Every run of an action goes along a relation of states, whether it ends
    with a result or fails. -/
def Frames (R : σ → σ → Prop) (a : Action σ α) : Prop := ∀ s, R s.state (a s).2.state

section

variable {R : σ → σ → Prop} [IsPreorder σ R]

theorem frames_pure (x : α) : Frames R (pure x : Action σ α) := fun s => refl s.state

theorem frames_throw (e : Failure) : Frames R (throw e : Action σ α) := fun s => refl s.state

/-- A question that is put to the state leaves it as it is. -/
theorem frames_ask (f : σ → Except Failure α) :
    Frames R (do Action.ofExcept (f (← Action.read)) : Action σ α) := by
  intro s
  rw [read_bind_apply, ofExcept_apply]
  exact refl s.state

/-- What is done after a part of an action has to go along with the results
    that this can have. -/
theorem Frames.bind_of_eq_ok {a : Action σ α} {f : α → Action σ β} (ha : Frames R a)
    (hf : ∀ ⦃s x s₁⦄, a s = (.ok x, s₁) → Frames R (f x)) : Frames R (a >>= f) := by
  intro s
  have hs := ha s
  rw [bind_apply]
  cases hr : a s with | mk r s₁ =>
  rw [hr] at hs
  cases r with
  | error e => exact hs
  | ok x => exact IsTrans.trans _ _ _ hs (hf hr s₁)

theorem Frames.bind {a : Action σ α} {f : α → Action σ β} (ha : Frames R a)
    (hf : ∀ x, Frames R (f x)) : Frames R (a >>= f) :=
  ha.bind_of_eq_ok fun _ x _ _ => hf x

end

/-- Tracing does not touch the state. -/
theorem Frames.call {R : σ → σ → Prop} {body : Action σ α} (hb : Frames R body) (t : Tracing)
    (args : List Argument) (named : List (String × Argument)) (result : α → Argument) :
    Frames R (t.call args named result body) := by
  intro s
  obtain ⟨j, -, hs⟩ := exists_call_eq t args named result body s
  rw [hs]
  exact hb ⟨s.state, j⟩

/-! ## Two runs of one action -/

/-- Two runs of an action from related states end with the same result, or the
    same failure, in states that are related again. The journals are of no
    account. -/
def Agrees (R : σ → σ → Prop) (a : Action σ α) : Prop :=
  ∀ ⦃s s'⦄, R s.state s'.state → (a s).1 = (a s').1 ∧ R (a s).2.state (a s').2.state

section

variable {R : σ → σ → Prop}

theorem agrees_pure (x : α) : Agrees R (pure x : Action σ α) := fun _ _ h => ⟨rfl, h⟩

theorem agrees_throw (e : Failure) : Agrees R (throw e : Action σ α) := fun _ _ h => ⟨rfl, h⟩

theorem agrees_change {f : σ → σ} (hf : ∀ ⦃r r'⦄, R r r' → R (f r) (f r')) :
    Agrees R (Action.change f) := fun _ _ h => ⟨rfl, hf h⟩

theorem agrees_note (e : Event) : Agrees R (Action.note e : Action σ Unit) := fun _ _ h => ⟨rfl, h⟩

/-- A question that has the same answer in related states. -/
theorem agrees_ask {f : σ → Except Failure α} (hf : ∀ ⦃r r'⦄, R r r' → f r = f r') :
    Agrees R (do Action.ofExcept (f (← Action.read)) : Action σ α) := by
  intro s s' h
  rw [read_bind_apply, read_bind_apply, ofExcept_apply, ofExcept_apply]
  exact ⟨hf h, h⟩

/-- Two runs agree if they agree part by part. -/
theorem Agrees.bind {a : Action σ α} {f : α → Action σ β} (ha : Agrees R a)
    (hf : ∀ x, Agrees R (f x)) : Agrees R (a >>= f) := by
  intro s s' h
  obtain ⟨hr, hs⟩ := ha h
  -- The first parts end with the same result,
  -- so the same second part is run, or none.
  rw [bind_apply, bind_apply]
  generalize a s = r at hr hs ⊢
  generalize a s' = r' at hr hs ⊢
  obtain ⟨e | x, s₁⟩ := r <;> obtain ⟨e' | x', s₁'⟩ := r' <;> cases hr
  · exact ⟨rfl, hs⟩
  · exact hf x hs

/-- A traced call gives what its body gives. -/
theorem Agrees.call {body : Action σ α} (hb : Agrees R body) (t : Tracing)
    (args : List Argument) (named : List (String × Argument)) (result : α → Argument) :
    Agrees R (t.call args named result body) := by
  intro s s' h
  obtain ⟨j, hr, hs⟩ := exists_call_eq t args named result body s
  obtain ⟨j', hr', hs'⟩ := exists_call_eq t args named result body s'
  rw [hr, hs, hr', hs']
  have h₀ : R (⟨s.state, j⟩ : Journaled σ).state (⟨s'.state, j'⟩ : Journaled σ).state := h
  exact hb h₀

/-- Where one of the runs ends with a result, so does the other. -/
theorem Agrees.rerun {a : Action σ α} (ha : Agrees R a) {s s' : Journaled σ}
    {r : Except Failure α} (h : a s = (r, s')) {s₂ : Journaled σ} (hR : R s.state s₂.state) :
    ∃ s₂', a s₂ = (r, s₂') ∧ R s'.state s₂'.state := by
  obtain ⟨hr, hs⟩ := ha hR
  rw [h] at hr hs
  exact ⟨(a s₂).2, Prod.ext hr.symm rfl, hs⟩

end

/-! ## Changes of the state -/

/-- An action that always succeeds and changes the state by `f`. -/
def Does (a : Action σ Unit) (f : σ → σ) : Prop := ∀ s, ∃ j, a s = (.ok (), ⟨f s.state, j⟩)

theorem Does.frames {R : σ → σ → Prop} {a : Action σ Unit} {f : σ → σ} (ha : Does a f)
    (hf : ∀ r, R r (f r)) : Frames R a := by
  intro s
  obtain ⟨j, hs⟩ := ha s
  rw [hs]
  exact hf s.state

theorem Does.agrees {R : σ → σ → Prop} {a : Action σ Unit} {f : σ → σ} (ha : Does a f)
    (hf : ∀ ⦃r r'⦄, R r r' → R (f r) (f r')) : Agrees R a := by
  intro s s' h
  obtain ⟨j, hs⟩ := ha s
  obtain ⟨j', hs'⟩ := ha s'
  rw [hs, hs']
  exact ⟨rfl, hf h⟩

/-! ## The journal has no influence -/

/-- The result of an action and the state that it reaches do not depend on the
    journal. -/
def Transparent (a : Action σ α) : Prop := Agrees Eq a

theorem transparent_change (f : σ → σ) : Transparent (Action.change f) :=
  agrees_change fun _ _ => congrArg f

theorem transparent_read : Transparent (Action.read : Action σ σ) :=
  fun _ _ h => ⟨congrArg Except.ok h, h⟩

/-- What is done to a part of the state does not depend on the journal if it
    does not where the part is all. -/
theorem Transparent.zoom {τ : Type} {a : Action σ α} (ha : Transparent a) (get : τ → σ)
    (set : τ → σ → τ) : Transparent (Action.zoom get set a) := by
  intro s s' h
  have hget : (⟨get s.state, s.journal⟩ : Journaled σ).state =
      (⟨get s'.state, s'.journal⟩ : Journaled σ).state := congrArg get h
  obtain ⟨hr, hs⟩ := ha hget
  exact ⟨hr, congrArg₂ set h hs⟩

/-- A run can be repeated with another journal. -/
theorem Transparent.rerun {a : Action σ α} (ha : Transparent a) {s s' : Journaled σ}
    {r : Except Failure α} (h : a s = (r, s')) (j : Journal) :
    ∃ j', a ⟨s.state, j⟩ = (r, ⟨s'.state, j'⟩) := by
  have h₀ : s.state = (⟨s.state, j⟩ : Journaled σ).state := rfl
  obtain ⟨s₂, hs₂, hs⟩ := Agrees.rerun ha h h₀
  exact ⟨s₂.journal, by rw [hs₂, hs]⟩

end Action

end AnchorLayout
