import AnchorLayout.Proofs.Registry.Operating

/-!
# Routine

Whatever is done to a registry, and however it ends, what is noted down on the
way is routine: events of debugging and of information, and only where these
are written (`Journal.GoesOn`). A fault is told by the result of an action; it
is for those who called it to note it down.
-/

namespace AnchorLayout

open AnchorLayout.Action

/-- A journal that goes on with events which tell of no fault, all of a level
    that is written. -/
structure Journal.GoesOn (j j' : Journal) : Prop where
  threshold : j'.threshold = j.threshold
  events : ∃ es, j'.events = j.events ++ es ∧ ∀ e ∈ es, e.IsRoutine ∧ j.accepts e.level = true

/-- Which levels are let in is settled by the threshold. -/
theorem Journal.accepts_eq {j j' : Journal} (h : j'.threshold = j.threshold) :
    j'.accepts = j.accepts := by
  funext level
  rw [accepts, accepts, h]

instance : IsPreorder Journal Journal.GoesOn where
  refl j := ⟨rfl, [], (List.append_nil _).symm, List.forall_mem_nil _⟩
  trans j j' j'' h h' := by
    obtain ⟨es, hes, hroutine⟩ := h.events
    obtain ⟨es', hes', hroutine'⟩ := h'.events
    refine ⟨h'.threshold.trans h.threshold, es ++ es', ?_, List.forall_mem_append.2 ⟨hroutine, ?_⟩⟩
    · rw [hes', hes, List.append_assoc]
    · rwa [Journal.accepts_eq h.threshold] at hroutine'

/-- An event that tells of no fault goes to the end of the journal, or is not
    let in. -/
theorem Journal.goesOn_write (j : Journal) {e : Event} (he : e.IsRoutine) :
    j.GoesOn (j.write e) := by
  rw [write]
  split_ifs with hlevel
  · exact ⟨rfl, [e], rfl, List.forall_mem_singleton.2 ⟨he, hlevel⟩⟩
  · exact refl j

namespace Action

variable {σ α β : Type}

/-- However a run of an action ends, what it notes down is routine. -/
def IsRoutine (a : Action σ α) : Prop :=
  ∀ s : Journaled σ, s.journal.GoesOn (a s).2.journal

theorem isRoutine_pure (x : α) : IsRoutine (pure x : Action σ α) := fun s => refl s.journal

theorem isRoutine_throw (e : Failure) : IsRoutine (throw e : Action σ α) := fun s => refl s.journal

theorem isRoutine_change (f : σ → σ) : IsRoutine (Action.change f) := fun s => refl s.journal

theorem isRoutine_note {e : Event} (he : e.IsRoutine) : IsRoutine (Action.note e : Action σ Unit) :=
  fun s => s.journal.goesOn_write he

/-- A fault is told by the result, and nothing is noted down of it here. -/
theorem isRoutine_ofExcept (r : Except Failure α) : IsRoutine (Action.ofExcept r : Action σ α) := by
  intro s
  rw [ofExcept_apply]
  exact refl s.journal

/-- Whichever part ends a sequence, what has been noted down by then is
    routine. -/
theorem IsRoutine.bind {a : Action σ α} {f : α → Action σ β} (ha : IsRoutine a)
    (hf : ∀ x, IsRoutine (f x)) : IsRoutine (a >>= f) := by
  intro s
  have hs := ha s
  rw [bind_apply]
  generalize a s = t at hs ⊢
  obtain ⟨e | x, s₁⟩ := t
  · exact hs
  · exact IsTrans.trans _ _ _ hs (hf x s₁)

/-- The events of a traced call are of debugging, the one of a failure
    included. -/
theorem IsRoutine.call {body : Action σ α} (hb : IsRoutine body) (t : Tracing)
    (args : List Argument) (named : List (String × Argument)) (result : α → Argument) :
    IsRoutine (t.call args named result body) := by
  intro s
  rw [call_apply]
  split_ifs
  · have hs := hb { s with journal := s.journal.write (.entered t args named) }
    replace hs := IsTrans.trans _ _ _ (s.journal.goesOn_write (.inl rfl)) hs
    generalize body _ = t at hs ⊢
    obtain ⟨e | x, s₁⟩ := t <;> refine IsTrans.trans _ _ _ hs ?_ <;>
      exact s₁.journal.goesOn_write (.inl rfl)
  · exact hb s

end Action

namespace Registry

/-- All that is done to a registry is routine. -/
theorem operating_isRoutine : Operating fun ⦃_⦄ a => IsRoutine a where
  pure := isRoutine_pure
  throw := isRoutine_throw
  bind := IsRoutine.bind
  call := IsRoutine.call
  read := fun s => refl s.journal
  note _ he := isRoutine_note he
  report _ := (isRoutine_change _).bind fun _ => isRoutine_note (.inl rfl)
  register _ _ := (isRoutine_ofExcept _).bind fun _ => (isRoutine_ofExcept _).bind fun _ =>
    (isRoutine_change _).bind fun _ => isRoutine_note (.inl rfl)
  setViewBox _ := isRoutine_change _
  reset := isRoutine_change _

theorem canRecord_isRoutine (id : ShapeId) : CanRecord (fun ⦃_⦄ a => IsRoutine a) id :=
  fun _ => (isRoutine_ofExcept _).bind fun _ => isRoutine_change _

/-- A pass notes down no fault of its shapes; its result tells of it. -/
theorem isRoutine_runPass (shapes : List ShapeSpec) (viewBox : Option ViewBox) :
    IsRoutine (runPass shapes viewBox) :=
  operating_isRoutine.runPass (fun _ _ _ => canRecord_isRoutine _) viewBox

end Registry

end AnchorLayout
