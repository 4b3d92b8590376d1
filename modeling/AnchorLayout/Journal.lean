import AnchorLayout.Event

/-!
# The journal

The events of a run, in order. A journal has a threshold, below which nothing
is written, and it never influences what is computed. `Action` is the type of
computations that change a state, may fail and keep a journal; the state that a
failed one has reached stays.

A traced call (`Tracing.call`) is noted down if events of debugging are written
when it begins. The call itself is made once, whether it is traced or not, and
its result and its failure are handed on unchanged.
-/

namespace AnchorLayout

/-- The events that have been written, and the least level that is written, if
    any is. -/
structure Journal where
  threshold : Option Level := none
  events : List Event := []

namespace Journal

/-- Whether events of a level are written. -/
def accepts (j : Journal) (level : Level) : Bool :=
  match j.threshold with
  | some least => least.rank ≤ level.rank
  | none => false

/-- Writes an event, if its level is reached. -/
def write (j : Journal) (e : Event) : Journal :=
  if j.accepts e.level then { j with events := j.events ++ [e] } else j

/-- What is written does not change what is let in afterwards. -/
@[simp] theorem threshold_write (j : Journal) (e : Event) :
    (j.write e).threshold = j.threshold := by
  unfold write; split <;> rfl

/-- A journal that takes in events of debugging takes in all. -/
theorem accepts_of_debug {j : Journal} (hj : j.threshold = some .debug) (level : Level) :
    j.accepts level = true := by
  rw [accepts, hj]
  cases level <;> rfl

end Journal

/-- A state with a journal beside it. -/
structure Journaled (σ : Type) where
  state : σ
  journal : Journal

/-- A computation that changes a state of type `σ`, may fail, and keeps a
    journal. -/
abbrev Action (σ : Type) := ExceptT Failure (StateM (Journaled σ))

namespace Action

variable {σ α : Type}

/-- The state. -/
def read : Action σ σ := do return (← get).state

/-- Changes the state. -/
def change (f : σ → σ) : Action σ Unit := modify fun s => { s with state := f s.state }

/-- The result of a step that does not change the state. -/
def ofExcept (r : Except Failure α) : Action σ α := MonadExcept.ofExcept r

/-- Writes an event into the journal. -/
def note (e : Event) : Action σ Unit := modify fun s => { s with journal := s.journal.write e }

/-- Whether events of a level are written. -/
def isNoted (level : Level) : Action σ Bool := do return (← get).journal.accepts level

/-- A computation on a part of the state. -/
def zoom {τ : Type} (get : τ → σ) (set : τ → σ → τ) (a : Action σ α) : Action τ α := fun s =>
  let (r, part) := a ⟨get s.state, s.journal⟩
  (r, ⟨set s.state part.state, part.journal⟩)

end Action

/-- Makes the call `body`, and notes it down if calls are traced. -/
def Tracing.call {σ α : Type} (t : Tracing) (args : List Argument)
    (named : List (String × Argument)) (result : α → Argument) (body : Action σ α) :
    Action σ α := do
  if ← Action.isNoted .debug then
    Action.note (.entered t args named)
    let a ← tryCatch body fun e => do
      Action.note (.raised t e)
      throw e
    Action.note (.left t (result a))
    return a
  else body

end AnchorLayout
