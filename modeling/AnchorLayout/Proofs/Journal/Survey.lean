import AnchorLayout.Proofs.Registry.Lookup

/-!
# Surveys of a journal

The journal of a pass tells what its shapes asked the registry for. A survey
goes through the events and collects the questions with their answers, each with
the number of shapes that had been realized when it was asked (`Answered`). A
question is open from the event that its call begins until a call ends.
-/

namespace AnchorLayout

namespace Question

/-- The shape that an expression is said to belong to by the arguments of a
    call that are given by name. -/
def selfOf : List (String × Argument) → Option ShapeId
  | [(_, .value v)] => (ShapeId.ofDatum v).given?
  | _ => none

/-- The question that a call puts to the registry, if it puts one. -/
def ofCall? (t : Tracing) (args : List Argument) (named : List (String × Argument)) :
    Option Question :=
  match args with
  | .registry :: .value (.text text) :: _ =>
    if t.name = "AnchorRegistry.resolve" ∨ t.name = "AnchorRegistry.resolve_with_axis_check" then
      some (.value text (selfOf named))
    else if t.name = "AnchorRegistry.resolve_point" then some (.point text)
    else none
  | _ => none

end Question

/-- A question that has been answered. -/
structure Answered where
  /-- How many shapes had been realized before. -/
  shape : Nat
  question : Question
  answer : Argument

/-- What has been gathered from the events of a journal. -/
structure Survey where
  /-- How many shapes have been realized. -/
  realized : Nat := 0
  /-- The question that is not answered yet. -/
  pending : Option Question := none
  answered : List Answered := []

namespace Survey

/-- Takes in an event. -/
def add (s : Survey) : Event → Survey
  | .entered t args named =>
    match Question.ofCall? t args named with
    | some q => { s with pending := some q }
    | none => s
  | .left _ result =>
    match s.pending with
    | some q => { s with pending := none, answered := s.answered ++ [⟨s.realized, q, result⟩] }
    | none => s
  | .raised _ _ => { s with pending := none }
  | .realized _ _ => { s with realized := s.realized + 1 }
  | _ => s

end Survey

/-- The survey of a list of events. -/
def survey (events : List Event) : Survey := events.foldl Survey.add {}

/-- The survey is made event by event. -/
theorem survey_append_singleton (events : List Event) (e : Event) :
    survey (events ++ [e]) = (survey events).add e := by
  rw [survey, List.foldl_append]
  rfl

namespace Journal

/-- The survey of the events of a journal. -/
def survey (j : Journal) : Survey := AnchorLayout.survey j.events

variable {j : Journal}

/-- An event that is written is surveyed. -/
theorem survey_write (hj : j.threshold = some .debug) (e : Event) :
    (j.write e).survey = j.survey.add e := by
  rw [write, if_pos (accepts_of_debug hj e.level)]
  exact survey_append_singleton j.events e

end Journal

end AnchorLayout
