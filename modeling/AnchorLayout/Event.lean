import AnchorLayout.Diagnostic
import AnchorLayout.Failure
import AnchorLayout.Value.Summary
import AnchorLayout.ViewBox

/-!
# Events

What a run notes down about itself, each kind of event with its level, its
logger and its wording. Traced calls are noted when they are entered and when
they are left, with a result or with a failure (`Event.entered`, `Event.left`,
`Event.raised`); the registry notes what is published and diagnosed, a pass
what it realizes, the command line what it works on.
-/

namespace AnchorLayout

/-- The levels of events, in ascending order. -/
inductive Level where
  | debug
  | info
  | warning
  | error
  | critical
  deriving DecidableEq, Repr

namespace Level

/-- The rank of a level. -/
def rank : Level → Nat
  | .debug => 10
  | .info => 20
  | .warning => 30
  | .error => 40
  | .critical => 50

/-- The least level of a rank or more, if there is one. -/
def ofRank? (n : Int) : Option Level :=
  [debug, info, warning, error, critical].find? fun level => n ≤ level.rank

/-- The name of a level. -/
def name : Level → String
  | .debug => "DEBUG"
  | .info => "INFO"
  | .warning => "WARNING"
  | .error => "ERROR"
  | .critical => "CRITICAL"

end Level

/-- What a call is given or gives back, as far as a trace shows it. -/
inductive Argument where
  | value (v : Value)
  /-- The registry that the call works on. -/
  | registry
  | specs (shapes : List ShapeSpec)
  | viewBox (v : Option ViewBox)
  /-- A table of realizers, as the kinds that it has. -/
  | realizers (kinds : Option (List String))

namespace Argument

/-- A text as an argument. -/
def text (s : String) : Argument := .value (.text s)

/-- An id as an argument, null if there is none. -/
def id (i : Option ShapeId) : Argument :=
  .value (match i with
    | some i => i.toValue
    | none => .null)

/-- A realizer in a table of them. -/
def realizerText (kind : String) : String := kind ++ "=<function realize_" ++ kind ++ " at 0x>"

/-- The text that stands for an argument in a trace. -/
def summary : Argument → String
  | .value v => v.summary {}
  | .registry => "<anchorscript.registry.AnchorRegistry object at 0x>"
  | .specs shapes =>
    Value.truncate 300
      (Value.listText (shapes.map fun s => Value.elideText Value.otherLimit s.logText))
  | .viewBox (some v) => Value.elideText Value.otherLimit v.display
  | .viewBox none => Value.null.summary {}
  | .realizers (some kinds) =>
    "\x7b" ++ commaJoin (Value.fewMembers 6 (kinds.map realizerText)) ++ "\x7d"
  | .realizers none => Value.null.summary {}

/-- The arguments of a call, given by place and by name, as a trace shows
    them. -/
def summaries (args : List Argument) (named : List (String × Argument)) : String :=
  let parts := args.map summary ++ named.map fun a => a.1 ++ "=" ++ a.2.summary
  if parts.isEmpty then "no-args" else commaJoin parts

end Argument

/-- How the calls of a function are traced. -/
structure Tracing where
  /-- The logger of the events. -/
  logger : String
  /-- The name under which the function appears. -/
  name : String
  /-- Whether the result is shown. -/
  showResult : Bool := true
  /-- Whether the first argument is left out. -/
  skipFirst : Bool := false

/-- Something that a run notes down. -/
inductive Event where
  /-- A traced call begins. -/
  | entered (t : Tracing) (args : List Argument) (named : List (String × Argument))
  /-- A traced call ends with a result. -/
  | left (t : Tracing) (result : Argument)
  /-- A traced call ends with a failure. -/
  | raised (t : Tracing) (e : Failure)
  /-- Anchors are published. -/
  | registered (count : Nat) (id : ShapeId)
  /-- A diagnostic is added. -/
  | diagnosed (d : Diagnostic)
  /-- A shape of a pass is realized. -/
  | realized (kind : String) (id : ShapeId)
  /-- All shapes of a pass are realized. -/
  | completed (shapes diagnostics : Nat)
  /-- A scene has been read from a file. -/
  | loading (path : String)
  /-- A pass over a scene fails. -/
  | passFailed (e : Failure)
  /-- An expression on the command line has no value. -/
  | notEvaluated (text : String) (e : Failure)

namespace Event

/-- The level of an event. -/
def level : Event → Level
  | .entered _ _ _ | .left _ _ | .raised _ _ | .registered _ _ | .diagnosed _ | .realized _ _ =>
    .debug
  | .completed _ _ | .loading _ => .info
  | .passFailed _ | .notEvaluated _ _ => .error

/-- The logger of an event. -/
def logger : Event → String
  | .entered t _ _ | .left t _ | .raised t _ => t.logger
  | .registered _ _ | .diagnosed _ => "anchorscript.registry"
  | .realized _ _ | .completed _ _ => "anchorscript.scene"
  | .loading _ | .passFailed _ | .notEvaluated _ _ => "anchorscript.__main__"

/-- The wording of an event. -/
def message : Event → String
  | .entered t args named =>
    "Entering " ++ t.name ++ "(" ++
      Argument.summaries (if t.skipFirst then args.drop 1 else args) named ++ ")"
  | .left t result =>
    "Exiting " ++ t.name ++ (if t.showResult then " -> " ++ result.summary else "")
  | .raised t e => t.name ++ " raised " ++ e.category.name ++ ": " ++ e.message
  | .registered count id => "Registered " ++ toString count ++ " anchor(s) for " ++ id.plainText
  | .diagnosed d => "Diagnostic " ++ d.text
  | .realized kind id => "Realized " ++ kind ++ " " ++ id.plainText
  | .completed shapes diagnostics =>
    "Pass complete: " ++ toString shapes ++ " shape(s), " ++ toString diagnostics ++
      " diagnostic(s)"
  | .loading path => "Loading scene from " ++ path
  | .passFailed e => "Pass failed: " ++ e.message
  | .notEvaluated text e => "Could not evaluate " ++ Text.quote text ++ ": " ++ e.message

end Event

end AnchorLayout
