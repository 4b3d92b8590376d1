import AnchorLayout.ShapeId

/-!
# Diagnostics

What is worth telling about a shape although it can be realized.
-/

namespace AnchorLayout

/-- How serious a diagnostic is. -/
inductive Severity where
  | warning
  | error
  deriving DecidableEq, Repr

namespace Severity

/-- The name of a severity. -/
def name : Severity → String
  | .warning => "warning"
  | .error => "error"

/-- The severity of a name. -/
def ofName? (s : String) : Option Severity := [warning, error].find? fun v => s == v.name

end Severity

/-- A remark on a shape. -/
structure Diagnostic where
  severity : Severity
  id : ShapeId
  message : String
  deriving BEq

namespace Diagnostic

/-- A diagnostic as a line of text. -/
def text (d : Diagnostic) : String :=
  "[" ++ d.severity.name ++ "] " ++ d.id.plainText ++ ": " ++ d.message

end Diagnostic

end AnchorLayout
