import AnchorLayout.CommandLine.Arguments
import AnchorLayout.Expr.Printer
import AnchorLayout.Json
import AnchorLayout.Pass
import AnchorLayout.Scene

/-!
# Running the command line

A run reads a scene, makes a pass over it and prints a report, which tells of
each shape with its anchors, and then of the diagnostics. If an expression is
asked for, its canonical text and its value follow. A fault of the scene or of
the expression is noted down and ends the run with status one, after the
report; any other failure ends it at once.
-/

namespace AnchorLayout

/-! ## Reports -/

namespace Registry

/-- A text of lines, each of which is ended. -/
def lines (ls : List String) : String := String.join (ls.map (· ++ "\n"))

/-- The lines on the anchors of a shape. -/
def anchorLines (as : Anchors) : List String :=
  as.map fun a => "    " ++ a.1 ++ ": " ++ a.2.text

/-- The lines on a shape. -/
def recordLines (r : Registry) (s : ShapeRecord) : Except Failure (List String) := do
  let as ← r.anchorsOf s.id
  let marker := if s.autoId then " (auto id)" else ""
  return ("  " ++ s.kind ++ " " ++ s.id.plainText ++ marker) :: anchorLines as

/-- The lines on the diagnostics. -/
def diagnosticLines (ds : List Diagnostic) : List String :=
  if ds.isEmpty then ["  (none)"] else ds.map fun d => "  - " ++ d.text

/-- The report on a registry. -/
def reportText (r : Registry) : Except Failure String := do
  let shapes ← r.records.mapM r.recordLines
  return lines (["Shapes:"] ++ shapes.flatten ++ ["Diagnostics:"] ++ diagnosticLines r.diagnostics)

end Registry

/-! ## Runs -/

namespace CommandLine

/-- What a run works on: the registry, and what it has printed. -/
structure Desk where
  registry : Registry := {}
  printed : String := ""

/-- What is seen of a run: its status, unless a failure ended it, what it
    printed and what it noted down. -/
structure Outcome where
  status : Except Failure Nat
  stdout : String := ""
  stderr : String := ""

/-- A character in upper case, as far as it matters for the names of levels:
    beside the small letters of ASCII the dotless i, the long s, and the two
    ligatures of s and t. -/
def upperChars (c : Char) : List Char :=
  match c.toNat with
  | 0x131 => ['I']
  | 0x17F => ['S']
  | 0xFB05 | 0xFB06 => ['S', 'T']
  | _ => [c.toUpper]

/-- A text in upper case, as far as it matters for the names of levels. -/
def upper (s : String) : String := String.ofList (s.toList.flatMap upperChars)

/-- The names of levels, with the least level that each lets pass. -/
def levels : List (String × Level) :=
  [("NOTSET", .debug), ("DEBUG", .debug), ("INFO", .info), ("WARNING", .warning),
    ("WARN", .warning), ("ERROR", .error), ("CRITICAL", .critical), ("FATAL", .critical)]

/-- Two names that are spelt like those of levels and stand for something else:
    for how a line of the log is laid out, and for all ways in which one can
    be. -/
def levelImpostors : List (String × Failure) :=
  [("BASIC_FORMAT", .unknownLevel "%(levelname)s:%(name)s:%(message)s"),
    ("_STYLES", .noLevel ("\x7b" ++
      "'%': (<class 'logging.PercentStyle'>, '%(levelname)s:%(name)s:%(message)s'), " ++
      "'\x7b': (<class 'logging.StrFormatStyle'>, " ++
        "'\x7blevelname\x7d:\x7bname\x7d:\x7bmessage\x7d'), " ++
      "'$': (<class 'logging.StringTemplateStyle'>, " ++
        "'$\x7blevelname\x7d:$\x7bname\x7d:$\x7bmessage\x7d')" ++ "\x7d"))]

/-- The least level that is noted down, by its name in either case. A name of
    no level means the one of information. -/
def leastLevel : Setting → Except Failure Level
  | .nothing => .error (.levelNotText (.list []))
  | .text name =>
    match levels.lookup (upper name), levelImpostors.lookup (upper name) with
    | some level, _ => .ok level
    | none, some e => .error e
    | none, none => .ok .info

/-- An event as a line of the log. -/
def logLine (e : Event) : String := e.level.name ++ ":" ++ e.logger ++ ":" ++ e.message

/-- Prints a text. -/
def print (text : String) : Action Desk Unit :=
  Action.change fun d => { d with printed := d.printed ++ text }

/-- An operation on the registry. -/
def onRegistry {α : Type} (a : Action Registry α) : Action Desk α :=
  Action.zoom Desk.registry (fun d r => { d with registry := r }) a

/-- Prints the report. -/
def printReport : Action Desk Unit := do
  print (← Action.ofExcept ((← Action.read).registry.reportText))

/-- Whether a failure is a fault of the scene or of an expression. -/
def isFault (e : Failure) : Bool := e.category == .syntaxError || e.category == .resolution

/-- The result of a step, or the fault that ended it. Other failures are handed
    on. -/
def faultOf {α : Type} (a : Action Desk α) : Action Desk (Except Failure α) :=
  tryCatch (do return .ok (← a)) fun e => if isFault e then return .error e else throw e

/-- The canonical text of an expression. -/
def canonical (text : String) : Except Failure String := do
  match (← Registry.expression text).format with
  | .ok t => return t
  | .error flaw => throw (.notWritable flaw)

/-- The shape that an expression belongs to. An option that is set to nothing
    stands for an empty list, which no shape is known by. -/
def selfOf : Setting → ShapeId
  | .text s => .text s
  | .nothing => .ofDatum (.list [])

/-- Prints an expression with its value. -/
def printValue (text : String) (self : Option Setting) : Action Desk Nat := do
  match ← faultOf (onRegistry (Registry.resolve text (.byPlace (self.map selfOf)))) with
  | .error e =>
    Action.note (.notEvaluated text e)
    return 1
  | .ok x =>
    print ((← Action.ofExcept (canonical text)) ++ " = " ++ Decimal.plain x ++ "\n")
    return 0

/-- Works on the scene that is the text of a file. -/
def work (args : Arguments) (text : Except Failure String) : Action Desk Nat := do
  let data ← Action.ofExcept (text >>= Json.parse)
  Action.note (.loading args.path)
  let scene ← Action.ofExcept (Scene.ofValue data)
  match ← faultOf (onRegistry (runPass scene.shapes scene.viewBox)) with
  | .error e =>
    Action.note (.passFailed e)
    printReport
    return 1
  | .ok _ =>
    printReport
    match args.expr with
    | none | some .nothing => return 0
    | some (.text e) => if e.isEmpty then return 0 else printValue e args.selfId

/-- Carries out what arguments ask for, where `file` gives the text of a
    file. -/
def carryOut (args : Arguments) (file : String → Except Failure String) : Outcome :=
  match leastLevel args.logLevel with
  | .error e => { status := .error e }
  | .ok level =>
    let (status, s) := work args (file args.path) ⟨{}, { threshold := some level }⟩
    { status, stdout := s.state.printed, stderr := Registry.lines (s.journal.events.map logLine) }

/-- Runs a command line, where `file` gives the text of a file. -/
def run (args : List String) (file : String → Except Failure String) : Outcome :=
  match parse args with
  | .ok args => carryOut args file
  | .error .usage => { status := .ok 2 }
  | .error .help => { status := .ok 0 }

end CommandLine

end AnchorLayout
