import AnchorLayout.Expr.Lexeme
import AnchorLayout.ShapeId

/-!
# Failures

Everything that can go wrong between reading a scene and reporting on it, as
causes. A failure belongs to a category (`Failure.category`), which decides who
may deal with it: a syntax or resolution error is a fault of the scene and is
reported, the others end the run. The wording is in one place
(`Failure.message`).
-/

namespace AnchorLayout

/-- The categories of failures. -/
inductive Category where
  | syntaxError
  | resolution
  | value
  | type
  | key
  | overflow
  | attribute
  | json
  | missingFile
  | directory
  | notADirectory
  | system
  | recursion
  deriving DecidableEq, Repr

namespace Category

/-- The name of a category, as logs and reports give it. -/
def name : Category → String
  | .syntaxError => "ExprSyntaxError"
  | .resolution => "ResolutionError"
  | .value => "ValueError"
  | .type => "TypeError"
  | .key => "KeyError"
  | .overflow => "OverflowError"
  | .attribute => "AttributeError"
  | .json => "JSONDecodeError"
  | .missingFile => "FileNotFoundError"
  | .directory => "IsADirectoryError"
  | .notADirectory => "NotADirectoryError"
  | .system => "OSError"
  | .recursion => "RecursionError"

end Category

/-- What went wrong. -/
inductive Failure where
  /-- A text is no expression. -/
  | misread (e : SyntaxError)
  /-- A tree is no expression when it is evaluated. -/
  | notEvaluable (flaw : Flaw Value)
  /-- A tree is no expression when it is written. -/
  | notWritable (flaw : Flaw Value)
  /-- A text is no bare reference. -/
  | invalidReference (text : String)
  /-- A reference names a shape without anchors. -/
  | shapeNotFound (id : ShapeId) (anchor : String)
  /-- A reference names an anchor that its shape lacks. -/
  | anchorNotFound (id : ShapeId) (anchor : String)
  /-- A reference to the shape itself, where there is none. -/
  | selfUnknown (anchor : String)
  /-- A point where a number is asked for. -/
  | anchorIsPoint (id : ShapeId) (anchor : String)
  /-- A number where a point is asked for. -/
  | anchorIsNumber (id : ShapeId) (anchor : String)
  /-- The anchors of a shape that has none are asked for. -/
  | noAnchors (id : ShapeId)
  /-- Two shapes of a pass have one id. -/
  | duplicateId (id : ShapeId)
  /-- Something is to be kept, or looked up, under an id of which a part can
      change. -/
  | changeableId (part : Value)
  /-- A datum that is neither a number nor a point, as an anchor. -/
  | invalidAnchor (id : ShapeId) (anchor : String) (v : Value)
  /-- A truth value as a property that is a number. -/
  | truthProperty (id : ShapeId) (property : String)
  /-- A datum that is neither a number nor an expression, as a property. -/
  | invalidProperty (id : ShapeId) (property : String) (v : Value)
  /-- A datum that is no point, as a property that is one. -/
  | notAPoint (id : ShapeId) (property : String) (v : Value)
  /-- A text that is no number. -/
  | notANumber (text : String)
  /-- A text that is no integer. -/
  | notAnInteger (text : String)
  /-- A datum that cannot be a number. -/
  | noNumber (v : Value)
  /-- An array that has dimensions, where a number is asked for. -/
  | arrayForNumber
  /-- An array of which it cannot be said whether it counts as given. -/
  | noTruth (count : Nat)
  /-- An integer beyond the range of the doubles. -/
  | tooLarge
  /-- An integer text with more digits than are read. -/
  | tooManyDigits (count : Nat)
  /-- A diagnostic of a level that does not exist. -/
  | invalidSeverity (name : String)
  /-- A check against an axis that does not exist. -/
  | invalidAxis (name : String)
  /-- Bounds without one of their edges, or a table without one of its keys. -/
  | missingKey (key : String)
  /-- The bounding box of no points. -/
  | emptyPointSet
  /-- The angle of a rotation is infinite. -/
  | infiniteAngle
  /-- Numbers that cannot be grouped into points. -/
  | raggedPoints
  /-- A shape of an unknown kind. -/
  | unknownKind (kind : String)
  /-- A shape was realized without its final anchors. -/
  | notPublished (kind : String) (id : ShapeId)
  /-- A text for a view box that has not four words. -/
  | viewBoxWords (text : String)
  /-- A mapping for a view box without one of its numbers. -/
  | viewBoxMissing (name : String)
  /-- A datum that is no view box. -/
  | invalidViewBox (v : Value)
  /-- A shape of a scene that is no mapping. -/
  | shapeNotMapping (index : Nat) (v : Value)
  /-- A shape of a scene that is a number of an array. -/
  | shapeIsNumber (index : Nat) (x : Float)
  /-- A shape of a scene without a kind. -/
  | shapeWithoutKind (index : Nat)
  /-- A scene that is no mapping. -/
  | sceneNotMapping (v : Value)
  /-- A datum that has no items. -/
  | notIterable (v : Value)
  /-- A text that is no JSON document. -/
  | malformedJson
  /-- A JSON document whose lists or mappings are nested too deep. -/
  | tooDeep
  /-- A name of a log level that stands for the name of none. -/
  | unknownLevel (name : String)
  /-- A name of a log level that stands for something else, which is shown like
      this. -/
  | noLevel (shown : String)
  /-- A log level that is not given as a text. -/
  | levelNotText (v : Value)
  /-- A path under which there is no file. -/
  | fileNotFound (path : String)
  /-- A path of a directory. -/
  | isDirectory (path : String)
  /-- A path that goes on behind a file. -/
  | notADirectory (path : String)
  /-- A path that is too long, or has a name that is. -/
  | nameTooLong (path : String)
  /-- A path with a null character. -/
  | nullInPath
  /-- A failure of a function that was called, told by itself. -/
  | raised (category : Category) (message : String)

namespace Failure

/-- The category of a failure. -/
def category : Failure → Category
  | .misread _ => .syntaxError
  | .notEvaluable (.unknownOperator _) => .value
  | .notEvaluable (.notAnExpression _) => .type
  | .notWritable (.unknownOperator _) => .key
  | .notWritable (.notAnExpression _) => .value
  | .invalidReference _ | .shapeNotFound _ _ | .anchorNotFound _ _ | .selfUnknown _
  | .anchorIsPoint _ _ | .anchorIsNumber _ _ | .noAnchors _ | .duplicateId _
  | .notAPoint _ _ _ => .resolution
  | .changeableId _ | .invalidAnchor _ _ _ | .truthProperty _ _ | .invalidProperty _ _ _
  | .noNumber _ | .arrayForNumber | .notIterable _ | .noLevel _ => .type
  | .notANumber _ | .notAnInteger _ | .tooManyDigits _ | .invalidSeverity _ | .invalidAxis _
  | .noTruth _ | .shapeIsNumber _ _
  | .emptyPointSet | .infiniteAngle | .raggedPoints | .unknownKind _ | .notPublished _ _
  | .viewBoxWords _ | .viewBoxMissing _ | .invalidViewBox _ | .shapeNotMapping _ _
  | .shapeWithoutKind _ | .unknownLevel _ => .value
  | .tooLarge => .overflow
  | .missingKey _ => .key
  | .sceneNotMapping _ | .levelNotText _ => .attribute
  | .malformedJson => .json
  | .tooDeep => .recursion
  | .fileNotFound _ => .missingFile
  | .isDirectory _ => .directory
  | .notADirectory _ => .notADirectory
  | .nameTooLong _ => .system
  | .nullInPath => .value
  | .raised category _ => category

/-- A reference to an anchor of a shape, as it is written. -/
def reference (id : ShapeId) (anchor : String) : String := "#" ++ id.plainText ++ "." ++ anchor

/-- The subject of a sentence on a reference. -/
def onReference (id : ShapeId) (anchor : String) : String :=
  "Anchor reference \"" ++ reference id anchor ++ "\""

/-- The subject of a sentence on a property that should be a number. -/
def onProperty (id : ShapeId) (property : String) : String :=
  id.plainText ++ ": property \"" ++ property ++ "\" must be a number or expression"

/-- The first two hundred characters of a quoted text. -/
def quotedStart (text : String) : String :=
  String.ofList ((Text.quoteChars text.toList).take 200)

/-- The wording of a failure. -/
def message : Failure → String
  | .misread e => e.message
  | .notEvaluable (.unknownOperator symbol) => "unknown operator " ++ Text.quote symbol
  | .notEvaluable (.notAnExpression v) => "not an expression node: " ++ v.display
  | .notWritable (.unknownOperator symbol) => Text.quote symbol
  | .notWritable (.notAnExpression v) => "unsupported expression node " ++ v.display
  | .invalidReference text =>
    "Invalid anchor reference: \"" ++ text ++ "\". Expected format \"#id.anchor\"."
  | .shapeNotFound id anchor =>
    onReference id anchor ++ ": shape \"" ++ id.plainText ++
      "\" not found. Is it defined before this shape?"
  | .anchorNotFound id anchor =>
    onReference id anchor ++ ": anchor \"" ++ anchor ++ "\" not found on shape \"" ++
      id.plainText ++ "\"."
  | .selfUnknown anchor =>
    "\"$self." ++ anchor ++ "\" has no shape-id context to resolve against"
  | .anchorIsPoint id anchor =>
    onReference id anchor ++
      " resolved to a point, not a number. Use resolve_point() for point anchors."
  | .anchorIsNumber id anchor =>
    onReference id anchor ++
      " resolved to a number, not a point. Use resolve() for scalar anchors."
  | .noAnchors id => "shape \"" ++ id.plainText ++ "\" not found"
  | .duplicateId id => "duplicate shape id \"" ++ id.plainText ++ "\""
  | .changeableId part => "unhashable type: '" ++ part.typeName ++ "'"
  | .invalidAnchor id anchor v =>
    "anchor \"" ++ anchor ++ "\" on shape \"" ++ id.plainText ++
      "\" must be a number or a point, got " ++ v.display
  | .truthProperty id property => onProperty id property
  | .invalidProperty id property v => onProperty id property ++ ", got " ++ v.display
  | .notAPoint id property v =>
    id.plainText ++ ": property \"" ++ property ++ "\" is not a point: " ++ v.display
  | .notANumber text => "could not convert string to float: " ++ Text.quote text
  | .notAnInteger text => "invalid literal for int() with base 10: " ++ quotedStart text
  | .noNumber v => "float() argument must be a string or a real number, not '" ++ v.typeName ++ "'"
  | .arrayForNumber => "only 0-dimensional arrays can be converted to Python scalars"
  | .noTruth 0 =>
    "The truth value of an empty array is ambiguous. " ++
      "Use `array.size > 0` to check that an array is not empty."
  | .noTruth _ =>
    "The truth value of an array with more than one element is ambiguous. " ++
      "Use a.any() or a.all()"
  | .tooLarge => "int too large to convert to float"
  | .tooManyDigits count =>
    "Exceeds the limit (4300 digits) for integer string conversion: value has " ++
      toString count ++ " digits; use sys.set_int_max_str_digits() to increase the limit"
  | .invalidSeverity name =>
    "diagnostic level must be one of ('warning', 'error'), got " ++ Text.quote name
  | .invalidAxis name => "expected_axis must be 'x' or 'y', got " ++ Text.quote name
  | .missingKey key => Text.quote key
  | .emptyPointSet => "bounding box of an empty point set"
  | .infiniteAngle => "math domain error"
  | .raggedPoints => "points cannot be grouped in pairs"
  | .unknownKind kind => "unknown shape kind " ++ Text.quote kind
  | .notPublished kind id =>
    "realizer for " ++ Text.quote kind ++ " did not publish anchors for " ++ id.display
  | .viewBoxWords text => "viewBox needs four numbers, got " ++ Text.quote text
  | .viewBoxMissing name => "viewBox is missing " ++ Text.quote name
  | .invalidViewBox v => "invalid viewBox " ++ v.display
  | .shapeNotMapping index v =>
    "shape #" ++ toString index ++ " must be an object, got " ++ v.display
  | .shapeIsNumber index x =>
    "shape #" ++ toString index ++ " must be an object, got np.float64(" ++ Decimal.literal x ++ ")"
  | .shapeWithoutKind index => "shape #" ++ toString index ++ " has no \"type\""
  | .sceneNotMapping v => "'" ++ v.typeName ++ "' object has no attribute 'get'"
  | .notIterable (.array _ _) => "iteration over a 0-d array"
  | .notIterable v => "'" ++ v.typeName ++ "' object is not iterable"
  | .malformedJson => "not a JSON document"
  | .tooDeep => "maximum recursion depth exceeded"
  | .unknownLevel name => "Unknown level: " ++ Text.quote name
  | .noLevel shown => "Level not an integer or a valid string: " ++ shown
  | .levelNotText v => "'" ++ v.typeName ++ "' object has no attribute 'upper'"
  | .fileNotFound path => "[Errno 2] No such file or directory: " ++ Text.quote path
  | .isDirectory path => "[Errno 21] Is a directory: " ++ Text.quote path
  | .notADirectory path => "[Errno 20] Not a directory: " ++ Text.quote path
  | .nameTooLong path => "[Errno 36] File name too long: " ++ Text.quote path
  | .nullInPath => "embedded null byte"
  | .raised .key message => Text.quote message
  | .raised _ message => message

end Failure

namespace ShapeId

/-- An id as one that something can be kept under. -/
def asKey (id : ShapeId) : Except Failure ShapeId :=
  match id.changeable? with
  | some part => .error (.changeableId part)
  | none => .ok id

/-- A text can always be kept, unlike data that can change. -/
@[simp] theorem asKey_text (s : String) : (text s).asKey = .ok (text s) := rfl

end ShapeId

end AnchorLayout
