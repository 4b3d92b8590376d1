import AnchorLayout.Text.Character

/-!
# Arguments of the command line

The command line takes the path of a scene and three options with a value,
which may be abbreviated as long as no other option begins alike, and may be
joined to their value with an equals sign (`parse`). An argument that begins
with a minus sign is a value only if it looks like a negative number or holds a
blank; `--` ends the options.
-/

namespace AnchorLayout.CommandLine

/-- The options. -/
inductive Flag where
  | help
  | logLevel
  | expr
  | selfId
  deriving DecidableEq, Repr

/-- The spellings of the options. -/
def spellings : List (String × Flag) :=
  [("-h", .help), ("--help", .help), ("--log-level", .logLevel), ("--expr", .expr),
    ("--self-id", .selfId)]

/-- What an option is set to. -/
inductive Setting where
  | text (s : String)
  /-- Nothing: the mark that ends the options has been joined to the option,
      and it is not a value. -/
  | nothing
  deriving DecidableEq, Repr

/-- What the arguments ask for. -/
structure Arguments where
  path : String
  logLevel : Setting := .text "WARNING"
  expr : Option Setting := none
  selfId : Option Setting := none
  deriving DecidableEq, Repr

/-- Why arguments are not carried out. -/
inductive Refusal where
  /-- The arguments are wrong. -/
  | usage
  /-- Help is asked for. -/
  | help
  deriving DecidableEq, Repr

/-- What an argument is by its look. -/
inductive Kind where
  /-- A value or a path. -/
  | plain
  /-- The mark that ends the options. -/
  | mark
  /-- An option, with the value that is joined to it. -/
  | option (flag : Flag) (value : Option String)
  /-- The short option `-h`, with these characters joined to it. -/
  | short (joined : List Char)
  /-- Something that looks like an option and is none. -/
  | unknown
  deriving DecidableEq, Repr

/-- A text before its first equals sign, and after it if there is one. -/
def splitValue (cs : List Char) : List Char × Option String :=
  let name := cs.takeWhile (· != '=')
  match cs.dropWhile (· != '=') with
  | [] => (name, none)
  | _ :: value => (name, some (String.ofList value))

/-- Whether a character is a decimal digit of any script. -/
def isDigit (c : Char) : Bool := (Text.digitValue? c).isSome

/-- Whether a text is made of digits alone, which a line feed may follow. -/
def isDigits (cs : List Char) : Bool :=
  let after := cs.dropWhile isDigit
  (cs.take 1).any isDigit && (after == [] || after == ['\n'])

/-- Whether a text is a negative number without an exponent. -/
def looksNegative : List Char → Bool
  | '-' :: cs =>
    isDigits cs ||
      match cs.dropWhile isDigit with
      | '.' :: fraction => isDigits fraction
      | _ => false
  | _ => false

/-- The options of which a text is the beginning. -/
def abbreviated (name : List Char) : List Flag :=
  (spellings.filter fun s => name.isPrefixOf s.1.toList).map Prod.snd

/-- An argument that begins with a minus sign and is no option. -/
def other (cs : List Char) : Kind :=
  if looksNegative cs || cs.contains ' ' then .plain else .unknown

/-- What an argument is by its look. An abbreviation of two options is wrong
    wherever it stands. -/
def classify (arg : String) : Except Refusal Kind :=
  let cs := arg.toList
  let (name, value) := splitValue cs
  match cs with
  | '-' :: '-' :: _ =>
    if arg == "--" then .ok .mark
    else
      match spellings.find? fun s => s.1.toList == name with
      | some s => .ok (.option s.2 value)
      | none =>
        match abbreviated name with
        | [] => .ok (other cs)
        | [flag] => .ok (.option flag value)
        | _ => .error .usage
  | '-' :: 'h' :: joined => .ok (.short joined)
  | ['-'] => .ok .plain
  | '-' :: _ => .ok (other cs)
  | _ => .ok .plain

/-- What each argument is by its look. Nothing is an option after the mark that
    ends them. -/
def classifyAll : List String → Except Refusal (List (String × Kind))
  | [] => .ok []
  | arg :: args => do
    let k ← classify arg
    if k = .mark then return (arg, .mark) :: args.map fun a => (a, .plain)
    return (arg, k) :: (← classifyAll args)

/-- What has been read of the arguments: the path, whether something was left
    over, and the values of the options. -/
structure Progress where
  path : Option String := none
  leftOver : Bool := false
  logLevel : Setting := .text "WARNING"
  expr : Option Setting := none
  selfId : Option Setting := none

/-- What a value sets an option to. -/
def Setting.ofValue (value : String) : Setting := if value == "--" then .nothing else .text value

/-- Gives an option its value, which the one that asks for help has not. -/
def Progress.set (p : Progress) (flag : Flag) (value : String) : Except Refusal Progress :=
  match flag with
  | .help => .error .usage
  | .logLevel => .ok { p with logLevel := .ofValue value }
  | .expr => .ok { p with expr := some (.ofValue value) }
  | .selfId => .ok { p with selfId := some (.ofValue value) }

/-- Takes an argument that belongs to no option: the path, or one too many. -/
def Progress.take (p : Progress) (arg : String) : Progress :=
  match p.path with
  | none => { p with path := some arg }
  | some _ => { p with leftOver := true }

/-- What the short option `-h` comes to. It may be repeated in one argument,
    also behind an equals sign, and nothing else may be joined to it. -/
def shortHelp (joined : List Char) : Refusal :=
  let repeated := match joined with
    | ['='] => false
    | '=' :: cs => cs.all (· == 'h')
    | cs => cs.all (· == 'h')
  if repeated then .help else .usage

/-- Reads arguments from left to right. The mark that ends the options may
    stand on either side of the path; elsewhere it is one argument too many. -/
def readAll (p : Progress) : List (String × Kind) → Except Refusal Progress
  | [] => .ok p
  | (arg, kind) :: rest =>
    match kind with
    | .plain =>
      match p.path, rest with
      | none, (_, .mark) :: rest => readAll (p.take arg) rest
      | _, rest => readAll (p.take arg) rest
    | .mark =>
      match p.path, rest with
      | none, [] => .ok p
      | none, (arg, _) :: rest => readAll (p.take arg) rest
      | some _, _ => .ok { p with leftOver := true }
    | .unknown => readAll { p with leftOver := true } rest
    | .short joined => .error (shortHelp joined)
    | .option .help none => .error .help
    | .option flag (some value) => do readAll (← p.set flag value) rest
    | .option flag none =>
      match rest with
      | (value, .plain) :: rest => do readAll (← p.set flag value) rest
      | _ => .error .usage

/-- What a command line asks for. -/
def parse (args : List String) : Except Refusal Arguments := do
  let p ← readAll {} (← classifyAll args)
  match p.path with
  | some path =>
    if p.leftOver then throw .usage
    return ⟨path, p.logLevel, p.expr, p.selfId⟩
  | none => throw .usage

end AnchorLayout.CommandLine
