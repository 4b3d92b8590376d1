import AnchorLayout.Failure

/-!
# Folders

The files that a command line can read, as one folder with the texts of its
files, in which the command line is run. A path is followed name by name
(`Folder.read`): an empty name and a single point stay where they are, two
points leave the folder, and of what lies outside it nothing is known but
further folders.
-/

namespace AnchorLayout.CommandLine

/-- A folder, as the texts of its files by their names. -/
abbrev Folder := Table String String

namespace Folder

/-- Where the following of a path has come to. -/
inductive Place where
  /-- In the folder itself. -/
  | inside
  /-- In another folder. -/
  | outside
  /-- At a file with this text. -/
  | file (text : String)
  deriving DecidableEq, Repr

/-- The most bytes of a name, and of a path. -/
def nameLimit : Nat := 255
def pathLimit : Nat := 4095

/-- Follows a name of the path `path`. -/
def follow (folder : Folder) (path : String) (place : Place) (name : String) :
    Except Failure Place :=
  match place with
  | .file _ => .error (.notADirectory path)
  | place =>
    if name.isEmpty || name == "." then .ok place
    else if name == ".." then .ok .outside
    else if nameLimit < name.utf8ByteSize then .error (.nameTooLong path)
    else
      match place, folder.get? name with
      | .inside, some text => .ok (.file text)
      | _, _ => .error (.fileNotFound path)

/-- Follows the names of a path one after the other. -/
def followAll (folder : Folder) (path : String) (place : Place) :
    List String → Except Failure Place
  | [] => .ok place
  | name :: rest => do followAll folder path (← folder.follow path place name) rest

/-- The names of a path. One that begins with a slash begins with an empty
    name. -/
def names (path : String) : List String := path.splitOn "/"

/-- The text of the file under a path. -/
def read (folder : Folder) (path : String) : Except Failure String := do
  if path.contains (Char.ofNat 0) then throw .nullInPath
  if path.isEmpty then throw (.fileNotFound path)
  if pathLimit < path.utf8ByteSize then throw (.nameTooLong path)
  let start := if path.startsWith "/" then Place.outside else .inside
  match ← folder.followAll path start (names path) with
  | .file text => return text
  | _ => throw (.isDirectory path)

end Folder

end AnchorLayout.CommandLine
