/-! The files below the directory where a program runs, which is also the home directory. -/

namespace UserFederation

/-- Why a file cannot be read or written. -/
inductive FileFault
  | missing
  | notDirectory
  | isDirectory
  | nameTooLong
  | other (text : String)
  deriving DecidableEq

def FileFault.message : FileFault → String
  | .missing => "No such file or directory (os error 2)"
  | .notDirectory => "Not a directory (os error 20)"
  | .isDirectory => "Is a directory (os error 21)"
  | .nameTooLong => "File name too long (os error 36)"
  | .other text => text

/-- A place among the files: the names on the way to it, the last one first. -/
abbrev Place := List String

/-- The directory that keeps the settings. -/
def settingsDirectory : String := ".keycloak"

/-- The place of the settings. -/
def settingsPlace : Place := ["kc.toml", settingsDirectory]

/-- The path of the settings below a home directory. -/
def settingsPath (home : String) : String := "/".intercalate (home :: settingsPlace.reverse)

/-- Some files with their contents. -/
structure Files where
  contents : List (Place × String) := []
  deriving DecidableEq

namespace Files

/-- The content of a file. -/
def get? (files : Files) (place : Place) : Option String := files.contents.lookup place

/-- Whether a place is a directory: one on the way to a file, or the one of the settings. -/
def isDirectory (files : Files) (place : Place) : Bool :=
  place = [] || place = [settingsDirectory] ||
    files.contents.any fun (file, _) => file ≠ place && place.isSuffixOf file

/-- The longest name that a file can have, in bytes. -/
def maxNameLength : Nat := 255

/-- The longest path that can be walked, in bytes. -/
def maxPathLength : Nat := 4095

/-- Where a walk stands: below the directory of the program, or outside of it, where nothing is
known but the directories above. -/
inductive Position
  | inside (place : Place)
  | above
  deriving DecidableEq

/-- Goes on to a name. What is left behind has to be a directory. -/
def step (files : Files) : Position → String → Except FileFault Position
  | .above, name =>
    if name = "" ∨ name = "." ∨ name = ".." then .ok .above else .error .missing
  | .inside place, name =>
    if !files.isDirectory place then
      .error (if (files.get? place).isSome then .notDirectory else .missing)
    else if maxNameLength < name.utf8ByteSize then .error .nameTooLong
    else match name with
      | "" | "." => .ok (.inside place)
      | ".." => .ok (match place with
        | [] => .above
        | _ :: parent => .inside parent)
      | name => .ok (.inside (name :: place))

/-- Reads the file at a path. -/
def read (files : Files) (path : String) : Except FileFault String := do
  if maxPathLength < path.utf8ByteSize then throw .nameTooLong
  let start : Position := if path.toList.head? = some '/' then .above else .inside []
  match ← (path.splitOn "/").foldlM files.step start with
  | .above => throw .isDirectory
  | .inside place =>
    match files.get? place with
    | some content => return content
    | none => throw (if files.isDirectory place then .isDirectory else .missing)

/-- Reads the file of the settings, if there is one. -/
def readSettings (files : Files) : Except FileFault (Option String) :=
  match files.get? settingsPlace with
  | some content => .ok (some content)
  | none => if files.isDirectory settingsPlace then .error .isDirectory else .ok none

/-- Writes the file of the settings. -/
def writeSettings (files : Files) (content : String) : Except FileFault Files :=
  if files.isDirectory settingsPlace then .error .isDirectory
  else .ok ⟨(settingsPlace, content) :: files.contents.filter (·.1 ≠ settingsPlace)⟩

/-- The files of some paths, of which a later one counts more. -/
def ofList (files : List (String × String)) : Files :=
  ⟨files.reverse.map fun (path, content) =>
    (((path.splitOn "/").filter fun name => name ≠ "" && name ≠ ".").reverse, content)⟩

end Files

end UserFederation
