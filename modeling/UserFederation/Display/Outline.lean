import UserFederation.Json.Printer

/-! Values as outlines: one line per scalar, and the parts of a container two columns further in. -/

namespace UserFederation.Outline

/-- The blanks before a line. -/
def indent (level : Nat) : String := String.ofList (List.replicate (2 * level) ' ')

/-- The text of a value that is no container. -/
def scalar : Json → String
  | .str s => if s = "" then "\"\"" else s
  | j => j.compact

def isContainer : Json → Bool
  | .arr _ | .obj _ => true
  | _ => false

mutual

/-- The lines of a value. An empty container has none. -/
def ofValue (level : Nat) : Json → String
  | .arr items => ofItems level items
  | .obj fields => ofFields level fields
  | .str s => indent level ++ scalar (.str s) ++ "\n"
  | .null => indent level ++ scalar .null ++ "\n"
  | .bool b => indent level ++ scalar (.bool b) ++ "\n"
  | .int n => indent level ++ scalar (.int n) ++ "\n"
  | .float x => indent level ++ scalar (.float x) ++ "\n"

/-- The lines of the items of an array. An item that is no object follows its dash; of an array in
an array, only the first line does. -/
def ofItems (level : Nat) : List Json → String
  | [] => ""
  | .obj fields :: rest =>
    indent level ++ "-\n" ++ ofFields (level + 1) fields ++ ofItems level rest
  | item :: rest => indent level ++ "- " ++ ofValue 0 item ++ ofItems level rest

/-- The lines of the fields of an object. A scalar follows its key. -/
def ofFields (level : Nat) : List (String × Json) → String
  | [] => ""
  | (key, value) :: rest =>
    (if isContainer value then indent level ++ key ++ ":\n" ++ ofValue (level + 1) value
      else indent level ++ key ++ ": " ++ ofValue 0 value) ++ ofFields level rest

end

end UserFederation.Outline
