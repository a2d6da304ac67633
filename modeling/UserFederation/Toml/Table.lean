import UserFederation.Document

/-! The tables of a TOML text while it is read. A table is explicit once it has a header or braces
of its own; until then it exists because a longer key or header goes through it. No key is set
twice, and a table that is made by dots can only be extended by dots. -/

namespace UserFederation.Toml

/-- A part of a table. -/
inductive Node
  | leaf (value : Document)
  | table (implicit dotted : Bool) (entries : List (String × Node))
  /-- An array of explicit tables, the last one first. -/
  | tables (elements : List (List (String × Node)))

/-- The entries of a table. -/
abbrev Entries := List (String × Node)

namespace Node

mutual

/-- What a part says. -/
def document : Node → Document
  | .leaf value => value
  | .table _ _ entries => .map (entryDocuments entries)
  | .tables elements => .seq (elementDocuments elements).reverse

/-- What the entries of a table say. -/
def entryDocuments : List (String × Node) → List (String × Document)
  | [] => []
  | (k, n) :: rest => (k, n.document) :: entryDocuments rest

/-- What the elements of an array say. -/
def elementDocuments : List (List (String × Node)) → List Document
  | [] => []
  | entries :: rest => .map (entryDocuments entries) :: elementDocuments rest

end

end Node

namespace Entries

/-- Replaces the value of a key, or adds it. -/
def set (entries : Entries) (key : String) (node : Node) : Entries :=
  match entries with
  | [] => [(key, node)]
  | (k, n) :: rest => if k = key then (key, node) :: rest else (k, n) :: set rest key node

/-- Changes the table at the end of a path. Missing tables on the way are made. A path of dots does
not go through explicit tables; of an array of tables, the last one is meant. The change is told
whether the table was made by dots. -/
def descend (byDots : Bool) (change : Bool → Entries → Option Entries) :
    List String → Bool → Entries → Option Entries
  | [], dotted, entries => change dotted entries
  | key :: path, _, entries =>
    match entries.lookup key with
    | none => do
      let inner ← descend byDots change path byDots []
      return entries.set key (.table true byDots inner)
    | some (.leaf _) => none
    | some (.tables []) => none
    | some (.tables (last :: others)) => do
      let last ← descend byDots change path false last
      return entries.set key (.tables (last :: others))
    | some (.table implicit dotted inner) => do
      if byDots ∧ !implicit then none
      let inner ← descend byDots change path dotted inner
      return entries.set key (.table implicit dotted inner)

/-- Sets a key of a table, whose path from there is by dots. -/
def setKey (path : List String) (key : String) (value : Document) (entries : Entries) :
    Option Entries :=
  descend true (fun dotted entries =>
    if dotted = path.isEmpty ∨ (entries.lookup key).isSome then none
    else some (entries.set key (.leaf value))) path false entries

/-- Opens the table of a header. -/
def openTable (path : List String) (key : String) (root : Entries) : Option Entries :=
  descend false (fun _ entries =>
    match entries.lookup key with
    | none => some (entries.set key (.table false false []))
    | some (.table true false inner) => some (entries.set key (.table false false inner))
    | some _ => none) path false root

/-- Opens a new table of an array of tables. -/
def openElement (path : List String) (key : String) (root : Entries) : Option Entries :=
  descend false (fun _ entries =>
    match entries.lookup key with
    | none => some (entries.set key (.tables [[]]))
    | some (.tables elements) => some (entries.set key (.tables ([] :: elements)))
    | some _ => none) path false root

/-- Sets a key below the table that was opened last. -/
def setBelow (current path : List String) (key : String) (value : Document) (root : Entries) :
    Option Entries :=
  descend false (fun _ entries => setKey path key value entries) current false root

/-- What a table says. -/
def document (entries : Entries) : Document := .map (Node.entryDocuments entries)

end Entries

end UserFederation.Toml
