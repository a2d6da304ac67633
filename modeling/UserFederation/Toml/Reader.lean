import UserFederation.Document.Record
import UserFederation.Toml.Lexeme
import UserFederation.Toml.Table

/-! Reading TOML texts. -/

namespace UserFederation.Toml

/-- Values are nested at most this deep, and keys have at most as many parts. -/
def maxDepth : Nat := 79

def isBare (c : Char) : Bool := c.isAlphanum || c = '-' || c = '_'

/-- Reads one part of a key. -/
def keyPart? : Reader String
  | '"' :: rest => (basic? rest).map (Prod.map String.ofList id)
  | '\'' :: rest => (literal? rest).map (Prod.map String.ofList id)
  | cs =>
    match cs.takeWhile isBare with
    | [] => none
    | word => some (String.ofList word, cs.dropWhile isBare)

/-- Reads the parts of a key that follow a dot. -/
def moreKey? (cs : List Char) : Option (List String × List Char) :=
  match skipBlank cs with
  | '.' :: rest => do
    let (part, after) ← keyPart? (skipBlank rest)
    if _h : after.length < cs.length then
      let (parts, after) ← moreKey? after
      return (part :: parts, after)
    else none
  | cs => some ([], cs)
termination_by cs.length

/-- Reads a key: its parts but the last, and the last. Blanks around it are skipped. -/
def key? (cs : List Char) : Option ((List String × String) × List Char) := do
  let (part, rest) ← keyPart? (skipBlank cs)
  let (parts, rest) ← moreKey? rest
  if maxDepth < parts.length + 1 then none
  let all := part :: parts
  return ((all.dropLast, all.getLast (by simp [all])), rest)

/-- Reads the values of an array after its bracket; a comma may follow the last one. -/
def arrayItems? (value? : Reader Document) (cs : List Char) :
    Option (List Document × List Char) := do
  match ← skipSpace? false cs with
  | ']' :: rest => return ([], rest)
  | start =>
    let (item, rest) ← value? start
    match ← skipSpace? false rest with
    | ']' :: rest => return ([item], rest)
    | ',' :: rest =>
      if _h : rest.length < cs.length then
        let (items, rest) ← arrayItems? value? rest
        return (item :: items, rest)
      else none
    | _ => none
termination_by cs.length

/-- Reads a key, the sign and a value. -/
def pair? (value? : Reader Document) (cs : List Char) :
    Option (((List String × String) × Document) × List Char) := do
  let (key, rest) ← key? cs
  let rest ← word? ['='] rest
  let (value, rest) ← value? (skipBlank rest)
  return ((key, value), rest)

/-- Reads the rest of a table in braces, after its first pair if that was read. -/
def inlinePairs? (value? : Reader Document) (entries : Entries) (cs : List Char) :
    Option (Entries × List Char) := do
  let (((path, key), value), rest) ← pair? value? cs
  let entries ← entries.setKey path key value
  match skipBlank rest with
  | '\x7d' :: rest => return (entries, rest)
  | ',' :: rest =>
    if _h : rest.length < cs.length then inlinePairs? value? entries rest else none
  | _ => none
termination_by cs.length

/-- Reads a value whose containers are nested to some depth. -/
def value? : (depth : Nat) → Reader Document
  | 0, cs => scalar? cs
  | depth + 1, '[' :: rest => do
    let (items, rest) ← arrayItems? (value? depth) rest
    return (.seq items, rest)
  | depth + 1, '\x7b' :: rest =>
    match skipBlank rest with
    | '\x7d' :: rest => some (.map [], rest)
    | rest => do
      let (entries, rest) ← inlinePairs? (value? depth) [] rest
      return (entries.document, rest)
  | _ + 1, cs => scalar? cs

/-- What was read of a text: its tables, and the path of the table that was opened last. -/
structure Reading where
  root : Entries := []
  current : List String := []

/-- Reads a line that is not empty: a header or a pair. -/
def line? (s : Reading) (cs : List Char) : Option (Reading × List Char) :=
  match cs with
  | '[' :: '[' :: rest => do
    let ((path, key), rest) ← key? rest
    let rest ← word? [']', ']'] rest
    let root ← s.root.openElement path key
    return (⟨root, path ++ [key]⟩, ← lineEnd? rest)
  | '[' :: rest => do
    let ((path, key), rest) ← key? rest
    let rest ← word? [']'] rest
    let root ← s.root.openTable path key
    return (⟨root, path ++ [key]⟩, ← lineEnd? rest)
  | cs => do
    let (((path, key), value), rest) ← pair? (value? maxDepth) cs
    let root ← s.root.setBelow s.current path key value
    return (⟨root, s.current⟩, ← lineEnd? rest)

/-- Reads all lines. -/
def lines? (s : Reading) (cs : List Char) : Option Reading :=
  match skipBlank cs with
  | [] => some s
  | start =>
    match newline? (skipComment start) with
    | some rest => if _h : rest.length < cs.length then lines? s rest else none
    | none =>
      if skipComment start = [] then some s
      else
        match line? s start with
        | none => none
        | some (s, rest) => if _h : rest.length < cs.length then lines? s rest else none
termination_by cs.length

/-- The document that a TOML text says, `none` if it is no TOML text. A byte order mark at its
start is skipped. -/
def read? (text : String) : Option Document := do
  let cs := text.toList
  let cs := if cs.head? = some '\uFEFF' then cs.drop 1 else cs
  let s ← lines? {} cs
  return s.root.document

/-- In TOML, an empty table or array is written for nothing, and surplus items are skipped. -/
def recordRules : RecordRules where
  isNothing d := match d with
    | .map [] | .seq [] => true
    | _ => false
  allowsSurplus := true

end UserFederation.Toml
