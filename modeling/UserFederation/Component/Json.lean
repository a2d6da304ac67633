import UserFederation.Component.Basic
import UserFederation.Document

/-! The JSON form of components. A field that is absent is not written; one that is `null` is read
as absent. Fields of other names are kept and stand beside the known ones. -/

namespace UserFederation

namespace Document

/-- The values that the entries of a map give to a key; a known key has at most one. -/
def entry? (entries : List (String × Document)) (key : String) : Option (Option Document) :=
  match entries.filter (·.1 = key) with
  | [] => some none
  | [e] => some (some e.2)
  | _ => none

/-- A text. -/
def text? : Document → Option String
  | .text s => some s
  | _ => none

/-- The items of a sequence, each read by a function. -/
def items? {α : Type} (read : Document → Option α) : Document → Option (List α)
  | .seq items => items.mapM read
  | _ => none

/-- The entries of a map, each value read by a function; the last of two entries of a key counts. -/
def mapOf? {α : Type} (read : Document → Option α) : Document → Option (SortedMap α)
  | .map entries =>
    (entries.mapM fun (e : String × Document) => (read e.2).map (e.1, ·)).map .ofList
  | _ => none

/-- A value that may be missing or `null`. -/
def optional? {α : Type} (read : Document → Option α) : Option Document → Option (Option α)
  | none => some none
  | some .null => some none
  | some d => (read d).map some

end Document

namespace Component

/-- The names of the fields that mean something. -/
def knownFields : List String := ["id", "name", "providerId", "providerType", "parentId", "config"]

/-- Reads the config of a component. -/
def readConfig? : Document → Option WireConfig := Document.mapOf? (Document.items? Document.text?)

/-- Reads a component. -/
def read? : Document → Option Component
  | .map entries => do
    let field := fun key => Document.entry? entries key
    let text := fun key => (field key).bind (Document.optional? Document.text?)
    let others := entries.filter fun e => !knownFields.contains e.1
    return {
      id := ← text "id"
      name := ← text "name"
      providerId := ← text "providerId"
      providerType := ← text "providerType"
      parentId := ← text "parentId"
      config := ← (← field "config") |> Document.optional? readConfig?
      extra := .ofList (← Document.fieldValues? others) }
  | _ => none

/-- The JSON value of a config. -/
def configJson (config : WireConfig) : Json :=
  .ofMap (config.mapValues fun values => .arr (values.map .str))

/-- The known fields that are present. -/
def jsonFields (c : Component) : List (String × Json) :=
  let text := fun (key : String) (value : Option String) =>
    value.toList.map fun s => (key, Json.str s)
  text "id" c.id ++ text "name" c.name ++ text "providerId" c.providerId ++
    text "providerType" c.providerType ++ text "parentId" c.parentId ++
    c.config.toList.map fun config => ("config", configJson config)

/-- The JSON value of a component. -/
def json (c : Component) : Json := .object (c.jsonFields ++ c.extra.entries)

end Component

end UserFederation
