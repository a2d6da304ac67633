import UserFederation.Component.Json

/-! User federations: a component and its mappers. -/

namespace UserFederation

/-- A user federation with the mappers whose parent it is. -/
structure Federation where
  component : Component := {}
  mappers : List Component := []
  deriving DecidableEq, Inhabited

namespace Federation

/-- The federation of a component and its mappers in any order. -/
def ofParts (component : Component) (mappers : List Component) : Federation :=
  ⟨component, Component.sortByName mappers⟩

def id (f : Federation) : Option String := f.component.id

/-- The federation with one representative for its equal numbers. -/
def canonical (f : Federation) : Federation :=
  ⟨f.component.canonical, f.mappers.map Component.canonical⟩

/-- Two federations are the same if they are equal up to the two zeros among uninterpreted
numbers. -/
def Same (a b : Federation) : Prop := a.canonical = b.canonical

instance : DecidableRel Same := fun a b => inferInstanceAs (Decidable (a.canonical = b.canonical))

/-- Reads a federation: the fields of its component and, beside them, its mappers. -/
def read? : Document → Option Federation
  | .map entries => do
    let mappers ← match ← Document.entry? entries "mappers" with
      | none => some []
      | some d => d.items? Component.read?
    let component ← Component.read? (.map (entries.filter (·.1 ≠ "mappers")))
    return ⟨component, mappers⟩
  | _ => none

/-- The JSON value of a federation; its mappers are always written. -/
def json (f : Federation) : Json :=
  .object (f.component.jsonFields ++ f.component.extra.entries ++
    [("mappers", .arr (f.mappers.map Component.json))])

/-- The fields of a federation that a run can change, in the order in which changes are listed. -/
inductive Field
  | id
  | name
  | providerId
  | providerType
  | parentId
  | config
  | mappers
  deriving DecidableEq

namespace Field

/-- All fields, in order. -/
def all : List Field := [.id, .name, .providerId, .providerType, .parentId, .config, .mappers]

/-- The name of a field in JSON. -/
def wireName : Field → String
  | .id => "id"
  | .name => "name"
  | .providerId => "providerId"
  | .providerType => "providerType"
  | .parentId => "parentId"
  | .config => "config"
  | .mappers => "mappers"

/-- The name of a field in a declaration. -/
def paramName : Field → String
  | .providerId => "provider_id"
  | .providerType => "provider_type"
  | .parentId => "parent_id"
  | field => field.wireName

/-- The field of a JSON name. -/
def ofWireName? (name : String) : Option Field := all.find? (·.wireName = name)

end Field

end Federation

end UserFederation
