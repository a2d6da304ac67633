import UserFederation.Declaration.Basic
import UserFederation.Document.Record

/-! Reading declarations from documents, and their JSON form. Missing fields have their defaults. -/

namespace UserFederation

namespace TargetState

def word : TargetState → String
  | .present => "present"
  | .absent => "absent"

def words : List (String × TargetState) := [("present", .present), ("absent", .absent)]

end TargetState

namespace CredentialPolicy

def word : CredentialPolicy → String
  | .always => "always"
  | .onlyIndirect => "only_indirect"

def words : List (String × CredentialPolicy) :=
  [("always", .always), ("only_indirect", .onlyIndirect)]

end CredentialPolicy

namespace MapperDeclaration

/-- Reads a declared mapper. -/
def read? (rules : RecordRules) (d : Document) : Option MapperDeclaration := do
  let part ← d.record? rules 6
  let text := fun i names => (part i names).bind (Document.optional? Document.text?)
  return {
    id := ← text 0 ["id"]
    name := ← text 1 ["name"]
    parentId := ← text 2 ["parentId", "parent_id"]
    providerId := ← text 3 ["providerId", "provider_id"]
    providerType := ← (← part 4 ["providerType", "provider_type"])
      |> Document.withDefault? mapperType Document.text?
    config := ← (← part 5 ["config"]) |> Document.optional? DeclaredConfig.read? }

/-- The JSON value of a declared mapper, whose config values are written by a function. -/
def jsonWith (config : DeclaredConfig → Json) (m : MapperDeclaration) : Json :=
  .object [("id", .ofOption m.id), ("name", .ofOption m.name), ("parentId", .ofOption m.parentId),
    ("providerId", .ofOption m.providerId), ("providerType", .str m.providerType),
    ("config", (m.config.map config).getD .null)]

end MapperDeclaration

namespace Declaration

/-- Reads a declaration. -/
def read? (rules : RecordRules) (d : Document) : Option Declaration := do
  let part ← d.record? rules 11
  let text := fun i names => (part i names).bind (Document.optional? Document.text?)
  return {
    state := ← (← part 0 ["state"])
      |> Document.withDefault? .present (Document.word? rules TargetState.words)
    realm := ← (← part 1 ["realm"]) |> Document.withDefault? defaultRealm Document.text?
    id := ← text 2 ["id"]
    name := ← text 3 ["name"]
    providerId := ← text 4 ["provider_id", "providerId"]
    providerType := ← (← part 5 ["provider_type", "providerType"])
      |> Document.withDefault? federationType Document.text?
    parentId := ← text 6 ["parent_id", "parentId"]
    prune := ← (← part 7 ["remove_unspecified_mappers"])
      |> Document.withDefault? true Document.bool?
    credentialPolicy := ← (← part 8 ["bind_credential_update_mode"])
      |> Document.withDefault? .always (Document.word? rules CredentialPolicy.words)
    config := ← (← part 9 ["config"]) |> Document.optional? DeclaredConfig.read?
    mappers := ← (← part 10 ["mappers"])
      |> Document.optional? (Document.items? (MapperDeclaration.read? rules)) }

/-- The JSON value of a declaration, whose config values are written by a function. -/
def jsonWith (config : DeclaredConfig → Json) (d : Declaration) : Json :=
  .object [("state", .str d.state.word), ("realm", .str d.realm), ("id", .ofOption d.id),
    ("name", .ofOption d.name), ("provider_id", .ofOption d.providerId),
    ("provider_type", .str d.providerType), ("parent_id", .ofOption d.parentId),
    ("remove_unspecified_mappers", .bool d.prune),
    ("bind_credential_update_mode", .str d.credentialPolicy.word),
    ("config", (d.config.map config).getD .null),
    ("mappers", (d.mappers.map fun ms => .arr (ms.map (·.jsonWith config))).getD .null)]

/-- The JSON value of a declaration. -/
def json (d : Declaration) : Json := d.jsonWith DeclaredConfig.json

end Declaration

end UserFederation
