import UserFederation.Federation
import UserFederation.Mapper.Matching
import UserFederation.Run.Dialogue

/-! Finding the federation that a declaration is about. -/

namespace UserFederation.Federation

/-- The mappers of a federation, by name. -/
def fetchMappers (realm federationId : String) : Dialogue (List Component) :=
  return Component.sortByName (← Dialogue.call (.children federationId realm))

/-- The component of a federation: the one with the id if an id is given, else the one with the
name. -/
def lookup (realm : String) : (id name : Option String) → Dialogue (Option Component)
  | some id, _ => Dialogue.call (.get id realm)
  | none, some name => do
    let found ← Dialogue.call (.find realm federationType name)
    Dialogue.lift (Component.unique .federation name found)
  | none, none => .fail (.invalid .unidentified)

/-- The federation of an id or a name with its mappers, as the server shows it. -/
def resolve (realm : String) (id name : Option String) : Dialogue (Option Federation) := do
  match ← lookup realm id name with
  | none => return none
  | some component =>
    match component.id with
    | none => return some (ofParts component [])
    | some id => return some (ofParts component (← fetchMappers realm id))

end UserFederation.Federation
