import UserFederation.Component.Basic
import UserFederation.Failure

/-! Finding components by id or name. Names need not be unique on a server, so a look-up by name
fails if more than one component has the name. -/

namespace UserFederation

namespace Component

/-- The one component that was found under a name, if any. -/
def unique (kind : Kind) (name : String) : List Component → Except Failure (Option Component)
  | [] => .ok none
  | [c] => .ok (some c)
  | _ => .error (.ambiguous kind name)

end Component

namespace Mapper

/-- The first mapper with an id. -/
def withId? (id : String) (mappers : List Component) : Option Component :=
  mappers.find? (·.id = some id)

/-- The mapper with a name. -/
def withName? (name : String) (mappers : List Component) : Except Failure (Option Component) :=
  Component.unique .mapper name (mappers.filter (·.name = some name))

/-- The existing mapper that a declared one refers to: the one with its id if it gives one, else
the one with its name. -/
def referent? (declared : Component) (existing : List Component) :
    Except Failure (Option Component) :=
  match declared.id, declared.name with
  | some id, _ => .ok (withId? id existing)
  | none, some name => withName? name existing
  | none, none => .ok none

/-- Lays a declared mapper over the existing one that it refers to. -/
def resolve (existing : List Component) (declared : Component) : Except Failure Component :=
  return ((← referent? declared existing).getD {}).mergedWith declared

/-- Whether an existing mapper is not among those with the given ids. -/
def unlisted (ids : List String) (m : Component) : Bool :=
  match m.id with
  | some id => !ids.contains id
  | none => true

/-- The mappers that a federation has to end up with, by name. Existing mappers that the declared
ones do not refer to stay unless `prune` is set. -/
def target (declared existing : List Component) (prune : Bool) :
    Except Failure (List Component) := do
  let merged := Component.sortByName (← declared.mapM (resolve existing))
  if prune then return merged
  else return Component.sortByName (merged ++ existing.filter (unlisted (merged.filterMap (·.id))))

end Mapper

end UserFederation
