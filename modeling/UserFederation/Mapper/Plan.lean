import UserFederation.Mapper.Matching

/-! The calls that bring the mappers of a federation to their declared state. -/

namespace UserFederation.Mapper

/-- A call that changes one mapper. -/
inductive Action
  | create (mapper : Component)
  | update (mapper : Component)
  | delete (id : String)
  deriving DecidableEq

/-- What has to be done for one declared mapper of an existing federation: nothing if it exists as
declared. A mapper of a known id is updated, any other one created in the federation. -/
def actionFor (existing : List Component) (federationId : String) (mapper : Component) :
    Option Action :=
  if existing.any fun m => decide (m.Same mapper) then none
  else if (mapper.id.bind fun id => withId? id existing).isSome then some (.update mapper)
  else some (.create (mapper.withParent federationId))

/-- The calls for an existing federation: first existing mappers that are not declared are deleted,
then each declared one is seen to. -/
def planUpdate (declared existing : List Component) (federationId : String) : List Action :=
  let ids := declared.filterMap (·.id)
  (existing.filterMap (·.id)).filter (!ids.contains ·) |>.map .delete
    |>.append (declared.filterMap (actionFor existing federationId))

/-- What has to be done for one declared mapper after the server has provisioned its defaults, and
the id of the default that this uses up. A default of the same name is updated, or replaced if the
declared mapper has an id of its own. -/
def actionsAfterCreation (defaults : List Component) (federationId : String) (mapper : Component) :
    Except Failure (List Action × Option String) := do
  match ← mapper.name.elim (pure none) (withName? · defaults) with
  | none => return ([.create (mapper.withParent federationId)], none)
  | some provisioned =>
    let merged := provisioned.mergedWith mapper
    match provisioned.id with
    | none => return ([.create (merged.withParent federationId)], none)
    | some id =>
      if merged.id = some id then return ([.update merged], some id)
      else return ([.delete id, .create (merged.withParent federationId)], some id)

/-- The calls for a federation that was just created. With `prune`, the defaults that no declared
mapper uses are deleted at the end. -/
def planAfterCreation (declared defaults : List Component) (federationId : String) (prune : Bool) :
    Except Failure (List Action) := do
  let steps ← declared.mapM (actionsAfterCreation defaults federationId)
  let used := steps.filterMap (·.2)
  let unused := (defaults.filterMap (·.id)).filter (!used.contains ·)
  return steps.flatMap (·.1) ++ if prune then unused.map .delete else []

end UserFederation.Mapper
