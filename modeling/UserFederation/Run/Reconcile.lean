import UserFederation.Federation.Echo
import UserFederation.Mapper.Plan
import UserFederation.Run.Outcome
import UserFederation.Run.Rendering
import UserFederation.Run.Resolve

/-! Bringing one federation to its declared state. A run finds the federation, compares it with the
declaration, and takes one of four ways: nothing to delete, create, delete, update. -/

namespace UserFederation

/-- How a run works and reports. -/
structure RunMode where
  /-- Nothing is changed; the report says what would be. -/
  dryRun : Bool := false
  /-- The report has a diff. -/
  diff : Bool := false
  deriving DecidableEq

/-- The diff of a report, if one is wanted. -/
def RunMode.sides (mode : RunMode) (before after : Option Json) : Option Diff :=
  if mode.diff then some (.ofSides before after) else none

namespace Mapper

/-- The call of an action. -/
def Action.call (realm : String) : Action → Call
  | .create mapper => .create mapper realm
  | .update mapper => .update mapper realm
  | .delete id => .delete id realm

/-- Makes one call and forgets the reply. -/
def Action.execute (realm : String) (action : Action) : Dialogue Unit :=
  .ask (action.call realm) fun _ => .done ()

/-- Makes the calls of a plan, in order. -/
def execute (realm : String) : List Action → Dialogue Unit
  | [] => .done ()
  | action :: rest => do
    action.execute realm
    execute realm rest

end Mapper

namespace Component

/-- How a federation is called that may have no id yet. -/
def label (c : Component) : String := c.id.getD c.nameOrEmpty

/-- The id of a federation that was found. -/
def existingId (c : Component) : Except Failure String :=
  match c.id with
  | some id => .ok id
  | none => .error (.remote .existingWithoutId)

end Component

namespace Reconcile

/-- The report that there is nothing to delete. -/
def nothingToDelete (mode : RunMode) (outcome : Outcome) : Outcome :=
  { outcome with
    diff := mode.sides none none
    message := "User federation does not exist; doing nothing." }

/-- Creates a federation, then sees to the mappers that the server provisioned. -/
def create (d : Declaration) (mode : RunMode) (desired : Federation) (outcome : Outcome) :
    Dialogue Outcome := do
  if mode.dryRun then
    let after := desired.render
    return { outcome with
      changed := true
      diff := mode.sides none (some after)
      endState := after
      message := "User federation " ++ desired.component.label ++ " would be created" }
  let created ← Dialogue.call (.create desired.component d.realm)
  match created.id with
  | none => throw (.remote .createdWithoutId)
  | some id =>
    let defaults ← Dialogue.call (.children id d.realm)
    let plan ← Dialogue.lift (Mapper.planAfterCreation desired.mappers defaults id d.prune)
    Mapper.execute d.realm plan
    let mappers ← Federation.fetchMappers d.realm id
    let after := (Federation.ofParts created mappers).undoEcho.render
    return { outcome with
      changed := true
      diff := mode.sides none (some after)
      endState := after
      message := "User federation " ++ id ++ " has been created" }

/-- Deletes a federation; the server deletes its mappers with it. -/
def delete (d : Declaration) (mode : RunMode) (existing : Federation) (outcome : Outcome) :
    Dialogue Outcome := do
  let id ← Dialogue.lift existing.component.existingId
  let outcome := { outcome with
    changed := true
    diff := mode.sides (some outcome.existing) none }
  if mode.dryRun then
    return { outcome with message := "User federation " ++ id ++ " would be deleted" }
  Dialogue.call (.delete id d.realm)
  return { outcome with
    endState := .emptyObject
    message := "User federation " ++ id ++ " has been deleted" }

/-- Updates a federation and its mappers if they differ from what is declared. The report compares
what is found afterwards with what was found before. -/
def update (d : Declaration) (mode : RunMode) (existing desired : Federation) (outcome : Outcome) :
    Dialogue Outcome := do
  let id ← Dialogue.lift existing.component.existingId
  if !desired.needsUpdate existing d.credentialPolicy then
    return { outcome with
      endState := desired.render
      message := "No changes required to user federation " ++ id ++ "." }
  if mode.dryRun then
    let after := desired.render
    return { outcome with
      changed := true
      diff := mode.sides (some outcome.existing) (some after)
      endState := after
      message := "User federation " ++ id ++ " would be updated" }
  Dialogue.call (.update desired.component d.realm)
  Mapper.execute d.realm (Mapper.planUpdate desired.mappers existing.mappers id)
  match ← Dialogue.call (.get id d.realm) with
  | none => throw (.notFound .federation id)
  | some refreshed =>
    let mappers ← Federation.fetchMappers d.realm id
    let after := (Federation.ofParts refreshed mappers).undoEcho.render
    return { outcome with
      changed := outcome.existing.canonical ≠ after.canonical
      diff := mode.sides (some outcome.existing) (some after)
      endState := after
      message := "User federation " ++ id ++ " has been updated" }

end Reconcile

/-- Brings a federation to its declared state. -/
def reconcile (d : Declaration) (mode : RunMode) : Dialogue Outcome := do
  Dialogue.lift d.validate
  let before := (← Federation.resolve d.realm d.id d.name).map Federation.undoEcho
  let changes ← Dialogue.lift (Changeset.of d before)
  let desired := changes.applyTo before
  let outcome : Outcome :=
    { proposed := changes.render, existing := Federation.renderOption before }
  match before, d.state with
  | none, .absent => return Reconcile.nothingToDelete mode outcome
  | none, .present => Reconcile.create d mode desired outcome
  | some existing, .absent => Reconcile.delete d mode existing outcome
  | some existing, .present => Reconcile.update d mode existing desired outcome

end UserFederation
