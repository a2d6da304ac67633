import UserFederation.Declaration.Basic
import UserFederation.Federation
import UserFederation.Mapper.Matching

/-! What a declaration changes in the federation that exists. -/

namespace UserFederation

/-- The new values of the fields that change. A changed config is the whole merged config, and
declared mappers are always there, as the whole list that the federation has to end up with. -/
structure Changeset where
  id : Option String := none
  name : Option String := none
  providerId : Option String := none
  providerType : Option String := none
  parentId : Option String := none
  config : Option WireConfig := none
  mappers : Option (List Component) := none
  deriving DecidableEq

namespace Changeset

/-- A wanted value, if it differs from the current one. -/
def changed {α : Type} [DecidableEq α] (wanted current : Option α) : Option α :=
  if wanted = current then none else wanted

/-- The changes that a declaration makes. -/
def of (d : Declaration) (existing : Option Federation) : Except Failure Changeset := do
  let wanted := d.component
  let base := (existing.map (·.component)).getD {}
  let mappers ← match d.mapperComponents with
    | none => pure none
    | some declared => do
      checkMappersSupported (d.providerId.or base.providerId) declared.length
      some <$> Mapper.target declared ((existing.map (·.mappers)).getD []) d.prune
  return {
    id := changed wanted.id base.id
    name := changed wanted.name base.name
    providerId := changed wanted.providerId base.providerId
    providerType := changed wanted.providerType base.providerType
    parentId := changed wanted.parentId base.parentId
    config := changed (wanted.config.map (Component.overlayConfig base.config)) base.config
    mappers }

/-- The federation that the changes lead to. -/
def applyTo (cs : Changeset) (existing : Option Federation) : Federation :=
  let base := existing.getD {}
  { component := {
      id := cs.id.or base.component.id
      name := cs.name.or base.component.name
      providerId := cs.providerId.or base.component.providerId
      providerType := cs.providerType.or base.component.providerType
      parentId := cs.parentId.or base.component.parentId
      config := cs.config.or base.component.config
      extra := base.component.extra }
    mappers := cs.mappers.getD base.mappers }

/-- A new value. -/
inductive Change
  | text (value : String)
  | config (value : WireConfig)
  | mappers (value : List Component)

/-- The new value of a field. -/
def get? (cs : Changeset) : Federation.Field → Option Change
  | .id => cs.id.map .text
  | .name => cs.name.map .text
  | .providerId => cs.providerId.map .text
  | .providerType => cs.providerType.map .text
  | .parentId => cs.parentId.map .text
  | .config => cs.config.map .config
  | .mappers => cs.mappers.map .mappers

/-- The fields that change, in order. -/
def changes (cs : Changeset) : List (Federation.Field × Change) :=
  Federation.Field.all.filterMap fun field => (cs.get? field).map (field, ·)

end Changeset

/-- A federation without its bind credential. -/
def Federation.withoutCredential (f : Federation) : Federation :=
  { f with component := f.component.mapConfig (·.erase bindCredentialKey) }

/-- Whether an existing federation has to be updated to become a declared one. -/
def Federation.needsUpdate (declared existing : Federation) : CredentialPolicy → Bool
  | .always => ¬declared.Same existing
  | .onlyIndirect => ¬declared.withoutCredential.Same existing.withoutCredential

end UserFederation
