import UserFederation.Json.Basic

/-! Components, in which Keycloak stores user federations and their mappers. Every field is
optional: a component read from a server has all of them, a declared one only those that its author
gave. `mergedWith` lays a declared component over a stored one. -/

namespace UserFederation

/-- The config of a component; the server wraps every value in a list. -/
abbrev WireConfig := SortedMap (List String)

/-- The component type of user federations. -/
def federationType : String := "org.keycloak.storage.UserStorageProvider"

/-- The component type of mappers of LDAP federations. -/
def mapperType : String := "org.keycloak.storage.ldap.mappers.LDAPStorageMapper"

/-- The config key of the credential that a federation binds with. -/
def bindCredentialKey : String := "bindCredential"

/-- The config key of the Kerberos principal attribute. -/
def principalKey : String := "krbPrincipalAttribute"

/-- The config key of the time of the last synchronization. -/
def lastSyncKey : String := "lastSync"

/-- What is shown in place of a bind credential. -/
def secretMask : String := "**********"

/-- A component of a realm. -/
structure Component where
  id : Option String := none
  name : Option String := none
  providerId : Option String := none
  providerType : Option String := none
  parentId : Option String := none
  config : Option WireConfig := none
  /-- Fields that mean nothing here and are kept as they are. -/
  extra : SortedMap Json := .empty
  deriving DecidableEq, Inhabited

namespace Component

/-- The name, empty if there is none. -/
def nameOrEmpty (c : Component) : String := c.name.getD ""

/-- The list of values of a config key. -/
def configList? (c : Component) (key : String) : Option (List String) :=
  c.config.bind (·.get? key)

/-- The first value of a config key. -/
def configValue? (c : Component) (key : String) : Option String :=
  (c.configList? key).bind List.head?

/-- Changes the config, if there is one. -/
def mapConfig (f : WireConfig → WireConfig) (c : Component) : Component :=
  { c with config := c.config.map f }

/-- Sets the only value of a config key. -/
def setConfig (c : Component) (key value : String) : Component :=
  { c with config := some ((c.config.getD .empty).insert key [value]) }

/-- Lays a config over one that may be missing: per key, the patch wins. -/
def overlayConfig (base : Option WireConfig) (patch : WireConfig) : WireConfig :=
  (base.getD .empty).overlay patch

/-- Lays the given fields of a patch over a component. Config is laid over per key, and the fields
that mean nothing here stay those of the component. -/
def mergedWith (base patch : Component) : Component where
  id := patch.id.or base.id
  name := patch.name.or base.name
  providerId := patch.providerId.or base.providerId
  providerType := patch.providerType.or base.providerType
  parentId := patch.parentId.or base.parentId
  config := match patch.config with
    | some config => some (overlayConfig base.config config)
    | none => base.config
  extra := base.extra

/-- Fills in the parent where none is given. -/
def withParent (c : Component) (parent : String) : Component :=
  { c with parentId := c.parentId.or (some parent) }

/-- Puts components in order of their names; a missing name counts as empty, and components of the
same name keep their order. -/
def sortByName (cs : List Component) : List Component :=
  cs.mergeSort fun a b => a.nameOrEmpty ≤ b.nameOrEmpty

/-- The component with one representative for its equal numbers. -/
def canonical (c : Component) : Component :=
  { c with extra := c.extra.mapValues Json.canonical }

/-- Two components are the same if they are equal up to the two zeros among uninterpreted
numbers. -/
def Same (a b : Component) : Prop := a.canonical = b.canonical

instance : DecidableRel Same := fun a b => inferInstanceAs (Decidable (a.canonical = b.canonical))

end Component

end UserFederation
