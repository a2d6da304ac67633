import UserFederation.Component.Basic
import UserFederation.Failure

/-! An in-memory server of components: what it stores and how it lists it. -/

namespace UserFederation

/-- A component as it is stored. -/
structure Stored where
  realm : String
  /-- The number of the insertion; listings are in this order. -/
  order : Nat
  component : Component
  deriving DecidableEq, Inhabited

/-- A kind of call that changes what is stored. -/
inductive MutationKind
  | create
  | update
  | delete
  deriving DecidableEq

/-- A journal entry. -/
structure Mutation where
  kind : MutationKind
  id : String
  name : Option String
  deriving DecidableEq

/-- Where a server gets new ids and the time from: the next one is a function of the number of
those given out so far. -/
structure Supply where
  id : Nat → String
  time : Nat → String

/-- The default mappers of federations of the provider `ldap`. -/
def ldapDefaults : List Component :=
  [("username", "username", "uid"), ("email", "email", "mail"),
    ("first name", "firstName", "cn"), ("last name", "lastName", "sn")].map
    fun (name, modelAttribute, ldapAttribute) =>
      let mapper : Component := {
        name := some name
        providerId := some "user-attribute-ldap-mapper"
        providerType := some mapperType }
      ((mapper.setConfig "user.model.attribute" modelAttribute).setConfig "ldap.attribute"
        ldapAttribute).setConfig "read.only" "true"

/-- A server. -/
structure Server where
  /-- The stored components by id. -/
  components : SortedMap Stored := .empty
  insertions : Nat := 0
  journal : List Mutation := []
  /-- Config keys whose new values are ignored. -/
  ignoredKeys : List String := []
  /-- The mappers that come with a new federation of a provider. -/
  defaults : SortedMap (List Component) := .empty
  /-- The kind of call that fails when it comes next. -/
  failNext : Option MutationKind := none
  idsIssued : Nat := 0
  timesIssued : Nat := 0
  deriving DecidableEq

namespace Server

/-- A server that knows the default mappers of `ldap`. -/
def withLdapDefaults : Server := { defaults := .ofList [("ldap", ldapDefaults)] }

/-- A server that knows no default mappers. -/
def withoutDefaults : Server := {}

/-- A component as it is shown: with the mask in place of its bind credential. -/
def redact (c : Component) : Component :=
  c.mapConfig fun config =>
    if config.contains bindCredentialKey then config.insert bindCredentialKey [secretMask]
    else config

/-- The components of a realm in the order of their insertion. -/
def visible (s : Server) (realm : String) : List Stored :=
  (s.components.values.filter (·.realm = realm)).mergeSort fun a b => a.order ≤ b.order

/-- The component of an id, if it is in a realm. -/
def stored? (s : Server) (id realm : String) : Option Stored :=
  (s.components.get? id).filter (·.realm = realm)

/-- The shown components of a realm that satisfy a test. -/
def list (s : Server) (realm : String) (p : Component → Bool) : List Component :=
  ((s.visible realm).map (·.component)).filter p |>.map redact

def find (s : Server) (realm type name : String) : List Component :=
  s.list realm fun c => c.providerType = some type ∧ c.name = some name

def get (s : Server) (id realm : String) : Option Component :=
  (s.stored? id realm).map fun stored => redact stored.component

def children (s : Server) (parent realm : String) : List Component :=
  s.list realm fun c => c.parentId = some parent

/-- A config value as it is stored, whatever the realm. -/
def rawConfigValue? (s : Server) (id key : String) : Option String :=
  (s.components.get? id).bind fun stored => stored.component.configValue? key

/-- The number of components of a realm. -/
def size (s : Server) (realm : String) : Nat := (s.visible realm).length

end Server

end UserFederation
