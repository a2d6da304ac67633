import UserFederation.Declaration.Scalar
import UserFederation.Failure

/-! Declarations of user federations: the realm, the identity of the federation, the fields to
bring to a value, and whether it has to exist at all. A field that is not given is left alone. -/

namespace UserFederation

/-- Whether a federation has to exist. -/
inductive TargetState
  | present
  | absent
  deriving DecidableEq, Inhabited

/-- How the bind credential counts when changes are sought. A server never shows it, so a declared
one always differs from the one that is read. -/
inductive CredentialPolicy
  /-- It counts like any other key. -/
  | always
  /-- It never makes a change by itself, but is sent along with one. -/
  | onlyIndirect
  deriving DecidableEq, Inhabited

/-- A declared mapper. -/
structure MapperDeclaration where
  id : Option String := none
  name : Option String := none
  parentId : Option String := none
  providerId : Option String := none
  providerType : String := mapperType
  config : Option DeclaredConfig := none
  deriving DecidableEq, Inhabited

/-- The realm of a declaration that names none. -/
def defaultRealm : String := "master"

/-- A declared federation. -/
structure Declaration where
  state : TargetState := .present
  realm : String := defaultRealm
  id : Option String := none
  name : Option String := none
  providerId : Option String := none
  providerType : String := federationType
  parentId : Option String := none
  /-- Whether mappers that are not declared are deleted. -/
  prune : Bool := true
  credentialPolicy : CredentialPolicy := .always
  config : Option DeclaredConfig := none
  /-- Without a list, existing mappers are left alone. -/
  mappers : Option (List MapperDeclaration) := none
  deriving DecidableEq, Inhabited

/-- The component that holds the specified fields of a mapper. -/
def MapperDeclaration.component (m : MapperDeclaration) : Component where
  id := m.id
  name := m.name
  providerId := m.providerId
  providerType := some m.providerType
  parentId := m.parentId
  config := m.config.map DeclaredConfig.encode

/-- The providers whose federations have no mappers. -/
def mapperlessProviders : List String := ["kerberos", "sssd"]

/-- Checks that a provider can have a number of mappers. -/
def checkMappersSupported (provider : Option String) (count : Nat) : Except Failure Unit :=
  match provider with
  | some p =>
    if 0 < count ∧ mapperlessProviders.contains p then
      .error (.invalid (.mappersUnsupported p))
    else .ok ()
  | none => .ok ()

namespace Declaration

/-- The component that holds the specified fields of a federation. -/
def component (d : Declaration) : Component where
  id := d.id
  name := d.name
  providerId := d.providerId
  providerType := some d.providerType
  parentId := d.parentId
  config := d.config.map DeclaredConfig.encode

/-- The components of the declared mappers, if there is a list of them. -/
def mapperComponents (d : Declaration) : Option (List Component) :=
  d.mappers.map (·.map MapperDeclaration.component)

/-- Checks what can be checked without a server. -/
def validate (d : Declaration) : Except Failure Unit := do
  if d.id.isNone ∧ d.name.isNone then throw (.invalid .unidentified)
  match d.mappers with
  | none => pure ()
  | some mappers =>
    checkMappersSupported d.providerId mappers.length
    if mappers.any fun m => m.id.isNone ∧ m.name.isNone then
      throw (.invalid .unidentifiedMapper)

end Declaration

end UserFederation
