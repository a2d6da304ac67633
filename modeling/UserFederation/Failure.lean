/-! Why a run fails. -/

namespace UserFederation

/-- What a component is looked up as. -/
inductive Kind
  | federation
  | mapper
  deriving DecidableEq

def Kind.noun : Kind → String
  | .federation => "user federation"
  | .mapper => "mapper"

/-- What is wrong with a declaration. -/
inductive Invalidity
  | unidentified
  | unidentifiedMapper
  | mappersUnsupported (provider : String)
  | updateWithoutId
  | other (reason : String)
  deriving DecidableEq

def Invalidity.message : Invalidity → String
  | .unidentified => "either `id` or `name` has to be specified"
  | .unidentifiedMapper => "either `name` or `id` has to be specified on each mapper"
  | .mappersUnsupported provider => "cannot configure mappers for " ++ provider ++ " provider"
  | .updateWithoutId => "cannot update a component without id"
  | .other reason => reason

/-- What went wrong at the service. `transport` is a request that got no answer, or an answer that
cannot be read; its wording is not fixed. -/
inductive Fault
  | reported (text : String)
  /-- An answer with the status of an error. -/
  | refused (status : Nat) (text : String)
  | createdWithoutId
  | existingWithoutId
  | vanished (id : String)
  | transport
  deriving DecidableEq

def Fault.message : Fault → String
  | .reported text => text
  | .refused status text => "API error: " ++ toString status ++ " - " ++ text
  | .createdWithoutId => "created user federation was returned without an id"
  | .existingWithoutId => "existing user federation has no id"
  | .vanished id => "component " ++ id ++ " vanished after creation"
  | .transport => "HTTP error: error sending request"

/-- Why a run fails. -/
inductive Failure
  /-- More than one component has the name. -/
  | ambiguous (kind : Kind) (name : String)
  | invalid (reason : Invalidity)
  /-- A component that has to exist is gone. -/
  | notFound (kind : Kind) (id : String)
  | remote (fault : Fault)
  deriving DecidableEq

namespace Failure

def message : Failure → String
  | .ambiguous kind name =>
    "found multiple " ++ kind.noun ++ "s with name `" ++ name ++
      "`, cannot continue; specify an id instead"
  | .invalid reason => "validation error: " ++ reason.message
  | .notFound kind id => kind.noun ++ " not found: " ++ id
  | .remote fault => "remote service error: " ++ fault.message

def isAmbiguity : Failure → Bool
  | .ambiguous .. => true
  | _ => false

def isValidation : Failure → Bool
  | .invalid _ => true
  | _ => false

/-- A component that is gone counts as a failure of the service. -/
def isRemote : Failure → Bool
  | .remote _ | .notFound .. => true
  | _ => false

end Failure

end UserFederation
