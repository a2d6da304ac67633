import UserFederation.Failure

/-! Why a command ends early. -/

namespace UserFederation

/-- Why a command ends early. -/
inductive CommandError
  /-- The settings cannot be read. -/
  | settings (reason : String)
  /-- The declaration cannot be read. -/
  | declaration (reason : String)
  /-- An argument has no meaning. -/
  | argument (reason : String)
  /-- A file cannot be read or written. -/
  | file (reason : String)
  /-- The service did not do what it was asked. -/
  | service (fault : Fault)
  | run (failure : Failure)
  deriving DecidableEq

namespace CommandError

def message : CommandError → String
  | .settings reason => "configuration error: " ++ reason
  | .declaration reason => "invalid spec file: " ++ reason
  | .argument reason => "invalid argument: " ++ reason
  | .file reason => "IO error: " ++ reason
  | .service fault => fault.message
  | .run failure => failure.message

/-- The failure of a run that ends with an error; all but failures of runs count as faults of the
service. -/
def failure : CommandError → Failure
  | .run failure => failure
  | .service fault => .remote fault
  | e => .remote (.reported e.message)

end CommandError

end UserFederation
