import UserFederation.Run.Dialogue
import UserFederation.Server.Cascade

/-! How a server changes what it stores. -/

namespace UserFederation

def MutationKind.title : MutationKind → String
  | .create => "Create"
  | .update => "Update"
  | .delete => "Delete"

namespace Server

/-- Stores a component under its id or a new one; its parent is the realm if it has none. -/
def put (supply : Supply) (s : Server) (realm : String) (c : Component) : String × Server :=
  let id := c.id.getD (supply.id s.idsIssued)
  let stored : Stored :=
    { realm, order := s.insertions + 1, component := { c.withParent realm with id := some id } }
  (id, { s with
    components := s.components.insert id stored
    insertions := s.insertions + 1
    idsIssued := if c.id.isNone then s.idsIssued + 1 else s.idsIssued })

/-- Keeps the previous values of the ignored keys. -/
def keepIgnored (keys : List String) (previous : Option Component) (config : WireConfig) :
    WireConfig :=
  keys.foldl (fun config key =>
    match previous.bind (·.configList? key) with
    | some old => config.insert key old
    | none => config.erase key) config

/-- Drops a principal attribute that is empty. -/
def dropEmptyPrincipal (config : WireConfig) : WireConfig :=
  match config.get? principalKey with
  | some values => if values.all (· = "") then config.erase principalKey else config
  | none => config

/-- Keeps the previous bind credential where the mask is sent. -/
def keepCredential (previous : Option Component) (config : WireConfig) : WireConfig :=
  if (config.get? bindCredentialKey).bind List.head? = some secretMask then
    match previous.bind (·.configList? bindCredentialKey) with
    | some secret => config.insert bindCredentialKey secret
    | none => config.erase bindCredentialKey
  else config

/-- A component as it is accepted in place of a previous one. -/
def accept (s : Server) (previous : Option Component) (c : Component) : Component :=
  c.mapConfig fun config =>
    keepCredential previous (dropEmptyPrincipal (keepIgnored s.ignoredKeys previous config))

/-- Notes the time in the config of a federation. -/
def stamp (supply : Supply) (s : Server) (c : Component) : Component × Server :=
  if c.providerType = some federationType ∧ c.config.isSome then
    (c.mapConfig (·.insert lastSyncKey [supply.time s.timesIssued]),
      { s with timesIssued := s.timesIssued + 1 })
  else (c, s)

/-- Adds a journal entry. -/
def record (s : Server) (kind : MutationKind) (c : Component) : Server :=
  { s with journal := s.journal ++ [⟨kind, c.id.getD "", c.name⟩] }

/-- A failure as the server reports it. -/
def refusal (status : Nat) (text : String) : Failure :=
  .remote (.reported ("API error: " ++ toString status ++ " - " ++ text))

/-- The failure that a missing component causes. -/
def missing (id : String) : Failure := refusal 404 ("component " ++ id ++ " not found")

/-- Makes a change unless one of its kind is due to fail. -/
def attempt {α : Type} (s : Server) (kind : MutationKind) (change : Except Failure (α × Server)) :
    Except Failure α × Server :=
  if s.failNext = some kind then
    (.error (refusal 500 ("injected " ++ kind.title ++ " failure")), { s with failNext := none })
  else
    match change with
    | .ok (a, s) => (.ok a, s)
    | .error e => (.error e, s)

/-- Stores the default mappers of a new federation below it. -/
def provision (supply : Supply) (s : Server) (realm parent : String) (mappers : List Component) :
    Server :=
  mappers.foldl (fun s m => (s.put supply realm { m with parentId := some parent }).2) s

def create (supply : Supply) (s : Server) (c : Component) (realm : String) :
    Except Failure Component × Server :=
  s.attempt .create <|
    let (accepted, s) := s.stamp supply (s.accept none c)
    let (id, s) := s.put supply realm accepted
    let s := s.provision supply realm id ((c.providerId.bind s.defaults.get?).getD [])
    match s.components.get? id with
    | some created => .ok (redact created.component, s.record .create created.component)
    | none => .error (.notFound .federation id)

def update (supply : Supply) (s : Server) (c : Component) (realm : String) :
    Except Failure Unit × Server :=
  s.attempt .update <|
    match c.id with
    | none => .error (refusal 400 "component id is required")
    | some id =>
      match s.stored? id realm with
      | none => .error (missing id)
      | some previous =>
        let accepted := s.accept (some previous.component) c
        let (accepted, s) :=
          if (previous.component.configValue? lastSyncKey).isSome then s.stamp supply accepted
          else (accepted, s)
        let accepted := { accepted with
          parentId := accepted.parentId.or previous.component.parentId }
        let s := s.record .update accepted
        .ok ((), { s with
          components := s.components.insert id { previous with component := accepted } })

def delete (s : Server) (id realm : String) : Except Failure Unit × Server :=
  s.attempt .delete <|
    match s.stored? id realm with
    | none => .error (missing id)
    | some removed =>
      let gone := id :: s.descendants id
      let s := { s with components := s.components.filter fun key _ => !gone.contains key }
      .ok ((), s.record .delete removed.component)

/-- Answers a call. -/
def answer (supply : Supply) : Dialogue.Service Server := fun call s =>
  match call with
  | .find realm type name => (.ok (s.find realm type name), s)
  | .get id realm => (.ok (s.get id realm), s)
  | .create c realm => s.create supply c realm
  | .update c realm => s.update supply c realm
  | .delete id realm => s.delete id realm
  | .children parent realm => (.ok (s.children parent realm), s)

end Server

end UserFederation
