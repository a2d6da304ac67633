import UserFederation.Component.Json
import UserFederation.Http.Message
import UserFederation.Json.Reader
import UserFederation.Run.Dialogue
import UserFederation.Settings.Basic
import UserFederation.Text.Base64

/-! The component service of a server: how the calls of a dialogue become requests. -/

namespace UserFederation.Http

/-- Where and how a server is asked. -/
structure Client where
  baseUrl : String
  token : Option String := none
  deriving DecidableEq

/-- The path of the components of a realm. -/
def componentsPath (realm : String) : String :=
  "/admin/realms/" ++ Percent.encode realm ++ "/components"

/-- The path of a component. -/
def componentPath (realm id : String) : String := componentsPath realm ++ "/" ++ Percent.encode id

/-- The path that looks for the components of a type and a name. -/
def findPath (realm type name : String) : String :=
  componentsPath realm ++ "?type=" ++ Percent.encode type ++ "&name=" ++ Percent.encode name

/-- The path that looks for the components right below one. -/
def childrenPath (realm parent : String) : String :=
  componentsPath realm ++ "?parent=" ++ Percent.encode parent

/-- The id at the end of the place of a new component. Slashes at the end do not count. -/
def createdId? (place : String) : Option String :=
  let isSlash := fun (c : Char) => c = '/'
  let last := (place.toList.reverse.dropWhile isSlash).takeWhile (!isSlash ·)
  if last.isEmpty then none else some (String.ofList last.reverse)

/-- The place that a response names, if it is plain text. -/
def place? (r : Response) : Option String :=
  (r.location.map headerValue).filter fun place =>
    place.toList.all fun c => c = '\t' || (0x20 ≤ c.toNat && c.toNat < 0x7F)

/-- What is said of a new component without a place. -/
def withoutPlace : String := "created resource without a Location header"

namespace Client

/-- The client of some settings; another server may take the place of theirs. -/
def ofSettings (s : Settings) (server : Option String) : Client where
  baseUrl := String.ofList ((server.getD s.serverUrl).toList.reverse.dropWhile (· = '/')).reverse
  token := s.accessToken

/-- The proof of who asks: the user of an address, else the token. -/
def authorization? (c : Client) (url : Url) : Option String :=
  match url.user, c.token with
  | some (name, password), _ =>
    let bytes := Percent.decodeBytes name.toList ++ Text.utf8 ':' ++
      Percent.decodeBytes (password.getD "").toList
    some ("Basic " ++ String.ofList (Text.base64 bytes))
  | none, some token => some (headerValue ("Bearer " ++ token))
  | none, none => none

/-- The request for a path. It cannot be made if the address has no meaning or a token cannot be
sent. -/
def request? (c : Client) (method : Method) (path : String) (body : Option Json) :
    Option Request := do
  let url ← Url.parse? none (c.baseUrl ++ path)
  if (c.token.getD "").toList.all isHeaderChar then
    return { method, url, authorization := c.authorization? url, body }
  else none

/-- Sends a request and waits for a response. -/
def send (c : Client) (method : Method) (path : String) (body : Option Json) :
    ExceptT Failure Exchange Response :=
  ExceptT.mk <| match c.request? method path body with
    | none => .done (.error (.remote .transport))
    | some request => do
      match ← request.follow maxRedirects with
      | some response => return .ok response
      | none => return .error (.remote .transport)

/-- Refuses a response that is no success. -/
def checkStatus (r : Response) : Except Failure Unit :=
  if r.isSuccess then .ok () else .error (.remote (.refused r.status r.message))

/-- Reads what a successful response says. -/
def content {α : Type} (read : Document → Option α) (r : Response) : Except Failure α := do
  checkStatus r
  match (Json.read? r.content).bind read with
  | some a => return a
  | none => throw (.remote .transport)

/-- Asks for components. -/
def fetchList (c : Client) (path : String) : ExceptT Failure Exchange (List Component) := do
  ExceptT.mk (.done (content (Document.items? Component.read?) (← c.send .get path none)))

/-- Asks for a component that may be missing. -/
def fetch (c : Client) (id realm : String) : ExceptT Failure Exchange (Option Component) := do
  let response ← c.send .get (componentPath realm id) none
  if response.status = 404 then return none
  ExceptT.mk (.done ((content Component.read? response).map some))

/-- Creates a component and asks for it as it is stored. -/
def create (c : Client) (component : Component) (realm : String) :
    ExceptT Failure Exchange Component := do
  let response ← c.send .post (componentsPath realm) (some component.json)
  ExceptT.mk (.done (checkStatus response))
  match (place? response).bind createdId? with
  | none => throw (.remote (.refused response.status withoutPlace))
  | some id =>
    match ← c.fetch id realm with
    | some stored => return stored
    | none => throw (.remote (.vanished id))

/-- Sends a request whose response has no content that counts. -/
def order (c : Client) (method : Method) (path : String) (body : Option Json) :
    ExceptT Failure Exchange Unit := do
  ExceptT.mk (.done (checkStatus (← c.send method path body)))

/-- Answers a call by requests. -/
def answer (c : Client) : (call : Call) → ExceptT Failure Exchange call.Reply
  | .find realm type name => c.fetchList (findPath realm type name)
  | .get id realm => c.fetch id realm
  | .create component realm => c.create component realm
  | .update component realm =>
    match component.id with
    | some id => c.order .put (componentPath realm id) (some component.json)
    | none => throw (.invalid .updateWithoutId)
  | .delete id realm => c.order .delete (componentPath realm id) none
  | .children parent realm => c.fetchList (childrenPath realm parent)

/-- Runs a dialogue with a server. -/
def converse {α : Type} (c : Client) : Dialogue α → ExceptT Failure Exchange α
  | .done a => pure a
  | .fail e => throw e
  | .ask call next => do c.converse (next (← c.answer call))

end Client

end UserFederation.Http
