import UserFederation.Http.Url
import UserFederation.Interaction
import UserFederation.Json.Basic

/-! Requests and responses, and programs that send requests. -/

namespace UserFederation.Http

/-- What a request asks for. -/
inductive Method
  | get
  | post
  | put
  | delete
  deriving DecidableEq

def Method.word : Method → String
  | .get => "GET"
  | .post => "POST"
  | .put => "PUT"
  | .delete => "DELETE"

/-- A request. -/
structure Request where
  method : Method
  url : Url
  authorization : Option String := none
  body : Option Json := none
  deriving DecidableEq

/-- A response as it is sent. -/
structure Response where
  status : Nat
  location : Option String := none
  body : String := ""
  deriving DecidableEq

namespace Response

/-- Whether a request had success. -/
def isSuccess (r : Response) : Bool := 200 ≤ r.status && r.status < 300

/-- Whether a response ends a request. A status has three digits; those below 200 only announce
another response, but for the one that changes the protocol. -/
def isFinal (r : Response) : Bool := r.status = 101 || (200 ≤ r.status && r.status < 1000)

/-- The text that comes with a response. After some statuses there is none. -/
def content (r : Response) : String := if [101, 204, 304].contains r.status then "" else r.body

/-- The content as a message, without the mark of its byte order. -/
def message (r : Response) : String :=
  match r.content.toList with
  | '\uFEFF' :: rest => String.ofList rest
  | _ => r.content

end Response

/-- A program that sends requests. A request may stay without a response. -/
abbrev Exchange (α : Type) := Interaction Request (fun _ => Option Response) α

/-- Whether a character may stand in the value of a header. -/
def isHeaderChar (c : Char) : Bool := c = '\t' || (0x20 ≤ c.toNat && c.toNat ≠ 0x7F)

/-- The value of a header, whose blanks at the ends do not count. -/
def headerValue (text : String) : String :=
  let isBlank := fun (c : Char) => c = ' ' || c = '\t'
  String.ofList ((text.toList.dropWhile isBlank).reverse.dropWhile isBlank).reverse

/-- How often a request is sent on to another place. -/
def maxRedirects : Nat := 10

/-- What follows from a response. -/
inductive Continuation
  | stop
  /-- The request is to be sent again. -/
  | send (request : Request)
  /-- There is no answer to the request. -/
  | fail

namespace Request

/-- The request at another place; credentials are not shown to another server. -/
def movedTo (r : Request) (url : Url) : Request :=
  { r with url, authorization := if url.sameOrigin r.url then r.authorization else none }

/-- The request for what is at the place of a request. -/
def asGet (r : Request) : Request := { r with method := .get, body := none }

/-- The request that a response of some statuses asks for instead, at a place yet to be known. -/
def instead? (r : Request) (status : Nat) : Option Request :=
  match status with
  | 301 | 302 => some (if r.method = .post then r.asGet else r)
  | 303 => some r.asGet
  | 307 | 308 => some r
  | _ => none

/-- What follows from a response to a request. A place that is no address is not followed. -/
def continuation (r : Request) (response : Response) : Continuation :=
  if !response.isFinal then .fail
  else match r.instead? response.status, response.location.map headerValue with
  | some next, some place =>
    if place.toList.all Url.isAllowed then
      match Url.scheme? place.toList, Url.parse? (some r.url) place with
      | _, some url => .send (next.movedTo url)
      | some (scheme, _), none =>
        if Url.isKnownScheme scheme then .stop else .fail
      | none, none => .stop
    else .stop
  | _, _ => .stop

/-- Sends a request, and sends it on as long as responses say so and at most a number of times. -/
def follow : (redirects : Nat) → Request → Exchange (Option Response)
  | redirects, request => .ask request fun
    | none => .done none
    | some response =>
      match request.continuation response with
      | .stop => .done (some response)
      | .fail => .done none
      | .send next =>
        match redirects with
        | 0 => .done none
        | n + 1 => follow n next

end Request

end UserFederation.Http
