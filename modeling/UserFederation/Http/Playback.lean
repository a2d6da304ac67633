import UserFederation.Http.Message

/-! A server that plays back responses, whatever it is asked. -/

namespace UserFederation.Http

/-- The responses that are left, and the requests so far, the last one first. -/
structure Playback where
  responses : List Response
  received : List Request := []
  deriving DecidableEq

namespace Playback

/-- The response when there is none left. -/
def exhausted : Response := { status := 500, body := "script exhausted" }

/-- Whether a request gets to the server: not if it is secured, nor if a name has to be looked
up. -/
def reaches (request : Request) : Bool := !request.url.secure && request.url.isAddress

/-- The response to a request, if it gets to the server. -/
def answer (request : Request) (p : Playback) : Option Response × Playback :=
  if reaches request then
    (some (p.responses.headD exhausted), ⟨p.responses.tail, request :: p.received⟩)
  else (none, p)

/-- The requests so far, in order. -/
def requests (p : Playback) : List Request := p.received.reverse

end Playback

end UserFederation.Http
