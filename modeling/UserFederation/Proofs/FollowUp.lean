import Mathlib
import UserFederation.Http.Client
import UserFederation.Proofs.Encoding

/-! What a client asks for once it has created a component. The server says where the component is,
and the last segment of this place is encoded already. The client takes it for an id and encodes it
once more (`createdId?_place`), so it asks for the component under its id just if nothing in the id
has to be encoded (`created_fetched_iff`). -/

namespace UserFederation

namespace Http

/-! ### The place of a new component -/

/-- Blanks, which do not count at the ends of a header. -/
def isBlank (c : Char) : Bool := c = ' ' || c = '\t'

/-- Characters of a place that can be read. -/
def isPlain (c : Char) : Bool := c = '\t' || (0x20 ≤ c.toNat && c.toNat < 0x7F)

theorem isPlain_of_isBlank {c : Char} (h : isBlank c) : isPlain c := by
  simp only [isBlank, Bool.or_eq_true, decide_eq_true_eq] at h
  rcases h with rfl | rfl <;> decide

theorem all_isPlain_dropWhile (cs : List Char) :
    (cs.dropWhile isBlank).all isPlain = cs.all isPlain := by
  induction cs with
  | nil => rfl
  | cons c cs ih =>
    rw [List.dropWhile_cons]
    split
    · rename_i blank
      rw [ih, List.all_cons, isPlain_of_isBlank blank, Bool.true_and]
    · rfl

/-- Characters of a path: slashes and what an encoded text holds. -/
def isOfPath (c : Char) : Bool := c = '/' || c = '%' || Percent.isUnreserved c

theorem isPlain_of_isOfPath {c : Char} (h : isOfPath c) : isPlain c := by
  simp only [isOfPath, Bool.or_eq_true, decide_eq_true_eq] at h
  rcases h with (rfl | rfl) | h
  · decide
  · decide
  · have := Percent.unreserved_bounds h
    simp only [isPlain, Bool.or_eq_true, Bool.and_eq_true, decide_eq_true_eq]
    omega

theorem not_isBlank_of_isOfPath {c : Char} (h : isOfPath c) : isBlank c = false := by
  cases hb : isBlank c with
  | false => rfl
  | true =>
    simp only [isBlank, Bool.or_eq_true, decide_eq_true_eq] at hb
    rcases hb with rfl | rfl <;> exact absurd h (by decide)

theorem isOfPath_of_mem_encode {s : String} {c : Char} (h : c ∈ (Percent.encode s).toList) :
    isOfPath c := by
  rcases Percent.mem_encode h with h | rfl
  · simp [isOfPath, h]
  · rfl

theorem isOfPath_of_mem_componentsPath {realm : String} {c : Char}
    (h : c ∈ (componentsPath realm).toList) : isOfPath c := by
  have front : "/admin/realms/".toList.all isOfPath = true := by decide
  have back : "/components".toList.all isOfPath = true := by decide
  change c ∈ ("/admin/realms/" ++ Percent.encode realm ++ "/components").toList at h
  rw [String.toList_append, String.toList_append, List.mem_append, List.mem_append] at h
  rcases h with (h | h) | h
  · exact List.all_eq_true.mp front c h
  · exact isOfPath_of_mem_encode h
  · exact List.all_eq_true.mp back c h

/-- A header keeps a path at its end. -/
theorem headerValue_append {text : String} {before path : List Char}
    (h : text.toList = before ++ path) (some_ : path ≠ []) (ofPath : ∀ c ∈ path, isOfPath c) :
    (headerValue text).toList = before.dropWhile isBlank ++ path := by
  -- A text that starts with a path loses nothing there, whatever comes after it.
  have stays : ∀ {cs : List Char} (rest : List Char), cs ≠ [] → (∀ c ∈ cs, isOfPath c) →
      (cs ++ rest).dropWhile isBlank = cs ++ rest := by
    intro cs rest some_ ofPath
    obtain ⟨c, cs, rfl⟩ := List.exists_cons_of_ne_nil some_
    exact List.dropWhile_cons_of_neg (by simp [not_isBlank_of_isOfPath (ofPath c List.mem_cons_self)])
  have front : text.toList.dropWhile isBlank = before.dropWhile isBlank ++ path := by
    rw [h, List.dropWhile_append]
    split
    · rename_i none
      rw [List.isEmpty_iff.mp none]
      simpa using stays [] some_ ofPath
    · rfl
  have value : (headerValue text).toList =
      ((text.toList.dropWhile isBlank).reverse.dropWhile isBlank).reverse := by
    rw [headerValue, String.toList_ofList]
    rfl
  rw [value, front, List.reverse_append, stays _ (by simpa using some_) (by simpa using ofPath),
    List.reverse_append, List.reverse_reverse, List.reverse_reverse]

/-- The id of a place is its last segment, as it is written there. -/
theorem createdId?_place {place : String} {before last : List Char} {slashes : Nat}
    (h : place.toList = before ++ '/' :: last ++ List.replicate slashes '/') (some_ : last ≠ [])
    (segment : '/' ∉ last) : createdId? place = some (String.ofList last) := by
  have reversed : place.toList.reverse =
      List.replicate slashes '/' ++ (last.reverse ++ '/' :: before.reverse) := by
    rw [h]
    simp
  have others : ∀ c ∈ last.reverse, (!decide (c = '/')) = true := by
    intro c hc
    have ne : c ≠ '/' := fun same => segment (same ▸ List.mem_reverse.mp hc)
    simp [ne]
  obtain ⟨c, cs, hl⟩ := List.exists_cons_of_ne_nil (List.reverse_ne_nil_iff.mpr some_)
  have trimmed : place.toList.reverse.dropWhile (fun c => decide (c = '/')) =
      last.reverse ++ '/' :: before.reverse := by
    rw [reversed, List.dropWhile_append_of_pos (by simp), hl, List.cons_append]
    refine List.dropWhile_cons_of_neg ?_
    simpa using others c (by rw [hl]; exact List.mem_cons_self)
  have taken : (place.toList.reverse.dropWhile (fun c => decide (c = '/'))).takeWhile
      (fun c => !decide (c = '/')) = last.reverse := by
    rw [trimmed, List.takeWhile_append_of_pos others]
    simp
  unfold createdId?
  simp only [taken, List.isEmpty_reverse, List.isEmpty_iff, some_, if_false, List.reverse_reverse]

/-- What is read of a place that names a component: its id, encoded. A place that is not plain text
is not read. -/
theorem createdId?_of_location {r : Response} {realm id base : String} {slashes : Nat}
    (named : id ≠ "") (place : r.location = some (base ++ componentPath realm id ++
      String.ofList (List.replicate slashes '/'))) :
    (place? r).bind createdId? =
      if base.toList.all isPlain then some (Percent.encode id) else none := by
  let segment := (Percent.encode id).toList
  let path := (componentsPath realm).toList ++ '/' :: segment ++ List.replicate slashes '/'
  have some_ : segment ≠ [] := Percent.encode_ne_empty named
  have ofPath : ∀ ch ∈ path, isOfPath ch := by
    intro ch hch
    simp only [path, segment, List.mem_append, List.mem_cons, List.mem_replicate] at hch
    rcases hch with (h | rfl | h) | ⟨-, rfl⟩
    · exact isOfPath_of_mem_componentsPath h
    · rfl
    · exact isOfPath_of_mem_encode h
    · rfl
  have unslashed : '/' ∉ segment := by
    intro h
    rcases Percent.mem_encode h with h | h <;> exact absurd h (by decide)
  generalize whole : base ++ componentPath realm id ++
    String.ofList (List.replicate slashes '/') = location at place
  have text : location.toList = base.toList ++ path := by
    rw [← whole]
    simp [path, segment, componentPath, String.toList_append]
  have value := headerValue_append text (by simp [path]) ofPath
  have shape : (headerValue location).toList =
      (base.toList.dropWhile isBlank ++ (componentsPath realm).toList) ++ '/' :: segment ++
        List.replicate slashes '/' := by
    rw [value]
    simp [path]
  have found := createdId?_place shape some_ unslashed
  -- Only the base can hold what is not plain, and the blanks that a header loses are plain.
  have plain : (headerValue location).toList.all isPlain = base.toList.all isPlain := by
    have rest : path.all isPlain :=
      List.all_eq_true.mpr fun ch hch => isPlain_of_isOfPath (ofPath ch hch)
    rw [value, List.all_append, rest, Bool.and_true, all_isPlain_dropWhile]
  have read : place? r = (some (headerValue location)).filter (·.toList.all isPlain) := by
    rw [place?, place]
    rfl
  rw [read, Option.filter_some, plain]
  split
  · rw [Option.bind_some, found, String.ofList_toList]
  · rfl

/-! ### Requests -/

/-- The requests of a program that gets some responses, in order, up to the one that comes after
them. -/
def requests {α : Type} : Exchange α → List (Option Response) → List Request
  | .done _, _ => []
  | .ask request _, [] => [request]
  | .ask request next, response :: rest => request :: requests (next response) rest

variable {c : Client} {component : Component} {realm id path : String} {post : Request}
  {r : Response}

/-- A request is sent; a response of success to it is the last one. -/
theorem exists_follow (n : Nat) (request : Request) :
    ∃ next, request.follow n = .ask request next ∧
      ∀ r : Response, r.isSuccess → next (some r) = .done (some r) := by
  refine ⟨_, by rw [Request.follow], fun r success => ?_⟩
  simp only [Response.isSuccess, Bool.and_eq_true, decide_eq_true_eq] at success
  have stop : request.continuation r = .stop := by
    have final : r.isFinal := by
      simp only [Response.isFinal, Bool.or_eq_true, Bool.and_eq_true, decide_eq_true_eq]
      omega
    have stays : request.instead? r.status = none := by
      unfold Request.instead?
      split <;> first | omega | rfl
    simp [Request.continuation, final, stays]
  simp only [stop]

/-- A program starts with a request, or fails at once if there is none. -/
def Starts {α : Type} (request : Option Request) (p : ExceptT Failure Exchange α) : Prop :=
  match request with
  | some request => ∃ next, p.run = .ask request next
  | none => ∃ e, p.run = .done (.error e)

/-- Whatever comes after it, a program starts as it does. -/
theorem Starts.bind {α β : Type} {request : Option Request} {p : ExceptT Failure Exchange α}
    (starts : Starts request p) (f : α → ExceptT Failure Exchange β) :
    Starts request (p >>= f) := by
  cases request with
  | none =>
    obtain ⟨e, h⟩ := starts
    refine ⟨e, ?_⟩
    change Interaction.bind p.run _ = _
    rw [h]
    rfl
  | some request =>
    obtain ⟨next, h⟩ := starts
    refine ⟨fun r => (next r).bind (ExceptT.bindCont f), ?_⟩
    change Interaction.bind p.run _ = _
    rw [h]
    rfl

theorem Starts.requests {α : Type} {request : Option Request} {p : ExceptT Failure Exchange α}
    (starts : Starts request p) : requests p.run [] = request.toList := by
  cases request with
  | none =>
    obtain ⟨e, h⟩ := starts
    rw [h]
    rfl
  | some request =>
    obtain ⟨next, h⟩ := starts
    rw [h]
    rfl

theorem starts_send (c : Client) (method : Method) (path : String) (body : Option Json) :
    Starts (c.request? method path body) (c.send method path body) := by
  unfold Client.send
  cases c.request? method path body with
  | none => exact ⟨_, rfl⟩
  | some request =>
    obtain ⟨next, asks, -⟩ := exists_follow maxRedirects request
    exact ⟨_, by simp only [asks]; rfl⟩

/-- A program that fetches a component starts with its path. -/
theorem starts_fetch (c : Client) (id realm : String) :
    Starts (c.request? .get (componentPath realm id) none) (c.fetch id realm) :=
  (starts_send c .get (componentPath realm id) none).bind _

theorem requests_create
    (sent : c.request? .post (componentsPath realm) (some component.json) = some post)
    (success : r.isSuccess) :
    requests (c.create component realm).run [some r] = post ::
      match (place? r).bind createdId? with
      | some id => (c.request? .get (componentPath realm id) none).toList
      | none => [] := by
  obtain ⟨next, asks, stops⟩ := exists_follow maxRedirects post
  have checked : Client.checkStatus r = .ok () := by
    rw [Client.checkStatus, if_pos success]
  unfold Client.create Client.send
  simp only [sent, asks]
  refine congrArg (post :: ·) ?_
  have goesOn : ∀ next : Response → ExceptT Failure Exchange Component,
      requests (Interaction.bind (pure (Except.ok r)) (ExceptT.bindCont next)) [] =
        requests (next r).run [] := fun _ => rfl
  have passes : ∀ rest : ExceptT Failure Exchange Component,
      requests (ExceptT.mk (Interaction.done (Except.ok ())) >>= fun _ => rest).run [] =
        requests rest.run [] := fun _ => rfl
  simp only [stops r success, Interaction.bind]
  rw [goesOn, checked, passes]
  cases (place? r).bind createdId? with
  | none => rfl
  | some id => exact ((starts_fetch c id realm).bind _).requests

/-- A client that is told the place of a new component takes its last segment for the id, and
encodes it once more. This leads to the component just if nothing in its id has to be encoded. -/
theorem created_fetched_iff
    (sent : c.request? .post (componentsPath realm) (some component.json) = some post)
    (success : r.isSuccess) (named : id ≠ "") (base : String) (slashes : Nat)
    (place : r.location = some (base ++ componentPath realm id ++
      String.ofList (List.replicate slashes '/'))) :
    requests (c.create component realm).run [some r] = post ::
        (if base.toList.all isPlain then
          (c.request? .get (componentPath realm (Percent.encode id)) none).toList
        else []) ∧
      (componentPath realm (Percent.encode id) = componentPath realm id ↔
        ∀ ch ∈ id.toList, Percent.isUnreserved ch) := by
  have asked := requests_create sent success
  rw [createdId?_of_location named place] at asked
  have paths : componentPath realm (Percent.encode id) = componentPath realm id ↔
      Percent.encode (Percent.encode id) = Percent.encode id := by
    unfold componentPath
    exact String.append_right_inj _
  refine ⟨?_, paths.trans Percent.encode_encode_iff⟩
  rw [asked]
  cases base.toList.all isPlain <;> rfl

namespace Sample

/-- A client of a server nearby. -/
def nearby : Client := { baseUrl := "http://localhost" }

/-- A component whose id has to be encoded. -/
def spaced : Component := { id := some "a b" }

/-- What a server answers that has created a component of an id. -/
def placed (id : String) : Response :=
  { status := 201, location := some ("http://localhost" ++ componentPath "master" id ++ "/") }

theorem local_plain : "http://localhost".toList.all isPlain = true := by decide

theorem spaced_encoded : Percent.encode "a b" = "a%20b" := by decide

set_option maxRecDepth 4000 in
theorem spaced_posted :
    (nearby.request? .post (componentsPath "master") (some spaced.json)).isSome := by
  unfold Client.request? Url.parse? componentsPath Percent.encode
  simp only [String.toList_append, String.toList_ofList]
  cbv

set_option maxRecDepth 4000 in
theorem spaced_got :
    (nearby.request? .get (componentPath "master" "a%20b") none).map (·.url.path.getLast?) =
      some (some "a%2520b") := by
  unfold Client.request? Url.parse? componentPath componentsPath Percent.encode
  simp only [String.toList_append, String.toList_ofList]
  cbv

end Sample

open Http.Sample in
theorem spaced_fetched_apart : ∃ post,
    nearby.request? .post (componentsPath "master") (some spaced.json) = some post ∧
      (placed "a b").isSuccess ∧
      requests (nearby.create spaced "master").run [some (placed "a b")] = post ::
        (nearby.request? .get (componentPath "master" (Percent.encode "a b")) none).toList ∧
      componentPath "master" (Percent.encode "a b") ≠ componentPath "master" "a b" := by
  obtain ⟨post, sent⟩ := Option.isSome_iff_exists.mp spaced_posted
  obtain ⟨asked, paths⟩ := created_fetched_iff sent (show (placed "a b").isSuccess from rfl)
    (show "a b" ≠ "" by decide) "http://localhost" 1 rfl
  rw [if_pos local_plain] at asked
  have blank : Percent.isUnreserved ' ' = false := by decide
  refine ⟨post, sent, rfl, asked, fun same => ?_⟩
  exact Bool.false_ne_true (blank.symm.trans (paths.mp same ' ' (by simp)))

open Http.Sample in
/-- A component with a blank in its id is looked for in another place than where it is. -/
theorem spaced_fetched_elsewhere : ∃ post get,
    requests (nearby.create spaced "master").run [some (placed "a b")] = [post, get] ∧
      get.url.path.getLast? = some "a%2520b" ∧
      componentPath "master" "a b" = componentsPath "master" ++ "/" ++ "a%20b" := by
  obtain ⟨post, sent⟩ := Option.isSome_iff_exists.mp spaced_posted
  obtain ⟨get, asked, last⟩ := Option.map_eq_some_iff.mp spaced_got
  have place : (placed "a b").location = some ("http://localhost" ++
      componentPath "master" "a b" ++ String.ofList (List.replicate 1 '/')) := rfl
  have found := createdId?_of_location (by decide) place
  rw [if_pos local_plain] at found
  refine ⟨post, get, ?_, last, by rw [componentPath, spaced_encoded]⟩
  rw [requests_create sent rfl, found, spaced_encoded]
  simp only [asked, Option.toList_some]

end Http

end UserFederation
