import UserFederation.Proofs.Hosting
import UserFederation.Proofs.Scope
import UserFederation.Proofs.Spelling
import UserFederation.Proofs.Targets

/-! The realm that the commands on federations are about. All calls of a reconciliation are about
the realm of its declaration (`Reconcile.reconcile_calls_realm`), and all requests of a call about
the realm of the call (`Http.Client.sends_answer`); so each command sends requests about one realm
only, which is not the same for all commands (`Federate.same_realm_iff`). -/

namespace UserFederation

open Dialogue

/-! ### Calls -/

theorem Dialogue.Keeps.calls {α : Type} {P : Call → Prop} {Q : List Exchange → α → Prop}
    {p : Dialogue α} {past : List Exchange}
    (hp : p.Keeps (fun _ _ => True) (fun _ => P) Q past) : p.Calls P := by
  induction p generalizing past with
  | done | fail => trivial
  | ask call next ih => exact ⟨hp.1, fun reply => ih reply (hp.2 reply trivial)⟩

theorem Mapper.Action.realm_call (realm : String) (a : Action) : (a.call realm).realm = realm := by
  cases a <;> rfl

namespace Reconcile

theorem reconcile_calls_realm (d : Declaration) (mode : RunMode) :
    (reconcile d mode).Calls (·.realm = d.realm) := by
  have reads : AllowsReading d fun _ call => call.realm = d.realm := fun _ _ same _ => same
  have kept : (reconcile d mode).Keeps (fun _ _ => True) (fun _ call => call.realm = d.realm)
      (fun _ _ => True) [] := by
    rw [reconcile_eq]
    refine Keeps.bind (survey_keeps reads) fun (before, changes) past ⟨looked, _⟩ => ?_
    change (conclude d mode before changes).Keeps _ _ _ past
    unfold conclude
    split
    · trivial
    · exact create_keeps reads looked rfl fun _ _ _ _ _ _ _ a _ => a.realm_call d.realm
    · exact delete_keeps fun _ _ => rfl
    · exact update_keeps reads looked (fun _ _ => rfl) fun _ _ _ _ a _ => a.realm_call d.realm
  exact kept.calls

end Reconcile

theorem Federation.resolve_calls_realm (realm : String) (id name : Option String) :
    (resolve realm id name).Calls (·.realm = realm) :=
  (Reconcile.resolve_keeps (d := { realm, id, name }) (P := fun _ call => call.realm = realm)
    fun _ _ same _ => same).calls

theorem Federate.find_calls_realm (realm : String) (id name : Option String) :
    (find realm id name).Calls (·.realm = realm) :=
  (Federation.resolve_calls_realm realm id name).bind fun found => by cases found <;> trivial

/-! ### Requests -/

namespace Hosted

variable {α β ε : Type} {P : Http.Request → Prop} {p : Hosted α}

/-- Whatever the host replies, every request that a command makes by itself satisfies `P`. -/
def Sends (P : Http.Request → Prop) (p : Hosted α) : Prop :=
  ∀ (σ : Type) (host : Host σ) (s : σ) (sentOn : Bool),
    ∀ request ∈ Event.requests sentOn (events host p s), P request

theorem mem_requests_append {request : Http.Request} {xs ys : List Event} {sentOn : Bool}
    (h : request ∈ Event.requests sentOn (xs ++ ys)) :
    request ∈ Event.requests sentOn xs ∨ ∃ later, request ∈ Event.requests later ys := by
  induction xs generalizing sentOn with
  | nil => exact .inr ⟨sentOn, h⟩
  | cons x xs ih =>
    obtain ⟨effect, reply⟩ := x
    cases effect with
    | send first =>
      rw [List.cons_append, Event.requests] at h
      rw [Event.requests]
      cases sentOn with
      | true => exact ih h
      | false =>
        rcases List.mem_cons.mp h with rfl | h
        · exact .inl List.mem_cons_self
        · exact (ih h).imp_left (List.mem_cons_of_mem _)
    | readFile | readSettings | writeSettings | readLine | print => exact ih h

theorem sends_done (a : α) : Sends P (.done a : Hosted α) := by
  intro _ _ _ _ request h
  cases h

theorem Sends.bind (hp : Sends P p) {f : α → Hosted β} (hf : ∀ a, Sends P (f a)) :
    Sends P (p.bind f) := by
  intro σ host s sentOn request h
  rw [events_bind] at h
  rcases mem_requests_append h with h | ⟨later, h⟩
  · exact hp σ host s sentOn request h
  · exact hf _ σ host _ later request h

theorem Sends.bindExcept {p : ExceptT ε Hosted α} {f : α → ExceptT ε Hosted β}
    (hp : Sends P p.run) (hf : ∀ a, Sends P (f a).run) : Sends P (p >>= f).run :=
  Sends.bind hp fun
    | .ok a => hf a
    | .error _ => sends_done _

theorem sends_printed (text : Transcript) : Sends P (printed text).run := by
  intro _ _ _ _ request h
  cases h

end Hosted

namespace Http

open Hosted

variable {α β ε : Type} {P : Request → Prop}

theorem Exchange.hosted_bind (p : Exchange α) (f : α → Exchange β) :
    hosted (p.bind f) = (hosted p).bind fun a => hosted (f a) := by
  induction p with
  | done a => rfl
  | ask request next ih => exact congrArg (Interaction.ask _) (funext ih)

theorem requests_ask {request : Request} {next : Option Response → Hosted α} {σ : Type}
    {host : Host σ} {s : σ} {sentOn : Bool} (first : sentOn = false → P request)
    (later : ∀ reply s, ∀ r ∈ Event.requests (Event.isSentOn ⟨.send request, reply⟩)
      (events host (next reply) s), P r) :
    ∀ r ∈ Event.requests sentOn (events host (.ask (.send request) next) s), P r := by
  rw [events, Event.requests]
  cases sentOn with
  | true => exact later _ _
  | false => exact List.forall_mem_cons.mpr ⟨first rfl, later _ _⟩

/-- Only the first request of those that follow redirections is made by the client itself. -/
theorem sends_follow {request : Request} (h : P request) (n : Nat) :
    Sends P (Exchange.hosted (request.follow n)) := by
  intro σ host s sentOn
  replace h : sentOn = false → P request := fun _ => h
  induction n generalizing request s sentOn with
  | zero =>
    rw [Request.follow]
    refine requests_ask h fun reply s r hr => ?_
    cases reply with
    | none => cases hr
    | some response =>
      dsimp only at hr
      cases followed : request.continuation response <;> simp only [followed] at hr <;> cases hr
  | succ n ih =>
    rw [Request.follow]
    refine requests_ask h fun reply s => ?_
    cases reply with
    | none => exact fun r h => absurd h List.not_mem_nil
    | some response =>
      dsimp only
      cases followed : request.continuation response with
      | stop | fail => exact fun r h => absurd h List.not_mem_nil
      | send next =>
        refine ih s _ fun new => ?_
        rw [Event.isSentOn, followed] at new
        cases new

theorem sends_bind {p : ExceptT ε Exchange α} {f : α → ExceptT ε Exchange β}
    (hp : Sends P (Exchange.hosted p.run)) (hf : ∀ a, Sends P (Exchange.hosted (f a).run)) :
    Sends P (Exchange.hosted (p >>= f).run) := by
  change Sends P (Exchange.hosted (Interaction.bind p.run _))
  rw [Exchange.hosted_bind]
  exact hp.bind fun
    | .ok a => hf a
    | .error _ => sends_done _

/-- The realm of what a request is about. -/
def Target.realm : Target → String
  | .collection realm | .component realm _ | .named realm _ _ | .children realm _ => realm

namespace Client

/-- A request that a client makes for something in a realm. -/
def Addresses (c : Client) (realm : String) (request : Request) : Prop :=
  ∃ (method : Method) (target : Target) (body : Option Json), target.realm = realm ∧
    c.request? method target.text body = some request

variable (c : Client)

theorem sends_send (method : Method) (target : Target) (body : Option Json) :
    Sends (c.Addresses target.realm) (Exchange.hosted (c.send method target.text body).run) := by
  unfold Client.send
  cases made : c.request? method target.text body with
  | none => exact sends_done _
  | some request =>
    change Sends _ (Exchange.hosted (Interaction.bind (request.follow maxRedirects) _))
    rw [Exchange.hosted_bind]
    refine (sends_follow ⟨method, target, body, rfl, made⟩ maxRedirects).bind fun reply => ?_
    cases reply <;> exact sends_done _

theorem sends_fetch (id realm : String) :
    Sends (c.Addresses realm) (Exchange.hosted (c.fetch id realm).run) := by
  refine sends_bind (c.sends_send .get (.component realm id) none) fun response => ?_
  split <;> exact sends_done _

theorem sends_create (component : Component) (realm : String) :
    Sends (c.Addresses realm) (Exchange.hosted (c.create component realm).run) := by
  refine sends_bind (c.sends_send .post (.collection realm) _) fun response => ?_
  refine sends_bind (sends_done _) fun _ => ?_
  cases (place? response).bind createdId? with
  | none => exact sends_done _
  | some id =>
    refine sends_bind (c.sends_fetch id realm) fun stored => ?_
    cases stored <;> exact sends_done _

/-- All requests of a call are about its realm. -/
theorem sends_answer (call : Call) :
    Sends (c.Addresses call.realm) (Exchange.hosted (c.answer call).run) := by
  cases call with
  | find realm type name =>
    exact sends_bind (c.sends_send .get (.named realm type name) none) fun _ => sends_done _
  | get id realm => exact c.sends_fetch id realm
  | create component realm => exact c.sends_create component realm
  | update component realm =>
    cases hid : component.id with
    | none =>
      simp only [Client.answer, hid]
      exact sends_done _
    | some id =>
      simp only [Client.answer, hid]
      exact sends_bind (c.sends_send .put (.component realm id) _) fun _ => sends_done _
  | delete id realm =>
    exact sends_bind (c.sends_send .delete (.component realm id) none) fun _ => sends_done _
  | children parent realm =>
    exact sends_bind (c.sends_send .get (.children realm parent) none) fun _ => sends_done _

theorem sends_converse {p : Dialogue α} {realm : String} (calls : p.Calls (·.realm = realm)) :
    Sends (c.Addresses realm) (Exchange.hosted (c.converse p).run) := by
  induction p with
  | done | fail => exact sends_done _
  | ask call next ih =>
    obtain ⟨rfl, later⟩ := calls
    exact sends_bind (c.sends_answer call) fun reply => ih reply (later reply)

end Client

end Http

/-! ### Commands -/

/-- A document of a declaration that names a realm: under its key, or as the second item. -/
def Document.NamesRealm : Document → Prop
  | .map entries => "realm" ∈ entries.map (·.1)
  | .seq items => 1 < items.length
  | _ => False

namespace Declaration

/-- The document that a text says. -/
def document? (toml : Bool) (text : String) : Option Document :=
  if toml then Toml.read? text else Json.read? text

theorem realm_of_unnamed {rules : RecordRules} {doc : Document} {d : Declaration}
    (said : read? rules doc = some d) (unnamed : ¬doc.NamesRealm) : d.realm = defaultRealm := by
  obtain ⟨part, record, -, realm, -⟩ := read?_eq_some_iff.mp said
  have missing : part 1 ["realm"] = some none := by
    cases doc with
    | map entries =>
      cases record
      refine Document.part?_eq_some_iff.mpr (List.map_eq_nil_iff.mpr ?_)
      refine List.filter_eq_nil_iff.mpr fun e he same => ?_
      exact unnamed (List.mem_map.mpr ⟨e, he, by simpa using same⟩)
    | seq items =>
      obtain ⟨-, h⟩ := Option.ite_none_right_eq_some.mp record
      cases h
      exact congrArg some (List.getElem?_eq_none (Nat.le_of_not_lt unnamed))
    | null | bool | int | float | text | unreadable => cases record
  rw [missing] at realm
  exact (Option.some.inj realm).symm

theorem realm_of_text {toml : Bool} {text : String} {d : Declaration}
    (said : ofText toml text = .ok d)
    (unnamed : ∀ doc, document? toml text = some doc → ¬doc.NamesRealm) :
    d.realm = defaultRealm := by
  have read : ∃ rules, (document? toml text).bind (read? rules) = some d := by
    unfold ofText at said
    dsimp only at said
    cases toml with
    | true => exact ⟨Toml.recordRules, by split at said <;> cases said; assumption⟩
    | false => exact ⟨Json.recordRules, by split at said <;> cases said; assumption⟩
  obtain ⟨rules, read⟩ := read
  obtain ⟨doc, said, read⟩ := Option.bind_eq_some_iff.mp read
  exact realm_of_unnamed read (unnamed doc said)

end Declaration

namespace Federate

open Hosted

variable {style : Style} {format : Format} {client : Http.Client}

theorem sends_converse {α : Type} {p : Dialogue α} {realm : String}
    (calls : p.Calls (·.realm = realm)) :
    Sends (client.Addresses realm) (converse client p).run := by
  refine (client.sends_converse calls).bind fun result => ?_
  cases result <;> exact sends_done _

theorem sends_get (realm : String) (id name : Option String) :
    Sends (client.Addresses realm) (get style format client realm id name).run :=
  (sends_converse (find_calls_realm realm id name)).bindExcept fun _ => sends_printed _

/-- Brings a federation to a declared state, once the declaration is read. -/
def bring (style : Style) (format : Format) (client : Http.Client) (mode : RunMode)
    (d : Declaration) : ExceptT CommandError Hosted Unit := do
  if mode.dryRun ∧ format = .table then printed (dryRunNotice style)
  let outcome ← converse client (reconcile d mode)
  printed (Report.outcome style format outcome)

theorem sends_bring (mode : RunMode) (d : Declaration) :
    Sends (client.Addresses d.realm) (bring style format client mode d).run := by
  have rest : Sends (client.Addresses d.realm) (do
      let outcome ← converse client (reconcile d mode)
      printed (Report.outcome style format outcome) : ExceptT CommandError Hosted Unit).run :=
    (sends_converse (Reconcile.reconcile_calls_realm d mode)).bindExcept fun _ => sends_printed _
  unfold bring
  split
  · exact (sends_printed _).bindExcept fun _ => rest
  · exact rest

theorem apply_eq (realm : Option String) (path : String) (mode : RunMode) :
    apply style format client realm path mode =
      (Declaration.load path >>= fun d => bring style format client mode (d.inRealm realm)) := rfl

section Requests

variable {σ : Type} {host : Host σ} {s : σ} {argument : Option String} {path : String}
  {mode : RunMode}

theorem requests_load (host : Host σ) (s : σ) (path : String)
    (f : Declaration → ExceptT CommandError Hosted Unit) :
    Event.requests false (events host (Declaration.load path >>= f).run s) =
      match (host (.readFile path) s).1 with
      | .ok text =>
        match Declaration.ofText (Declaration.isToml path) text with
        | .ok d => Event.requests false (events host (f d).run (host (.readFile path) s).2)
        | .error _ => []
      | .error _ => [] := by
  have other : ∀ request, Effect.readFile path ≠ .send request := by simp
  rw [ExceptT.run_bind]
  change Event.requests false (events host ((Declaration.load path).run.bind _) s) = _
  rw [Declaration.load_run, Interaction.bind, events, Event.requests_cons other]
  rcases (host (.readFile path) s).1 with fault | text
  · rfl
  · dsimp only
    cases Declaration.ofText (Declaration.isToml path) text <;> rfl

/-- Once a declaration is read, what is sent is about its realm, or the one that is given. -/
theorem requests_apply {realm : String}
    (read : ∀ text d, (host (.readFile path) s).1 = .ok text →
      Declaration.ofText (Declaration.isToml path) text = .ok d →
      (d.inRealm argument).realm = realm) :
    ∀ request ∈ Event.requests false
        (events host (apply style format client argument path mode).run s),
      client.Addresses realm request := by
  rw [apply_eq, requests_load]
  split
  · rename_i text reply
    split
    · rename_i d said
      rw [← read text d reply said]
      exact sends_bring mode (d.inRealm argument) σ host _ false
    · exact fun request h => absurd h List.not_mem_nil
  · exact fun request h => absurd h List.not_mem_nil

end Requests

/-- The first request of a conversation is that of its first call. -/
theorem head?_requests {σ α β : Type} {host : Host σ} {s : σ} {call : Call}
    {next : call.Reply → Dialogue α} {request : Http.Request}
    (made : client.opening? call = some request) (f : α → ExceptT CommandError Hosted β) :
    (Event.requests false (events host (converse client (.ask call next) >>= f).run s)).head? =
      some request := by
  have starts := (Http.starts_answer client call).bind fun reply => client.converse (next reply)
  rw [made] at starts
  obtain ⟨rest, asks⟩ := starts
  have first : (client.converse (.ask call next)).run = .ask request rest := asks
  rw [ExceptT.run_bind]
  unfold converse
  simp only [ExceptT.run_mk, first]
  rfl

/-- Without a realm in the declaration, `apply` and `get` are about the same realm just if one is
given, or the settings name none but the usual one. -/
theorem same_realm_iff {σ : Type} (host : Host σ) (s t : σ) (style : Style) (file : String)
    (settings : Settings) (i : Invocation) (path : String) (dryRun diff : Bool)
    (id name : Option String)
    (unnamed : ∀ text doc, (host (.readFile path) s).1 = .ok text →
      Declaration.document? (Declaration.isToml path) text = some doc → ¬doc.NamesRealm) :
    let sent := fun s command =>
      Event.requests false
        (events host (Program.execute style file settings { i with command }).run s)
    let client := Http.Client.ofSettings settings i.server
    let applied := i.realm.getD defaultRealm
    let shown := (i.realm.or settings.defaultRealm).getD defaultRealm
    (∀ request ∈ sent s (.apply path dryRun diff), client.Addresses applied request) ∧
      (∀ request ∈ sent t (.get id name), client.Addresses shown request) ∧
      (applied = shown ↔
        i.realm.isSome ∨ settings.defaultRealm.getD defaultRealm = defaultRealm) := by
  refine ⟨requests_apply fun text d reply said => ?_, sends_get _ id name σ host t false, ?_⟩
  · rw [← Declaration.realm_of_text said fun doc => unnamed text doc reply]
    rfl
  · cases i.realm with
    | some realm => simp
    | none => simp [eq_comm]

end Federate

namespace Http.Sample

/-- Settings with a default realm. -/
def acme : Settings := { serverUrl := "http://localhost", defaultRealm := some "acme" }

/-- A host whose only file declares a federation by its id. No request gets a response. -/
def specHost : Host Unit := fun effect s =>
  match effect with
  | .readFile _ => (.ok "\x7b\"id\":\"people\"\x7d", s)
  | .readSettings => (.ok none, s)
  | .writeSettings _ => (.ok (), s)
  | .readLine => ("", s)
  | .print _ => ((), s)
  | .send _ => (none, s)

theorem ofSettings_acme : Client.ofSettings acme none = nearby := by decide

theorem spec_json : Declaration.isToml "spec" = false := by cbv

theorem spec_document : Json.read? "\x7b\"id\":\"people\"\x7d" =
    some (.map [("id", .text "people")]) := by cbv

theorem spec_unnamed : ∀ text doc, (specHost (.readFile "spec") ()).1 = .ok text →
    Declaration.document? (Declaration.isToml "spec") text = some doc → ¬doc.NamesRealm := by
  intro text doc reply said
  cases reply
  rw [spec_json, Declaration.document?, if_neg Bool.false_ne_true, spec_document] at said
  cases said
  unfold Document.NamesRealm
  decide

theorem spec_read : Declaration.ofText false "\x7b\"id\":\"people\"\x7d" =
    .ok { id := some "people" } := by
  unfold Declaration.ofText
  rw [spec_document]
  rfl

set_option maxRecDepth 4000 in
theorem people_in_master :
    (nearby.opening? (.get "people" "master")).map (·.url.target) =
      some "/admin/realms/master/components/people" := by
  change (nearby.request? .get (componentPath "master" "people") none).map _ = _
  unfold Client.request? Url.parse? componentPath componentsPath Percent.encode
  simp only [String.toList_append, String.toList_ofList]
  cbv

set_option maxRecDepth 4000 in
theorem people_in_acme :
    (nearby.opening? (.get "people" "acme")).map (·.url.target) =
      some "/admin/realms/acme/components/people" := by
  change (nearby.request? .get (componentPath "acme" "people") none).map _ = _
  unfold Client.request? Url.parse? componentPath componentsPath Percent.encode
  simp only [String.toList_append, String.toList_ofList]
  cbv

end Http.Sample

open Http.Sample in
theorem Federate.same_realm_if_given :
    (∀ text doc, (specHost (.readFile "spec") ()).1 = .ok text →
      Declaration.document? (Declaration.isToml "spec") text = some doc → ¬doc.NamesRealm) ∧
    let sent := fun command => Event.requests false (Hosted.events specHost
      (Program.execute {} "" acme ⟨none, some "corp", .table, false, command⟩).run ())
    (∀ request ∈ sent (.apply "spec" false false), nearby.Addresses "corp" request) ∧
      ∀ request ∈ sent (.get (some "people") none), nearby.Addresses "corp" request := by
  obtain ⟨applied, shown, -⟩ := same_realm_iff specHost () () {} "" acme
    ⟨none, some "corp", .table, false, .show⟩ "spec" false false (some "people") none spec_unnamed
  rw [← ofSettings_acme]
  exact ⟨spec_unnamed, applied, shown⟩

open Http.Sample Federate in
/-- With a default realm in the settings, a federation is shown from there, but a declaration that
names no realm is applied to the usual one. -/
theorem Federate.default_realm_not_applied :
    (∀ text doc, (specHost (.readFile "spec") ()).1 = .ok text →
      Declaration.document? (Declaration.isToml "spec") text = some doc → ¬doc.NamesRealm) ∧
    let firstTarget := fun command => (Event.requests false (Hosted.events specHost
      (Program.execute {} "" acme ⟨none, none, .table, false, command⟩).run ())).head?.map
        (·.url.target)
    firstTarget (.apply "spec" false false) = some "/admin/realms/master/components/people" ∧
      firstTarget (.get (some "people") none) = some "/admin/realms/acme/components/people" := by
  have first {realm target : String} {α : Type} {next : Option Component → Dialogue α}
      {f : α → ExceptT CommandError Hosted Unit}
      (got : (nearby.opening? (.get "people" realm)).map (·.url.target) = some target) :
      (Event.requests false (Hosted.events specHost
        (converse (Http.Client.ofSettings acme none) (.ask (.get "people" realm) next) >>= f).run
          ())).head?.map (·.url.target) = some target := by
    rw [← ofSettings_acme] at got
    obtain ⟨request, made, rfl⟩ := Option.map_eq_some_iff.mp got
    rw [head?_requests made, Option.map_some]
  refine ⟨spec_unnamed, ?_, first people_in_acme⟩
  have loaded := requests_load specHost () "spec" fun d =>
    bring {} .table (Http.Client.ofSettings acme none) {} (d.inRealm none)
  have reply : (specHost (.readFile "spec") ()).1 = .ok "\x7b\"id\":\"people\"\x7d" := rfl
  rw [reply] at loaded
  dsimp only at loaded
  rw [spec_json, spec_read] at loaded
  refine Eq.trans (congrArg (fun r : List Http.Request => r.head?.map (·.url.target)) loaded) ?_
  exact first people_in_master

end UserFederation
