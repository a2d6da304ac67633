import UserFederation.Proofs.Scope
import UserFederation.Proofs.Verdict

/-! What an update sends. It replaces a component as a whole, so what is not specified has to be
sent along as it was found (`Overlaid`): of the federation what was normalized, of a mapper what was
listed (`updates_send_the_rest_along`). -/

namespace UserFederation

namespace Component

/-- A field of a component that is one text. -/
inductive TextField
  | id
  | name
  | providerId
  | providerType
  | parentId
  deriving DecidableEq

/-- The text of a field. -/
def text? (c : Component) : TextField → Option String
  | .id => c.id
  | .name => c.name
  | .providerId => c.providerId
  | .providerType => c.providerType
  | .parentId => c.parentId

/-- A component has the texts and the config values that are specified, and is `base` in the rest:
the other texts and config keys and the fields that mean nothing here. -/
structure Overlaid (texts : TextField → Option String) (config : Option DeclaredConfig)
    (base c : Component) : Prop where
  text_specified : ∀ field text, texts field = some text → c.text? field = some text
  text_kept : ∀ field, texts field = none → c.text? field = base.text? field
  config_specified : ∀ key v, config.bind (·.get? key) = some (some v) →
    c.configList? key = some [v.encode]
  config_kept : ∀ key, (config.bind (·.get? key)).join = none →
    c.configList? key = base.configList? key
  configured : c.config.isSome = (config.isSome || base.config.isSome)
  extra : c.extra = base.extra

variable {base given : Component} {texts : TextField → Option String}
  {config : Option DeclaredConfig} {key : String}

theorem text?_mergedWith (base given : Component) (field : TextField) :
    (base.mergedWith given).text? field = (given.text? field).or (base.text? field) := by
  cases field <;> rfl

theorem encode_eq_none (unspecified : (config.bind (·.get? key)).join = none) :
    (config.map DeclaredConfig.encode).bind (·.get? key) = none := by
  cases sent : (config.map DeclaredConfig.encode).bind (·.get? key) with
  | none => rfl
  | some values =>
    obtain ⟨v, specified, -⟩ := encode_eq_some_iff.mp sent
    rw [specified] at unspecified
    cases unspecified

theorem overlaid_mergedWith (sameTexts : ∀ field, given.text? field = texts field)
    (sameConfig : given.config = config.map DeclaredConfig.encode) :
    Overlaid texts config base (base.mergedWith given) where
  text_specified field text specified := by
    rw [text?_mergedWith, sameTexts, specified, Option.some_or]
  text_kept field unspecified := by
    rw [text?_mergedWith, sameTexts, unspecified, Option.none_or]
  config_specified key v specified := by
    have sent : given.configList? key = some [v.encode] := by
      rw [configList?, sameConfig]
      exact encode_eq_some_iff.mpr ⟨v, specified, rfl⟩
    rw [configList?_mergedWith, sent, Option.some_or]
  config_kept key unspecified := by
    have unsent : given.configList? key = none := by
      rw [configList?, sameConfig]
      exact encode_eq_none unspecified
    rw [configList?_mergedWith, unsent, Option.none_or]
  configured := by rw [isSome_config_mergedWith, sameConfig, Option.isSome_map]
  extra := rfl

end Component

open Component

/-- The text that a declaration specifies for a field of the federation. -/
def Declaration.text? (d : Declaration) : TextField → Option String
  | .id => d.id
  | .name => d.name
  | .providerId => d.providerId
  | .providerType => some d.providerType
  | .parentId => d.parentId

/-- The text that a declared mapper specifies for a field. -/
def MapperDeclaration.text? (m : MapperDeclaration) : TextField → Option String
  | .id => m.id
  | .name => m.name
  | .providerId => m.providerId
  | .providerType => some m.providerType
  | .parentId => m.parentId

theorem Declaration.overlaid (d : Declaration) (base : Component) :
    Overlaid d.text? d.config base (base.mergedWith d.component) :=
  overlaid_mergedWith (fun field => by cases field <;> rfl) rfl

theorem MapperDeclaration.overlaid (m : MapperDeclaration) (base : Component) :
    Overlaid m.text? m.config base (base.mergedWith m.component) :=
  overlaid_mergedWith (fun field => by cases field <;> rfl) rfl

namespace Mapper

variable {ds existing defaults target : List Component} {c m : Component} {f : String}
  {prune : Bool} {d : Declaration} {changes : Changeset}

/-- What a declared mapper resolves to is laid over the existing one of the same id, if it has one
of an existing mapper. -/
theorem exists_of_resolve {declared : Component} (resolved : resolve existing declared = .ok c)
    (known : (c.id.bind fun id => withId? id existing).isSome) :
    ∃ p ∈ existing, p.id = c.id ∧ c = p.mergedWith declared := by
  obtain ⟨found, referred, rfl⟩ := resolve_eq_ok_iff.mp resolved
  cases given : declared.id with
  | some i =>
    have id : ((found.getD {}).mergedWith declared).id = some i := by
      change declared.id.or _ = _
      rw [given, Option.some_or]
    have same : found = withId? i existing := by
      rw [referent?, given] at referred
      exact (Except.ok.inj referred).symm
    rw [id, Option.bind_some] at known
    obtain ⟨p, hp⟩ := Option.isSome_iff_exists.mp known
    rw [same, hp, Option.getD_some] at id ⊢
    refine ⟨p, List.mem_of_find?_eq_some hp, ?_, rfl⟩
    have same := List.find?_some hp
    exact (of_decide_eq_true same).trans id.symm
  | none =>
    cases found with
    | none =>
      have id : ((none.getD {} : Component).mergedWith declared).id = none := by
        change declared.id.or _ = _
        rw [given]
        rfl
      rw [id] at known
      cases known
    | some p =>
      refine ⟨p, referent?_mem referred, ?_, rfl⟩
      change p.id = declared.id.or p.id
      rw [given, Option.none_or]

/-- A mapper that is there as it has to end up is not updated. -/
theorem of_planUpdate_update (planned : .update c ∈ planUpdate target existing f) :
    c ∈ target ∧ c ∉ existing ∧ (c.id.bind fun id => withId? id existing).isSome := by
  obtain ⟨i, same, -⟩ | ⟨m, hm, acted⟩ := Server.mem_planUpdate.mp planned
  · cases same
  cases actionFor_attended acted with
  | update new known hid =>
    refine ⟨hm, fun there => new c there rfl, ?_⟩
    rw [hid, Option.bind_some]
    exact isSome_withId?.mpr known

/-- An update for an existing federation is a declared mapper laid over an existing one of its
id. -/
theorem planUpdate_update (h : Mapper.target ds existing prune = .ok target)
    (planned : .update c ∈ planUpdate target existing f) :
    ∃ p ∈ existing, p.id = c.id ∧ ∃ m ∈ ds, c = p.mergedWith m := by
  obtain ⟨member, new, known⟩ := of_planUpdate_update planned
  obtain ⟨merged, related, rfl⟩ := target_eq_ok_iff.mp h
  rcases List.mem_append.mp ((arranged_perm existing merged prune).mem_iff.mp member) with hc | kept
  · obtain ⟨declared, hd, resolved⟩ := exists_left_of_mem related hc
    obtain ⟨p, hp, id, same⟩ := exists_of_resolve resolved known
    exact ⟨p, hp, id, declared, hd, same⟩
  · split at kept
    · cases kept
    · exact absurd (List.mem_filter.mp kept).1 new

/-- An update for a new federation is a declared mapper laid over one that came with it. -/
theorem planAfterCreation_update {plan : List Action}
    (h : planAfterCreation ds defaults f prune = .ok plan) (planned : .update c ∈ plan) :
    ∃ p ∈ defaults, p.id = c.id ∧ ∃ m ∈ ds, c = p.mergedWith m := by
  cases planAfterCreation_stems h _ planned with
  | update hm hp _ hid kept => exact ⟨_, hp, hid.trans kept.symm, _, hm, rfl⟩

/-- The components of declared mappers. -/
theorem mem_mapperComponents (hm : m ∈ d.mapperComponents.getD []) :
    ∃ declared ∈ d.mappers.getD [], m = declared.component := by
  unfold Declaration.mapperComponents at hm
  cases hd : d.mappers with
  | none =>
    rw [hd] at hm
    cases hm
  | some mappers =>
    rw [hd, Option.map_some, Option.getD_some] at hm
    obtain ⟨declared, member, same⟩ := List.mem_map.mp hm
    exact ⟨declared, member, same.symm⟩

end Mapper

namespace Reconcile

open Dialogue Mapper

variable {may : (call : Call) → call.Reply → Prop} {d : Declaration} {mode : RunMode}
  {past : List Exchange} {before : Option Federation} {changes : Changeset} {c p m : Component}

/-- What an update may send after some exchanges: as the first change, the federation that was
found, normalized and overlaid with what is declared; later, a mapper that was listed below it,
overlaid with a declared mapper. -/
def Sends (d : Declaration) (past : List Exchange) (c : Component) : Prop :=
  (Unchanged past ∧ ∃ found, foundIn past = some found ∧
    Overlaid d.text? d.config found.undoEcho c) ∨
  (¬Unchanged past ∧ ∃ p, Shown d.realm past p ∧ p.id = c.id ∧
    ∃ declared ∈ d.mappers.getD [], Overlaid declared.text? declared.config p c)

/-- A call that is no update, or sends what one may send. -/
def Overlays (d : Declaration) (past : List Exchange) : Call → Prop
  | .update c _ => Sends d past c
  | _ => True

theorem allowsReading_overlays (d : Declaration) : AllowsReading d (Overlays d) := by
  intro past call _ reads
  cases call with
  | find | get | children | create | delete => trivial
  | update => cases reads

/-- An action whose updates are declared mappers laid over listed ones. -/
theorem overlays_action (changed : ¬Unchanged past) {listed : List Component}
    (shown : ∀ m ∈ listed, Shown d.realm past m) {a : Action}
    (updates : ∀ c, a = .update c → ∃ p ∈ listed, p.id = c.id ∧
      ∃ m ∈ d.mapperComponents.getD [], c = p.mergedWith m) : Overlays d past (a.call d.realm) := by
  cases a with
  | create | delete => trivial
  | update c =>
    obtain ⟨p, hp, id, m, hm, rfl⟩ := updates c rfl
    obtain ⟨declared, member, rfl⟩ := mem_mapperComponents hm
    exact .inr ⟨changed, p, shown p hp, id, declared, member, declared.overlaid p⟩

theorem conclude_overlays (looked : Looked may d past before)
    (changed : Changeset.of d before = .ok changes) :
    (conclude d mode before changes).Keeps may (Overlays d) (fun _ _ => True) past := by
  have reads := allowsReading_overlays d
  unfold conclude
  cases before with
  | none =>
    cases d.state with
    | absent => trivial
    | present =>
      refine create_keeps reads looked trivial fun f defaults plan past' planned shown mutated => ?_
      refine fun a ha => overlays_action mutated shown ?_
      rintro c rfl
      obtain ⟨p, hp, id, m, hm, same⟩ := planAfterCreation_update planned ha
      exact ⟨p, hp, id, m, (Server.applyTo_none_mappers_perm changed).mem_iff.mp hm, same⟩
  | some existing =>
    cases d.state with
    | absent => exact delete_keeps fun f _ => trivial
    | present =>
      refine update_keeps reads looked (fun f _ => .inl ⟨looked.unchanged, ?_⟩) ?_
      · obtain ⟨found, there, same⟩ := Option.map_eq_some_iff.mp looked.found.symm
        refine ⟨found, there, ?_⟩
        rw [applyTo_component changed, same]
        exact d.overlaid existing.component
      · refine fun f past' shown mutated a ha => overlays_action mutated shown ?_
        rintro c rfl
        cases declared : d.mapperComponents with
        | none =>
          rw [applyTo_mappers_of_none changed declared] at ha
          obtain ⟨there, new, -⟩ := of_planUpdate_update ha
          exact absurd there new
        | some ds => exact planUpdate_update (applyTo_mappers_of_some changed declared).2 ha

theorem reconcile_overlays (d : Declaration) (mode : RunMode) :
    (reconcile d mode).Keeps (fun _ _ => True) (Overlays d) (fun _ _ => True) [] := by
  rw [reconcile_eq]
  exact Keeps.bind (survey_keeps (allowsReading_overlays d))
    fun _ _ ⟨looked, changed⟩ => conclude_overlays looked changed

variable {σ : Type}

/-- What an update of a run sends, whatever the service replies. The first change is to the
federation that was found: normalized, it is overlaid with what is declared. Every other update is
of a mapper that was listed below it, overlaid with one declared mapper. -/
theorem updates_send_the_rest_along (service : Service σ) (s : σ) (d : Declaration)
    (mode : RunMode) {past future : List Exchange} {x : Exchange} {c : Component} {realm : String}
    (split : (reconcile d mode).exchanges service s = past ++ x :: future)
    (update : x.call = .update c realm) : Sends d past c := by
  have kept := (reconcile_overlays d mode).exchanges (fun _ _ _ => trivial) split
  rw [update] at kept
  exact kept

end Reconcile

namespace Server.Sample

open Dialogue Reconcile

/-- A mapper of the declared name that comes with the federation. -/
def readOnlyMail : Component :=
  { mail with id := some "mail", parentId := some "people" }.setConfig "read.only" "true"

/-- The federation is created, and comes with the mapper. -/
def furnishing : Script :=
  [.nothing, .component people, .components [readOnlyMail], .nothing, .components [readOnlyMail]]

theorem furnishing_surveyed : (survey withMail).run Script.answer furnishing =
    (.ok (none, changesWith withMail none (some [mail])), furnishing.drop 1) := by
  change ((lift (Changeset.of withMail none)).bind fun changes => .done (none, changes)).run
    Script.answer (furnishing.drop 1) = _
  rw [withMail_changed]
  rfl

theorem furnishing_exchanges : (reconcile withMail {}).exchanges Script.answer furnishing =
    [⟨.get "people" "master", .ok none⟩, ⟨.create withMail.component "master", .ok people⟩,
      ⟨.children "people" "master", .ok [readOnlyMail]⟩,
      ⟨.update (readOnlyMail.mergedWith mail) "master", .ok ()⟩,
      ⟨.children "people" "master", .ok [readOnlyMail]⟩] := by
  rw [reconcile_eq, exchanges_bind, furnishing_surveyed]
  rfl

end Server.Sample

open Dialogue Server.Sample in
theorem Reconcile.samples_send_the_rest_along :
    Sends resealing [⟨.get "people" "master", .ok (some masked)⟩,
      ⟨.children "people" "master", .ok []⟩]
      (maskedSeen.component.mergedWith resealing.component) ∧
    Sends withMail [⟨.get "people" "master", .ok none⟩,
      ⟨.create withMail.component "master", .ok people⟩,
      ⟨.children "people" "master", .ok [readOnlyMail]⟩] (readOnlyMail.mergedWith mail) :=
  ⟨updates_send_the_rest_along Script.answer maskedFound resealing {} resealing_exchanges rfl,
    updates_send_the_rest_along Script.answer furnishing withMail {} furnishing_exchanges rfl⟩

end UserFederation
