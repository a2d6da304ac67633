import UserFederation.Proofs.Rearrangement
import UserFederation.Proofs.Scope

/-! Providers whose federations have no mappers. A declaration that lists no mapper makes a run
write nothing but the federation itself, whatever the provider: the mappers that are there are left
alone or deleted (`reconcile_keepsToFederation`). One that lists mappers for such a provider is
turned down before anything is changed, by what it says itself or by what is found
(`survey_turned_down`). -/

namespace UserFederation

open Dialogue

/-- A call that stores a component. -/
def Call.writes : Call → Bool
  | .create .. | .update .. => true
  | .find .. | .get .. | .children .. | .delete .. => false

/-- The mappers that a declaration lists, if any. -/
def Declaration.listed (d : Declaration) : List MapperDeclaration := d.mappers.getD []

theorem Call.isMutation_of_writes {call : Call} (h : call.writes = true) :
    call.isMutation = true := by
  cases call <;> first | rfl | cases h

theorem Declaration.listed_eq_nil_or (d : Declaration) :
    d.listed = [] ∨ ∃ m ms, d.mappers = some (m :: ms) := by
  unfold listed
  rcases d.mappers with _ | _ | ⟨m, ms⟩ <;> simp

theorem Declaration.mapperComponents_getD (d : Declaration) :
    d.mapperComponents.getD [] = d.listed.map MapperDeclaration.component := by
  unfold mapperComponents listed
  cases d.mappers <;> rfl

/-! ### Plans for a declaration that lists no mapper -/

namespace Mapper

variable {declared existing defaults target : List Component} {f : String} {prune : Bool}

/-- Mappers that are there already have only others deleted for them. -/
theorem planUpdate_deletes (there : ∀ m ∈ declared, m ∈ existing) :
    ∀ a ∈ planUpdate declared existing f, ∃ i, a = .delete i := by
  intro a ha
  rcases List.mem_append.mp ha with deleted | acted
  · obtain ⟨i, -, rfl⟩ := List.mem_map.mp deleted
    exact ⟨i, rfl⟩
  · obtain ⟨m, hm, acts⟩ := List.mem_filterMap.mp acted
    rw [Server.actionFor_existing (there m hm)] at acts
    cases acts

theorem planAfterCreation_deletes {plan : List Action}
    (h : planAfterCreation [] defaults f prune = .ok plan) : ∀ a ∈ plan, ∃ i, a = .delete i := by
  intro a ha
  cases planAfterCreation_stems h a ha with
  | delete => exact ⟨_, rfl⟩
  | create hm | replace hm | update hm => cases hm

/-- Where no mapper is declared, those to end up with are there already. -/
theorem mem_of_target_nil (h : Mapper.target [] existing prune = .ok target) :
    ∀ m ∈ target, m ∈ existing := by
  intro m hm
  obtain ⟨_, ⟨⟩, rfl⟩ := target_eq_ok_iff.mp h
  have kept := (arranged_perm existing [] prune).mem_iff.mp hm
  cases prune with
  | true => cases kept
  | false => exact (List.mem_filter.mp kept).1

end Mapper

namespace Reconcile

variable {d : Declaration} {mode : RunMode} {past : List Exchange} {before : Option Federation}
  {changes : Changeset} {may : (call : Call) → call.Reply → Prop}

theorem mem_applyTo_mappers (unlisted : d.listed = [])
    (changed : Changeset.of d before = .ok changes) :
    ∀ m ∈ (changes.applyTo before).mappers, m ∈ foundMappers before := by
  intro m hm
  cases declared : d.mapperComponents with
  | none => rwa [applyTo_mappers_of_none changed declared] at hm
  | some ds =>
    have none : ds = [] := by
      have none := d.mapperComponents_getD
      rwa [declared, unlisted] at none
    subst none
    exact Mapper.mem_of_target_nil (applyTo_mappers_of_some changed declared).2 m hm

/-! ### What a run writes -/

/-- The call that writes the federation of a declaration: it is created, or the declaration is laid
over what was found. -/
def federationWrite (d : Declaration) (found : Option Component) : Call :=
  match found with
  | none => .create d.component d.realm
  | some c => .update (c.undoEcho.mergedWith d.component) d.realm

/-- A call writes nothing, or it writes the federation and is the first change. -/
def KeepsToFederation (d : Declaration) (past : List Exchange) (call : Call) : Prop :=
  call.writes = true → Unchanged past ∧ call = federationWrite d (foundIn past)

theorem allowsReading_keepsToFederation : AllowsReading d (KeepsToFederation d) := by
  intro past call realm reads writes
  cases call with
  | find | get | children | delete => cases writes
  | create | update => cases reads

theorem conclude_keepsToFederation (unlisted : d.listed = []) (looked : Looked may d past before)
    (changed : Changeset.of d before = .ok changes) :
    (conclude d mode before changes).Keeps may (KeepsToFederation d) (fun _ _ => True) past := by
  have reads : AllowsReading d (KeepsToFederation d) := allowsReading_keepsToFederation
  -- A plan deletes only, for the mappers to end up with are there already.
  have deletes : ∀ past', ∀ a : Mapper.Action, (∃ i, a = .delete i) →
      KeepsToFederation d past' (a.call d.realm) := by
    rintro past' a ⟨i, rfl⟩ ⟨⟩
  have component := applyTo_component changed
  have there := mem_applyTo_mappers unlisted changed
  unfold conclude
  cases before with
  | none =>
    cases d.state with
    | absent => trivial
    | present =>
      refine create_keeps reads looked (fun _ => ⟨looked.unchanged, ?_⟩) ?_
      · rw [component, Option.map_eq_none_iff.mp looked.found.symm]
        exact congrArg (Call.create · _) (Component.empty_mergedWith rfl)
      · intro f defaults plan past' planned _ _ a ha
        have empty : (changes.applyTo none).mappers = [] :=
          List.eq_nil_iff_forall_not_mem.mpr fun m hm => nomatch there m hm
        rw [empty] at planned
        exact deletes past' a (Mapper.planAfterCreation_deletes planned a ha)
  | some existing =>
    cases d.state with
    | absent => exact delete_keeps fun f _ => nofun
    | present =>
      refine update_keeps reads looked (fun f _ _ => ⟨looked.unchanged, ?_⟩) ?_
      · obtain ⟨c, hc, same⟩ := Option.map_eq_some_iff.mp looked.found.symm
        rw [component, hc]
        exact congrArg (fun c => Call.update (Component.mergedWith c _) _) same.symm
      · exact fun f past' _ _ a ha => deletes past' a (Mapper.planUpdate_deletes there a ha)

/-- Where no mapper is listed, a run writes the federation at most. -/
theorem reconcile_keepsToFederation (unlisted : d.listed = []) (mode : RunMode) :
    (reconcile d mode).Keeps (fun _ _ => True) (KeepsToFederation d) (fun _ _ => True) [] := by
  rw [reconcile_eq]
  exact Keeps.bind (survey_keeps allowsReading_keepsToFederation)
    fun _ _ ⟨looked, changed⟩ => conclude_keepsToFederation unlisted looked changed

/-! ### Declarations that are turned down -/

/-- The provider that counts for a declaration: its own if it gives one, else that of what a run
found. -/
def effectiveProvider (d : Declaration) (xs : List Exchange) : Option String :=
  d.providerId.or ((foundIn xs).bind (·.providerId))

theorem checkMappersSupported_eq_error {provider : Option String} {p : String} {count : Nat}
    (given : provider = some p) (mapperless : p ∈ mapperlessProviders) (many : 0 < count) :
    checkMappersSupported provider count = .error (.invalid (.mappersUnsupported p)) := by
  rw [given, checkMappersSupported, if_pos ⟨many, List.contains_iff_mem.mpr mapperless⟩]

variable {σ : Type} {service : Service σ} {s t : σ} {e : Failure} {p : String}

theorem lookup_error {realm : String} {id name : Option String}
    (failed : (Federation.lookup realm id name).run service s = (.error e, t)) :
    foundIn ((Federation.lookup realm id name).exchanges service s) = none := by
  match id, name with
  | some i, name =>
    have ask : Federation.lookup realm (some i) name = .ask (.get i realm) .done := rfl
    rw [ask, exchanges_ask]
    rw [ask, run_ask] at failed
    rcases hc : service (.get i realm) s with ⟨e' | found, s'⟩ <;> simp only [hc] at failed ⊢
    · rfl
    · cases failed
  | none, some n =>
    have ask : Federation.lookup realm none (some n) =
      .ask (.find realm federationType n) fun found =>
        lift (Component.unique .federation n found) := rfl
    rw [ask, exchanges_ask]
    rw [ask, run_ask] at failed
    rcases hc : service (.find realm federationType n) s with ⟨e' | found, s'⟩ <;>
      simp only [hc, run_lift] at failed ⊢
    · rfl
    · have ambiguous : Component.unique .federation n found = .error e := congrArg Prod.fst failed
      simp [foundIn, Exchange.found?, ambiguous, Except.toOption]
  | none, none => rfl

/-- Finding a federation fails before anything is found, or as a call does. -/
theorem resolve_error {realm : String} {id name : Option String}
    (failed : (Federation.resolve realm id name).run service s = (.error e, t)) :
    let xs := (Federation.resolve realm id name).exchanges service s
    foundIn xs = none ∨ ∃ call, ⟨call, .error e⟩ ∈ xs := by
  unfold Federation.resolve at failed ⊢
  simp only [bind_eq, run_bind, exchanges_bind] at failed ⊢
  rcases hl : (Federation.lookup realm id name).run service s with ⟨e' | found, s'⟩ <;>
    simp only [hl] at failed ⊢
  · rw [List.append_nil]
    exact .inl (lookup_error hl)
  · -- Once something is looked for with success, the rest fails by calls only.
    right
    cases found with
    | none => cases failed
    | some c =>
      cases hid : c.id with
      | none =>
        simp only [hid] at failed
        cases failed
      | some f =>
        simp only [hid] at failed ⊢
        have raises : Raises (fun _ => False) ((Federation.fetchMappers realm f).bind fun mappers =>
          .done (some (Federation.ofParts c mappers))) :=
          Raises.bind (fun _ => trivial) fun _ => trivial
        obtain ⟨call, member⟩ := (raises.run failed).resolve_left not_false
        exact ⟨call, List.mem_append_right _ member⟩

theorem resolve_looked {found : Option Federation}
    (resolved : (Federation.resolve d.realm d.id d.name).run service s = (.ok found, t)) :
    Looked (fun _ _ => True) d ((Federation.resolve d.realm d.id d.name).exchanges service s)
      (found.map Federation.undoEcho) := by
  have keeps : (Federation.resolve d.realm d.id d.name).Keeps (fun _ _ => True) (fun _ _ => True)
      (fun past found => Looked (fun _ _ => True) d past (found.map Federation.undoEcho)) [] :=
    resolve_keeps fun _ _ _ _ => trivial
  exact keeps.run (fun _ _ _ => trivial) resolved

theorem survey_looked (surveyed : (survey d).run service s = (.ok (before, changes), t)) :
    Looked (fun _ _ => True) d ((survey d).exchanges service s) before := by
  have keeps : (survey d).Keeps (fun _ _ => True) (fun _ _ => True)
      (fun past found => Looked (fun _ _ => True) d past found.1 ∧
        Changeset.of d found.1 = .ok found.2) [] := survey_keeps fun _ _ _ _ => trivial
  exact (keeps.run (fun _ _ _ => trivial) surveyed).1

theorem Looked.effectiveProvider (h : Looked may d past before) :
    d.providerId.or (foundComponent before).providerId = effectiveProvider d past := by
  unfold foundComponent Reconcile.effectiveProvider
  rw [h.found]
  cases foundIn past <;> rfl

theorem of_eq_error {ds : List Component} (declared : d.mapperComponents = some ds)
    (listed : 0 < ds.length) (mapperless : p ∈ mapperlessProviders)
    (effective : d.providerId.or (foundComponent before).providerId = some p) :
    Changeset.of d before = .error (.invalid (.mappersUnsupported p)) := by
  rw [of_eq, declared]
  simp only [checkMappersSupported_eq_error effective mapperless listed]

theorem survey_exchanges (valid : d.validate = .ok ()) :
    (survey d).exchanges service s =
      (Federation.resolve d.realm d.id d.name).exchanges service s := by
  simp only [survey, valid, exchanges_bind, run_lift, exchanges_lift, exchanges_done,
    List.nil_append]
  rcases (Federation.resolve d.realm d.id d.name).run service s with ⟨e | found, t⟩
  · exact List.append_nil _
  · simp only
    cases Changeset.of d (found.map Federation.undoEcho) <;> exact List.append_nil _

/-- A declaration that lists mappers for a provider without mappers is turned down, if no call fails
before. -/
theorem survey_turned_down {ds : List Component} (declared : d.mapperComponents = some ds)
    (listed : 0 < ds.length) (mapperless : p ∈ mapperlessProviders)
    (effective : effectiveProvider d ((survey d).exchanges service s) = some p) :
    ∃ e, ((survey d).run service s).1 = .error e ∧
      (e.isValidation = true ∨ ∃ call, ⟨call, .error e⟩ ∈ (survey d).exchanges service s) := by
  cases valid : d.validate with
  | error e =>
    refine ⟨e, ?_, .inl (validate_error valid)⟩
    rw [survey, run_bind, run_lift, valid]
  | ok _ =>
    rw [survey_exchanges valid] at effective ⊢
    rw [survey, run_bind, run_lift, valid]
    simp only [run_bind, run_lift]
    rcases resolved : (Federation.resolve d.realm d.id d.name).run service s with ⟨e | found, t⟩
    · refine ⟨e, rfl, (resolve_error resolved).imp_left fun none => ?_⟩
      -- Then the declaration gives the provider itself, and is not valid.
      rw [effectiveProvider, none, Option.bind_none, Option.or_none] at effective
      have supported := supported_of_valid valid declared
      rw [checkMappersSupported_eq_error effective mapperless listed] at supported
      cases supported
    · have looked := resolve_looked resolved
      refine ⟨.invalid (.mappersUnsupported p), ?_, .inl rfl⟩
      simp only [of_eq_error declared listed mapperless (looked.effectiveProvider.trans effective)]

theorem foundIn_survey (d : Declaration) (mode : RunMode) :
    foundIn ((reconcile d mode).exchanges service s) = foundIn ((survey d).exchanges service s) := by
  rw [reconcile_eq, exchanges_bind]
  rcases hs : (survey d).run service s with ⟨e | ⟨before, changes⟩, t⟩
  · simp only [List.append_nil]
  · exact foundIn_append (survey_looked hs).answered

/-- A run for a declaration that is turned down ends as its survey does. -/
theorem reconcile_turned_down (mode : RunMode) {ds : List Component}
    (declared : d.mapperComponents = some ds) (listed : 0 < ds.length)
    (mapperless : p ∈ mapperlessProviders)
    (effective : effectiveProvider d ((reconcile d mode).exchanges service s) = some p) :
    let xs := (reconcile d mode).exchanges service s
    Unchanged xs ∧ ∃ e, ((reconcile d mode).run service s).1 = .error e ∧
      (e.isValidation = true ∨ ∃ call, ⟨call, .error e⟩ ∈ xs) := by
  rw [effectiveProvider, foundIn_survey] at effective
  obtain ⟨e, failed, reason⟩ := survey_turned_down declared listed mapperless effective
  rcases hs : (survey d).run service s with ⟨e' | seen, t⟩ <;> rw [hs] at failed <;> cases failed
  rw [reconcile_eq, run_bind, exchanges_bind, hs]
  simp only [List.append_nil]
  exact ⟨(survey_reads d).exchanges s, e, rfl, reason⟩

/-- Providers without mappers never get any. Where the provider that counts is one of these, a run
writes the federation at most, as its first change, and no mapper. If mappers are listed for it, the
run changes nothing at all and fails: as a call does, or since the declaration is turned down. -/
theorem mapperless_never_get_mappers (service : Service σ) (s : σ) (d : Declaration)
    (mode : RunMode) {p : String} (kind : p = "kerberos" ∨ p = "sssd")
    (effective : effectiveProvider d ((reconcile d mode).exchanges service s) = some p) :
    let xs := (reconcile d mode).exchanges service s
    let run := (reconcile d mode).runLogged service s
    run.2.2 = xs.map (·.call) ∧
      (∀ past x future, xs = past ++ x :: future → x.call.writes = true →
        Unchanged past ∧ x.call = federationWrite d (foundIn past)) ∧
      ∀ m ms, d.mappers = some (m :: ms) →
        Unchanged xs ∧
        ∃ e, run.1 = .error e ∧ (e.isValidation = true ∨ ∃ call, ⟨call, .error e⟩ ∈ xs) := by
  have mapperless : p ∈ mapperlessProviders := by simpa [mapperlessProviders] using kind
  have turned : ∀ m ms, d.mappers = some (m :: ms) → _ := fun m ms listed =>
    reconcile_turned_down mode (congrArg (Option.map _) listed) (by simp) mapperless effective
  simp only [runLogged_eq]
  refine ⟨trivial, fun past x future split writes => ?_, turned⟩
  rcases d.listed_eq_nil_or with unlisted | ⟨m, ms, listed⟩
  · exact (reconcile_keepsToFederation unlisted mode).exchanges (fun _ _ _ => trivial) split writes
  · have reads := (turned m ms listed).1 x (by simp [split])
    rw [Call.isMutation_of_writes writes] at reads
    cases reads

end Reconcile

namespace Server.Sample

/-- A federation of a provider without mappers is found, and no mapper below it. -/
def kerberosFound : Script :=
  [.component { people with providerId := some "kerberos" }, .components []]

end Server.Sample

open Server.Sample in
theorem Reconcile.kerberos_never_gets_mail :
    let xs := (reconcile withMail {}).exchanges Script.answer kerberosFound
    let run := (reconcile withMail {}).runLogged Script.answer kerberosFound
    effectiveProvider withMail xs = some "kerberos" ∧
    run.2.2 = xs.map (·.call) ∧
      (∀ past x future, xs = past ++ x :: future → x.call.writes = true →
        Unchanged past ∧ x.call = federationWrite withMail (foundIn past)) ∧
      ∀ m ms, withMail.mappers = some (m :: ms) →
        Unchanged xs ∧
        ∃ e, run.1 = .error e ∧ (e.isValidation = true ∨ ∃ call, ⟨call, .error e⟩ ∈ xs) := by
  have effective : effectiveProvider withMail
      ((reconcile withMail {}).exchanges Script.answer kerberosFound) = some "kerberos" := rfl
  exact ⟨effective, mapperless_never_get_mappers _ _ _ _ (.inl rfl) effective⟩

end UserFederation
