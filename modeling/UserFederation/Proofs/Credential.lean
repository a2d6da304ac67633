import UserFederation.Proofs.Noninterference
import UserFederation.Proofs.Sparing

/-! What becomes of a stored bind credential. A server never shows it, so it travels through a run as
a mask; still it is there afterwards as before, or as it was declared, wherever the run ends
(`secret_integrity`). -/

namespace UserFederation

open Component

/-! ### What is declared -/

namespace Declaration

/-- The bind credential that a declaration sets, unless it is the mask. -/
def secret? (d : Declaration) : Option String :=
  ((d.config.bind (·.get? bindCredentialKey)).join.map Scalar.encode).filter (· ≠ secretMask)

theorem configList?_credential (d : Declaration) :
    d.component.configList? bindCredentialKey =
      (d.config.bind (·.get? bindCredentialKey)).join.map fun v => [v.encode] := by
  change (d.config.map DeclaredConfig.encode).bind (·.get? bindCredentialKey) = _
  cases d.config with
  | none => rfl
  | some config =>
    rw [Option.map_some, Option.bind_some, DeclaredConfig.encode, SortedMap.get?_filterMap,
      Option.bind_some]
    cases config.get? bindCredentialKey <;> rfl

end Declaration

namespace Server

open Dialogue Mapper Reconcile

variable {supply : Supply} {s s' t : Server} {f realm : String} {c : Component} {e : Stored}

/-! ### The credential in an update -/

/-- A credential is accepted as it is sent, but the previous one is kept where the mask is sent. -/
theorem configList?_accept_credential (unignored : bindCredentialKey ∉ s.ignoredKeys)
    (previous : Option Component) (c : Component) :
    (s.accept previous c).configList? bindCredentialKey =
      if (c.configList? bindCredentialKey).bind List.head? = some secretMask then
        previous.bind (·.configList? bindCredentialKey)
      else c.configList? bindCredentialKey := by
  refine configList?_mapConfig (g := fun list =>
    if list.bind List.head? = some secretMask then previous.bind (·.configList? bindCredentialKey)
    else list) (fun config => ?_) (by simp)
  rw [get?_keepCredential, get?_dropEmptyPrincipal,
    if_neg principalKey_ne_bindCredentialKey.symm, get?_keepIgnored, if_neg unignored]
  simp

/-- What is stored as the credential of a federation after an update by a declaration. -/
theorem accept_credential (unignored : bindCredentialKey ∉ s.ignoredKeys) (x : Component)
    (d : Declaration) :
    (s.accept (some x) ((redact x).undoEcho.mergedWith d.component)).configList?
        bindCredentialKey =
      (d.secret?.map fun v => [v]).or (x.configList? bindCredentialKey) := by
  rw [configList?_accept_credential unignored, configList?_mergedWith, d.configList?_credential,
    configList?_undoEcho_credential, configList?_redact, if_pos rfl, Option.bind_some]
  unfold Declaration.secret?
  cases (d.config.bind (·.get? bindCredentialKey)).join with
  | none => cases x.configList? bindCredentialKey <;> simp
  | some v => by_cases masked : v.encode = secretMask <;> simp [masked, Option.filter]

/-! ### Whole runs -/

/-- The call that updates a federation succeeded in a run. -/
def UpdateSucceeded (f realm : String) (xs : List Exchange) : Prop :=
  ∃ c, ⟨.update c realm, .ok ()⟩ ∈ xs ∧ c.id = some f

theorem not_updateSucceeded {reads xs : List Exchange} (h : ∀ x ∈ reads, Reads x.call)
    (failed : ∀ x ∈ xs, ∃ e, x.answer = .error e) : ¬UpdateSucceeded f realm (reads ++ xs) := by
  rintro ⟨c, member, -⟩
  rcases List.mem_append.mp member with member | member
  · cases h _ member
  · obtain ⟨e, he⟩ := failed _ member
    cases he

variable {d : Declaration} {mode : RunMode} {changes : Changeset} {desired existing : Federation}

/-- A plan for a federation gives its id to no mapper. -/
theorem planUpdate_avoids {target existing : List Component}
    (other : ∀ m ∈ target, m.id ≠ some f) :
    ∀ a ∈ planUpdate target existing f, Avoids f (a.call realm) := by
  intro a ha
  rcases mem_planUpdate.mp ha with ⟨i, rfl, -⟩ | ⟨m, hm, acted⟩
  · trivial
  · have same := actionFor_id acted
    cases a with
    | create c => exact fun hid => other m hm (same.symm.trans hid)
    | update c => exact fun hid => other m hm (same.symm.trans hid)
    | delete i => trivial

/-- What is said of the credential of an entry that was `e`, after a run with the exchanges `xs`. -/
def Intact (f : String) (e : Stored) (d : Declaration) (xs : List Exchange) (after : Server) : Prop :=
  ∀ e', after.components.get? f = some e' →
    (UpdateSucceeded f d.realm xs → e'.component.configList? bindCredentialKey =
      (d.secret?.map fun v => [v]).or (e.component.configList? bindCredentialKey)) ∧
    (¬UpdateSucceeded f d.realm xs → e'.component.configList? bindCredentialKey =
      e.component.configList? bindCredentialKey)

theorem intact_of_failed {reads xs : List Exchange} (h : ∀ x ∈ reads, Reads x.call)
    (failed : ∀ x ∈ xs, ∃ e, x.answer = .error e) (same : t.components.get? f = some e) :
    Intact f e d (reads ++ xs) t := by
  intro e' he'
  cases same.symm.trans he'
  exact ⟨fun succeeded => absurd succeeded (not_updateSucceeded h failed), fun _ => rfl⟩

theorem intact_of_spared {xs : List Exchange} {x : Component}
    (succeeded : UpdateSucceeded f d.realm xs)
    (entry : s'.components.get? f = some { e with component := x }) (spared : Spared f s' t)
    (list : x.configList? bindCredentialKey =
      (d.secret?.map fun v => [v]).or (e.component.configList? bindCredentialKey)) :
    Intact f e d xs t := by
  intro e' he'
  rcases spared.entry with same | gone
  · cases (same.trans entry).symm.trans he'
    exact ⟨fun _ => list, fun failed => absurd succeeded failed⟩
  · cases gone.symm.trans he'

/-- An update keeps the credential intact, whatever call is refused. -/
theorem update_intact {outcome : Outcome} {refusal : Nat → Option Failure} {n : Nat}
    {reads : List Exchange} (unignored : bindCredentialKey ∉ s.ignoredKeys)
    (new : ∀ provider mappers, s.defaults.get? provider = some mappers → ∀ m ∈ mappers, m.id = none)
    (past : Past supply s f) (he : s.components.get? f = some e) (apply : mode.dryRun = false)
    (hid : existing.component.id = some f) (sent : desired.component.id = some f)
    (payload : desired.component = (redact e.component).undoEcho.mergedWith d.component)
    (other : ∀ m ∈ desired.mappers, m.id ≠ some f) (h : ∀ x ∈ reads, Reads x.call) :
    let service := (answer supply).refusing refusal
    let way := Reconcile.update d mode existing desired outcome
    Intact f e d (reads ++ way.exchanges service (n, s)) (way.run service (n, s)).2.2 := by
  intro service way
  cases need : desired.needsUpdate existing d.credentialPolicy with
  | false =>
    rw [show way = _ from update_idle hid need]
    exact intact_of_failed h (by simp) he
  | true =>
    -- Only the first call is about the federation; those after it spare what this has stored.
    have avoids : ((execute d.realm (planUpdate desired.mappers existing.mappers f)).bind fun _ =>
        reread d mode f outcome).Calls (Avoids f) := by
      refine Calls.bind (execute_calls (planUpdate_avoids other)) fun _ => ?_
      refine Calls.imp reread_reads fun call reads => ?_
      cases call with
      | find | get | children | delete => trivial
      | create | update => cases reads
    rw [show way = _ from update_busy hid apply need, run_ask, exchanges_ask]
    rcases refusing_cases (answer supply) refusal (.update desired.component d.realm) n s with
      ⟨e', hc⟩ | hc <;> rw [show service _ _ = _ from hc]
    · exact intact_of_failed h (by simp) he
    · simp only [answer]
      rcases hu : s.update supply desired.component d.realm with ⟨e' | _, s₁⟩ <;> simp only
      · refine intact_of_failed h (by simp) ?_
        rw [attempt_error hu]
        exact he
      · obtain ⟨id, e₁, y, hid₁, he₁, -, stamped, frame, components⟩ := update_entry hu
        cases sent.symm.trans hid₁
        cases he.symm.trans he₁
        have spared := run_spared avoids refusal (n + 1) (past.mono frame) (frame.defaults ▸ new)
        have entry := (congrArg (·.get? f) components).trans (SortedMap.get?_insert_self _ _ _)
        refine intact_of_spared ⟨desired.component, by simp, sent⟩ entry spared ?_
        refine (stamped.configList? bindCredentialKey_ne_lastSyncKey).trans ?_
        rw [payload]
        exact accept_credential unignored e.component d

/-- A federation that is no mapper of its own, and whose id is not declared for a mapper, is none of
the mappers to end up with. -/
theorem desired_other (unlisted : ∀ m ∈ s.children f d.realm, m.id ≠ some f)
    (undeclared : ∀ ds, d.mapperComponents = some ds → ∀ m ∈ ds, m.id ≠ some f)
    (changed : Changeset.of d (some (s.normalized d.realm f e)) = .ok changes) :
    ∀ m ∈ (changes.applyTo (some (s.normalized d.realm f e))).mappers, m.id ≠ some f := by
  have existing : ∀ m ∈ (s.normalized d.realm f e).mappers, m.id ≠ some f :=
    fun m hm => unlisted m ((normalized_listing s d.realm f e).mem_iff.mp hm)
  intro m hm hid
  cases hds : d.mapperComponents with
  | none =>
    rw [applyTo_mappers_of_none changed hds] at hm
    exact existing m hm hid
  | some ds =>
    rcases target_id (applyTo_mappers_of_some changed hds).2 hm hid with
      ⟨m', hm', same⟩ | ⟨p, hp, same⟩
    · exact undeclared ds hds m' hm' same
    · exact existing p hp same

/-- A bind credential stays as it is, or becomes the one that is declared. Whatever call of a run is
refused: if the federation is still stored afterwards, it holds the credential that it held before;
only if its update succeeded, and the declaration sets a credential other than the mask, it holds
that one. -/
theorem secret_integrity (reachable : Reachable supply s)
    (unignored : bindCredentialKey ∉ s.ignoredKeys)
    (new : ∀ provider mappers, s.defaults.get? provider = some mappers → ∀ m ∈ mappers, m.id = none)
    (past : Past supply s f) (found : s.Found d f e)
    (unlisted : ∀ m ∈ s.children f d.realm, m.id ≠ some f)
    (undeclared : ∀ ds, d.mapperComponents = some ds → ∀ m ∈ ds, m.id ≠ some f)
    (present : d.state = .present) (apply : mode.dryRun = false)
    (refusal : Nat → Option Failure) :
    let service := (answer supply).refusing refusal
    let xs := (reconcile d mode).exchanges service (0, s)
    let after := ((reconcile d mode).run service (0, s)).2.2
    ∀ e', after.components.get? f = some e' →
      (UpdateSucceeded f d.realm xs → e'.component.configList? bindCredentialKey =
        (d.secret?.map fun v => [v]).or (e.component.configList? bindCredentialKey)) ∧
      (¬UpdateSucceeded f d.realm xs → e'.component.configList? bindCredentialKey =
        e.component.configList? bindCredentialKey) := by
  intro service xs after
  have keyed := reachable.keyed
  have reads : ∀ x ∈ (survey d).exchanges service (0, s), Reads x.call :=
    (survey_reads d).exchanges (0, s)
  have kept : s = ((survey d).run service (0, s)).2.2 :=
    (run_reads (survey_reads d) refusal 0 s).symm
  change Intact f e d xs after
  have run : after = ((reconcile d mode).run service (0, s)).2.2 := rfl
  rw [show xs = (reconcile d mode).exchanges service (0, s) from rfl, run]
  rw [reconcile_eq, run_bind, exchanges_bind]
  rcases hs : (survey d).run service (0, s) with ⟨e' | ⟨before, changes⟩, n, s₁⟩ <;>
    rw [show (survey d).run _ _ = _ from hs] at kept <;>
    obtain rfl : s = s₁ := kept
  · exact intact_of_failed reads (by simp) found.1
  · have surveyed : s.surveyed d = .ok (before, changes) :=
      congrArg Prod.fst ((survey_run d).symm.trans (run_refusing_ok hs))
    obtain ⟨valid, -, -⟩ := keyed.surveyed_eq_ok surveyed
    rw [found.surveyed keyed valid] at surveyed
    cases changed : Changeset.of d (some (s.normalized d.realm f e)) with
    | error e' =>
      rw [changed] at surveyed
      cases surveyed
    | ok cs =>
      rw [changed] at surveyed
      cases surveyed
      have hid := normalized_id keyed found.1 d.realm
      have payload := applyTo_component changed
      have sent : (changes.applyTo (some (s.normalized d.realm f e))).component.id = some f := by
        rw [payload]
        change d.id.or (s.normalized d.realm f e).component.id = some f
        rw [hid]
        exact found.given
      have other := desired_other unlisted undeclared changed
      simp only [conclude, present]
      exact update_intact unignored new past found.1 apply hid sent payload other reads

namespace Sample

/-- A federation with a bind credential. -/
def securedEntry : Stored := ⟨"master", 1, people.setConfig bindCredentialKey "one"⟩

def secured : Server := { components := .ofList [("people", securedEntry)], insertions := 1 }

/-- The federation is given another credential. -/
def rekeyed : Declaration := bare.setCredential (.text "two")

end Sample

namespace Sample

/-- The federation as a run finds it. -/
def securedFound : Federation := secured.normalized "master" "people" securedEntry

theorem securedFound_mappers : securedFound.mappers = [] := by
  have listed : secured.children "people" "master" = [] :=
    children_of_values [securedEntry] rfl (by decide)
  rw [securedFound, normalized_mappers, listed]
  exact List.mergeSort_nil

theorem rekeyed_desired :
    (changesWith rekeyed (some securedFound) none).applyTo (some securedFound) =
      ⟨securedFound.component.mergedWith rekeyed.component, []⟩ := by
  rw [applyTo_changesWith]
  exact congrArg (Federation.mk _) securedFound_mappers

theorem rekeyed_surveyed : secured.surveyed rekeyed =
    .ok (some securedFound, changesWith rekeyed (some securedFound) none) := rfl

/-- The federation is updated, and has no mappers to see to. -/
theorem rekeyed_run : ∃ e', ((reconcile rekeyed {}).run (answer tally) secured).2.components.get?
    "people" = some e' := by
  have need : Federation.needsUpdate ⟨securedFound.component.mergedWith rekeyed.component, []⟩
      securedFound rekeyed.credentialPolicy = true := by
    have other : securedFound.component.configList? bindCredentialKey ≠
      some [(Scalar.text "two").encode] := by decide
    exact needsUpdate_setCredential_always [] other
  have sent : (secured.update tally (securedFound.component.mergedWith rekeyed.component)
    "master").1 = .ok () := rfl
  rcases hu : secured.update tally (securedFound.component.mergedWith rekeyed.component) "master"
    with ⟨_ | _, s₁⟩
  · cases sent.symm.trans (congrArg Prod.fst hu)
  · obtain ⟨id, e, y, hid, -, -, -, -, components⟩ := update_entry hu
    cases hid
    have entry := (congrArg (·.get? "people") components).trans (SortedMap.get?_insert_self _ _ _)
    have apply : ({} : RunMode).dryRun = false := rfl
    have present : rekeyed.state = .present := rfl
    have left_ : ((reconcile rekeyed {}).run (answer tally) secured).2 = s₁ := by
      rw [reconcile_run, rekeyed_surveyed]
      simp only [conclude, present, rekeyed_desired]
      rw [update_run apply rfl need, show secured.update tally _ rekeyed.realm = _ from hu,
        securedFound_mappers]
      have idle : (execute rekeyed.realm (planUpdate [] [] "people")).run (answer tally) s₁ =
        (.ok (), s₁) := rfl
      simp only [idle]
      split <;> rfl
    exact ⟨_, left_ ▸ entry⟩

end Sample

open Server.Sample in
theorem rekeyed_integrity :
    let service := (answer tally).refusing fun _ => none
    let xs := (reconcile rekeyed {}).exchanges service (0, secured)
    let after := ((reconcile rekeyed {}).run service (0, secured)).2.2
    ∃ e', after.components.get? "people" = some e' ∧
      (UpdateSucceeded "people" "master" xs →
        e'.component.configList? bindCredentialKey = some ["two"]) ∧
      (¬UpdateSucceeded "people" "master" xs →
        e'.component.configList? bindCredentialKey = some ["one"]) := by
  intro service xs after
  have unlisted : ∀ m ∈ secured.children "people" "master", m.id ≠ some "people" := by
    rw [show secured.children "people" "master" = [] from
      children_of_values [securedEntry] rfl (by decide)]
    simp
  have same : after = ((reconcile rekeyed {}).run (answer tally) secured).2 :=
    congrArg Prod.snd (run_refusing_none (reconcile rekeyed {}) 0 secured)
  have reachable : Reachable tally secured :=
    .apply (.seed "master" securedEntry.component) .withoutDefaults
  have past : Past tally secured "people" := past_tally (by decide)
  have found : secured.Found rekeyed "people" securedEntry := ⟨rfl, rfl, .inl rfl⟩
  obtain ⟨e', he'⟩ := rekeyed_run
  have stored : after.components.get? "people" = some e' := same ▸ he'
  refine ⟨e', stored, ?_⟩
  exact secret_integrity reachable (by decide) (fun _ _ h => by cases h) past found unlisted
    (fun _ h => by cases h) rfl rfl (fun _ => none) e' stored

end Server

end UserFederation
