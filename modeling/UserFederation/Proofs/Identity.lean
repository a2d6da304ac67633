import UserFederation.Proofs.Deletion
import UserFederation.Proofs.Mapperless
import UserFederation.Proofs.Rejection
import UserFederation.Proofs.Reporting

/-! What a deletion depends on. A run for a federation that has to be absent looks it up by the
identity that is declared, works out the changes, and deletes what it has found
(`reconcile_absent`). Of all that is declared beside the identity only the mappers can keep it from
that, and only by being turned down (`of_eq_error_iff`); the config never does. So declarations of
one identity whose mappers are turned down alike, or not at all, lead to the same calls and the same
end (`deletion_depends_on_identity`). -/

namespace UserFederation

/-! ### Mappers that are turned down -/

namespace Mapper

variable {existing declared : List Component} {m : Component} {e : Failure}

/-- The name by which alone a declared mapper refers to more than one existing mapper. -/
def ambiguity? (existing : List Component) (m : Component) : Option String :=
  if m.id.isSome then none else m.name.filter fun n => 2 ≤ existing.countP (·.name = some n)

theorem resolve_eq_error_iff :
    resolve existing m = .error e ↔ (ambiguity? existing m).map (.ambiguous .mapper) = some e := by
  have failed : resolve existing m = .error e ↔ referent? m existing = .error e := by
    unfold resolve
    cases referent? m existing <;> simp [bind, Except.bind, pure, Except.pure]
  rw [failed, referent?, ambiguity?]
  cases m.id with
  | some _ => simp
  | none =>
    cases m.name with
    | none => simp
    | some n =>
      simp only [withName?_eq_error_iff, Option.filter_some]
      split <;> simp_all

theorem target_eq_error_iff {prune : Bool} : target declared existing prune = .error e ↔
    (declared.findSome? fun m => (ambiguity? existing m).map (.ambiguous .mapper)) = some e := by
  rw [← mapM_eq_error_iff fun _ _ => resolve_eq_error_iff, target]
  cases declared.mapM (resolve existing) with
  | error _ => simp [bind, Except.bind]
  | ok merged => cases prune <;> simp [bind, Except.bind, pure, Except.pure]

end Mapper

/-- Why the mappers of a declaration are turned down for what is found, if they are: the provider
that counts has none, or one of them is given by a name that is not unique. -/
def Declaration.objection? (d : Declaration) (before : Option Federation) : Option Failure :=
  let declared := d.mapperComponents.getD []
  let mapperless := (d.providerId.or (foundComponent before).providerId).filter fun p =>
    0 < declared.length ∧ mapperlessProviders.contains p
  (mapperless.map fun p => .invalid (.mappersUnsupported p)).or
    (declared.findSome? fun m =>
      (Mapper.ambiguity? (foundMappers before) m).map (.ambiguous .mapper))

theorem checkMappersSupported_eq (provider : Option String) (count : Nat) :
    checkMappersSupported provider count =
      match provider.filter fun p => 0 < count ∧ mapperlessProviders.contains p with
      | some p => .error (.invalid (.mappersUnsupported p))
      | none => .ok () := by
  unfold checkMappersSupported
  cases provider with
  | none => rfl
  | some p =>
    simp only [Option.filter_some, decide_eq_true_eq]
    split <;> simp_all

/-- Changes cannot be worked out just if the declared mappers are turned down. -/
theorem of_eq_error_iff {d : Declaration} {before : Option Federation} {e : Failure} :
    Changeset.of d before = .error e ↔ d.objection? before = some e := by
  rw [of_eq, Declaration.objection?]
  cases d.mapperComponents with
  | none => simp
  | some ds =>
    simp only [checkMappersSupported_eq, Option.getD_some]
    cases (d.providerId.or (foundComponent before).providerId).filter fun p =>
      0 < ds.length ∧ mapperlessProviders.contains p with
    | some p => simp
    | none =>
      rw [Option.map_none, Option.none_or, ← @Mapper.target_eq_error_iff _ _ _ d.prune]
      cases Mapper.target ds (foundMappers before) d.prune <;> simp

/-- Mappers are turned down only if there are some, and for a federation that was found. -/
theorem Declaration.listed_of_objection {d : Declaration} {before : Option Federation} {e : Failure}
    (valid : d.validate = .ok ()) (objection : d.objection? before = some e) :
    before.isSome ∧ d.listed ≠ [] := by
  constructor
  · cases before with
    | some _ => rfl
    | none =>
      obtain ⟨changes, changed⟩ := exists_changes_of_none valid
      cases changed.symm.trans (of_eq_error_iff.mpr objection)
  · intro unlisted
    rw [objection?, mapperComponents_getD, unlisted] at objection
    simp at objection

/-! ### Runs that delete -/

namespace Reconcile

open Dialogue

variable {σ : Type} {service : Service σ} {d d' : Declaration} {mode : RunMode}

/-- A report that also shows changes. -/
def propose (changes : Changeset) (o : Outcome) : Outcome := { o with proposed := changes.render }

/-- Deletes the federation that was found in a realm, if one was. -/
def retire (mode : RunMode) (realm : String) (before : Option Federation) : Dialogue Outcome :=
  conclude { realm, state := .absent } mode before {}

/-- With a federation that has to be absent, a run does nothing with the changes but show them. -/
theorem conclude_absent (absent : d.state = .absent) (before : Option Federation)
    (changes : Changeset) :
    conclude d mode before changes = propose changes <$> retire mode d.realm before := by
  unfold retire conclude
  rw [absent]
  cases before with
  | none => rfl
  | some existing =>
    refine bind_eq_map fun f => ?_
    obtain ⟨dryRun, diff⟩ := mode
    cases dryRun <;> rfl

theorem reconcile_absent (valid : d.validate = .ok ()) (absent : d.state = .absent)
    (mode : RunMode) :
    reconcile d mode = (Federation.resolve d.realm d.id d.name).bind fun found =>
      (lift (Changeset.of d (found.map Federation.undoEcho))).bind fun changes =>
        propose changes <$> retire mode d.realm (found.map Federation.undoEcho) := by
  rw [reconcile_eq, survey, valid]
  simp only [lift, done_bind, bind_assoc, conclude_absent absent]

/-- How a run ends that has to see to it that there is no federation: as the look-up does, or as the
objection to the declared mappers says, or by deleting. -/
theorem run_of_absent (valid : d.validate = .ok ()) (absent : d.state = .absent) (mode : RunMode)
    (s : σ) :
    let look := (Federation.resolve d.realm d.id d.name).run service s
    (∀ e, look.1 = .error e → (reconcile d mode).run service s = (.error e, look.2)) ∧
      ∀ found, look.1 = .ok found →
        (∀ e, d.objection? (found.map Federation.undoEcho) = some e →
          (reconcile d mode).run service s = (.error e, look.2)) ∧
        (d.objection? (found.map Federation.undoEcho) = none → ∃ changes,
          let rest := (retire mode d.realm (found.map Federation.undoEcho)).run service look.2
          (reconcile d mode).run service s = (rest.1.map (propose changes), rest.2)) := by
  rw [reconcile_absent valid absent, run_bind]
  rcases (Federation.resolve d.realm d.id d.name).run service s with ⟨e | found, t⟩
  · refine ⟨?_, nofun⟩
    rintro _ ⟨⟩
    rfl
  · refine ⟨nofun, ?_⟩
    rintro _ ⟨⟩
    simp only [run_bind, run_lift]
    cases changed : Changeset.of d (found.map Federation.undoEcho) with
    | error e =>
      rw [of_eq_error_iff.mp changed]
      refine ⟨?_, nofun⟩
      rintro _ ⟨⟩
      rfl
    | ok changes =>
      refine ⟨fun e objected => ?_, fun _ => ⟨changes, run_map _ _ _⟩⟩
      cases changed.symm.trans (of_eq_error_iff.mpr objected)

/-- A deletion depends on identity, and on whether the declared mappers are turned down. Two
declarations of one identity begin with the same look-up, and fail with it if it fails. A
declaration whose mappers are turned down for the federation that was found fails there, before
anything is changed; only its provider and its mappers count for that. Two that are turned down
alike, or not at all, lead to the same calls and leave the service alike, and fail alike or report
the same but for the changes that they show. -/
theorem deletion_depends_on_identity (service : Service σ) (s : σ) (mode : RunMode)
    (valid : d.validate = .ok ()) (valid' : d'.validate = .ok ()) (absent : d.state = .absent)
    (absent' : d'.state = .absent) (realm : d'.realm = d.realm) (id : d'.id = d.id)
    (name : d'.name = d.name) :
    let look := (Federation.resolve d.realm d.id d.name).runLogged service s
    let run := (reconcile d mode).runLogged service s
    let run' := (reconcile d' mode).runLogged service s
    (∀ call ∈ look.2.2, call.isMutation = false) ∧
      (∀ e, look.1 = .error e → run = (.error e, look.2) ∧ run' = (.error e, look.2)) ∧
      ∀ found, look.1 = .ok found →
        let before := found.map Federation.undoEcho
        (∀ e, d.objection? before = some e →
          found.isSome ∧ d.listed ≠ [] ∧ run = (.error e, look.2)) ∧
        (d'.providerId = d.providerId → d'.mappers = d.mappers →
          d'.objection? before = d.objection? before) ∧
        (d'.objection? before = d.objection? before → run'.2 = run.2 ∧
          ((∃ e, run.1 = .error e ∧ run'.1 = .error e) ∨
            ∃ o o', run.1 = .ok o ∧ run'.1 = .ok o' ∧ o' = { o with proposed := o'.proposed })) := by
  intro look run run'
  have reads : ∀ call ∈ look.2.2, call.isMutation = false := by
    simp only [look, runLogged_eq, List.forall_mem_map]
    exact (resolve_reads d.realm d.id d.name).exchanges s
  have first := @run_of_absent _ service.logged _ valid absent mode (s, [])
  have second := @run_of_absent _ service.logged _ valid' absent' mode (s, [])
  rw [realm, id, name] at second
  refine ⟨reads, fun e failed => ⟨first.1 e failed, second.1 e failed⟩, fun found looked => ?_⟩
  obtain ⟨objected, deletes⟩ := first.2 found looked
  obtain ⟨objected', deletes'⟩ := second.2 found looked
  refine ⟨fun e objection => ?_, fun provider mappers => ?_, fun same => ?_⟩
  · obtain ⟨there, listed⟩ := Declaration.listed_of_objection valid objection
    exact ⟨Option.isSome_map ▸ there, listed, objected e objection⟩
  · rw [Declaration.objection?, Declaration.objection?, Declaration.mapperComponents,
      Declaration.mapperComponents, provider, mappers]
  · cases objection : d.objection? (found.map Federation.undoEcho) with
    | some e =>
      have failed := objected e objection
      have failed' := objected' e (same.trans objection)
      exact ⟨congrArg Prod.snd (failed'.trans failed.symm),
        .inl ⟨e, congrArg Prod.fst failed, congrArg Prod.fst failed'⟩⟩
    | none =>
      obtain ⟨changes, ended⟩ := deletes objection
      obtain ⟨changes', ended'⟩ := deletes' (same.trans objection)
      simp only [run, run', runLogged, ended, ended']
      refine ⟨trivial, ?_⟩
      cases ((retire mode d.realm (found.map Federation.undoEcho)).run service.logged _).1 with
      | error e => exact .inl ⟨e, rfl, rfl⟩
      | ok o => exact .inr ⟨_, _, rfl, rfl, rfl⟩

end Reconcile

namespace Server.Sample

/-- The federation `people` has to be absent. -/
def dismissed : Declaration := { state := .absent, id := some "people" }

/-- The federation `people` has to be absent, and a mapper of it is declared. -/
def dismissedWithMail : Declaration := { dismissed with mappers := withMail.mappers }

/-- A federation is found with a mapper, and deleted. -/
def deletable : Script := [.component people, .components [mail], .nothing]

/-- A federation of a provider without mappers is found, and would be deleted. -/
def kerberosDeletable : Script := kerberosFound ++ [.nothing]

end Server.Sample

open Server.Sample in
theorem Reconcile.dismissed_deletes_alike :
    let run := (reconcile dismissed {}).runLogged Script.answer deletable
    let run' := (reconcile dismissedWithMail {}).runLogged Script.answer deletable
    run.2.2 = [.get "people" "master", .children "people" "master", .delete "people" "master"] ∧
    run'.2 = run.2 ∧ ((∃ e, run.1 = .error e ∧ run'.1 = .error e) ∨
      ∃ o o', run.1 = .ok o ∧ run'.1 = .ok o' ∧ o' = { o with proposed := o'.proposed }) := by
  have sorted : Component.sortByName [mail] = [mail] := List.mergeSort_singleton _
  have looked : ((Federation.resolve dismissed.realm dismissed.id dismissed.name).runLogged
      Script.answer deletable).1 =
        .ok (some (Federation.ofParts people (Component.sortByName [mail]))) := rfl
  rw [Federation.ofParts, sorted, sorted] at looked
  have alike := @deletion_depends_on_identity _ dismissed dismissedWithMail Script.answer deletable
    {} rfl rfl rfl rfl rfl rfl rfl
  exact ⟨rfl, (alike.2.2 _ looked).2.2 rfl⟩

open Server.Sample in
/-- Identity alone does not decide: a declared mapper can keep a federation from being deleted. -/
theorem Reconcile.deletion_depends_on_mappers :
    ¬∀ (script : Script) (mode : RunMode) (d d' : Declaration), d.validate = .ok () →
      d'.validate = .ok () → d.state = .absent → d'.state = .absent → d'.realm = d.realm →
      d'.id = d.id → d'.name = d.name →
      let run := (reconcile d mode).runLogged Script.answer script
      let run' := (reconcile d' mode).runLogged Script.answer script
      run'.2.2 = run.2.2 ∧ ((∃ e, run.1 = .error e ∧ run'.1 = .error e) ∨
        ∃ o o', run.1 = .ok o ∧ run'.1 = .ok o' ∧ o'.changed = o.changed ∧
          o'.message = o.message ∧ o'.existing = o.existing ∧ o'.endState = o.endState) := by
  intro claim
  have calls := (claim kerberosDeletable {} dismissed dismissedWithMail rfl rfl rfl rfl rfl rfl
    rfl).1
  revert calls
  decide

end UserFederation
