import UserFederation.Proofs.Rearrangement
import UserFederation.Proofs.Scope

/-! Runs for a federation that has to be absent. Such a run takes the federation that it finds and
what is below it, and nothing else (`run_absent`). Then there is nothing left to find, and every
further run says so (`deletion_converges`). -/

namespace UserFederation

namespace Reconcile

open Dialogue

variable {d : Declaration} {mode : RunMode} {existing : Federation} {outcome : Outcome} {f : String}

/-- What is reported after a deletion. -/
def afterDeletion (mode : RunMode) (f : String) (outcome : Outcome) : Outcome :=
  { outcome with
    changed := true
    diff := mode.sides (some outcome.existing) none
    endState := .emptyObject
    message := "User federation " ++ f ++ " has been deleted" }

theorem delete_apply (hid : existing.component.id = some f) (apply : mode.dryRun = false) :
    delete d mode existing outcome =
      .ask (.delete f d.realm) fun _ => .done (afterDeletion mode f outcome) := by
  unfold delete
  rw [existingId_eq hid, apply]
  rfl

end Reconcile

/-- Where there is no federation, no name of a declaration can be ambiguous, so a valid one has
changes. -/
theorem exists_changes_of_none {d : Declaration} (valid : d.validate = .ok ()) :
    ∃ changes, Changeset.of d none = .ok changes := by
  rw [of_eq]
  cases declared : d.mapperComponents with
  | none => exact ⟨_, rfl⟩
  | some ds =>
    have supported : checkMappersSupported (d.providerId.or (foundComponent none).providerId)
        ds.length = .ok () := by
      change checkMappersSupported (d.providerId.or none) ds.length = .ok ()
      rw [Option.or_none]
      exact supported_of_valid valid declared
    have resolves : ∀ m ∈ ds, ∃ t, Mapper.resolve [] m = .ok t :=
      fun m _ => ⟨_, Server.resolve_nil m⟩
    obtain ⟨merged, resolved⟩ := exists_related resolves
    have target : Mapper.target ds (foundMappers none) d.prune =
        .ok (Mapper.arranged [] merged d.prune) :=
      Mapper.target_eq_ok_iff.mpr ⟨merged, resolved, rfl⟩
    simp only [supported, target]
    exact ⟨_, rfl⟩

namespace Server

open Dialogue Reconcile

variable {supply : Supply} {s u : Server} {d : Declaration} {mode : RunMode} {o : Outcome}
  {f : String} {e : Stored}

/-- What goes with a federation that was found: its own entry and those below it. -/
def Taken (s : Server) (found : Option Federation) (k : String) : Prop :=
  ∃ f, found.bind Federation.id = some f ∧ (k = f ∨ s.Below k f)

/-- A run that succeeds has found nothing and left everything, or deleted what it has found. -/
theorem run_absent (keyed : s.Keyed) (absent : d.state = .absent) (apply : mode.dryRun = false)
    (run : (reconcile d mode).run (answer supply) s = (.ok o, u)) :
    d.validate = .ok () ∧ (s.Unfound d ∧ u = s ∨ ∃ f e, s.Found d f e ∧ Deleted s f u) := by
  rw [reconcile_run] at run
  cases surveyed : s.surveyed d with
  | error e =>
    rw [surveyed] at run
    cases run
  | ok seen =>
    obtain ⟨before, changes⟩ := seen
    obtain ⟨valid, -, ⟨rfl, unfound⟩ | ⟨f, e, found, rfl⟩⟩ := keyed.surveyed_eq_ok surveyed <;>
      refine ⟨valid, ?_⟩ <;> simp only [surveyed, conclude, absent] at run
    · cases run
      exact .inl ⟨unfound, rfl⟩
    · refine .inr ⟨f, e, found, ?_⟩
      rw [delete_apply (normalized_id keyed found.1 d.realm) apply, run_ask] at run
      rcases deleted : s.delete f d.realm with ⟨failure | _, t⟩ <;>
        simp only [answer, deleted] at run <;> cases run
      exact delete_entry deleted

/-- A run deletes the federation that it finds, unless a deletion is due to fail. -/
theorem Found.run_absent (found : s.Found d f e) (keyed : s.Keyed) (valid : d.validate = .ok ())
    (absent : d.state = .absent) (apply : mode.dryRun = false) (unarmed : s.failNext ≠ some .delete)
    {changes : Changeset}
    (changed : Changeset.of d (some (s.normalized d.realm f e)) = .ok changes) :
    ∃ u, (reconcile d mode).run (answer supply) s =
      (.ok (afterDeletion mode f (report (some (s.normalized d.realm f e)) changes)), u) := by
  obtain ⟨u, deleted⟩ := delete_succeeds (stored?_eq_some_iff.mpr ⟨found.1, found.2.1⟩) unarmed
  have surveyed := found.surveyed_ok keyed valid changed
  simp only [reconcile_run, surveyed, conclude, absent]
  rw [delete_apply (normalized_id keyed found.1 d.realm) apply, run_ask]
  simp only [answer, deleted]
  exact ⟨u, rfl⟩

/-- Once it is deleted, a federation is not found again, by its id or by its name. -/
theorem Found.gone (found : s.Found d f e) (deleted : Deleted s f u) : u.Unfound d := by
  obtain ⟨-, -, hid | ⟨hid, -, named, -, only⟩⟩ := found
  · refine ⟨fun id given => ?_, fun none => ?_⟩
    · cases hid.symm.trans given
      rw [stored?, deleted.gone]
      rfl
    · cases hid.symm.trans none
  · refine ⟨fun id given => ?_, fun _ => ⟨named, ?_⟩⟩
    · cases hid.symm.trans given
    · intro k e' there realm type name
      -- An entry that answers to the name was there before, as the federation itself.
      cases only k e' (deleted.get?_of_some there) realm type name
      cases deleted.gone.symm.trans there

/-- A run that finds nothing has nothing to do, and says so. -/
theorem Unfound.run_absent (unfound : s.Unfound d) (valid : d.validate = .ok ())
    (absent : d.state = .absent) (mode : RunMode) :
    ∃ o, (reconcile d mode).run (answer supply) s = (.ok o, s) ∧ o.changed = false ∧
      o.endState = .emptyObject ∧
        ∀ x ∈ (reconcile d mode).exchanges (answer supply) s, x.call.isMutation = false := by
  obtain ⟨changes, changed⟩ := exists_changes_of_none valid
  have surveyed := unfound.surveyed_ok valid changed
  refine ⟨nothingToDelete mode (report none changes), ?_, rfl, rfl, ?_⟩
  · simp only [reconcile_run, surveyed, conclude, absent, run_done]
  · rw [reconcile_eq, exchanges_bind, survey_run, surveyed]
    simp only [conclude, absent, exchanges_done, List.append_nil]
    exact (survey_reads d).exchanges s

/-- A run for a federation that has to be absent takes the one that is found and all that is below
it, and leaves everything else. Every further run then succeeds, makes no call that changes
anything, and reports no change and an empty end. -/
theorem deletion_converges (reachable : Reachable supply s) (absent : d.state = .absent)
    (apply : mode.dryRun = false)
    (first : (reconcile d mode).run (answer supply) s = (.ok o, u)) :
    (∃ found, (Federation.resolve d.realm d.id d.name).run (answer supply) s = (.ok found, s) ∧
      (found = none → u = s) ∧
      ∀ k, (s.Taken found k → u.components.get? k = none) ∧
        (¬s.Taken found k → u.components.get? k = s.components.get? k)) ∧
    ∀ again : RunMode, ∃ o', (reconcile d again).run (answer supply) u = (.ok o', u) ∧
      o'.changed = false ∧ o'.endState = .emptyObject ∧
        ∀ x ∈ (reconcile d again).exchanges (answer supply) u, x.call.isMutation = false := by
  have keyed := reachable.keyed
  obtain ⟨valid, ⟨unfound, rfl⟩ | ⟨f, e, found, deleted⟩⟩ := run_absent keyed absent apply first
  · refine ⟨⟨none, ?_, fun _ => rfl, fun k => ⟨?_, fun _ => rfl⟩⟩,
      unfound.run_absent valid absent⟩
    · rw [resolve_run, unfound.resolved]
    · rintro ⟨f, none, -⟩
      cases none
  · have id : (s.shown d.realm f (redact e.component)).id = some f := keyed f e found.1
    refine ⟨⟨some (s.shown d.realm f (redact e.component)), ?_, nofun, fun k =>
      ⟨?_, fun other => ?_⟩⟩, (found.gone deleted).run_absent valid absent⟩
    · rw [resolve_run, found.resolved keyed]
    · rintro ⟨f', same, taken⟩
      cases id.symm.trans same
      rcases taken with rfl | below
      · exact deleted.gone
      · exact deleted.below k below
    · exact deleted.kept k (fun same => other ⟨f, id, .inl same⟩)
        fun below => other ⟨f, id, .inr below⟩

namespace Sample

/-- A federation with a mapper, a component of another realm below that, and a second federation. -/
def crowded : Server :=
  [("master", people), ("master", { mail with id := some "mail", parentId := some "people" }),
    ("other", { mail with id := some "deep", parentId := some "mail" }),
    ("master", { people with id := some "staff" })].foldl
    (fun s (realm, c) => s.apply tally (.seed realm c)) withoutDefaults

theorem reachable_crowded : Reachable tally crowded :=
  .apply (.seed _ _) (.apply (.seed _ _) (.apply (.seed _ _) (.apply (.seed _ _) .withoutDefaults)))

theorem crowded_descendants : crowded.descendants "people" = ["mail", "deep"] := by
  have entries : crowded.components.entries =
      [("deep", ⟨"other", 3, { mail with id := some "deep", parentId := some "mail" }⟩),
        ("mail", ⟨"master", 2, { mail with id := some "mail", parentId := some "people" }⟩),
        ("people", ⟨"master", 1, people⟩),
        ("staff", ⟨"master", 4, { people with id := some "staff" }⟩)] := rfl
  simp [descendants, entries, cascade, newChildren, people, mail]

theorem crowded_found : crowded.Found unwanted "people" ⟨"master", 1, people⟩ :=
  ⟨rfl, rfl, .inl rfl⟩

theorem crowded_run : ∃ o u, (reconcile unwanted {}).run (answer tally) crowded = (.ok o, u) := by
  have apply : ({} : RunMode).dryRun = false := rfl
  have changed : Changeset.of unwanted
      (some (crowded.normalized unwanted.realm "people" ⟨"master", 1, people⟩)) =
        .ok (changesWith unwanted _ none) := rfl
  obtain ⟨u, run⟩ :=
    crowded_found.run_absent reachable_crowded.keyed rfl rfl apply nofun changed
  exact ⟨_, u, run⟩

end Sample

open Server.Sample in
theorem crowded_deleted : Reachable tally crowded ∧ unwanted.state = .absent ∧
    ∃ o u, (reconcile unwanted {}).run (answer tally) crowded = (.ok o, u) ∧
      (∀ k ∈ ["people", "mail", "deep"], u.components.get? k = none) ∧
      u.components.get? "staff" = some ⟨"master", 4, { people with id := some "staff" }⟩ ∧
      ∃ o', (reconcile unwanted {}).run (answer tally) u = (.ok o', u) ∧ o'.changed = false ∧
        o'.endState = .emptyObject := by
  obtain ⟨o, u, run⟩ := crowded_run
  obtain ⟨⟨found, resolved, -, kept⟩, again⟩ := deletion_converges reachable_crowded rfl rfl run
  obtain ⟨o', rerun, unchanged, empty, -⟩ := again {}
  have id : found.bind Federation.id = some "people" := by
    rw [resolve_run, crowded_found.resolved reachable_crowded.keyed] at resolved
    cases resolved
    rfl
  have taken : ∀ k, crowded.Taken found k ↔ k = "people" ∨ k ∈ ["mail", "deep"] := by
    intro k
    rw [← crowded_descendants, mem_descendants]
    constructor
    · rintro ⟨f, same, taken⟩
      cases id.symm.trans same
      exact taken
    · exact fun taken => ⟨"people", id, taken⟩
  refine ⟨reachable_crowded, rfl, o, u, run, fun k hk => (kept k).1 ((taken k).mpr ?_), ?_, o',
    rerun, unchanged, empty⟩
  · exact List.mem_cons.mp hk
  · exact (kept "staff").2 ((taken "staff").not.mpr (by decide))

end Server

end UserFederation
