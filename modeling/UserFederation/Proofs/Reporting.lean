import UserFederation.Proofs.Ways

/-! What a diff adds to a run. It is only reported: a run with a diff makes the same calls and ends
in the same way as one without, up to the diff itself (`reconcile_withoutDiff`). The diff shows what
was found and what is there in the end, and only a federation that is as declared has none
(`conclude_tells`). -/

namespace UserFederation

/-- A report without its diff. -/
def Outcome.withoutDiff (o : Outcome) : Outcome := { o with diff := none }

namespace Dialogue

variable {α β γ σ : Type} {service : Service σ}

theorem map_eq_bind (f : α → β) (p : Dialogue α) : f <$> p = p.bind fun a => .done (f a) := rfl

theorem run_map (f : α → β) (p : Dialogue α) (s : σ) :
    (f <$> p).run service s = ((p.run service s).1.map f, (p.run service s).2) := by
  rw [map_eq_bind, run_bind]
  rcases p.run service s with ⟨_ | _, t⟩ <;> rfl

theorem exchanges_map (f : α → β) (p : Dialogue α) (s : σ) :
    (f <$> p).exchanges service s = p.exchanges service s := by
  rw [map_eq_bind, exchanges_bind]
  rcases p.run service s with ⟨_ | _, t⟩ <;> exact List.append_nil _

variable {f : β → γ}

theorem ask_eq_map {c : Call} {next : c.Reply → Dialogue β} {next' : c.Reply → Dialogue γ}
    (h : ∀ reply, next' reply = f <$> next reply) : ask c next' = f <$> ask c next :=
  congrArg (ask c) (funext h)

/-- Two programs that begin alike differ by `f` if what follows does. -/
theorem bind_eq_map {p : Dialogue α} {g : α → Dialogue β} {g' : α → Dialogue γ}
    (h : ∀ a, g' a = f <$> g a) : p.bind g' = f <$> p.bind g := by
  rw [funext h]
  exact (bind_assoc p g _).symm

end Dialogue

namespace Reconcile

open Dialogue

variable {d : Declaration} {existing desired : Federation} {before : Option Federation}
  {changes : Changeset} {outcome o : Outcome} {dryRun : Bool} {f : String}

/-! ### The same run -/

theorem present_withoutDiff {created : Component} :
    present d ⟨dryRun, false⟩ f created outcome =
      Outcome.withoutDiff <$> present d ⟨dryRun, true⟩ f created outcome :=
  bind_eq_map fun _ => rfl

theorem reread_withoutDiff :
    reread d ⟨dryRun, false⟩ f outcome =
      Outcome.withoutDiff <$> reread d ⟨dryRun, true⟩ f outcome := by
  refine ask_eq_map fun found => ?_
  cases found with
  | none => rfl
  | some refreshed => exact bind_eq_map fun _ => rfl

theorem create_withoutDiff :
    create d ⟨dryRun, false⟩ desired outcome =
      Outcome.withoutDiff <$> create d ⟨dryRun, true⟩ desired outcome := by
  cases dryRun with
  | true => rfl
  | false =>
    rw [create_apply rfl, create_apply rfl]
    refine ask_eq_map fun created => ?_
    cases created.id with
    | none => rfl
    | some f =>
      refine ask_eq_map fun defaults => bind_eq_map fun plan => bind_eq_map fun _ => ?_
      exact present_withoutDiff

theorem delete_withoutDiff :
    delete d ⟨dryRun, false⟩ existing outcome =
      Outcome.withoutDiff <$> delete d ⟨dryRun, true⟩ existing outcome := by
  refine bind_eq_map fun f => ?_
  cases dryRun <;> rfl

theorem update_withoutDiff (plain : outcome.diff = none) :
    update d ⟨dryRun, false⟩ existing desired outcome =
      Outcome.withoutDiff <$> update d ⟨dryRun, true⟩ existing desired outcome := by
  refine bind_eq_map fun f => ?_
  cases desired.needsUpdate existing d.credentialPolicy with
  | false =>
    -- No diff is set here, so the report has the one that it began with.
    change Dialogue.done _ = Dialogue.done _
    simp only [Outcome.withoutDiff, plain]
  | true =>
    cases dryRun with
    | true => rfl
    | false => exact bind_eq_map fun _ => bind_eq_map fun _ => reread_withoutDiff

theorem conclude_withoutDiff :
    conclude d ⟨dryRun, false⟩ before changes =
      Outcome.withoutDiff <$> conclude d ⟨dryRun, true⟩ before changes := by
  unfold conclude
  split
  · rfl
  · exact create_withoutDiff
  · exact delete_withoutDiff
  · exact update_withoutDiff rfl

/-- A run without a diff is the run with one, less the diff. -/
theorem reconcile_withoutDiff :
    reconcile d ⟨dryRun, false⟩ = Outcome.withoutDiff <$> reconcile d ⟨dryRun, true⟩ := by
  rw [reconcile_eq, reconcile_eq]
  exact bind_eq_map fun _ => conclude_withoutDiff

/-! ### What the diff shows -/

theorem survey_run_ok {σ : Type} {service : Service σ} {s t : σ}
    (h : (survey d).run service s = (.ok (before, changes), t)) :
    ∃ found, (Federation.resolve d.realm d.id d.name).run service s = (.ok found, t) ∧
      before = found.map Federation.undoEcho ∧ Changeset.of d before = .ok changes := by
  rw [survey, run_bind, run_lift] at h
  cases valid : d.validate with
  | error e =>
    rw [valid] at h
    cases h
  | ok _ =>
    simp only [valid, run_bind, run_lift] at h
    rcases resolved : (Federation.resolve d.realm d.id d.name).run service s with ⟨e | found, t'⟩ <;>
      simp only [resolved] at h
    · cases h
    · cases changed : Changeset.of d (found.map Federation.undoEcho) with
      | error e =>
        rw [changed] at h
        cases h
      | ok changes' =>
        rw [changed] at h
        cases h
        exact ⟨found, rfl, rfl, changed⟩

/-- The federation that has to be there was found as declared. -/
def UpToDate (d : Declaration) (before : Option Federation) (changes : Changeset) : Prop :=
  d.state = .present ∧ ∃ existing, before = some existing ∧
    (changes.applyTo before).needsUpdate existing d.credentialPolicy = false

theorem not_upToDate_of_missing : ¬UpToDate d none changes := by
  rintro ⟨-, existing, ⟨⟩, -⟩

theorem not_upToDate_of_absent (absent : d.state = .absent) : ¬UpToDate d before changes := by
  rintro ⟨present, -⟩
  cases absent.symm.trans present

/-- What a report tells by its diff. -/
inductive Tells (d : Declaration) (before : Option Federation) (changes : Changeset) (o : Outcome) :
    Prop
  /-- There is nothing to compare. -/
  | silent (upToDate : UpToDate d before changes) (missing : o.diff = none)
  /-- What was found is compared with what is there in the end. -/
  | sides (other : ¬UpToDate d before changes)
    (shown : o.diff = some (.ofSides (before.map fun _ => o.existing)
      (if d.state = .present then some o.endState else none)))

theorem Tells.before_eq (h : Tells d before changes o) {diff : Diff} (there : o.diff = some diff) :
    diff.before = if before.isSome then o.existing else .str "" := by
  cases h with
  | silent _ missing => cases missing.symm.trans there
  | sides _ shown =>
    cases shown.symm.trans there
    cases before <;> rfl

theorem Tells.after_eq (h : Tells d before changes o) {diff : Diff} (there : o.diff = some diff) :
    diff.after = if d.state = .present then o.endState else .str "" := by
  cases h with
  | silent _ missing => cases missing.symm.trans there
  | sides _ shown =>
    cases shown.symm.trans there
    cases d.state <;> rfl

theorem Tells.diff_eq_none_iff (h : Tells d before changes o) :
    o.diff = none ↔ UpToDate d before changes := by
  cases h with
  | silent upToDate missing => exact iff_of_true missing upToDate
  | sides other shown => exact iff_of_false (by rw [shown]; nofun) other

theorem create_tells (present : d.state = .present) :
    (create d ⟨dryRun, true⟩ desired outcome).Yields (Tells d none changes) := by
  have tells : ∀ o, o.diff = some (.ofSides none (some o.endState)) → Tells d none changes o :=
    fun o shown => .sides not_upToDate_of_missing (by rw [if_pos present]; exact shown)
  cases dryRun with
  | true => exact tells _ rfl
  | false =>
    refine Yields.bind fun created => ?_
    cases created.id with
    | none => trivial
    | some f =>
      refine Yields.bind fun defaults => Yields.bind fun plan => Yields.bind fun _ => ?_
      exact Yields.bind fun mappers => tells _ rfl

theorem delete_tells (absent : d.state = .absent) :
    (delete d ⟨dryRun, true⟩ existing outcome).Yields (Tells d (some existing) changes) := by
  have tells : ∀ o, o.diff = some (.ofSides (some o.existing) none) →
      Tells d (some existing) changes o := fun o shown =>
    .sides (not_upToDate_of_absent absent) (by rw [if_neg (absent ▸ nofun)]; exact shown)
  refine Yields.bind fun f => ?_
  cases dryRun with
  | true => exact tells _ rfl
  | false => exact fun _ => tells _ rfl

theorem update_tells (present : d.state = .present) (plain : outcome.diff = none) :
    (update d ⟨dryRun, true⟩ existing (changes.applyTo (some existing)) outcome).Yields
      (Tells d (some existing) changes) := by
  refine Yields.bind fun f => ?_
  cases need : (changes.applyTo (some existing)).needsUpdate existing d.credentialPolicy with
  | false => exact .silent ⟨present, existing, rfl, need⟩ plain
  | true =>
    have other : ¬UpToDate d (some existing) changes := by
      rintro ⟨-, _, ⟨⟩, same⟩
      cases need.symm.trans same
    have tells : ∀ o, o.diff = some (.ofSides (some o.existing) (some o.endState)) →
        Tells d (some existing) changes o :=
      fun o shown => .sides other (by rw [if_pos present]; exact shown)
    cases dryRun with
    | true => exact tells _ rfl
    | false =>
      refine Yields.bind fun _ => Yields.bind fun _ => Yields.bind fun found => ?_
      cases found with
      | none => trivial
      | some refreshed => exact Yields.bind fun mappers => tells _ rfl

/-- Every way tells by its diff what was found and what is there in the end. -/
theorem conclude_tells (d : Declaration) (dryRun : Bool) (before : Option Federation)
    (changes : Changeset) :
    (conclude d ⟨dryRun, true⟩ before changes).Yields (Tells d before changes) := by
  unfold conclude
  split
  · rename_i absent
    exact .sides not_upToDate_of_missing (by rw [if_neg (absent ▸ nofun)]; rfl)
  · exact create_tells ‹_›
  · exact delete_tells ‹_›
  · exact update_tells ‹_› rfl

/-- A diff is only reported. With and without one a run makes the same calls, leaves the same state
behind, and fails alike or ends with the same report up to the diff, which only the one has. Its
sides are what was found and what is there in the end, or would be, and are empty where there is no
federation. It is missing just where the federation was found as declared. -/
theorem diff_only_reports {σ : Type} (service : Service σ) (s : σ) (d : Declaration)
    (dryRun : Bool) :
    let plain := (reconcile d { dryRun, diff := false }).runLogged service s
    let told := (reconcile d { dryRun, diff := true }).runLogged service s
    plain.2 = told.2 ∧ plain.1 = told.1.map Outcome.withoutDiff ∧
      ∀ o, told.1 = .ok o → ∃ found t changes,
        (Federation.resolve d.realm d.id d.name).run service s = (.ok found, t) ∧
        Changeset.of d (found.map Federation.undoEcho) = .ok changes ∧
        (∀ diff, o.diff = some diff →
          diff.before = (if found.isSome then o.existing else .str "") ∧
          diff.after = (if d.state = .present then o.endState else .str "")) ∧
        (o.diff = none ↔ UpToDate d (found.map Federation.undoEcho) changes) := by
  simp only [runLogged_eq, reconcile_withoutDiff, run_map, exchanges_map, true_and]
  intro o told
  rw [reconcile_eq, run_bind] at told
  rcases hs : (survey d).run service s with ⟨e | ⟨before, changes⟩, t⟩ <;> simp only [hs] at told
  · cases told
  · obtain ⟨found, resolved, rfl, changed⟩ := survey_run_ok hs
    have tells := (conclude_tells d dryRun _ changes).run (Prod.ext told rfl)
    refine ⟨found, t, changes, resolved, changed, fun diff there => ?_, tells.diff_eq_none_iff⟩
    exact ⟨(tells.before_eq there).trans (by rw [Option.isSome_map]), tells.after_eq there⟩

end Reconcile

end UserFederation
