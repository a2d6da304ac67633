import UserFederation.Proofs.Transcript
import UserFederation.Run.Reconcile

/-! The two halves of a run. `survey` reads what there is and works out the changes; `conclude`
makes them, or says what they would be (`reconcile_eq`). The way of the second half depends on what
the first has found. -/

namespace UserFederation.Reconcile

open Dialogue

/-- Finds the federation of a declaration, normalized, and what the declaration changes in it. -/
def survey (d : Declaration) : Dialogue (Option Federation × Changeset) :=
  (lift d.validate).bind fun _ =>
    (Federation.resolve d.realm d.id d.name).bind fun found =>
      (lift (Changeset.of d (found.map Federation.undoEcho))).bind fun changes =>
        .done (found.map Federation.undoEcho, changes)

/-- What is reported before anything is done. -/
def report (before : Option Federation) (changes : Changeset) : Outcome :=
  { proposed := changes.render, existing := Federation.renderOption before }

/-- Goes one of the four ways. -/
def conclude (d : Declaration) (mode : RunMode) (before : Option Federation)
    (changes : Changeset) : Dialogue Outcome :=
  match before, d.state with
  | none, .absent => .done (nothingToDelete mode (report before changes))
  | none, .present => create d mode (changes.applyTo before) (report before changes)
  | some existing, .absent => delete d mode existing (report before changes)
  | some existing, .present =>
    update d mode existing (changes.applyTo before) (report before changes)

/-- A run looks first and acts then. -/
theorem reconcile_eq (d : Declaration) (mode : RunMode) :
    reconcile d mode =
      (survey d).bind fun (before, changes) => conclude d mode before changes := by
  simp only [reconcile, survey, bind_eq, bind_assoc, pure_eq_done, done_bind]
  rfl

/-! ### The first half only reads -/

/-- A call that leaves what is stored alone. -/
def Reads (call : Call) : Prop := call.isMutation = false

theorem fetchMappers_reads (realm id : String) : (Federation.fetchMappers realm id).Calls Reads :=
  Calls.bind ((calls_call _ _).mpr rfl) fun _ => trivial

theorem lookup_reads (realm : String) (id name : Option String) :
    (Federation.lookup realm id name).Calls Reads := by
  match id, name with
  | some id, _ => exact (calls_call _ _).mpr rfl
  | none, some name => exact Calls.bind ((calls_call _ _).mpr rfl) fun _ => calls_lift _ _
  | none, none => trivial

theorem resolve_reads (realm : String) (id name : Option String) :
    (Federation.resolve realm id name).Calls Reads := by
  refine Calls.bind (lookup_reads realm id name) fun found => ?_
  match found with
  | none => trivial
  | some component =>
    simp only
    split
    · trivial
    · exact Calls.bind (fetchMappers_reads _ _) fun _ => trivial

theorem survey_reads (d : Declaration) : (survey d).Calls Reads := by
  refine Calls.bind (calls_lift _ _) fun _ => ?_
  refine Calls.bind (resolve_reads _ _ _) fun found => ?_
  exact Calls.bind (calls_lift _ _) fun _ => trivial

theorem execute_calls {P : Call → Prop} {realm : String} {plan : List Mapper.Action}
    (h : ∀ a ∈ plan, P (a.call realm)) : (Mapper.execute realm plan).Calls P := by
  induction plan with
  | nil => trivial
  | cons a plan ih =>
    exact ⟨h a List.mem_cons_self, fun _ => ih fun b hb => h b (List.mem_cons_of_mem _ hb)⟩

/-! ### The second half -/

/-- What every report of a run says, whatever way it goes. -/
def Reports (before : Option Federation) (changes : Changeset) (outcome : Outcome) : Prop :=
  outcome.proposed = changes.render ∧ outcome.existing = Federation.renderOption before

theorem create_reports (d : Declaration) (mode : RunMode) (desired : Federation)
    (before : Option Federation) (changes : Changeset) :
    (create d mode desired (report before changes)).Yields (Reports before changes) := by
  rw [create]
  split
  · exact ⟨rfl, rfl⟩
  · refine Yields.bind fun created => ?_
    split
    · trivial
    · refine Yields.bind fun defaults => Yields.bind fun plan => Yields.bind fun _ => ?_
      exact Yields.bind fun mappers => ⟨rfl, rfl⟩

theorem delete_reports (d : Declaration) (mode : RunMode) (existing : Federation)
    (before : Option Federation) (changes : Changeset) :
    (delete d mode existing (report before changes)).Yields (Reports before changes) := by
  refine Yields.bind fun id => ?_
  simp only
  split
  · exact ⟨rfl, rfl⟩
  · exact Yields.bind fun _ => ⟨rfl, rfl⟩

theorem update_reports (d : Declaration) (mode : RunMode) (existing desired : Federation)
    (before : Option Federation) (changes : Changeset) :
    (update d mode existing desired (report before changes)).Yields (Reports before changes) := by
  refine Yields.bind fun id => ?_
  simp only
  split
  · exact ⟨rfl, rfl⟩
  · split
    · exact ⟨rfl, rfl⟩
    · refine Yields.bind fun _ => Yields.bind fun _ => Yields.bind fun refreshed => ?_
      split
      · trivial
      · exact Yields.bind fun mappers => ⟨rfl, rfl⟩

/-- Every way reports the same changes and the same federation that was found. -/
theorem conclude_reports (d : Declaration) (mode : RunMode) (before : Option Federation)
    (changes : Changeset) : (conclude d mode before changes).Yields (Reports before changes) := by
  unfold conclude
  split
  · exact ⟨rfl, rfl⟩
  · exact create_reports _ _ _ _ _
  · exact delete_reports _ _ _ _ _
  · exact update_reports _ _ _ _ _ _

end UserFederation.Reconcile
