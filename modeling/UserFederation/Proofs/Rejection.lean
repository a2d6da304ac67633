import UserFederation.Proofs.Convergence
import UserFederation.Run.Script

/-! Runs that are rejected: the declaration is invalid, or a name that it gives is not unique. All
this is found out before anything is changed (`rejected_before_changes`), except that the mappers
that come with a new federation can only be looked at once it was created. -/

namespace UserFederation

open Dialogue

/-! ### Names that are not unique -/

namespace Mapper

variable {declared defaults : List Component} {f n : String} {m : Component} {e : Failure}

theorem withName?_eq_error_iff : withName? n defaults = .error e ↔
    2 ≤ defaults.countP (·.name = some n) ∧ .ambiguous .mapper n = e := by
  rw [List.countP_eq_length_filter, withName?]
  generalize defaults.filter (·.name = some n) = named
  rcases named with _ | ⟨c, _ | ⟨c', named⟩⟩ <;> simp [Component.unique]

theorem exists_withName?_iff : (∃ found, withName? n defaults = .ok found) ↔
    defaults.countP (·.name = some n) ≤ 1 := by
  cases found : withName? n defaults with
  | ok c =>
    refine iff_of_true ⟨c, rfl⟩ (Nat.not_lt.mp fun twice => ?_)
    cases found.symm.trans (withName?_eq_error_iff.mpr ⟨twice, rfl⟩)
  | error e => exact iff_of_false nofun (Nat.not_le.mpr (withName?_eq_error_iff.mp found).1)

theorem actionsAfterCreation_error_iff : actionsAfterCreation defaults f m = .error e ↔
    ∃ n, m.name = some n ∧ withName? n defaults = .error e := by
  unfold actionsAfterCreation
  cases hn : m.name with
  | none => simp [Bind.bind, Except.bind, pure, Except.pure]
  | some n =>
    cases hf : withName? n defaults with
    | error e' => simp [hf, Bind.bind, Except.bind]
    | ok found =>
      simp only [Option.elim_some, hf, Bind.bind, Except.bind, pure, Except.pure, Option.some.injEq,
        exists_eq_left', reduceCtorEq, iff_false]
      split
      · nofun
      · split
        · nofun
        · split <;> nofun

theorem actionsAfterCreation_error (h : actionsAfterCreation defaults f m = .error e) :
    ∃ name, e = .ambiguous .mapper name ∧ 2 ≤ defaults.countP (·.name = some name) := by
  obtain ⟨name, -, failed⟩ := actionsAfterCreation_error_iff.mp h
  obtain ⟨twice, rfl⟩ := withName?_eq_error_iff.mp failed
  exact ⟨name, rfl, twice⟩

theorem exists_actionsAfterCreation_iff : (∃ stage, actionsAfterCreation defaults f m = .ok stage) ↔
    ∀ n, m.name = some n → defaults.countP (·.name = some n) ≤ 1 := by
  simp only [← exists_withName?_iff]
  cases h : actionsAfterCreation defaults f m with
  | ok stage =>
    refine iff_of_true ⟨stage, rfl⟩ fun n hn => ?_
    cases hf : withName? n defaults with
    | ok found => exact ⟨found, rfl⟩
    | error e => cases h.symm.trans (actionsAfterCreation_error_iff.mpr ⟨n, hn, hf⟩)
  | error e =>
    obtain ⟨n, hn, failed⟩ := actionsAfterCreation_error_iff.mp h
    refine iff_of_false nofun fun each => ?_
    obtain ⟨found, hf⟩ := each n hn
    cases failed.symm.trans hf

/-- The plan for a new federation cannot be made only if two of the mappers that came with it have
the same name. -/
theorem planAfterCreation_error {prune : Bool}
    (h : planAfterCreation declared defaults f prune = .error e) :
    ∃ name, e = .ambiguous .mapper name ∧ 2 ≤ defaults.countP (·.name = some name) := by
  unfold planAfterCreation at h
  cases steps : declared.mapM (actionsAfterCreation defaults f) with
  | ok _ =>
    rw [steps] at h
    cases h
  | error e' =>
    rw [steps] at h
    cases h
    obtain ⟨m, -, failed⟩ := exists_of_mapM_error steps
    exact actionsAfterCreation_error failed

end Mapper

/-! ### What a run fails with -/

/-- A failure that rejects what is declared: it is invalid, or a name that it gives is not unique. -/
def Failure.Rejects (e : Failure) : Prop := e.isAmbiguity = true ∨ e.isValidation = true

/-- A failure of the service. -/
def Failure.Remote (e : Failure) : Prop := e.isRemote = true

theorem Failure.Remote.not_rejects {e : Failure} (h : e.Remote) : ¬e.Rejects := by
  cases e <;> simp [Rejects, Remote, isAmbiguity, isValidation, isRemote] at h ⊢

namespace Reconcile

open Failure

variable {σ : Type} {service : Service σ} {d : Declaration} {mode : RunMode} {outcome : Outcome}
  {existing desired : Federation}

theorem existingId_raises (c : Component) : (lift c.existingId).Raises Remote := by
  refine raises_lift fun e he => ?_
  unfold Component.existingId at he
  cases hid : c.id with
  | none =>
    rw [hid] at he
    cases he
    rfl
  | some id =>
    rw [hid] at he
    cases he

theorem execute_raises (realm : String) (plan : List Mapper.Action) :
    (Mapper.execute realm plan).Raises Remote := by
  induction plan with
  | nil => trivial
  | cons a plan ih => exact fun _ => ih

theorem fetchMappers_raises (realm id : String) :
    (Federation.fetchMappers realm id).Raises Remote := fun _ => trivial

theorem delete_raises : (delete d mode existing outcome).Raises Remote := by
  refine Raises.bind (existingId_raises _) fun id => ?_
  simp only
  split
  · trivial
  · exact fun _ => trivial

theorem update_raises : (update d mode existing desired outcome).Raises Remote := by
  refine Raises.bind (existingId_raises _) fun id => ?_
  simp only
  split
  · trivial
  · split
    · trivial
    · refine Raises.bind (fun _ => trivial) fun _ => Raises.bind (execute_raises _ _) fun _ => ?_
      refine Raises.bind (fun _ => trivial) fun refreshed => ?_
      cases refreshed with
      | none => exact rfl
      | some c => exact Raises.bind (fetchMappers_raises _ _) fun _ => trivial

theorem present_raises (d : Declaration) (mode : RunMode) (f : String) (created : Component)
    (outcome : Outcome) : (present d mode f created outcome).Raises Remote :=
  Raises.bind (fetchMappers_raises _ _) fun _ => trivial

/-! ### Whole runs -/

variable {before : Option Federation} {changes : Changeset} {s : σ} {e : Failure}

/-- Where the calls only fail as services do, a program that does so too is not rejected. -/
theorem not_rejected {α : Type} {p : Dialogue α} (hp : p.Raises Remote)
    (honest : ∀ call e, ⟨call, .error e⟩ ∈ p.exchanges service s → e.Remote) (rejects : e.Rejects)
    {t : σ} : p.run service s ≠ (.error e, t) := by
  intro failed
  rcases hp.run failed with remote | ⟨call, member⟩
  · exact remote.not_rejects rejects
  · exact (honest call e member).not_rejects rejects

/-- `xs` creates a federation, whose mappers are listed, and two of these have the same name. -/
def CreatedAmbiguous (d : Declaration) (c : Component) (e : Failure) (xs : List Exchange) : Prop :=
  ∃ created f listed name,
    xs = [⟨.create c d.realm, .ok created⟩, ⟨.children f d.realm, .ok listed⟩] ∧
      created.id = some f ∧ e = .ambiguous .mapper name ∧
        2 ≤ listed.countP (·.name = some name)

theorem create_rejected
    (honest : ∀ call e, ⟨call, .error e⟩ ∈
      (create d mode desired outcome).exchanges service s → e.Remote)
    (rejects : e.Rejects) (apply : mode.dryRun = false) {t : σ}
    (failed : (create d mode desired outcome).run service s = (.error e, t)) :
    CreatedAmbiguous d desired.component e ((create d mode desired outcome).exchanges service s) := by
  rw [create_apply apply] at failed honest ⊢
  rw [run_ask] at failed
  rw [exchanges_ask] at honest ⊢
  rcases hc : service (.create desired.component d.realm) s with ⟨e' | created, s₁⟩ <;>
    simp only [hc] at failed honest ⊢
  · cases failed
    exact absurd rejects (honest _ _ List.mem_cons_self).not_rejects
  · cases hid : created.id with
    | none =>
      simp only [hid] at failed
      cases failed
      exact absurd rejects (Remote.not_rejects rfl)
    | some f =>
      simp only [hid, run_ask, exchanges_ask] at failed honest ⊢
      rcases hl : service (.children f d.realm) s₁ with ⟨e' | listed, s₂⟩ <;>
        simp only [hl] at failed honest ⊢
      · cases failed
        exact absurd rejects (honest _ _ (List.mem_cons_of_mem _ List.mem_cons_self)).not_rejects
      · simp only [run_bind, run_lift, exchanges_bind, exchanges_lift] at failed honest ⊢
        cases hp : Mapper.planAfterCreation desired.mappers listed f d.prune with
        | error e' =>
          simp only [hp] at failed ⊢
          cases failed
          obtain ⟨name, rfl, twice⟩ := Mapper.planAfterCreation_error hp
          exact ⟨created, f, listed, name, rfl, hid, rfl, twice⟩
        | ok plan =>
          -- Once there is a plan only calls can fail, and no call rejects.
          simp only [hp, ← run_bind, ← exchanges_bind] at failed honest
          have raises := Raises.bind (execute_raises d.realm plan) fun _ =>
            present_raises d mode f created outcome
          refine absurd failed (not_rejected raises (fun call e member => honest call e ?_) rejects)
          exact List.mem_cons_of_mem _ (List.mem_cons_of_mem _ member)

/-- Once a run knows what to change, it is rejected only after it created a federation. -/
theorem conclude_rejected
    (honest : ∀ call e, ⟨call, .error e⟩ ∈
      (conclude d mode before changes).exchanges service s → e.Remote)
    (rejects : e.Rejects) (changed : Changeset.of d before = .ok changes)
    (failed : ((conclude d mode before changes).run service s).1 = .error e) :
    CreatedAmbiguous d d.component e ((conclude d mode before changes).exchanges service s) := by
  have whole : (conclude d mode before changes).run service s =
    (.error e, ((conclude d mode before changes).run service s).2) := Prod.ext failed rfl
  unfold conclude at whole honest ⊢
  cases before with
  | some existing =>
    cases hs : d.state with
    | absent =>
      simp only [hs] at whole honest
      exact absurd whole (not_rejected delete_raises honest rejects)
    | present =>
      simp only [hs] at whole honest
      exact absurd whole (not_rejected update_raises honest rejects)
  | none =>
    cases hs : d.state with
    | absent =>
      simp only [hs] at whole
      cases whole
    | present =>
      simp only [hs] at whole honest ⊢
      cases apply : mode.dryRun with
      | true =>
        unfold create at whole
        rw [apply] at whole
        cases whole
      | false =>
        have component : (changes.applyTo none).component = d.component :=
          (applyTo_component changed).trans (Component.empty_mergedWith rfl)
        exact component ▸ create_rejected honest rejects apply whole

theorem survey_yields (d : Declaration) :
    (survey d).Yields fun found => Changeset.of d found.1 = .ok found.2 := by
  refine Yields.bind fun _ => Yields.bind fun found => ?_
  cases changed : Changeset.of d (found.map Federation.undoEcho) with
  | error e => trivial
  | ok changes => exact changed

/-- A run that is rejected, and not by a call of it, has changed nothing, or has just created the
federation: two of the mappers that came with it then have the same name. -/
theorem rejected_before_changes (service : Service σ) (s : σ) (d : Declaration) (mode : RunMode)
    (honest : ∀ call e, ⟨call, .error e⟩ ∈ (reconcile d mode).exchanges service s → e.Remote)
    (failed : ((reconcile d mode).runLogged service s).1 = .error e) (rejects : e.Rejects) :
    let xs := (reconcile d mode).exchanges service s
    ((reconcile d mode).runLogged service s).2.2 = xs.map (·.call) ∧
      ((∀ x ∈ xs, x.call.isMutation = false) ∨
        ∃ reads created f listed name,
          xs = reads ++ [⟨.create d.component d.realm, .ok created⟩,
            ⟨.children f d.realm, .ok listed⟩] ∧
          (∀ x ∈ reads, x.call.isMutation = false) ∧ created.id = some f ∧
          e = .ambiguous .mapper name ∧ 2 ≤ listed.countP (·.name = some name)) := by
  have reads : ∀ x ∈ (survey d).exchanges service s, x.call.isMutation = false :=
    (survey_reads d).exchanges s
  rw [runLogged_eq] at failed ⊢
  refine ⟨rfl, ?_⟩
  rw [reconcile_eq, run_bind] at failed
  rw [reconcile_eq, exchanges_bind] at honest ⊢
  rcases hs : (survey d).run service s with ⟨e' | ⟨before, changes⟩, s'⟩ <;>
    simp only [hs] at failed honest ⊢
  · rw [List.append_nil]
    exact .inl reads
  · obtain ⟨created, f, listed, name, exchanged, ambiguous⟩ :=
      conclude_rejected (fun call e member => honest call e (List.mem_append_right _ member))
        rejects ((survey_yields d).run hs) failed
    exact .inr ⟨_, created, f, listed, name, by rw [exchanged], reads, ambiguous⟩

end Reconcile

/-- Scripted failures are failures of the service. -/
theorem Script.answer_remote (call : Call) (script : Script) (e : Failure)
    (h : (Script.answer call script).1 = .error e) : e.Remote := by
  unfold Script.answer at h
  cases script with
  | nil =>
    cases h
    rfl
  | cons reply rest => cases reply <;> cases call <;> cases h <;> rfl

namespace Server.Sample

/-- A new federation comes with two mappers of one name. -/
def duplicates : Script :=
  [.nothing, .component { id := some "people" }, .components [mail, mail]]

end Server.Sample

open Server.Sample in
theorem Reconcile.rejected_duplicates_before_changes :
    ((reconcile withMail {}).runLogged Script.answer duplicates).1 =
      .error (.ambiguous .mapper "mail") ∧
    let xs := (reconcile withMail {}).exchanges Script.answer duplicates
    ((reconcile withMail {}).runLogged Script.answer duplicates).2.2 = xs.map (·.call) ∧
      ((∀ x ∈ xs, x.call.isMutation = false) ∨
        ∃ reads created f listed name,
          xs = reads ++ [⟨.create withMail.component withMail.realm, .ok created⟩,
            ⟨.children f withMail.realm, .ok listed⟩] ∧
          (∀ x ∈ reads, x.call.isMutation = false) ∧ created.id = some f ∧
          .ambiguous .mapper "mail" = Failure.ambiguous .mapper name ∧
          2 ≤ listed.countP (·.name = some name)) := by
  have failed : ((reconcile withMail {}).runLogged Script.answer duplicates).1 =
      .error (.ambiguous .mapper "mail") := by
    have surveyed : (survey withMail).run Script.answer duplicates =
        (.ok (none, changesWith withMail none (some [mail])), duplicates.drop 1) := by
      have resolved : (Federation.resolve withMail.realm withMail.id withMail.name).run
          Script.answer duplicates = (.ok none, duplicates.drop 1) := rfl
      have valid : withMail.validate = .ok () := rfl
      simp only [survey, run_bind, run_lift, valid, resolved, Option.map_none, withMail_changed,
        run_done]
    rw [runLogged_eq, reconcile_eq, run_bind, surveyed]
    rfl
  refine ⟨failed, rejected_before_changes _ _ _ _ (fun call e member => ?_) failed (.inl rfl)⟩
  obtain ⟨script, answered⟩ := exists_answer member
  exact Script.answer_remote call script e answered

end UserFederation
