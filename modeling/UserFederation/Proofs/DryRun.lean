import Mathlib.Data.List.TakeWhile
import UserFederation.Proofs.Survey

/-! A dry run reads exactly what the run for real reads before it changes anything. Both begin with
the same survey; what follows is silent in the dry run, and silent too or opening with a change in
the other one (`apply_silent_or_mutates`). -/

namespace UserFederation.Reconcile

open Dialogue

/-- The mode of a run that only says what it would do. -/
def showing (diff : Bool) : RunMode := ⟨true, diff⟩

/-- The mode of a run that makes the changes. -/
def applying (diff : Bool) : RunMode := ⟨false, diff⟩

/-- How the second half of a run relates to that of its dry run, `shown`: it does the same, without
a call, or it makes a change first where the dry run succeeds. -/
def SilentOrMutates (shown applied : Dialogue Outcome) : Prop :=
  (∃ result, shown = lift result ∧ applied = lift result) ∨
    ∃ outcome call next, shown = .done outcome ∧ applied = .ask call next ∧ call.isMutation = true

theorem create_silent_or_mutates (d : Declaration) (diff : Bool) (desired : Federation)
    (outcome : Outcome) :
    SilentOrMutates (create d (showing diff) desired outcome)
      (create d (applying diff) desired outcome) :=
  .inr ⟨_, _, _, rfl, rfl, rfl⟩

theorem delete_silent_or_mutates (d : Declaration) (diff : Bool) (existing : Federation)
    (outcome : Outcome) :
    SilentOrMutates (delete d (showing diff) existing outcome)
      (delete d (applying diff) existing outcome) := by
  unfold delete
  cases existing.component.existingId with
  | error e => exact .inl ⟨.error e, rfl, rfl⟩
  | ok id => exact .inr ⟨_, _, _, rfl, rfl, rfl⟩

theorem update_silent_or_mutates (d : Declaration) (diff : Bool) (existing desired : Federation)
    (outcome : Outcome) :
    SilentOrMutates (update d (showing diff) existing desired outcome)
      (update d (applying diff) existing desired outcome) := by
  unfold update
  cases existing.component.existingId with
  | error e => exact .inl ⟨.error e, rfl, rfl⟩
  | ok id =>
    by_cases needed : desired.needsUpdate existing d.credentialPolicy = true
    · simp only [needed]
      exact .inr ⟨_, _, _, rfl, rfl, rfl⟩
    · simp only [needed]
      exact .inl ⟨.ok _, rfl, rfl⟩

/-- On every way, the dry run is silent, and the run is silent too or opens with a change. -/
theorem apply_silent_or_mutates (d : Declaration) (diff : Bool) (before : Option Federation)
    (changes : Changeset) :
    SilentOrMutates (conclude d (showing diff) before changes)
      (conclude d (applying diff) before changes) := by
  unfold conclude
  split
  · exact .inl ⟨.ok _, rfl, rfl⟩
  · exact create_silent_or_mutates _ _ _ _
  · exact delete_silent_or_mutates _ _ _ _
  · exact update_silent_or_mutates _ _ _ _ _

variable {σ : Type} {service : Service σ}

theorem SilentOrMutates.shown_exchanges {shown applied : Dialogue Outcome}
    (h : SilentOrMutates shown applied) (s : σ) : shown.exchanges service s = [] := by
  rcases h with ⟨result, rfl, -⟩ | ⟨outcome, call, next, rfl, -⟩
  · exact exchanges_lift result s
  · rfl

theorem SilentOrMutates.takeWhile_exchanges {shown applied : Dialogue Outcome}
    (h : SilentOrMutates shown applied) (s : σ) :
    ((applied.exchanges service s).map (·.call)).takeWhile (!·.isMutation) = [] := by
  rcases h with ⟨result, -, rfl⟩ | ⟨outcome, call, next, -, rfl, mutates⟩
  · simp
  · simp [exchanges_ask, mutates]

theorem SilentOrMutates.error {shown applied : Dialogue Outcome}
    (h : SilentOrMutates shown applied) {s : σ} {e : Failure}
    (failed : (shown.run service s).1 = .error e) : (applied.run service s).1 = .error e := by
  rcases h with ⟨result, rfl, rfl⟩ | ⟨outcome, call, next, rfl, -⟩
  · exact failed
  · cases failed

/-- A dry run makes no change; its calls are those that the run makes before its first change; where
it fails the run fails alike; and where both succeed they report the same changes to the same
federation. -/
theorem dry_run_reads_as_apply (service : Service σ) (s : σ) (d : Declaration) (diff : Bool) :
    let dry := (reconcile d { dryRun := true, diff }).runLogged service s
    let real := (reconcile d { dryRun := false, diff }).runLogged service s
    (∀ call ∈ dry.2.2, call.isMutation = false) ∧
      dry.2.2 <+: real.2.2 ∧
      dry.2.2 = real.2.2.takeWhile (!·.isMutation) ∧
      (∀ e, dry.1 = .error e → real.1 = .error e) ∧
      ∀ shown applied, dry.1 = .ok shown → real.1 = .ok applied →
        shown.proposed = applied.proposed ∧ shown.existing = applied.existing := by
  have reads : ∀ call ∈ ((survey d).exchanges service s).map (·.call), call.isMutation = false := by
    intro call member
    obtain ⟨x, hx, rfl⟩ := List.mem_map.mp member
    exact (survey_reads d).exchanges s x hx
  simp only [runLogged_eq, reconcile_eq, exchanges_bind, run_bind]
  rcases hs : (survey d).run service s with ⟨e | ⟨before, changes⟩, s'⟩
  · -- The survey fails, and both runs with it.
    have whole : (((survey d).exchanges service s).map (·.call)).takeWhile (!·.isMutation) =
        ((survey d).exchanges service s).map (·.call) :=
      List.takeWhile_eq_self_iff.mpr fun call member => by simp [reads call member]
    simp only [List.append_nil]
    exact ⟨reads, List.prefix_rfl, whole.symm, fun _ h => h, fun _ _ h => nomatch h⟩
  · have ways := apply_silent_or_mutates d diff before changes
    have shownReport := conclude_reports d (showing diff) before changes
    have appliedReport := conclude_reports d (applying diff) before changes
    simp only [showing, applying] at ways shownReport appliedReport ⊢
    generalize conclude d ⟨true, diff⟩ before changes = shown at ways shownReport ⊢
    generalize conclude d ⟨false, diff⟩ before changes = applied at ways appliedReport ⊢
    simp only [ways.shown_exchanges s', List.append_nil, List.map_append]
    refine ⟨reads, List.prefix_append _ _, ?_, fun e => ways.error, fun o o' ho ho' => ?_⟩
    · rw [List.takeWhile_append_of_pos fun call member => by simp [reads call member],
        ways.takeWhile_exchanges, List.append_nil]
    · have shownSays := shownReport.run (Prod.ext ho rfl)
      have appliedSays := appliedReport.run (Prod.ext ho' rfl)
      exact ⟨shownSays.1.trans appliedSays.1.symm, shownSays.2.trans appliedSays.2.symm⟩

end UserFederation.Reconcile
