import UserFederation.Proofs.Fulfilment
import UserFederation.Proofs.Opening

/-! A run that finds the federation as declared. Laying the declaration over what is found leads to
the same component and the same mappers, so there is nothing to do (`Converged.run_idle`), except
that mappers which share a name may come in another order. Then the federation is updated with what
it is already (`Converged.run_again`). -/

namespace UserFederation.Server

open Dialogue Mapper Reconcile

variable {supply : Supply} {s u : Server} {d : Declaration} {f : String} {e : Stored}
  {mode : RunMode}

/-- A server on which the federation of a declaration is as declared. -/
structure Converged (supply : Supply) (s : Server) (d : Declaration) (f : String) (e : Stored) :
    Prop where
  orderly : Orderly supply s
  valid : d.validate = .ok ()
  found : s.Found d f e
  formed : Formed d.component f e.component
  rootless : e.component.parentId ≠ some f
  supported : ∀ ds, d.mapperComponents = some ds →
    checkMappersSupported (d.providerId.or e.component.providerId) ds.length = .ok ()
  nodup : ∀ ds, d.mapperComponents = some ds → ds.Nodup
  fulfilled : ∀ ds, d.mapperComponents = some ds → Fulfilled s f d.realm d.prune ds

/-- What a run works out when the federation is as declared: the same component, and the same mappers
in some order. -/
theorem Converged.changes (h : Converged supply s d f e) :
    ∃ changes mappers, Changeset.of d (some (s.normalized d.realm f e)) = .ok changes ∧
      changes.applyTo (some (s.normalized d.realm f e)) =
        ⟨(redact e.component).undoEcho.mergedWith d.component, mappers⟩ ∧
      mappers.Perm (s.normalized d.realm f e).mappers ∧
      ((d.mapperComponents.isSome →
          (s.children f d.realm).Pairwise fun a b => a.nameOrEmpty ≠ b.nameOrEmpty) →
        mappers = (s.normalized d.realm f e).mappers) := by
  have listing := normalized_listing s d.realm f e
  rw [of_eq]
  cases hm : d.mapperComponents with
  | none => exact ⟨_, _, rfl, applyTo_changesWith none, .refl _, fun _ => rfl⟩
  | some ds =>
    have keyed := h.orderly.keyed
    have fulfilled := h.fulfilled ds hm
    have supported : checkMappersSupported (d.providerId.or
        (foundComponent (some (s.normalized d.realm f e))).providerId) ds.length = .ok () :=
      h.supported ds hm
    have found : foundMappers (some (s.normalized d.realm f e)) =
        (s.normalized d.realm f e).mappers := rfl
    obtain ⟨target, ok, perm, -⟩ := fulfilled.target_perm keyed (h.nodup ds hm) listing
    simp only [supported, found, ok]
    refine ⟨_, target, rfl, applyTo_changesWith (some target), perm, fun names => ?_⟩
    have sorted : (s.normalized d.realm f e).mappers.Pairwise
        fun a b => a.nameOrEmpty ≤ b.nameOrEmpty := by
      rw [normalized_mappers]
      exact Component.sortByName_sorted _
    have distinct := (listing.pairwise_iff
      (R := fun a b => a.nameOrEmpty ≠ b.nameOrEmpty) fun h => h.symm).mpr (names rfl)
    have same := fulfilled.target_eq keyed (h.nodup ds hm) listing sorted distinct
    exact Except.ok.inj (ok.symm.trans same)

/-- A run reports what it finds as declared, and makes no call that changes anything. -/
theorem run_up_to_date (keyed : s.Keyed) (valid : d.validate = .ok ()) (present : d.state = .present)
    (found : s.Found d f e) {changes : Changeset}
    (changed : Changeset.of d (some (s.normalized d.realm f e)) = .ok changes)
    (same : (changes.applyTo (some (s.normalized d.realm f e))).needsUpdate
      (s.normalized d.realm f e) d.credentialPolicy = false) :
    (reconcile d mode).run (answer supply) s = (.ok (upToDate f
      (changes.applyTo (some (s.normalized d.realm f e)))
      (report (some (s.normalized d.realm f e)) changes)), s) ∧
      ∀ x ∈ (reconcile d mode).exchanges (answer supply) s, x.call.isMutation = false := by
  have surveyed := found.surveyed_ok keyed valid changed
  have idle : conclude d mode (some (s.normalized d.realm f e)) changes = .done (upToDate f
      (changes.applyTo (some (s.normalized d.realm f e)))
      (report (some (s.normalized d.realm f e)) changes)) := by
    simp only [conclude, present]
    exact update_idle (normalized_id keyed found.1 d.realm) same
  constructor
  · simp only [reconcile_run, surveyed, idle, run_done]
  · rw [reconcile_eq, exchanges_bind, survey_run, surveyed]
    simp only [idle, exchanges_done, List.append_nil]
    exact (survey_reads d).exchanges s

/-- A run does nothing when the federation is as declared and its mappers have an order. -/
theorem Converged.run_idle (h : Converged supply s d f e) (present : d.state = .present)
    (unsynced : d.component.configList? lastSyncKey = none)
    (credential : d.component.configList? bindCredentialKey = none ∨
      d.credentialPolicy = .onlyIndirect)
    (names : d.mapperComponents.isSome →
      (s.children f d.realm).Pairwise fun a b => a.nameOrEmpty ≠ b.nameOrEmpty) (mode : RunMode) :
    ∃ o, (reconcile d mode).run (answer supply) s = (.ok o, s) ∧ o.changed = false ∧
      o.message = "No changes required to user federation " ++ f ++ "." ∧
        ∀ x ∈ (reconcile d mode).exchanges (answer supply) s, x.call.isMutation = false := by
  obtain ⟨changes, mappers, changed, desired, -, ordered⟩ := h.changes
  have same : (changes.applyTo (some (s.normalized d.realm f e))).needsUpdate
      (s.normalized d.realm f e) d.credentialPolicy = false := by
    rw [desired, ordered names]
    exact h.formed.needsUpdate unsynced credential _
  obtain ⟨run, reads⟩ := run_up_to_date h.orderly.keyed h.valid
    present h.found changed same
  exact ⟨_, run, rfl, rfl, reads⟩

/-- An update of a federation that is as declared leaves it as it was found. -/
theorem Converged.update (h : Converged supply s d f e)
    (unsynced : d.component.configList? lastSyncKey = none) :
    ∃ x s₁, s.update supply ((redact e.component).undoEcho.mergedWith d.component) d.realm =
        (.ok (), s₁) ∧ s₁.get f d.realm = some (redact x) ∧
      (s₁.shown d.realm f (redact x)).undoEcho = s.normalized d.realm f e := by
  have parent := fun p => h.formed.parent h.orderly h.found.1 h.rootless (p := p)
  obtain ⟨x, s₁, hs₁, updated, begun⟩ := h.found.update h.orderly parent h.rootless
  obtain ⟨y, stamped, form⟩ := updated.form
  have component : (redact x).undoEcho = (redact e.component).undoEcho :=
    h.formed.again unsynced (fun _ hv => declared_single hv) stamped form
  have mappers := updated.children h.orderly.keyed h.found.1 h.rootless begun.rootless d.realm
  refine ⟨x, s₁, hs₁, ?_, ?_⟩
  · rw [get, stored?_eq_some_iff.mpr ⟨begun.stored, begun.realm⟩]
    rfl
  · change (⟨(redact x).undoEcho, _⟩ : Federation) = ⟨(redact e.component).undoEcho, _⟩
    rw [component]
    simp only [shown, Federation.ofParts, mappers]

/-- A run that makes the changes changes nothing in a federation that is as declared. -/
theorem Converged.run_again (h : Converged supply s d f e) (present : d.state = .present)
    (unsynced : d.component.configList? lastSyncKey = none) (apply : mode.dryRun = false) :
    ∃ o s', (reconcile d mode).run (answer supply) s = (.ok o, s') ∧ o.changed = false := by
  have keyed := h.orderly.keyed
  obtain ⟨changes, mappers, changed, desired, perm, -⟩ := h.changes
  have idle : planUpdate mappers (s.normalized d.realm f e).mappers f = [] := planUpdate_eq_nil perm
  cases busy : (changes.applyTo (some (s.normalized d.realm f e))).needsUpdate
    (s.normalized d.realm f e) d.credentialPolicy with
  | false => exact ⟨_, _, (run_up_to_date keyed h.valid present h.found changed busy).1, rfl⟩
  | true =>
    obtain ⟨x, s₁, hs₁, shown, same⟩ := h.update unsynced
    rw [desired] at busy
    have done : (execute d.realm (planUpdate mappers (s.normalized d.realm f e).mappers f)).run
        (answer supply) s₁ = (.ok (), s₁) := by
      rw [idle]
      rfl
    refine ⟨_, s₁, h.found.run_updated keyed h.valid present apply rfl changed desired busy hs₁
      done shown, ?_⟩
    simp only [afterUpdate, same]
    exact decide_eq_false fun different => different rfl

end UserFederation.Server
