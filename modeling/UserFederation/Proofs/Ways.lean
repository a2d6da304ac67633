import UserFederation.Proofs.Execution
import UserFederation.Proofs.Resolution

/-! The ways that a run goes on a server when the federation has to be present: it finds it as
declared, updates it, or creates it (`run_present`). -/

namespace UserFederation

namespace Reconcile

open Dialogue Mapper

variable {d : Declaration} {mode : RunMode} {existing desired : Federation} {outcome : Outcome}
  {f : String}

/-- What is reported when nothing has to be done. -/
def upToDate (f : String) (desired : Federation) (outcome : Outcome) : Outcome :=
  { outcome with
    endState := desired.render
    message := "No changes required to user federation " ++ f ++ "." }

/-- The end of an update: the federation is read again and reported. -/
def reread (d : Declaration) (mode : RunMode) (f : String) (outcome : Outcome) :
    Dialogue Outcome :=
  .ask (.get f d.realm) fun found =>
    match found with
    | none => .fail (.notFound .federation f)
    | some refreshed => (Federation.fetchMappers d.realm f).bind fun mappers =>
      let after := (Federation.ofParts refreshed mappers).undoEcho.render
      .done { outcome with
        changed := outcome.existing.canonical ≠ after.canonical
        diff := mode.sides (some outcome.existing) (some after)
        endState := after
        message := "User federation " ++ f ++ " has been updated" }

/-- The end of a creation: the mappers are read again and reported. -/
def present (d : Declaration) (mode : RunMode) (f : String) (created : Component)
    (outcome : Outcome) : Dialogue Outcome :=
  (Federation.fetchMappers d.realm f).bind fun mappers =>
    let after := (Federation.ofParts created mappers).undoEcho.render
    .done { outcome with
      changed := true
      diff := mode.sides none (some after)
      endState := after
      message := "User federation " ++ f ++ " has been created" }

theorem existingId_eq (hid : existing.component.id = some f) :
    existing.component.existingId = .ok f := by
  rw [Component.existingId, hid]

theorem existingId_ok {c : Component} (h : c.existingId = .ok f) : c.id = some f := by
  unfold Component.existingId at h
  split at h <;> cases h
  assumption

theorem update_idle (hid : existing.component.id = some f)
    (h : desired.needsUpdate existing d.credentialPolicy = false) :
    update d mode existing desired outcome = .done (upToDate f desired outcome) := by
  unfold update
  rw [existingId_eq hid, h]
  rfl

theorem update_busy (hid : existing.component.id = some f) (apply : mode.dryRun = false)
    (h : desired.needsUpdate existing d.credentialPolicy = true) :
    update d mode existing desired outcome = .ask (.update desired.component d.realm) fun _ =>
      (execute d.realm (planUpdate desired.mappers existing.mappers f)).bind fun _ =>
        reread d mode f outcome := by
  unfold update
  rw [existingId_eq hid, h, apply]
  rfl

/-- A dry run reports the federation that is to be. -/
theorem update_dry (hid : existing.component.id = some f) (dry : mode.dryRun = true) :
    ∃ o, update d mode existing desired outcome = .done o ∧ o.endState = desired.render := by
  unfold update
  rw [existingId_eq hid, dry]
  cases desired.needsUpdate existing d.credentialPolicy <;> exact ⟨_, rfl, rfl⟩

theorem create_apply (apply : mode.dryRun = false) :
    create d mode desired outcome = .ask (.create desired.component d.realm) fun created =>
      match created.id with
      | none => .fail (.remote .createdWithoutId)
      | some f => .ask (.children f d.realm) fun defaults =>
        (lift (planAfterCreation desired.mappers defaults f d.prune)).bind fun plan =>
          (execute d.realm plan).bind fun _ => present d mode f created outcome := by
  unfold create
  rw [apply]
  rfl

theorem reread_reads : (reread d mode f outcome).Calls Reads := by
  refine ⟨rfl, fun found => ?_⟩
  cases found with
  | none => trivial
  | some c => exact Calls.bind (fetchMappers_reads _ _) fun _ => trivial

theorem present_reads {c : Component} : (present d mode f c outcome).Calls Reads :=
  Calls.bind (fetchMappers_reads _ _) fun _ => trivial

end Reconcile

namespace Server

open Dialogue Mapper Reconcile

variable {supply : Supply} {s s₁ u : Server} {d : Declaration} {mode : RunMode} {o : Outcome}
  {f : String} {e : Stored} {changes : Changeset} {desired existing : Federation}

theorem normalized_id (keyed : s.Keyed) (he : s.components.get? f = some e)
    (realm : String) : (s.normalized realm f e).component.id = some f := keyed f e he

/-- What is reported after an update. -/
def afterUpdate (s : Server) (d : Declaration) (mode : RunMode) (f : String) (refreshed : Component)
    (outcome : Outcome) : Outcome :=
  let after := (s.shown d.realm f refreshed).undoEcho.render
  { outcome with
    changed := outcome.existing.canonical ≠ after.canonical
    diff := mode.sides (some outcome.existing) (some after)
    endState := after
    message := "User federation " ++ f ++ " has been updated" }

theorem reread_run (outcome : Outcome) :
    (reread d mode f outcome).run (answer supply) s =
      match s.get f d.realm with
      | none => (.error (.notFound .federation f), s)
      | some refreshed => (.ok (s.afterUpdate d mode f refreshed outcome), s) := by
  rw [reread, run_ask]
  simp only [answer]
  cases s.get f d.realm <;> rfl

/-- A run that updates succeeds if the update and the plan do and the federation is still there. -/
theorem update_run {outcome : Outcome} (apply : mode.dryRun = false)
    (hid : existing.component.id = some f)
    (h : desired.needsUpdate existing d.credentialPolicy = true) :
    (Reconcile.update d mode existing desired outcome).run (answer supply) s =
      match s.update supply desired.component d.realm with
      | (.error e, s₁) => (.error e, s₁)
      | (.ok _, s₁) =>
        match (execute d.realm (planUpdate desired.mappers existing.mappers f)).run
          (answer supply) s₁ with
        | (.error e, u) => (.error e, u)
        | (.ok _, u) =>
          match u.get f d.realm with
          | none => (.error (.notFound .federation f), u)
          | some refreshed => (.ok (u.afterUpdate d mode f refreshed outcome), u) := by
  rw [update_busy hid apply h, run_ask]
  simp only [answer]
  rcases s.update supply desired.component d.realm with ⟨_ | _, s₁⟩
  · rfl
  · simp only [run_bind]
    rcases (execute d.realm (planUpdate desired.mappers existing.mappers f)).run
      (answer supply) s₁ with ⟨_ | _, u⟩
    · rfl
    · exact reread_run outcome

/-- A run that finds a federation which is not as declared updates it and reports what it is then, if
the update and the plan succeed. -/
theorem Found.run_updated (found : s.Found d f e) (keyed : s.Keyed) (valid : d.validate = .ok ())
    (present : d.state = .present) (apply : mode.dryRun = false)
    (shows : s.normalized d.realm f e = existing)
    (changed : Changeset.of d (some existing) = .ok changes)
    (leads : changes.applyTo (some existing) = desired)
    (need : desired.needsUpdate existing d.credentialPolicy = true)
    (update : s.update supply desired.component d.realm = (.ok (), s₁))
    (done : (execute d.realm (planUpdate desired.mappers existing.mappers f)).run (answer supply)
      s₁ = (.ok (), u))
    {refreshed : Component} (there : u.get f d.realm = some refreshed) :
    (reconcile d mode).run (answer supply) s =
      (.ok (u.afterUpdate d mode f refreshed (report (some existing) changes)), u) := by
  subst shows
  have surveyed := found.surveyed_ok keyed valid changed
  have hid := normalized_id keyed found.1 d.realm
  simp only [reconcile_run, surveyed, conclude, present, leads, update_run apply hid need, update,
    done, there]

/-- What is reported after a creation. -/
def afterCreation (s : Server) (d : Declaration) (mode : RunMode) (f : String) (created : Component)
    (outcome : Outcome) : Outcome :=
  let after := (s.shown d.realm f created).undoEcho.render
  { outcome with
    changed := true
    diff := mode.sides none (some after)
    endState := after
    message := "User federation " ++ f ++ " has been created" }

theorem present_run (created : Component) (outcome : Outcome) :
    (Reconcile.present d mode f created outcome).run (answer supply) u =
      (.ok (u.afterCreation d mode f created outcome), u) := rfl

/-- A run that creates succeeds if the creation and the plan do. -/
theorem create_run {outcome : Outcome} (apply : mode.dryRun = false) :
    (Reconcile.create d mode desired outcome).run (answer supply) s =
      match s.create supply desired.component d.realm with
      | (.error e, s₁) => (.error e, s₁)
      | (.ok created, s₁) =>
        match created.id with
        | none => (.error (.remote .createdWithoutId), s₁)
        | some f =>
          match planAfterCreation desired.mappers (s₁.children f d.realm) f d.prune with
          | .error e => (.error e, s₁)
          | .ok plan =>
            match (execute d.realm plan).run (answer supply) s₁ with
            | (.error e, u) => (.error e, u)
            | (.ok _, u) => (.ok (u.afterCreation d mode f created outcome), u) := by
  rw [create_apply apply, run_ask]
  simp only [answer]
  rcases s.create supply desired.component d.realm with ⟨_ | created, s₁⟩
  · rfl
  · cases hid : created.id with
    | none => simp [hid]
    | some f =>
      simp only [hid, run_ask, answer, run_bind, run_lift]
      cases planAfterCreation desired.mappers (s₁.children f d.realm) f d.prune with
      | error e => rfl
      | ok plan =>
        simp only
        rcases (execute d.realm plan).run (answer supply) s₁ with ⟨_ | _, u⟩
        · rfl
        · exact present_run created outcome

/-- A run that finds nothing succeeds and reports a change, if the creation and the plan succeed. -/
theorem run_created {plan : List Action} (s₁ : Server) (c : Component) (present : d.state = .present)
    (apply : mode.dryRun = false) (surveyed : s.surveyed d = .ok (none, changes))
    (create : s.create supply (changes.applyTo none).component d.realm = (.ok c, s₁))
    (hid : c.id = some f)
    (planned : planAfterCreation (changes.applyTo none).mappers (s₁.children f d.realm) f d.prune =
      .ok plan)
    (done : (execute d.realm plan).run (answer supply) s₁ = (.ok (), u)) :
    ∃ o, (reconcile d mode).run (answer supply) s = (.ok o, u) ∧ o.changed = true := by
  simp only [reconcile_run, surveyed, conclude, present, create_run apply, create, hid, planned,
    done]
  exact ⟨_, rfl, rfl⟩

/-- The way that a run goes that succeeds. -/
inductive Went (supply : Supply) (s : Server) (d : Declaration) : Server → Prop
  | idle {f : String} {e : Stored} {changes : Changeset} (found : s.Found d f e)
    (changed : Changeset.of d (some (s.normalized d.realm f e)) = .ok changes)
    (same : (changes.applyTo (some (s.normalized d.realm f e))).needsUpdate
      (s.normalized d.realm f e) d.credentialPolicy = false) : Went supply s d s
  | updated {f : String} {e : Stored} {changes : Changeset} {s₁ u : Server} (found : s.Found d f e)
    (changed : Changeset.of d (some (s.normalized d.realm f e)) = .ok changes)
    (update : s.update supply (changes.applyTo (some (s.normalized d.realm f e))).component
      d.realm = (.ok (), s₁))
    (plan : (execute d.realm (planUpdate
      (changes.applyTo (some (s.normalized d.realm f e))).mappers
      (s.normalized d.realm f e).mappers f)).run (answer supply) s₁ = (.ok (), u))
    (there : (u.get f d.realm).isSome) : Went supply s d u
  | created {f : String} {changes : Changeset} {c : Component} {plan : List Action}
    {s₁ u : Server} (unfound : s.Unfound d) (changed : Changeset.of d none = .ok changes)
    (create : s.create supply (changes.applyTo none).component d.realm = (.ok c, s₁))
    (hid : c.id = some f)
    (planned : planAfterCreation (changes.applyTo none).mappers (s₁.children f d.realm) f d.prune =
      .ok plan)
    (plan : (execute d.realm plan).run (answer supply) s₁ = (.ok (), u)) : Went supply s d u

/-- A run that makes the changes and succeeds goes one of the ways. -/
theorem run_present (keyed : s.Keyed) (present : d.state = .present) (apply : mode.dryRun = false)
    (run : (reconcile d mode).run (answer supply) s = (.ok o, u)) : Went supply s d u := by
  rw [reconcile_run] at run
  cases hs : s.surveyed d with
  | error e => simp [hs] at run
  | ok result =>
    obtain ⟨before, changes⟩ := result
    simp only [hs] at run
    obtain ⟨-, changed, ⟨rfl, unfound⟩ | ⟨f, e, found, rfl⟩⟩ := keyed.surveyed_eq_ok hs
    · simp only [conclude, present, create_run apply] at run
      rcases hc : s.create supply (changes.applyTo none).component d.realm with ⟨_ | c, s₁⟩ <;>
        simp only [hc] at run
      · cases run
      · cases hid : c.id with
        | none => simp [hid] at run
        | some f =>
          simp only [hid] at run
          cases hp : planAfterCreation (changes.applyTo none).mappers (s₁.children f d.realm) f
            d.prune with
          | error e => simp [hp] at run
          | ok plan =>
            simp only [hp] at run
            rcases hx : (execute d.realm plan).run (answer supply) s₁ with ⟨_ | _, u'⟩ <;>
              simp only [hx] at run
            · cases run
            · cases run
              exact .created unfound changed hc hid hp hx
    · have hid := normalized_id keyed found.1 d.realm
      simp only [conclude, present] at run
      cases same : (changes.applyTo (some (s.normalized d.realm f e))).needsUpdate
        (s.normalized d.realm f e) d.credentialPolicy with
      | false =>
        rw [update_idle hid same, run_done] at run
        cases run
        exact .idle found changed same
      | true =>
        rw [update_run apply hid same] at run
        rcases hu : s.update supply (changes.applyTo (some (s.normalized d.realm f e))).component
          d.realm with ⟨_ | _, s₁⟩ <;> simp only [hu] at run
        · cases run
        · rcases hx : (execute d.realm (planUpdate
            (changes.applyTo (some (s.normalized d.realm f e))).mappers
            (s.normalized d.realm f e).mappers f)).run (answer supply) s₁ with ⟨_ | _, u'⟩ <;>
            simp only [hx] at run
          · cases run
          · cases hg : u'.get f d.realm with
            | none => simp [hg] at run
            | some refreshed =>
              simp only [hg] at run
              obtain ⟨-, rfl⟩ := Prod.mk.inj run
              exact .updated found changed hu hx (by simp [hg])

end Server

end UserFederation
