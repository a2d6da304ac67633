import Mathlib.Data.List.DropRight
import UserFederation.Proofs.Legible
import UserFederation.Proofs.Scope

/-! What a run says about change. A look-up and a listing show the federation (`sighting`), and every
run that succeeds ends in one of four ways, told by what it saw and changed (`Verdict`). A run that
reports no change shows the state that it found, apart from a bind credential that is not to count
(`unchanged_endState_iff`). A run that has updated the federation reports a change just if the
federation is not as it was before (`updated_changed_iff`). -/

namespace UserFederation

open Component Server

namespace Dialogue

variable {σ α β : Type} {service : Service σ} {past : List Exchange}

/-- Whatever the replies, a program that comes after the exchanges `past` ends with a transcript and
a result that satisfy `Q`. -/
def Ends (Q : List Exchange → α → Prop) (p : Dialogue α) (past : List Exchange) : Prop :=
  p.Keeps (fun _ _ => True) (fun _ _ => True) Q past

theorem Ends.run {Q : List Exchange → α → Prop} {p : Dialogue α} (hp : p.Ends Q []) {s t : σ} {a : α}
    (h : p.run service s = (.ok a, t)) : Q (p.exchanges service s) a :=
  Keeps.run hp (fun _ _ _ => trivial) h

theorem ends_ask {Q : List Exchange → α → Prop} {call : Call} {next : call.Reply → Dialogue α}
    (h : ∀ reply, (next reply).Ends Q (past ++ [⟨call, .ok reply⟩])) :
    (ask call next).Ends Q past := ⟨trivial, fun reply _ => h reply⟩

end Dialogue

namespace Reconcile

open Dialogue

/-! ### What a run sees and changes -/

/-- The federation that a look-up and a listing of its mappers show, normalized. -/
def sighting : List Exchange → Option Federation
  | [looked, listed] => do
    let found ← ← looked.found?
    return (Federation.ofParts found (sortByName (← listed.listed?))).undoEcho
  | _ => none

/-- The first change that a run makes. When a run updates or creates a federation, it is this
change. -/
def firstChange (xs : List Exchange) : Option Call :=
  (xs.map (·.call)).find? Call.isMutation

/-- What a run knows once it has looked. -/
inductive Sighted : List Exchange → Option Federation → Prop
  | missing {x : Exchange} (h : x.found? = some none) : Sighted [x] none
  /-- A federation without an id is not asked for its mappers, and no run goes on with it. -/
  | nameless {xs : List Exchange} {before : Federation} (h : before.component.id = none) :
    Sighted xs (some before)
  | found {looked listed : Exchange} {before : Federation}
    (h : sighting [looked, listed] = some before) : Sighted [looked, listed] (some before)

variable {d : Declaration} {mode : RunMode} {xs ys : List Exchange} {x looked listed : Exchange}
  {before existing desired : Federation} {changes : Changeset} {o outcome : Outcome} {f : String}

theorem firstChange_eq_none : firstChange xs = none ↔ Unchanged xs := by
  simp [firstChange, Unchanged]

theorem unchanged_nil : Unchanged [] := List.forall_mem_nil _

theorem Unchanged.firstChange_ne (h : Unchanged xs) (call : Call) : firstChange xs ≠ some call := by
  rw [firstChange_eq_none.mpr h]
  exact (Option.some_ne_none call).symm

theorem firstChange_append (h : Unchanged xs) : firstChange (xs ++ ys) = firstChange ys := by
  rw [firstChange, List.map_append, List.find?_append]
  change (firstChange xs).or _ = _
  rw [firstChange_eq_none.mpr h]
  rfl

theorem found?_reads {found : Option Component} (h : x.found? = some found) :
    x.call.isMutation = false := by
  unfold Exchange.found? at h
  split at h
  · rfl
  · rfl
  · cases h

theorem listed?_reads {shown : List Component} (h : x.listed? = some shown) :
    x.call.isMutation = false := by
  unfold Exchange.listed? at h
  split at h
  · rfl
  · cases h

theorem sighting_eq_some (h : sighting [looked, listed] = some before) :
    ∃ found shown, looked.found? = some (some found) ∧ listed.listed? = some shown ∧
      before = (Federation.ofParts found (sortByName shown)).undoEcho := by
  simp only [sighting, Option.bind_eq_bind, Option.bind_eq_some_iff, Option.pure_def,
    Option.some.injEq] at h
  obtain ⟨_, hf, found, rfl, shown, hs, rfl⟩ := h
  exact ⟨found, shown, hf, hs, rfl⟩

theorem sighting_unchanged (h : sighting [looked, listed] = some before) :
    Unchanged [looked, listed] := by
  obtain ⟨found, shown, hf, hs, -⟩ := sighting_eq_some h
  exact List.forall_mem_cons.mpr
    ⟨found?_reads hf, List.forall_mem_singleton.mpr (listed?_reads hs)⟩

theorem resolve_ends (d : Declaration) :
    (Federation.resolve d.realm d.id d.name).Ends
      (fun xs found => Sighted xs (found.map Federation.undoEcho)) [] := by
  have lookup : (Federation.lookup d.realm d.id d.name).Ends
      (fun xs found => ∃ x : Exchange, xs = [x] ∧ x.found? = some found) [] := by
    cases hid : d.id with
    | some i => exact ends_ask fun found => ⟨_, rfl, rfl⟩
    | none =>
      cases hn : d.name with
      | none => trivial
      | some name =>
        refine ends_ask fun listed => keeps_lift fun found hf => ⟨_, rfl, ?_⟩
        rw [Exchange.found?, hf]
        rfl
  unfold Federation.resolve
  refine Keeps.bind lookup ?_
  rintro found _ ⟨x, rfl, hx⟩
  cases found with
  | none => exact .missing hx
  | some c =>
    cases hid : c.id with
    | none =>
      simp only [hid]
      exact .nameless hid
    | some f =>
      simp only [hid]
      refine Keeps.bind (Q := fun xs mappers => ∃ shown, mappers = sortByName shown ∧
        xs = [x, ⟨.children f d.realm, .ok shown⟩]) (ends_ask fun shown => ⟨shown, rfl, rfl⟩) ?_
      rintro _ _ ⟨shown, rfl, rfl⟩
      refine Sighted.found ?_
      simp [sighting, hx, Exchange.listed?]

theorem survey_ends (d : Declaration) : (survey d).Ends
    (fun xs seen => Sighted xs seen.1 ∧ Changeset.of d seen.1 = .ok seen.2) [] := by
  refine keeps_lift_bind fun _ _ => Keeps.bind (resolve_ends d) fun found xs sighted => ?_
  exact keeps_lift_bind fun changes changed => ⟨sighted, changed⟩

/-! ### How a run ends -/

/-- How a run ends that succeeds. -/
inductive Verdict (d : Declaration) (xs : List Exchange) (o : Outcome) : Prop
  /-- Nothing was found, and nothing has to be there. -/
  | unneeded (missing : sighting (xs.take 2) = none) (reads : Unchanged xs)
    (unchanged : o.changed = false) (same : o.endState = o.existing)
  /-- The federation was found as it has to be. -/
  | idle {before : Federation} {changes : Changeset} (sighted : sighting (xs.take 2) = some before)
    (reads : Unchanged xs) (changed : Changeset.of d (some before) = .ok changes)
    (same : (changes.applyTo (some before)).needsUpdate before d.credentialPolicy = false)
    (existing : o.existing = before.render)
    (endState : o.endState = (changes.applyTo (some before)).render)
  /-- The federation was found, updated, and looked at again. -/
  | updated {before after : Federation} (sighted : sighting (xs.take 2) = some before)
    (again : sighting (xs.rtake 2) = some after) (mutates : ¬Unchanged xs)
    (existing : o.existing = before.render) (endState : o.endState = after.render)
    (changed : o.changed = decide (before.render.canonical ≠ after.render.canonical))
  /-- Something else was changed, or would be. -/
  | changed (changed : o.changed = true)
    (other : ∀ c realm, firstChange xs ≠ some (.update c realm))

theorem execute_ends {realm : String} {plan : List Mapper.Action} {ys : List Exchange} :
    (Mapper.execute realm plan).Ends (fun xs _ => ys <+: xs) ys := by
  have longer : ∀ xs, ys <+: xs → (Mapper.execute realm plan).Ends (fun xs _ => ys <+: xs) xs := by
    induction plan with
    | nil => exact fun xs h => h
    | cons a plan ih =>
      exact fun xs h => ends_ask fun reply => ih _ (h.trans (List.prefix_append _ _))
  exact longer ys List.prefix_rfl

theorem firstChange_mono {c : Call} (h : firstChange xs = some c) (le : xs <+: ys) :
    firstChange ys = some c := by
  obtain ⟨zs, rfl⟩ := le
  rw [firstChange, List.map_append, List.find?_append]
  exact Option.or_eq_some_iff.mpr (.inl h)

theorem create_ends (missing : x.found? = some none) :
    (create d mode desired outcome).Ends (Verdict d) [x] := by
  have reads : Unchanged [x] := List.forall_mem_singleton.mpr (found?_reads missing)
  cases apply : mode.dryRun with
  | true =>
    unfold create
    rw [apply]
    exact .changed rfl fun c realm => reads.firstChange_ne _
  | false =>
    rw [create_apply apply]
    refine ends_ask fun created => ?_
    have first : firstChange [x, ⟨.create desired.component d.realm, .ok created⟩] =
        some (.create desired.component d.realm) := by
      rw [← List.singleton_append, firstChange_append reads]
      rfl
    cases hid : created.id with
    | none =>
      simp only
      trivial
    | some f =>
      simp only
      refine ends_ask fun defaults => keeps_lift_bind fun plan _ => ?_
      refine Keeps.bind execute_ends fun _ ys le => ?_
      refine ends_ask fun listed => .changed rfl fun c realm => ?_
      have le' := (List.prefix_append _ _).trans (le.trans (List.prefix_append _ [⟨_, .ok listed⟩]))
      rw [firstChange_mono first le']
      exact nofun

theorem existingId_eq_error {c : Component} (h : c.id = none) :
    c.existingId = .error (.remote .existingWithoutId) := by
  rw [Component.existingId, h]

theorem update_ends (sighted : sighting [looked, listed] = some before)
    (changed : Changeset.of d (some before) = .ok changes) :
    (update d mode before (changes.applyTo (some before)) (report (some before) changes)).Ends
      (Verdict d) [looked, listed] := by
  have reads := sighting_unchanged sighted
  cases hid : before.component.id with
  | none =>
    unfold update
    rw [existingId_eq_error hid]
    trivial
  | some f =>
    cases needed : (changes.applyTo (some before)).needsUpdate before d.credentialPolicy with
    | false =>
      rw [update_idle hid needed]
      exact .idle sighted reads changed needed rfl rfl
    | true =>
      cases apply : mode.dryRun with
      | true =>
        unfold update
        rw [existingId_eq hid, needed, apply]
        exact .changed rfl fun c realm => reads.firstChange_ne _
      | false =>
        rw [update_busy hid apply needed]
        refine ends_ask fun updated => Keeps.bind execute_ends ?_
        rintro _ _ ⟨ys, rfl⟩
        refine ends_ask fun found => ?_
        cases found with
        | none => trivial
        | some refreshed =>
          refine ends_ask fun shown => ?_
          let after := (Federation.ofParts refreshed (sortByName shown)).undoEcho
          refine .updated sighted (?_ : sighting _ = some after) ?_ rfl rfl rfl
          · simp [List.rtake, sighting, Exchange.found?, Exchange.listed?, after]
          · intro unchanged
            cases unchanged ⟨.update _ _, .ok updated⟩ (by simp)

theorem delete_ends (sighted : sighting [looked, listed] = some before) :
    (delete d mode before outcome).Ends (Verdict d) [looked, listed] := by
  have reads := sighting_unchanged sighted
  refine keeps_lift_bind fun f _ => ?_
  simp only
  split
  · exact .changed rfl fun c realm => reads.firstChange_ne _
  · refine ends_ask fun _ => .changed rfl fun c realm => ?_
    rw [firstChange_append reads]
    exact nofun

/-- A run that succeeds ends in one of the ways. -/
theorem reconcile_ends (d : Declaration) (mode : RunMode) :
    (reconcile d mode).Ends (Verdict d) [] := by
  rw [reconcile_eq]
  refine Keeps.bind (survey_ends d) ?_
  rintro ⟨before, changes⟩ xs ⟨sighted, changed⟩
  unfold conclude
  cases sighted with
  | missing h =>
    cases d.state with
    | absent =>
      exact .unneeded rfl (List.forall_mem_singleton.mpr (found?_reads h)) rfl rfl
    | present => exact create_ends h
  | nameless h =>
    cases d.state with
    | absent =>
      unfold delete
      simp only [existingId_eq_error h]
      trivial
    | present =>
      unfold update
      simp only [existingId_eq_error h]
      trivial
  | found h =>
    cases d.state with
    | absent => exact delete_ends h
    | present => exact update_ends h changed

/-! ### What is reported when nothing is reported to have changed -/

/-- A patch of which all is there but the value of the bind credential goes unseen. -/
theorem redact_mergedWith {c patch : Component} (fields : c.HasFields patch)
    (lists : ∀ key ≠ bindCredentialKey, Given (patch.configList? key) (c.configList? key))
    (credential : (patch.configList? bindCredentialKey).isSome →
      (c.configList? bindCredentialKey).isSome)
    (config : patch.config.isSome → c.config.isSome) : redact (c.mergedWith patch) = redact c := by
  have configs : (redact (c.mergedWith patch)).config = (redact c).config := by
    refine config_ext ?_ fun key => ?_
    · rw [isSome_config_redact, isSome_config_redact, isSome_config_mergedWith]
      cases given : patch.config.isSome with
      | false => rfl
      | true => exact (config given).symm
    · rw [configList?_redact, configList?_redact, configList?_mergedWith]
      split
      · rename_i hk
        subst hk
        cases given : patch.configList? bindCredentialKey with
        | none => rfl
        | some values =>
          obtain ⟨there, ht⟩ := Option.isSome_iff_exists.mp (credential (by rw [given]; rfl))
          rw [ht]
          rfl
      · rename_i hk
        exact given_iff.mp (lists key hk)
  exact Component.ext (given_iff.mp fields.id) (given_iff.mp fields.name)
    (given_iff.mp fields.providerId) (given_iff.mp fields.providerType)
    (given_iff.mp fields.parentId) configs rfl

/-- A federation that needs no update is shown as it is to be, unless a bind credential that does not
count would come into its config. -/
theorem idle_render_iff (changed : Changeset.of d (some before) = .ok changes)
    (same : (changes.applyTo (some before)).needsUpdate before d.credentialPolicy = false) :
    (changes.applyTo (some before)).render.canonical = before.render.canonical ↔
      ¬(d.credentialPolicy = .onlyIndirect ∧
        (d.component.configList? bindCredentialKey).isSome ∧
        before.component.configList? bindCredentialKey = none) := by
  have laid : (changes.applyTo (some before)).component =
      before.component.mergedWith d.component := applyTo_component changed
  obtain ⟨component, mappers⟩ := needsUpdate_eq_false.mp same
  rw [laid] at component
  obtain ⟨fields, lists, config⟩ :=
    CredentialPolicy.counted_mergedWith.mp (CredentialPolicy.counted_mergedWith_same.mp component)
  constructor
  · rintro looks ⟨-, given, missing⟩
    have configured : d.component.config.isSome := Option.isSome_of_isSome_bind given
    have there : (changes.applyTo (some before)).component.config.isSome := by
      rw [laid, isSome_config_mergedWith, configured, Bool.true_or]
    have keys := Federation.configKeys_of_render looks there (config configured) bindCredentialKey
    rw [laid, configList?_mergedWith, missing, Option.or_none, given] at keys
    cases keys
  · intro kept
    have credential : (d.component.configList? bindCredentialKey).isSome →
        (before.component.configList? bindCredentialKey).isSome := by
      intro given
      obtain ⟨values, hv⟩ := Option.isSome_iff_exists.mp given
      cases hp : d.credentialPolicy with
      | always => exact Option.isSome_iff_exists.mpr ⟨values, lists _ (.inl hp) values hv⟩
      | onlyIndirect => exact Option.isSome_iff_ne_none.mpr fun missing => kept ⟨hp, given, missing⟩
    have veiled := redact_mergedWith fields (fun key hk => lists key (.inr hk)) credential config
    refine Federation.Same.render (Federation.same_iff.mpr ⟨?_, mappers⟩)
    rw [Federation.veiled, laid, veiled]
    rfl

variable {σ : Type} {service : Service σ} {s t : σ}

/-- A run that reports no change shows the federation as it was found, but with one exception: a
declared bind credential that is not to count, where the federation has none. It is shown, masked,
though nothing is sent. -/
theorem unchanged_endState_iff (run : (reconcile d mode).run service s = (.ok o, t))
    (unchanged : o.changed = false) :
    let xs := (reconcile d mode).exchanges service s
    o.endState.canonical = o.existing.canonical ↔
      ¬(d.credentialPolicy = .onlyIndirect ∧
        (d.component.configList? bindCredentialKey).isSome ∧ Unchanged xs ∧
        ∃ before, sighting (xs.take 2) = some before ∧
          before.component.configList? bindCredentialKey = none) := by
  intro xs
  have verdict : Verdict d xs o := (reconcile_ends d mode).run run
  cases verdict with
  | unneeded missing _ _ same =>
    rw [same, missing]
    simp
  | @idle before changes sighted reads changed same existing endState =>
    rw [existing, endState, idle_render_iff changed same, sighted]
    simp [reads]
  | updated _ _ mutates existing endState changed =>
    rw [unchanged] at changed
    have alike := not_not.mp (of_decide_eq_false changed.symm)
    rw [existing, endState, alike]
    exact ⟨fun _ h => mutates h.2.2.1, fun _ => rfl⟩
  | changed changed =>
    rw [unchanged] at changed
    cases changed

end Reconcile

namespace Server.Sample

/-- A federation with a config, but without a bind credential. -/
def unsealed : Component := { people with config := some .empty }

def unsealedFound : Script := [.component unsealed, .components []]

/-- The federation as a run sees it. -/
def unsealedSeen : Federation := (Federation.ofParts unsealed (sortByName [])).undoEcho

/-- The masked federation as a run sees it. -/
def maskedSeen : Federation := (Federation.ofParts masked (sortByName [])).undoEcho

open Dialogue Reconcile Federation.Sample

theorem sealing_changed : Changeset.of sealing (some unsealedSeen) =
    .ok (changesWith sealing (some unsealedSeen) none) := rfl

theorem sealing_idle :
    ((changesWith sealing (some unsealedSeen) none).applyTo (some unsealedSeen)).needsUpdate
      unsealedSeen .onlyIndirect = false :=
  needsUpdate_eq_false.mpr ⟨by decide, List.forall₂_same.mpr fun _ _ => rfl⟩

theorem sealing_run : (reconcile sealing {}).run Script.answer unsealedFound =
    (.ok (upToDate "people"
      ((changesWith sealing (some unsealedSeen) none).applyTo (some unsealedSeen))
      (report (some unsealedSeen) (changesWith sealing (some unsealedSeen) none))), []) := by
  have surveyed : (survey sealing).run Script.answer unsealedFound =
      (.ok (some unsealedSeen, changesWith sealing (some unsealedSeen) none), []) := rfl
  rw [reconcile_eq, run_bind, surveyed]
  change (Reconcile.update sealing {} unsealedSeen _ _).run Script.answer [] = _
  rw [update_idle rfl sealing_idle]
  rfl

def sealed : Changeset := changesWith sealing (some maskedSeen) none

theorem sealed_idle :
    (sealed.applyTo (some maskedSeen)).needsUpdate maskedSeen .onlyIndirect = false :=
  needsUpdate_eq_false.mpr ⟨by decide, List.forall₂_same.mpr fun _ _ => rfl⟩

theorem sealed_run : ∃ o,
    (reconcile sealing {}).run Script.answer maskedFound = (.ok o, maskedFound.drop 2) ∧
      o.changed = false ∧
      sighting (((reconcile sealing {}).exchanges Script.answer maskedFound).take 2) =
        some maskedSeen := by
  have surveyed : (survey sealing).run Script.answer maskedFound =
      (.ok (some maskedSeen, sealed), maskedFound.drop 2) := rfl
  have concluded : conclude sealing {} (some maskedSeen) sealed = .done (upToDate "people"
      (sealed.applyTo (some maskedSeen)) (report (some maskedSeen) sealed)) :=
    update_idle rfl sealed_idle
  rw [reconcile_eq, run_bind, exchanges_bind, surveyed]
  simp only [concluded]
  exact ⟨_, rfl, rfl, rfl⟩

end Server.Sample

open Server.Sample Federation.Sample in
/-- The mask is shown for a credential that was neither there nor sent. -/
theorem Reconcile.sealing_shows_credential : ∃ o,
    (reconcile sealing {}).run Script.answer unsealedFound = (.ok o, []) ∧ o.changed = false ∧
      o.endState.canonical ≠ o.existing.canonical := by
  refine ⟨_, sealing_run, rfl, fun same => ?_⟩
  have looks := (idle_render_iff sealing_changed sealing_idle).mp same
  exact looks (by decide)

open Server.Sample Federation.Sample in
/-- A federation that has a credential is shown as it was found. -/
theorem Reconcile.sealing_shows_found : ∃ o,
    (reconcile sealing {}).run Script.answer maskedFound = (.ok o, maskedFound.drop 2) ∧
      o.changed = false ∧ o.endState.canonical = o.existing.canonical := by
  obtain ⟨o, run, unchanged, seen⟩ := sealed_run
  refine ⟨o, run, unchanged, (unchanged_endState_iff run unchanged).mpr ?_⟩
  rintro ⟨-, -, -, before, sighted, missing⟩
  cases seen.symm.trans sighted
  exact absurd missing (by decide)

namespace Reconcile

variable {d : Declaration} {mode : RunMode} {o : Outcome} {σ : Type}
  {service : Dialogue.Service σ} {s t : σ}

open Dialogue

/-- A run that has updated the federation reports no change just if the federation looks the same
before and after; where all of it can be read off, this is to say that it is the same, the value of
its bind credential aside. -/
theorem updated_changed_iff (run : (reconcile d mode).run service s = (.ok o, t)) {c : Component}
    {realm : String} :
    let xs := (reconcile d mode).exchanges service s
    firstChange xs = some (.update c realm) →
      ∃ before after, sighting (xs.take 2) = some before ∧ sighting (xs.rtake 2) = some after ∧
        (before.Legible → after.Legible →
          (o.changed = false ↔ before.veiled.Same after.veiled)) := by
  intro xs updates
  have verdict : Verdict d xs o := (reconcile_ends d mode).run run
  have mutates : ¬Unchanged xs := by
    rw [← firstChange_eq_none, updates]
    exact nofun
  cases verdict with
  | unneeded _ reads => exact absurd reads mutates
  | idle _ reads => exact absurd reads mutates
  | @updated before after sighted again _ _ _ changed =>
    refine ⟨before, after, sighted, again, fun hb ha => ?_⟩
    rw [changed, decide_eq_false_iff_not, not_not, Federation.render_same_iff hb ha]
  | changed _ other => exact absurd updates (other c realm)

end Reconcile

namespace Server.Sample

open Dialogue Reconcile

/-- A declaration that sets the bind credential. -/
def resealing : Declaration := bare.setCredential (.text "one")

theorem maskedSeen_legible : maskedSeen.Legible where
  component := by
    refine ⟨by decide, fun key values h => ?_⟩
    have mem := SortedMap.get?_eq_some_iff.mp (show SortedMap.get? _ key = some values from h)
    have entries : ((key, values) : String × List String) ∈
      [(bindCredentialKey, [secretMask]), (principalKey, [""])] := mem
    simp only [List.mem_cons, Prod.mk.injEq, List.not_mem_nil, or_false] at entries
    obtain ⟨-, rfl⟩ | ⟨-, rfl⟩ := entries <;> exact ⟨_, rfl⟩
  unlisted := rfl
  mappers := by
    intro m hm
    simp [maskedSeen, Federation.undoEcho, Federation.ofParts, sortByName] at hm

def resealed : Changeset := changesWith resealing (some maskedSeen) none

theorem resealing_surveyed : (survey resealing).run Script.answer maskedFound =
    (.ok (some maskedSeen, resealed), maskedFound.drop 2) := rfl

theorem resealing_update :
    conclude resealing {} (some maskedSeen) resealed =
      .ask (.update (maskedSeen.component.mergedWith resealing.component) "master") fun _ =>
        reread resealing {} "people" (report (some maskedSeen) resealed) := by
  have desired : resealed.applyTo (some maskedSeen) =
      ⟨maskedSeen.component.mergedWith resealing.component, maskedSeen.mappers⟩ :=
    applyTo_changesWith none
  have other : maskedSeen.component.configList? bindCredentialKey ≠
      some [(Scalar.text "one").encode] := by decide
  have needed := needsUpdate_setCredential_always (d := bare) maskedSeen.mappers other
  change Reconcile.update resealing {} maskedSeen (resealed.applyTo (some maskedSeen)) _ = _
  rw [desired, update_busy rfl rfl needed, Server.planUpdate_eq_nil (List.Perm.refl _)]
  rfl

theorem resealing_exchanges : (reconcile resealing {}).exchanges Script.answer maskedFound =
    [⟨.get "people" "master", .ok (some masked)⟩, ⟨.children "people" "master", .ok []⟩,
      ⟨.update (maskedSeen.component.mergedWith resealing.component) "master", .ok ()⟩,
      ⟨.get "people" "master", .ok (some masked)⟩, ⟨.children "people" "master", .ok []⟩] := by
  rw [reconcile_eq, exchanges_bind, resealing_surveyed]
  simp only [resealing_update]
  rfl

theorem resealing_run : ∃ o, (reconcile resealing {}).run Script.answer maskedFound = (.ok o, []) := by
  rw [reconcile_eq, run_bind, resealing_surveyed]
  simp only [resealing_update]
  exact ⟨_, rfl⟩

end Server.Sample

open Dialogue Server.Sample in
theorem Reconcile.resealing_unchanged :
    let xs := (reconcile resealing {}).exchanges Script.answer maskedFound
    ∃ o c, (reconcile resealing {}).run Script.answer maskedFound = (.ok o, []) ∧
      firstChange xs = some (.update c "master") ∧
      ∃ before after : Federation, sighting (xs.take 2) = some before ∧
        sighting (xs.rtake 2) = some after ∧ before.Legible ∧ after.Legible ∧
        before.veiled.Same after.veiled ∧ o.changed = false := by
  intro xs
  obtain ⟨o, run⟩ := resealing_run
  have first : firstChange xs =
      some (.update (maskedSeen.component.mergedWith resealing.component) "master") := by
    rw [show xs = _ from resealing_exchanges]
    rfl
  obtain ⟨before, after, sighted, again, same⟩ := updated_changed_iff run first
  have seen : sighting (xs.take 2) = some maskedSeen ∧ sighting (xs.rtake 2) = some maskedSeen := by
    rw [show xs = _ from resealing_exchanges]
    exact ⟨rfl, rfl⟩
  cases sighted.symm.trans seen.1
  cases again.symm.trans seen.2
  have looks : maskedSeen.veiled.Same maskedSeen.veiled :=
    Federation.same_iff.mpr ⟨rfl, List.forall₂_same.mpr fun _ _ => rfl⟩
  exact ⟨o, _, run, first, _, _, seen.1, seen.2, maskedSeen_legible, maskedSeen_legible, looks,
    (same maskedSeen_legible maskedSeen_legible).mpr looks⟩

end UserFederation
