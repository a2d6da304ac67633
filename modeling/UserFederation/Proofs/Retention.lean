import UserFederation.Proofs.Fulfilment
import UserFederation.Proofs.Satisfaction
import UserFederation.Proofs.Scope

/-! Which existing mappers a plan keeps. A mapper to end up with has the id of an existing one just
if a declared mapper refers to that one, or mappers are not pruned (`listed_iff`). So the plan for an
existing federation deletes just the mappers that no declared one refers to, if it has to, and
updates only others (`planUpdate_retains`). -/

namespace UserFederation

open Component

namespace Mapper

variable {ds existing merged target : List Component} {prune : Bool} {b m : Component}
  {f i : String}

/-- A declared mapper refers to an existing one. -/
def Selected (ds existing : List Component) (b : Component) : Prop :=
  ∃ m ∈ ds, referent? m existing = .ok (some b)

/-- A declared mapper has the id of the existing one that it refers to. -/
theorem resolve_id {d : Component} (resolves : resolve existing d = .ok m)
    (refers : referent? d existing = .ok (some b)) (hi : b.id = some i) : m.id = some i := by
  obtain ⟨found, hr, rfl⟩ := resolve_eq_ok_iff.mp resolves
  cases refers.symm.trans hr
  change d.id.or b.id = some i
  cases hid : d.id with
  | none => exact hi
  | some j =>
    rw [referent?, hid] at refers
    have same := List.find?_some (Except.ok.inj refers)
    rw [← hi, of_decide_eq_true same]
    rfl

/-- An existing mapper gives its id to a declared one just if that one refers to it. -/
theorem merged_iff (nodup : (existing.map (·.id)).Nodup)
    (resolved : List.Forall₂ (fun d m => resolve existing d = .ok m) ds merged)
    (hb : b ∈ existing) (hi : b.id = some i) :
    (∃ m ∈ merged, m.id = some i) ↔ Selected ds existing b := by
  constructor
  · rintro ⟨m, hm, same⟩
    obtain ⟨d, hd, resolves⟩ := exists_left_of_mem resolved hm
    exact ⟨d, hd, referent?_of_id nodup resolves hb hi same⟩
  · rintro ⟨d, hd, refers⟩
    obtain ⟨m, hm, resolves⟩ := exists_right_of_mem resolved hd
    exact ⟨m, hm, resolve_id resolves refers hi⟩

/-- A mapper to end up with has the id of an existing one just if a declared mapper refers to that
one, or mappers are not pruned. -/
theorem listed_iff (nodup : (existing.map (·.id)).Nodup)
    (ok : Mapper.target ds existing prune = .ok target) (hb : b ∈ existing) (hi : b.id = some i) :
    i ∈ target.filterMap (·.id) ↔ (prune = true → Selected ds existing b) := by
  obtain ⟨merged, resolved, rfl⟩ := target_eq_ok_iff.mp ok
  have perm := arranged_perm existing merged prune
  rw [(perm.filterMap _).mem_iff, List.filterMap_append, List.mem_append, List.mem_filterMap,
    merged_iff nodup resolved hb hi]
  cases prune with
  | true => simp
  | false =>
    simp only [Bool.false_eq_true, if_false, false_implies, iff_true]
    by_cases selected : Selected ds existing b
    · exact .inl selected
    · refine .inr (List.mem_filterMap.mpr ⟨b, List.mem_filter.mpr ⟨hb, ?_⟩, hi⟩)
      have free : i ∉ merged.filterMap (·.id) :=
        fun listed => selected ((merged_iff nodup resolved hb hi).mp (List.mem_filterMap.mp listed))
      simp [unlisted, hi, free]

/-- The id that an action deletes. -/
def Action.deleted? : Action → Option String
  | .delete i => some i
  | .create _ | .update _ => none

theorem mem_deleted {plan : List Action} :
    i ∈ plan.filterMap Action.deleted? ↔ .delete i ∈ plan := by
  rw [List.mem_filterMap]
  constructor
  · rintro ⟨_ | _ | j, ha, same⟩ <;> cases same
    exact ha
  · exact fun h => ⟨_, h, rfl⟩

theorem deleted_planUpdate : (planUpdate target existing f).filterMap Action.deleted? =
    (existing.filterMap (·.id)).filter (!(target.filterMap (·.id)).contains ·) := by
  have acted : (target.filterMap (actionFor existing f)).filterMap Action.deleted? = [] := by
    refine List.filterMap_eq_nil_iff.mpr fun a ha => ?_
    obtain ⟨m, -, hm⟩ := List.mem_filterMap.mp ha
    rcases Server.actionFor_eq_some hm with rfl | rfl <;> rfl
  rw [planUpdate, List.append_eq, List.filterMap_append, acted, List.append_nil,
    List.filterMap_map]
  exact List.filterMap_some

/-- The plan for an existing federation sends declared mappers only, each laid over the mapper that
it refers to. -/
theorem planUpdate_sends {a : Action} (ok : Mapper.target ds existing prune = .ok target)
    (h : a ∈ planUpdate target existing f) : (∃ i, a = .delete i) ∨
      ∃ d ∈ ds, ∃ m, resolve existing d = .ok m ∧ (a = .update m ∨ a = .create (m.withParent f)) := by
  rcases Server.mem_planUpdate.mp h with ⟨i, rfl, -⟩ | ⟨m, hm, acts⟩
  · exact .inl ⟨i, rfl⟩
  · obtain ⟨merged, resolved, rfl⟩ := target_eq_ok_iff.mp ok
    rcases List.mem_append.mp ((arranged_perm existing merged prune).mem_iff.mp hm) with hm | hm
    · obtain ⟨d, hd, resolves⟩ := exists_left_of_mem resolved hm
      exact .inr ⟨d, hd, m, resolves, Server.actionFor_eq_some acts⟩
    · -- A mapper that was kept is there already, so nothing is done for it.
      have kept : m ∈ existing := by
        split at hm
        · cases hm
        · exact (List.mem_filter.mp hm).1
      rw [Server.actionFor_existing kept] at acts
      cases acts

/-- The plan for an existing federation updates only mappers that a declared one refers to. -/
theorem planUpdate_updates (nodup : (existing.map (·.id)).Nodup)
    (ok : Mapper.target ds existing prune = .ok target)
    (h : .update m ∈ planUpdate target existing f) :
    ∃ b ∈ existing, m.id = b.id ∧ Selected ds existing b := by
  obtain ⟨i, known, hi⟩ := planUpdate_addresses _ h
  obtain ⟨b, hb, hbi⟩ := List.mem_filterMap.mp known
  obtain ⟨i', same⟩ | ⟨d, hd, m', resolves, same | same⟩ := planUpdate_sends ok h <;> cases same
  exact ⟨b, hb, hi.trans hbi.symm, d, hd, referent?_of_id nodup resolves hb hbi hi⟩

/-- The plan for an existing federation deletes each existing mapper that no declared one refers to,
once, if mappers are pruned, and none else; and it updates only mappers that a declared one refers
to. A declaration without mappers needs no plan. -/
theorem planUpdate_retains (nodup : (existing.map (·.id)).Nodup)
    (ok : Mapper.target ds existing prune = .ok target) (f : String) :
    let plan := planUpdate target existing f
    (plan.filterMap Action.deleted?).Nodup ∧
      (∀ i, .delete i ∈ plan ↔
        prune = true ∧ ∃ b ∈ existing, b.id = some i ∧ ¬Selected ds existing b) ∧
      (∀ m, .update m ∈ plan → ∃ b ∈ existing, m.id = b.id ∧ Selected ds existing b) ∧
      ∀ (d : Declaration) (before : Federation), d.mappers = none →
        ∃ changes, Changeset.of d (some before) = .ok changes ∧
          planUpdate (changes.applyTo (some before)).mappers before.mappers f = [] := by
  intro plan
  refine ⟨?_, fun i => ?_, fun m => planUpdate_updates nodup ok, fun d before unlisted => ?_⟩
  · rw [deleted_planUpdate]
    exact (ids_nodup nodup).filter _
  · rw [← mem_deleted, deleted_planUpdate, List.mem_filter, List.mem_filterMap, Bool.not_eq_true',
      List.contains_eq_mem, decide_eq_false_iff_not]
    constructor
    · rintro ⟨⟨b, hb, hi⟩, free⟩
      rw [listed_iff nodup ok hb hi, Classical.not_imp] at free
      exact ⟨free.1, b, hb, hi, free.2⟩
    · rintro ⟨pruned, b, hb, hi, unselected⟩
      refine ⟨⟨b, hb, hi⟩, ?_⟩
      rw [listed_iff nodup ok hb hi]
      exact fun selected => unselected (selected pruned)
  · have undeclared : d.mapperComponents = none := by
      rw [Declaration.mapperComponents, unlisted]
      rfl
    have changed : Changeset.of d (some before) = .ok (changesWith d (some before) none) := by
      rw [of_eq, undeclared]
    refine ⟨_, changed, ?_⟩
    rw [applyTo_mappers_of_none changed undeclared]
    exact Server.planUpdate_eq_nil (List.Perm.refl _)

end Mapper

namespace Federation.Sample

/-- A mapper that is not declared. -/
def spare : Component :=
  { id := some "s", name := some "spare", providerType := some mapperType }

/-- A declared mapper with a setting that `posted` does not have. -/
def tuned : Component :=
  { name := some "mail", config := some (.ofList [("read.only", ["true"])]) }

theorem selected_tuned {b : Component} :
    Mapper.Selected [tuned] [posted, spare] b ↔ b = posted := by
  have refers : Mapper.referent? tuned [posted, spare] = .ok (some posted) := rfl
  constructor
  · rintro ⟨d, hd, same⟩
    cases List.mem_singleton.mp hd
    cases refers.symm.trans same
    rfl
  · rintro rfl
    exact ⟨tuned, List.mem_singleton_self _, refers⟩

end Federation.Sample

open Federation.Sample in
theorem Mapper.spare_deleted :
    ([posted, spare].map (·.id)).Nodup ∧
      Mapper.target [tuned] [posted, spare] true = .ok [posted.mergedWith tuned] ∧
      let plan := planUpdate [posted.mergedWith tuned] [posted, spare] "people"
      plan.filterMap Action.deleted? = ["s"] ∧
        .update (posted.mergedWith tuned) ∈ plan ∧ ∀ m, .update m ∈ plan → m.id = some "m" := by
  have nodup : ([posted, spare].map (·.id)).Nodup := by decide
  have ok : Mapper.target [tuned] [posted, spare] true = .ok [posted.mergedWith tuned] :=
    target_eq_ok_iff.mpr ⟨[posted.mergedWith tuned], .cons rfl .nil, by simp [arranged, sortByName]⟩
  obtain ⟨once, deletes, updates, -⟩ := planUpdate_retains nodup ok "people"
  refine ⟨nodup, ok, ?_, by decide, fun m hm => ?_⟩
  · have single := List.nodup_singleton "s"
    refine List.perm_singleton.mp ((List.perm_ext_iff_of_nodup once single).mpr fun i => ?_)
    rw [mem_deleted, deletes, List.mem_singleton]
    constructor
    · rintro ⟨-, b, hb, hi, unselected⟩
      rcases List.mem_pair.mp hb with rfl | rfl
      · exact absurd (selected_tuned.mpr rfl) unselected
      · exact (Option.some.inj hi).symm
    · rintro rfl
      refine ⟨rfl, spare, by simp, rfl, fun selected => ?_⟩
      exact absurd (selected_tuned.mp selected) (by decide)
  · obtain ⟨b, -, same, selected⟩ := updates m hm
    cases selected_tuned.mp selected
    exact same

end UserFederation
