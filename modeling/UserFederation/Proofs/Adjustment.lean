import UserFederation.Proofs.Collection
import UserFederation.Proofs.Retention

/-! What the plan for an existing federation makes of its mappers: each mapper to end up with is there
afterwards, and nothing else is (`planUpdate_adjusts`). Nothing is done for mappers that are there
already, and no two actions are about one mapper. -/

namespace UserFederation

namespace Mapper

open Component Server

variable {existing target : List Component} {f i : String} {m : Component} {a : Action}
  {new : Nat → String}

/-- Where a mapper to end up with is found at last, and as what: it is there already, or it is
updated under its known id, or it is created. -/
inductive Settles (existing : List Component) (new : Nat → String) (f : String) (m : Component)
    (i : String) (c : Component) : Prop
  | kept (there : c ∈ existing) (same : c.Same m) (hid : m.id = some i)
  | updated (known : i ∈ existing.filterMap (·.id)) (hid : m.id = some i) (given : c = m)
  | created (unknown : ∀ j, m.id = some j → j ∉ existing.filterMap (·.id))
    (made : Created new f m i c)

theorem mem_planUpdate_of_acts (hm : m ∈ target) (acts : actionFor existing f m = some a) :
    a ∈ planUpdate target existing f :=
  List.mem_append_right _ (List.mem_filterMap.mpr ⟨m, hm, acts⟩)

/-! ### The ids of the actions -/

theorem planUpdate_ids : (planUpdate target existing f).filterMap Action.id? =
    (existing.filterMap (·.id)).filter (!(target.filterMap (·.id)).contains ·) ++
      (target.filterMap (actionFor existing f)).filterMap Action.id? := by
  rw [planUpdate, List.append_eq, List.filterMap_append, List.filterMap_map]
  congr 1
  exact List.filterMap_some

theorem acted_ids_sublist : ((target.filterMap (actionFor existing f)).filterMap Action.id?).Sublist
    (target.filterMap (·.id)) := by
  induction target with
  | nil => exact .slnil
  | cons m target ih =>
    cases h : actionFor existing f m with
    | none =>
      rw [List.filterMap_cons_none h]
      exact ih.trans ((List.sublist_cons_self m target).filterMap _)
    | some a =>
      rw [List.filterMap_cons_some h, List.filterMap_cons, List.filterMap_cons, actionFor_id h]
      split
      · exact ih
      · exact ih.cons_cons _

theorem planUpdate_ids_nodup (nodup : (existing.map (·.id)).Nodup)
    (distinct : (target.filterMap (·.id)).Nodup) :
    ((planUpdate target existing f).filterMap Action.id?).Nodup := by
  rw [planUpdate_ids]
  refine List.nodup_append.mpr ⟨(ids_nodup nodup).filter _, distinct.sublist acted_ids_sublist, ?_⟩
  rintro i hi _ hj rfl
  have unlisted := (List.mem_filter.mp hi).2
  have listed := acted_ids_sublist.subset hj
  simp [listed] at unlisted

theorem planUpdate_ids_subset : (planUpdate target existing f).filterMap Action.id? ⊆
    existing.filterMap (·.id) ++ target.filterMap (·.id) := by
  rw [planUpdate_ids]
  intro i hi
  refine List.mem_append.mpr ((List.mem_append.mp hi).imp (fun deleted => ?_) fun acted => ?_)
  · exact (List.mem_filter.mp deleted).1
  · exact acted_ids_sublist.subset acted

theorem eq_of_id {m' : Component} (distinct : (target.filterMap (·.id)).Nodup) (hm : m ∈ target)
    (hm' : m' ∈ target) (hid : m.id = some i) (hid' : m'.id = some i) : m = m' := by
  have : Std.Symm fun m m' : Component => ∀ i, m.id = some i → ∀ j, m'.id = some j → i ≠ j :=
    ⟨fun m m' apart j hj i hi same => apart i hi j hj same.symm⟩
  by_contra ne
  exact (List.pairwise_filterMap.mp distinct).forall hm hm' ne i hid i hid' rfl

/-- No action is about a mapper that is there already. -/
theorem planUpdate_spares_same (identified : ∀ b ∈ existing, b.id.isSome)
    (distinct : (target.filterMap (·.id)).Nodup) (hm : m ∈ target) {b : Component}
    (hb : b ∈ existing) (same : b.Same m) : ∀ a ∈ planUpdate target existing f, a.id? ≠ m.id := by
  obtain ⟨i, hi⟩ := Option.isSome_iff_exists.mp (identified b hb)
  have hid : m.id = some i := same.id.symm.trans hi
  intro a ha about
  rw [hid] at about
  rcases mem_planUpdate.mp ha with ⟨j, rfl, deleted⟩ | ⟨m', hm', acts⟩
  · cases about
    exact (delete_mem_planUpdate.mp deleted).2 m hm hid
  · cases eq_of_id distinct hm hm' hid ((actionFor_id acts).symm.trans about)
    cases (actionFor_same hb same).symm.trans acts

/-! ### What a plan leaves -/

theorem filter_isPlacing_planUpdate : (planUpdate target existing f).filter Action.isPlacing =
    target.filterMap (actionFor existing f) := by
  rw [planUpdate, List.append_eq, List.filter_append]
  have deleted : ∀ ids : List String, (ids.map Action.delete).filter Action.isPlacing = [] :=
    fun ids => List.filter_eq_nil_iff.mpr fun a ha => by
      obtain ⟨i, -, rfl⟩ := List.mem_map.mp ha
      exact Bool.false_ne_true
  rw [deleted, List.nil_append]
  refine List.filter_eq_self.mpr fun a ha => ?_
  obtain ⟨m, -, acts⟩ := List.mem_filterMap.mp ha
  rcases actionFor_eq_some acts with rfl | rfl <;> rfl

theorem isSome_perform_planUpdate (nodup : (existing.map (·.id)).Nodup)
    (distinct : (target.filterMap (·.id)).Nodup) (apart : ∀ k, new k ∉ existing.filterMap (·.id)) :
    (perform new (planUpdate target existing f) (.of existing)).isSome := by
  refine (perform_isSome_iff planUpdate_addresses (fun c hc => ?_) apart).mpr ⟨fun a ha => ?_,
    Action.spares_of_distinct (planUpdate_ids_nodup nodup distinct)⟩
  · rcases mem_planUpdate.mp hc with ⟨j, same, -⟩ | ⟨m, -, acts⟩
    · cases same
    · cases actionFor_attended acts with
      | create _ unknown => exact unknown
  · exact (planUpdate_addresses a ha).mono fun i hi => mem_keys_of.mpr hi

theorem Action.Left.settles {final : Collection} (acts : actionFor existing f m = some a)
    (left_ : a.Left new final i) :
    ∃ c, final.get? i = some c ∧ Settles existing new f m i c := by
  cases actionFor_attended acts with
  | @update j _ known hid =>
    have about : j = i := by
      obtain about | ⟨unnamed, -⟩ := left_.id
      · exact Option.some.inj (hid.symm.trans about)
      · cases hid.symm.trans unnamed
    subst about
    exact ⟨m, left_.get?_update, .updated known hid rfl⟩
  | create _ unknown => exact ⟨_, left_.get?_create, .created unknown ⟨left_.id, rfl⟩⟩

/-- An existing mapper that no action is about is one to end up with, and nothing is done for it. -/
theorem idle_of_free {c : Component} (nodup : (existing.map (·.id)).Nodup)
    (free : ∀ a ∈ planUpdate target existing f, a.id? ≠ some i)
    (there : (Collection.of existing).get? i = some c) :
    ∃ m ∈ target, m.id = some i ∧ actionFor existing f m = none := by
  obtain ⟨hc, hid⟩ := (get?_of_eq_some nodup).mp there
  have listed : ∃ m ∈ target, m.id = some i := by
    by_contra unlisted
    exact free _ (delete_mem_planUpdate.mpr ⟨List.mem_filterMap.mpr ⟨c, hc, hid⟩,
      fun m hm same => unlisted ⟨m, hm, same⟩⟩) rfl
  obtain ⟨m, hm, hid⟩ := listed
  refine ⟨m, hm, hid, Option.eq_none_iff_forall_not_mem.mpr fun a acts => ?_⟩
  exact free a (mem_planUpdate_of_acts hm acts) ((actionFor_id acts).trans hid)

section Performed

variable {final : Collection} (identified : ∀ b ∈ existing, b.id.isSome)
  (nodup : (existing.map (·.id)).Nodup) (distinct : (target.filterMap (·.id)).Nodup)
  (unused : Unused new (existing.filterMap (·.id) ++ target.filterMap (·.id)))
  (h : perform new (planUpdate target existing f) (.of existing) = some final)

include identified nodup distinct unused h

/-- A mapper that no action is for is there already, and stays. -/
theorem idle_stays (hm : m ∈ target) (idle : actionFor existing f m = none) :
    ∃ i b, m.id = some i ∧ final.get? i = some b ∧ b ∈ existing ∧ b.Same m := by
  obtain ⟨-, -, -, -, untouched⟩ := perform_effect
    (unused.mono planUpdate_ids_subset) (planUpdate_ids_nodup nodup distinct) h
  obtain @⟨b, hb, same⟩ := actionFor_attended idle
  obtain ⟨i, hi⟩ := Option.isSome_iff_exists.mp (identified b hb)
  have hid : m.id = some i := same.id.symm.trans hi
  have free := planUpdate_spares_same (f := f) identified distinct hm hb same
  refine ⟨i, b, hid, ?_, hb, same⟩
  rw [untouched i (hid ▸ free) fun k new => unused.apart k
    (List.mem_append_left _ (List.mem_filterMap.mpr ⟨b, hb, new ▸ hi⟩))]
  exact (get?_of_eq_some nodup).mpr ⟨hb, hi⟩

theorem planUpdate_settles : final.Consists (target.map (Settles existing new f)) := by
  obtain ⟨ks, ks_nodup, placed, only, -⟩ := perform_effect
    (unused.mono planUpdate_ids_subset) (planUpdate_ids_nodup nodup distinct) h
  rw [filter_isPlacing_planUpdate] at placed
  have stays : ∀ m ∈ target, actionFor existing f m = none →
      ∃ i b, m.id = some i ∧ final.get? i = some b ∧ b ∈ existing ∧ b.Same m :=
    fun m hm => idle_stays identified nodup distinct unused h hm
  obtain ⟨ids, perm, each⟩ := related_filterMap (·.id) placed fun m hm idle => by
    obtain ⟨i, -, hid, -⟩ := stays m hm idle
    rw [hid]
    rfl
  -- The ids are, in some order, those of what was put in place and of what was there already.
  refine ⟨ids, perm.nodup_iff.mpr (List.nodup_append.mpr ⟨ks_nodup, ?_, ?_⟩), ?_, ?_⟩
  · exact distinct.sublist (List.filter_sublist.filterMap _)
  · rintro k hk _ hi rfl
    obtain ⟨m, hm, hid⟩ := List.mem_filterMap.mp hi
    obtain ⟨hm, idle⟩ := List.mem_filter.mp hm
    obtain ⟨-, b, -, -, hb, same⟩ := stays m hm (Option.isNone_iff_eq_none.mp idle)
    obtain ⟨a, ha, left_⟩ := exists_left_of_mem placed hk
    rcases left_.id with about | ⟨-, l, new⟩
    · exact planUpdate_spares_same identified distinct hm hb same a
        (List.mem_append_right _ ha) (about.trans hid.symm)
    · exact unused.apart l (List.mem_append_right _ (List.mem_filterMap.mpr ⟨m, hm, new ▸ hid⟩))
  · refine List.forall₂_map_left_iff.mpr (related_imp each fun m hm i _ how => ?_)
    rcases how with ⟨a, acts, left_⟩ | ⟨idle, hid⟩
    · exact left_.settles acts
    · obtain ⟨j, b, hj, there, hb, same⟩ := stays m hm idle
      cases hid.symm.trans hj
      exact ⟨b, there, .kept hb same hid⟩
  · intro i c hc
    rw [perm.mem_iff, List.mem_append]
    refine (only i c hc).imp_right fun ⟨free, before⟩ => ?_
    obtain ⟨m, hm, hid, idle⟩ := idle_of_free nodup free before
    exact List.mem_filterMap.mpr ⟨m, List.mem_filter.mpr ⟨hm, by rw [idle]; rfl⟩, hid⟩

end Performed

/-! ### When there is nothing to do -/

theorem nodup_of_ids (identified : ∀ m ∈ target, m.id.isSome)
    (distinct : (target.filterMap (·.id)).Nodup) : (target.map (·.id)).Nodup := by
  refine List.pairwise_map.mpr ((List.pairwise_filterMap.mp distinct).imp_of_mem ?_)
  intro m m' hm _ apart same
  obtain ⟨i, hi⟩ := Option.isSome_iff_exists.mp (identified m hm)
  exact apart i hi i (same.symm.trans hi) rfl

theorem canonical_nodup (nodup : (existing.map (·.id)).Nodup) : (existing.map canonical).Nodup := by
  refine List.Nodup.of_map (·.id) ?_
  rwa [List.map_map]

/-- Nothing is planned just if the mappers to end up with count as the existing ones, in whatever
order. -/
theorem planUpdate_eq_nil_iff (identified : ∀ b ∈ existing, b.id.isSome)
    (nodup : (existing.map (·.id)).Nodup) (distinct : (target.filterMap (·.id)).Nodup) :
    planUpdate target existing f = [] ↔ (target.map canonical).Perm (existing.map canonical) := by
  refine ⟨fun nothing => ?_, planUpdate_eq_nil_of_canonical⟩
  have same : ∀ m ∈ target, ∃ b ∈ existing, b.Same m := by
    intro m hm
    cases acts : actionFor existing f m with
    | none =>
      obtain ⟨hb, same⟩ := actionFor_attended acts
      exact ⟨_, hb, same⟩
    | some a =>
      have planned := mem_planUpdate_of_acts hm acts
      simp [nothing] at planned
  have identified' : ∀ m ∈ target, m.id.isSome := by
    intro m hm
    obtain ⟨b, hb, alike⟩ := same m hm
    exact alike.id ▸ identified b hb
  refine (List.perm_ext_iff_of_nodup (canonical_nodup (nodup_of_ids identified' distinct))
    (canonical_nodup nodup)).mpr fun c => ?_
  rw [List.mem_map, List.mem_map]
  constructor
  · rintro ⟨m, hm, rfl⟩
    obtain ⟨b, hb, alike⟩ := same m hm
    exact ⟨b, hb, alike⟩
  · rintro ⟨b, hb, rfl⟩
    obtain ⟨i, hi⟩ := Option.isSome_iff_exists.mp (identified b hb)
    have free : ∀ a ∈ planUpdate target existing f, a.id? ≠ some i := by simp [nothing]
    obtain ⟨m, hm, hid, -⟩ := idle_of_free nodup free ((get?_of_eq_some nodup).mpr ⟨hb, hi⟩)
    obtain ⟨b', hb', alike⟩ := same m hm
    cases List.inj_on_of_nodup_map nodup hb' hb (alike.id.trans (hid.trans hi.symm))
    exact ⟨m, hm, alike.symm⟩

/-- What the plan for an existing federation makes of its mappers. It can be carried out, and leaves
each mapper to end up with, and nothing else. No two actions are about one id, none is about a mapper
that is there already, and there is nothing to do just if all are. -/
theorem planUpdate_adjusts (identified : ∀ b ∈ existing, b.id.isSome)
    (nodup : (existing.map (·.id)).Nodup) (distinct : (target.filterMap (·.id)).Nodup)
    (unused : Unused new (existing.filterMap (·.id) ++ target.filterMap (·.id))) (f : String) :
    let plan := planUpdate target existing f
    (∃ final, perform new plan (.of existing) = some final ∧
      final.Consists (target.map (Settles existing new f))) ∧
    (plan.filterMap Action.id?).Nodup ∧
    (∀ m ∈ target, ∀ b ∈ existing, b.Same m → ∀ a ∈ plan, a.id? ≠ m.id) ∧
    (plan = [] ↔ (target.map canonical).Perm (existing.map canonical)) := by
  refine ⟨?_, planUpdate_ids_nodup nodup distinct, fun m hm b hb same =>
    planUpdate_spares_same identified distinct hm hb same,
    planUpdate_eq_nil_iff identified nodup distinct⟩
  obtain ⟨final, h⟩ := Option.isSome_iff_exists.mp (isSome_perform_planUpdate nodup distinct
    fun k there => unused.apart k (List.mem_append_left _ there))
  exact ⟨final, h, planUpdate_settles identified nodup distinct unused h⟩

namespace Collection.Sample

/-- A mapper to keep, one to change and one to drop. -/
def listed : List Component :=
  [Federation.Sample.posted, { id := some "n", name := some "name" }, Federation.Sample.spare]

/-- Besides, a mapper of an unknown id, and one without id in a group. -/
def wanted : List Component :=
  [Federation.Sample.posted, { id := some "n", name := some "nickname" },
    { id := some "t", name := some "title" }, { name := some "phone", parentId := some "group" }]

end Collection.Sample

open Collection.Sample in
theorem listed_adjusted : (∀ b ∈ listed, b.id.isSome) ∧ (listed.map (·.id)).Nodup ∧
    (wanted.filterMap (·.id)).Nodup ∧
    Unused tally.id (listed.filterMap (·.id) ++ wanted.filterMap (·.id)) ∧
    planUpdate wanted listed "people" = [.delete "s",
      .update { id := some "n", name := some "nickname" },
      .create { id := some "t", name := some "title", parentId := some "people" },
      .create { name := some "phone", parentId := some "group" }] ∧
    ∃ final, perform tally.id (planUpdate wanted listed "people") (.of listed) = some final ∧
      final.Consists (wanted.map (Settles listed tally.id "people")) := by
  have identified : ∀ b ∈ listed, b.id.isSome := by decide
  have nodup : (listed.map (·.id)).Nodup := by decide
  have distinct : (wanted.filterMap (·.id)).Nodup := by decide
  have unused : Unused tally.id (listed.filterMap (·.id) ++ wanted.filterMap (·.id)) :=
    unused_tally (by decide)
  exact ⟨identified, nodup, distinct, unused, by decide,
    (planUpdate_adjusts identified nodup distinct unused "people").1⟩

end Mapper

end UserFederation
