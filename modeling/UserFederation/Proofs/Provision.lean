import UserFederation.Proofs.Contention

/-! What the plan for a new federation makes of the mappers that came with it. There is a plan just if
no declared name is that of two of them (`exists_planAfterCreation_iff`). Where no two declared mappers
share a name or an id, it leaves each declared mapper, laid over the default of its name, and the other
defaults unless they are pruned (`planAfterCreation_provides`). -/

namespace UserFederation

namespace Mapper

open Component

variable {ds defaults : List Component} {f i : String} {m m' p : Component} {a : Action}
  {stage stage' : List Action × Option String} {plan : List Action} {prune : Bool}

/-! ### When there is a plan -/

theorem exists_planAfterCreation_iff :
    (∃ plan, planAfterCreation ds defaults f prune = .ok plan) ↔
      ∀ m ∈ ds, ∀ n, m.name = some n → defaults.countP (·.name = some n) ≤ 1 := by
  simp only [← exists_actionsAfterCreation_iff (f := f)]
  rw [planAfterCreation]
  constructor
  · rintro ⟨plan, ok⟩ m hm
    obtain ⟨stages, made, -⟩ := Server.planAfterCreation_eq_ok ok
    obtain ⟨stage, -, h⟩ := exists_right_of_mem made hm
    exact ⟨stage, h⟩
  · intro each
    obtain ⟨stages, made⟩ := exists_related each
    rw [mapM_eq_ok_iff.mpr made]
    exact ⟨_, rfl⟩

/-! ### What a plan leaves -/

/-- Where a declared mapper is found at last, and as what: it is laid over the default of its name,
under its own id or else that of the default, or it is created. -/
inductive Provides (defaults : List Component) (new : Nat → String) (f : String) (m : Component)
    (i : String) (c : Component) : Prop
  | merged {p : Component} (hp : p ∈ defaults) (named : m.name.isSome) (name : p.name = m.name)
    (hid : m.id.or p.id = some i) (given : c = p.mergedWith m)
  | created (free : m.name.isSome → ∀ p ∈ defaults, p.name ≠ m.name) (made : Created new f m i c)

/-- No declared mapper has the name of a default. -/
def unmatched (ds : List Component) (p : Component) : Bool :=
  ds.all fun m => decide (m.name.isSome → p.name ≠ m.name)

/-- The defaults that are left alone. -/
def remaining (ds defaults : List Component) (prune : Bool) : List Component :=
  if prune then [] else defaults.filter (unmatched ds)

/-- A mapper stays as it is. -/
def Stays (p : Component) (i : String) (c : Component) : Prop := p.id = some i ∧ c = p

variable {new : Nat → String} {final : Collection}

/-- For each declared mapper there is one action that puts a mapper in place. -/
theorem Handled.places (identified : ∀ p ∈ defaults, p.id.isSome)
    (parented : ∀ p ∈ defaults, p.parentId.isSome) (h : Handled defaults f m stage) :
    ∃ a, stage.1.filter Action.isPlacing = [a] ∧ ∀ i, a.Left new final i →
      ∃ c, final.get? i = some c ∧ Provides defaults new f m i c := by
  cases h with
  | create free =>
    exact ⟨_, rfl, fun i left_ => ⟨_, left_.get?_create, .created free ⟨left_.id, rfl⟩⟩⟩
  | @update p j matched hi kept =>
    refine ⟨_, rfl, fun i left_ => ⟨_, left_.get?_update, .merged matched.mem matched.named
      matched.name ?_ rfl⟩⟩
    obtain about | ⟨none, -⟩ := left_.id
    · exact about
    · cases kept.symm.trans none
  | @replace p j matched hi moved =>
    refine ⟨_, rfl, fun i left_ => ⟨_, left_.get?_create, ?_⟩⟩
    obtain ⟨parent, hp⟩ := Option.isSome_iff_exists.mp (parented p matched.mem)
    have hid : m.id.or p.id = some i := by
      obtain about | ⟨unnamed, -⟩ := left_.id
      · exact about
      · cases hi.symm.trans (Option.or_eq_none_iff.mp unnamed).2
    -- The default has a parent and an id, so none is filled in.
    refine .merged matched.mem matched.named matched.name hid (Component.ext ?_ rfl rfl rfl ?_ rfl rfl)
    · exact hid.symm
    · change (m.parentId.or p.parentId).or (some f) = m.parentId.or p.parentId
      rw [hp, Option.or_assoc, Option.some_or]
  | unidentified matched hi =>
    have given := identified _ matched.mem
    rw [hi] at given
    cases given

/-- What is declared for a new federation: no two mappers share a name or an id, and no id is that of a
default. -/
structure Separate (ds defaults : List Component) : Prop where
  names : (ds.filterMap (·.name)).Nodup
  ids : (ds.filterMap (·.id)).Nodup
  fresh : ∀ m ∈ ds, ∀ i, m.id = some i → i ∉ defaults.filterMap (·.id)

theorem Separate.pairwise (h : Separate ds defaults) : ds.Pairwise fun m m' =>
    (m.name.isSome → m'.name ≠ m.name) ∧ ∀ i, m.id = some i → m'.id ≠ some i := by
  refine ((List.pairwise_filterMap.mp h.names).and (List.pairwise_filterMap.mp h.ids)).imp ?_
  rintro m m' ⟨names, ids⟩
  refine ⟨fun named same => ?_, fun i hi hi' => ids i hi i hi' rfl⟩
  obtain ⟨n, hn⟩ := Option.isSome_iff_exists.mp named
  exact names n hn n (same.trans hn) rfl

theorem Handled.ids_nodup (h : Handled defaults f m stage) :
    (stage.1.filterMap Action.id?).Nodup := by
  cases h with
  | create | update | unidentified =>
    exact List.pairwise_filterMap.mpr (List.pairwise_singleton _ _)
  | replace matched hi moved =>
    refine List.pairwise_filterMap.mpr (List.pairwise_pair.mpr ?_)
    rintro _ ⟨⟩ _ about rfl
    exact moved about

theorem Handled.ids_disjoint (nodup : (defaults.map (·.id)).Nodup)
    (fresh : ∀ i, m.id = some i → i ∉ defaults.filterMap (·.id))
    (fresh' : ∀ i, m'.id = some i → i ∉ defaults.filterMap (·.id))
    (names : m.name.isSome → m'.name ≠ m.name) (ids : ∀ i, m.id = some i → m'.id ≠ some i)
    (h : Handled defaults f m stage) (h' : Handled defaults f m' stage') :
    (stage.1.filterMap Action.id?).Disjoint (stage'.1.filterMap Action.id?) := by
  intro i hi hi'
  obtain ⟨a, ha, hi⟩ := List.mem_filterMap.mp hi
  obtain ⟨a', ha', hi'⟩ := List.mem_filterMap.mp hi'
  have listed : ∀ {m p}, Matched defaults m p → p.id = some i → i ∈ defaults.filterMap (·.id) :=
    fun matched hp => List.mem_filterMap.mpr ⟨_, matched.mem, hp⟩
  rcases h.about ha hi with given | used <;> rcases h'.about ha' hi' with given' | used'
  · exact ids i given given'
  · obtain ⟨p, matched, hp⟩ := h'.used_iff.mp used'
    exact fresh i given (listed matched hp)
  · obtain ⟨p, matched, hp⟩ := h.used_iff.mp used
    exact fresh' i given' (listed matched hp)
  · obtain ⟨p, matched, hp⟩ := h.used_iff.mp used
    obtain ⟨p', matched', hp'⟩ := h'.used_iff.mp used'
    cases List.inj_on_of_nodup_map nodup matched.mem matched'.mem (hp.trans hp'.symm)
    exact names matched.named (matched'.name.symm.trans matched.name)

theorem planAfterCreation_ids_nodup (nodup : (defaults.map (·.id)).Nodup)
    (separate : Separate ds defaults) (ok : planAfterCreation ds defaults f prune = .ok plan) :
    (plan.filterMap Action.id?).Nodup := by
  obtain ⟨stages, made, rfl⟩ := Server.planAfterCreation_eq_ok ok
  have handled := made.imp fun _ _ => actionsAfterCreation_handled
  rw [List.filterMap_append, List.filterMap_flatMap, List.nodup_append, List.nodup_flatMap]
  refine ⟨⟨fun stage hs => ?_, ?_⟩, ?_, ?_⟩
  · obtain ⟨m, -, h⟩ := exists_left_of_mem handled hs
    exact h.ids_nodup
  · refine pairwise_of_related handled separate.pairwise ?_
    rintro m hm m' hm' stage stage' h h' ⟨names, ids⟩
    exact h.ids_disjoint nodup (separate.fresh m hm) (separate.fresh m' hm') names ids h'
  · unfold Server.leftovers
    split
    · rw [List.filterMap_map]
      exact ((Mapper.ids_nodup nodup).filter _).filterMap fun i j k hi hj => by
        cases hi
        exact (Option.some.inj hj).symm
    · exact .nil
  · rintro i hi _ hj rfl
    obtain ⟨stage, hs, hi⟩ := List.mem_flatMap.mp hi
    obtain ⟨a, ha, hi⟩ := List.mem_filterMap.mp hi
    obtain ⟨b, hb, hj⟩ := List.mem_filterMap.mp hj
    obtain ⟨-, j, rfl, listed, unused⟩ := Server.mem_leftovers.mp hb
    cases hj
    obtain ⟨m, hm, h⟩ := exists_left_of_mem handled hs
    rcases h.about ha hi with given | used
    · exact separate.fresh m hm i given listed
    · exact unused stage hs used

theorem mem_remaining : p ∈ remaining ds defaults prune ↔
    prune = false ∧ p ∈ defaults ∧ ∀ m ∈ ds, m.name.isSome → p.name ≠ m.name := by
  cases prune <;> simp only [remaining, unmatched, if_true, if_false, List.mem_filter,
    List.all_eq_true, decide_eq_true_eq, List.not_mem_nil, reduceCtorEq, Bool.false_eq_true,
    false_and, true_and]

theorem Handled.exists_about (h : Handled defaults f m stage) (used : stage.2 = some i) :
    ∃ a ∈ stage.1, a.id? = some i := by
  cases h with
  | create | unidentified => cases used
  | update _ _ kept => exact ⟨_, List.mem_cons_self, kept.trans used⟩
  | replace => exact ⟨_, List.mem_cons_self, used⟩

/-- No action is about a default just if it is left alone. -/
theorem free_iff (nodup : (defaults.map (·.id)).Nodup) (separate : Separate ds defaults)
    (ok : planAfterCreation ds defaults f prune = .ok plan) (hp : p ∈ defaults)
    (hi : p.id = some i) :
    (∀ a ∈ plan, a.id? ≠ some i) ↔ p ∈ remaining ds defaults prune := by
  obtain ⟨stages, made, rfl⟩ := Server.planAfterCreation_eq_ok ok
  have handled := made.imp fun _ _ => actionsAfterCreation_handled
  rw [mem_remaining]
  constructor
  · intro free
    have unused : ∀ stage ∈ stages, stage.2 ≠ some i := by
      intro stage hs used
      obtain ⟨m, -, h⟩ := exists_left_of_mem handled hs
      obtain ⟨a, ha, about⟩ := h.exists_about used
      exact free a (List.mem_append_left _ (List.mem_flatMap.mpr ⟨stage, hs, ha⟩)) about
    refine ⟨Bool.eq_false_iff.mpr fun pruned => ?_, hp, fun m hm named same => ?_⟩
    · have left_ : .delete i ∈ Server.leftovers defaults stages prune :=
        Server.mem_leftovers.mpr ⟨pruned, i, rfl, List.mem_filterMap.mpr ⟨p, hp, hi⟩, unused⟩
      exact free _ (List.mem_append_right _ left_) rfl
    · obtain ⟨stage, hs, h⟩ := exists_right_of_mem handled hm
      obtain ⟨q, matched⟩ := h.matched_or.resolve_right fun free => free named p hp same
      cases matched.only p hp same
      exact unused stage hs (h.used_iff.mpr ⟨p, matched, hi⟩)
  · rintro ⟨kept, -, free⟩ a ha about
    rcases List.mem_append.mp ha with acted | left_
    · obtain ⟨stage, hs, ha⟩ := List.mem_flatMap.mp acted
      obtain ⟨m, hm, h⟩ := exists_left_of_mem handled hs
      rcases h.about ha about with given | used
      · exact separate.fresh m hm i given (List.mem_filterMap.mpr ⟨p, hp, hi⟩)
      · obtain ⟨q, matched, hq⟩ := h.used_iff.mp used
        cases List.inj_on_of_nodup_map nodup matched.mem hp (hq.trans hi.symm)
        exact free m hm matched.named matched.name
    · cases kept.symm.trans (Server.mem_leftovers.mp left_).1

theorem planAfterCreation_ids_subset (ok : planAfterCreation ds defaults f prune = .ok plan) :
    plan.filterMap Action.id? ⊆ defaults.filterMap (·.id) ++ ds.filterMap (·.id) := by
  intro i hi
  obtain ⟨a, ha, hi⟩ := List.mem_filterMap.mp hi
  rw [List.mem_append]
  cases a with
  | create c =>
    obtain ⟨m, hm, same⟩ := planAfterCreation_created ok ha
    exact .inr (List.mem_filterMap.mpr ⟨m, hm, same.symm.trans hi⟩)
  | update c =>
    obtain ⟨j, hj, hid⟩ := planAfterCreation_addresses ok _ ha
    cases hid.symm.trans hi
    exact .inl hj
  | delete j =>
    cases hi
    exact .inl (planAfterCreation_addresses ok _ ha)

/-- The actions that put mappers in place are for the declared mappers, one by one. -/
theorem placing_planAfterCreation (identified : ∀ p ∈ defaults, p.id.isSome)
    (parented : ∀ p ∈ defaults, p.parentId.isSome)
    (ok : planAfterCreation ds defaults f prune = .ok plan) :
    List.Forall₂ (fun m a => ∀ i, a.Left new final i →
      ∃ c, final.get? i = some c ∧ Provides defaults new f m i c) ds
      (plan.filter Action.isPlacing) := by
  obtain ⟨stages, made, rfl⟩ := Server.planAfterCreation_eq_ok ok
  have left_ : (Server.leftovers defaults stages prune).filter Action.isPlacing = [] := by
    refine List.filter_eq_nil_iff.mpr fun a ha => ?_
    obtain ⟨-, i, rfl, -⟩ := Server.mem_leftovers.mp ha
    exact Bool.false_ne_true
  rw [List.filter_append, left_, List.append_nil, List.filter_flatMap, ← List.flatMap_singleton' ds]
  refine List.rel_flatMap (made.imp fun _ _ => actionsAfterCreation_handled) fun m stage h => ?_
  obtain ⟨a, only, places⟩ := h.places identified parented
  rw [only]
  exact .cons places .nil

theorem remaining_sublist : (remaining ds defaults prune).Sublist defaults := by
  unfold remaining
  split
  · exact List.nil_sublist _
  · exact List.filter_sublist

theorem related_ids (identified : ∀ p ∈ defaults, p.id.isSome) :
    List.Forall₂ (fun p i => p.id = some i) defaults (defaults.filterMap (·.id)) := by
  induction defaults with
  | nil => exact .nil
  | cons p defaults ih =>
    obtain ⟨first, identified⟩ := List.forall_mem_cons.mp identified
    obtain ⟨i, hi⟩ := Option.isSome_iff_exists.mp first
    rw [List.filterMap_cons_some hi]
    exact .cons hi (ih identified)

section Performed

variable (identified : ∀ p ∈ defaults, p.id.isSome) (nodup : (defaults.map (·.id)).Nodup)
  (separate : Separate ds defaults)
  (unused : Unused new (defaults.filterMap (·.id) ++ ds.filterMap (·.id)))
  (ok : planAfterCreation ds defaults f prune = .ok plan)

include identified nodup separate unused ok

theorem isSome_perform_planAfterCreation : (perform new plan (.of defaults)).isSome := by
  refine (isSome_perform_iff_spares separate.fresh
    (fun k there => unused.apart k (List.mem_append_left _ there)) ok).mpr ?_
  refine (pairwise_spares_iff identified nodup separate.fresh ok).mpr (separate.pairwise.imp ?_)
  rintro m m' ⟨names, -⟩ ⟨-, named, same, -⟩
  exact names named same

theorem planAfterCreation_leaves (parented : ∀ p ∈ defaults, p.parentId.isSome)
    (h : perform new plan (.of defaults) = some final) :
    final.Consists (ds.map (Provides defaults new f) ++
      (remaining ds defaults prune).map Stays) := by
  obtain ⟨ks, ks_nodup, placed, only, untouched⟩ := perform_effect
    (unused.mono (planAfterCreation_ids_subset ok)) (planAfterCreation_ids_nodup nodup separate ok) h
  have provided := related_trans (placing_planAfterCreation identified parented ok) placed
    fun m a i places left_ => places i left_
  have sub : ∀ p ∈ remaining ds defaults prune, p ∈ defaults := remaining_sublist.subset
  have free : ∀ p ∈ remaining ds defaults prune, ∀ i, p.id = some i →
      (∀ a ∈ plan, a.id? ≠ some i) ∧ ∀ l, new l ≠ i := by
    refine fun p hp i hi => ⟨(free_iff nodup separate ok (sub p hp) hi).mpr hp, fun l same => ?_⟩
    exact unused.apart l (List.mem_append_left _ (List.mem_filterMap.mpr ⟨p, sub p hp, same ▸ hi⟩))
  have ids := related_ids fun p hp => identified p (sub p hp)
  -- The ids are those of what was put in place, and then those of the defaults that are left alone.
  refine ⟨ks ++ (remaining ds defaults prune).filterMap (·.id),
    List.nodup_append.mpr ⟨ks_nodup, ?_, ?_⟩, ?_, ?_⟩
  · exact (Mapper.ids_nodup nodup).sublist (remaining_sublist.filterMap _)
  · rintro k hk _ hi rfl
    obtain ⟨p, hp, hid⟩ := List.mem_filterMap.mp hi
    obtain ⟨a, ha, left_⟩ := exists_left_of_mem placed hk
    obtain ⟨apart, unmade⟩ := free p hp k hid
    rcases left_.id with about | ⟨-, l, new⟩
    · exact apart a (List.mem_filter.mp ha).1 about
    · exact unmade l new.symm
  · refine List.rel_append (List.forall₂_map_left_iff.mpr provided)
      (List.forall₂_map_left_iff.mpr (related_imp ids fun p hp i _ hi => ?_))
    obtain ⟨apart, unmade⟩ := free p hp i hi
    refine ⟨p, ?_, hi, rfl⟩
    rw [untouched i apart unmade]
    exact (get?_of_eq_some nodup).mpr ⟨sub p hp, hi⟩
  · intro i c hc
    rw [List.mem_append]
    refine (only i c hc).imp_right fun ⟨apart, before⟩ => ?_
    obtain ⟨hp, hi⟩ := (get?_of_eq_some nodup).mp before
    exact List.mem_filterMap.mpr ⟨c, (free_iff nodup separate ok hp hi).mp apart, hi⟩

end Performed

/-- What the plan for a new federation makes of the mappers that came with it. It exists just if no
declared name is that of two defaults. It can be carried out then, and leaves each declared mapper,
laid over the default of its name if there is one, and the defaults that are left alone, and nothing
else. -/
theorem planAfterCreation_provides (identified : ∀ p ∈ defaults, p.id.isSome)
    (parented : ∀ p ∈ defaults, p.parentId.isSome) (nodup : (defaults.map (·.id)).Nodup)
    (separate : Separate ds defaults)
    (unused : Unused new (defaults.filterMap (·.id) ++ ds.filterMap (·.id))) (f : String)
    (prune : Bool) :
    ((∃ plan, planAfterCreation ds defaults f prune = .ok plan) ↔
      ∀ m ∈ ds, ∀ n, m.name = some n → defaults.countP (·.name = some n) ≤ 1) ∧
    ∀ plan, planAfterCreation ds defaults f prune = .ok plan →
      ∃ final, perform new plan (.of defaults) = some final ∧
        final.Consists (ds.map (Provides defaults new f) ++
          (remaining ds defaults prune).map Stays) := by
  refine ⟨exists_planAfterCreation_iff, fun plan ok => ?_⟩
  obtain ⟨final, h⟩ := Option.isSome_iff_exists.mp
    (isSome_perform_planAfterCreation identified nodup separate unused ok)
  exact ⟨final, h, planAfterCreation_leaves identified nodup separate unused ok parented h⟩

open Collection.Sample in
theorem ordered_provided : (∀ p ∈ shipped, p.id.isSome) ∧ (∀ p ∈ shipped, p.parentId.isSome) ∧
    (shipped.map (·.id)).Nodup ∧ Separate ordered shipped ∧
    Unused Server.tally.id (shipped.filterMap (·.id) ++ ordered.filterMap (·.id)) ∧
    remaining ordered shipped false =
      [{ id := some "s", name := some "spare", parentId := some "people" }] ∧
    ∃ plan final, planAfterCreation ordered shipped "people" false = .ok plan ∧
      perform Server.tally.id plan (.of shipped) = some final ∧
      final.Consists (ordered.map (Provides shipped Server.tally.id "people") ++
        (remaining ordered shipped false).map Stays) := by
  have identified : ∀ p ∈ shipped, p.id.isSome := by decide
  have parented : ∀ p ∈ shipped, p.parentId.isSome := by decide
  have nodup : (shipped.map (·.id)).Nodup := by decide
  have separate : Separate ordered shipped := ⟨by decide, by decide, by simp [ordered, shipped]⟩
  have unused : Unused Server.tally.id (shipped.filterMap (·.id) ++ ordered.filterMap (·.id)) :=
    unused_tally (by decide)
  obtain ⟨exists_iff, provides⟩ :=
    planAfterCreation_provides identified parented nodup separate unused "people" false
  obtain ⟨plan, ok⟩ := exists_iff.mpr (by simp [ordered, shipped])
  obtain ⟨final, performed, consists⟩ := provides plan ok
  exact ⟨identified, parented, nodup, separate, unused, by decide, plan, final, ok, performed,
    consists⟩

end Mapper

end UserFederation
