import UserFederation.Proofs.Collection

/-! Declared mappers that contend for a default. What is done for one declared mapper after a creation
is about its own id and the default that it is matched with, which is deleted just if the mapper gives
an id. So a plan can be carried out just if no declared mapper takes the place of a default that a
later one is matched with as well (`executable_iff`). -/

namespace UserFederation

namespace Mapper

open Component

variable {ds defaults : List Component} {f i : String} {m m' p q : Component} {a b : Action}
  {stage stage' : List Action × Option String} {plan : List Action} {prune : Bool}

theorem Matched.unique (h : Matched defaults m p) (h' : Matched defaults m q) : p = q :=
  h'.only p h.mem h.name

theorem Matched.of_name (h : Matched defaults m p) (same : m'.name = m.name) :
    Matched defaults m' p :=
  ⟨h.mem, same ▸ h.named, h.name.trans same.symm, same ▸ h.only⟩

/-! ### What is done for one declared mapper -/

namespace Handled

theorem matched_or (h : Handled defaults f m stage) :
    (∃ p, Matched defaults m p) ∨ (m.name.isSome → ∀ p ∈ defaults, p.name ≠ m.name) := by
  cases h with
  | create free => exact .inr free
  | update matched | replace matched | unidentified matched => exact .inl ⟨_, matched⟩

theorem created_id {c : Component} (h : Handled defaults f m stage) (hc : .create c ∈ stage.1) :
    c.id = m.id := by
  cases h with
  | create =>
    cases List.mem_singleton.mp hc
    rfl
  | update => cases List.mem_singleton.mp hc
  | @replace p i matched hi moved =>
    rcases List.mem_pair.mp hc with same | same <;> cases same
    obtain ⟨j, hj⟩ := Option.isSome_iff_exists.mp (id_of_moved hi moved)
    change m.id.or p.id = m.id
    rw [hj, Option.some_or]
  | @unidentified p matched hi =>
    cases List.mem_singleton.mp hc
    change m.id.or p.id = m.id
    rw [hi, Option.or_none]

theorem used_iff (h : Handled defaults f m stage) :
    stage.2 = some i ↔ ∃ p, Matched defaults m p ∧ p.id = some i := by
  have only : ∀ {p}, Matched defaults m p →
      (p.id = some i ↔ ∃ q, Matched defaults m q ∧ q.id = some i) := by
    refine fun matched => ⟨fun hi => ⟨_, matched, hi⟩, ?_⟩
    rintro ⟨q, matched', hi⟩
    rwa [matched.unique matched']
  cases h with
  | create free =>
    refine ⟨nofun, ?_⟩
    rintro ⟨p, matched, -⟩
    exact absurd matched.name (free matched.named p matched.mem)
  | update matched hi | replace matched hi | unidentified matched hi => rw [← only matched, hi]

/-- An action is about the id of the declared mapper or about the default that is used up. -/
theorem about (h : Handled defaults f m stage) (ha : a ∈ stage.1) (hi : a.id? = some i) :
    m.id = some i ∨ stage.2 = some i := by
  cases a with
  | create c => exact .inl ((h.created_id ha).symm.trans hi)
  | update c =>
    cases h with
    | update matched _ kept =>
      cases List.mem_singleton.mp ha
      exact .inr (kept.symm.trans hi)
    | create | unidentified => cases List.mem_singleton.mp ha
    | replace => rcases List.mem_pair.mp ha with same | same <;> cases same
  | delete j =>
    cases h with
    | replace =>
      rcases List.mem_pair.mp ha with same | same <;> cases same
      exact .inr hi
    | create | update | unidentified => cases List.mem_singleton.mp ha

/-- The default that is used up is deleted just if the declared mapper gives an id. -/
theorem delete_mem_iff (h : Handled defaults f m stage)
    (fresh : ∀ j, m.id = some j → j ∉ defaults.filterMap (·.id)) :
    .delete i ∈ stage.1 ↔ m.id.isSome ∧ stage.2 = some i := by
  cases h with
  | create | unidentified => simp
  | @update p i' matched hi kept =>
    have unnamed : m.id = none := id_of_kept kept fun same =>
      fresh i' same (List.mem_filterMap.mpr ⟨p, matched.mem, hi⟩)
    simp [unnamed]
  | replace matched hi moved => simp [id_of_moved hi moved, eq_comm]

theorem spared_iff (h : Handled defaults f m stage) :
    (∀ b ∈ stage.1, (Action.delete i).Spares b) ↔ stage.2 ≠ some i := by
  cases h with
  | create | unidentified => simp [Action.Spares]
  | update matched hi kept => simp [Action.Spares, kept]
  | replace => simp [Action.Spares]

end Handled

/-! ### Whether a plan can be carried out -/

/-- A declared mapper takes the place of a default that another one is matched with as well: it gives
an id of its own, and both have the name of the default. -/
def Deprives (defaults : List Component) (m m' : Component) : Prop :=
  m.id.isSome ∧ m.name.isSome ∧ m'.name = m.name ∧ ∃ p ∈ defaults, p.name = m.name

instance : Decidable (Deprives defaults m m') := inferInstanceAs (Decidable (_ ∧ _))

/-- What is done for two declared mappers can be done in turn just if the first one does not deprive
the second. -/
theorem Handled.spares_iff (identified : ∀ p ∈ defaults, p.id.isSome)
    (nodup : (defaults.map (·.id)).Nodup)
    (fresh : ∀ j, m.id = some j → j ∉ defaults.filterMap (·.id))
    (h : Handled defaults f m stage) (h' : Handled defaults f m' stage') :
    (∀ a ∈ stage.1, ∀ b ∈ stage'.1, a.Spares b) ↔ ¬Deprives defaults m m' := by
  -- Only deletions can be in the way.
  have deletions : (∀ a ∈ stage.1, ∀ b ∈ stage'.1, a.Spares b) ↔
      ∀ i, .delete i ∈ stage.1 → ∀ b ∈ stage'.1, (Action.delete i).Spares b := by
    refine ⟨fun spares i hi => spares _ hi, fun spares a ha b hb i deletes => ?_⟩
    subst deletes
    exact spares i ha b hb i rfl
  rw [deletions]
  constructor
  · rintro spares ⟨given, named, same, p, hp, hpn⟩
    obtain ⟨i, hi⟩ := Option.isSome_iff_exists.mp (identified p hp)
    obtain ⟨q, matched⟩ := h.matched_or.resolve_right fun free => free named p hp hpn
    cases matched.only p hp hpn
    have deleted := (h.delete_mem_iff fresh).mpr ⟨given, h.used_iff.mpr ⟨p, matched, hi⟩⟩
    exact h'.spared_iff.mp (spares i deleted) (h'.used_iff.mpr ⟨p, matched.of_name same, hi⟩)
  · intro apart i deleted
    obtain ⟨given, used⟩ := (h.delete_mem_iff fresh).mp deleted
    obtain ⟨p, matched, hi⟩ := h.used_iff.mp used
    refine h'.spared_iff.mpr fun used' => apart ?_
    obtain ⟨q, matched', hi'⟩ := h'.used_iff.mp used'
    cases List.inj_on_of_nodup_map nodup matched.mem matched'.mem (hi.trans hi'.symm)
    exact ⟨given, matched.named, matched'.name.symm.trans matched.name, p, matched.mem,
      matched.name⟩

theorem Handled.spares_itself (h : Handled defaults f m stage) : stage.1.Pairwise Action.Spares := by
  cases h with
  | create | update | unidentified => exact List.pairwise_singleton _ _
  | replace => exact List.pairwise_pair.mpr (by simp [Action.Spares])

theorem leftovers_spare (nodup : (defaults.map (·.id)).Nodup)
    (stages : List (List Action × Option String)) :
    (Server.leftovers defaults stages prune).Pairwise Action.Spares := by
  unfold Server.leftovers
  split
  · refine List.pairwise_map.mpr (((ids_nodup nodup).filter _).imp fun {i j} ne k same => ?_)
    cases same
    exact ⟨fun again => ne (Action.delete.inj again).symm, nofun⟩
  · exact .nil

/-- The actions of a plan for a new federation spare each other just if no declared mapper deprives a
later one. -/
theorem pairwise_spares_iff (identified : ∀ p ∈ defaults, p.id.isSome)
    (nodup : (defaults.map (·.id)).Nodup)
    (fresh : ∀ m ∈ ds, ∀ i, m.id = some i → i ∉ defaults.filterMap (·.id))
    (ok : planAfterCreation ds defaults f prune = .ok plan) :
    plan.Pairwise Action.Spares ↔ ds.Pairwise fun m m' => ¬Deprives defaults m m' := by
  obtain ⟨stages, made, rfl⟩ := Server.planAfterCreation_eq_ok ok
  have handled := made.imp fun _ _ => actionsAfterCreation_handled
  have last : ∀ a ∈ stages.flatMap (·.1), ∀ b ∈ Server.leftovers defaults stages prune,
      a.Spares b := by
    rintro a ha b hb i rfl
    obtain ⟨stage, hs, deleted⟩ := List.mem_flatMap.mp ha
    obtain ⟨m, hm, h⟩ := exists_left_of_mem handled hs
    obtain ⟨-, j, rfl, -, unused⟩ := Server.mem_leftovers.mp hb
    have used := ((h.delete_mem_iff (fresh m hm)).mp deleted).2
    exact ⟨fun same => unused stage hs (Action.delete.inj same ▸ used), nofun⟩
  rw [List.pairwise_append, and_iff_left last, and_iff_left (leftovers_spare nodup stages),
    List.pairwise_flatMap]
  have itself : ∀ stage ∈ stages, stage.1.Pairwise Action.Spares := fun stage hs => by
    obtain ⟨m, -, h⟩ := exists_left_of_mem handled hs
    exact h.spares_itself
  rw [and_iff_right itself]
  exact pairwise_iff_of_related handled fun m hm m' _ stage stage' h h' =>
    h.spares_iff identified nodup (fresh m hm) h'

theorem planAfterCreation_created {c : Component}
    (ok : planAfterCreation ds defaults f prune = .ok plan) (hc : .create c ∈ plan) :
    ∃ m ∈ ds, c.id = m.id := by
  obtain ⟨stages, made, rfl⟩ := Server.planAfterCreation_eq_ok ok
  rcases List.mem_append.mp hc with acted | left_
  · obtain ⟨stage, hs, hc⟩ := List.mem_flatMap.mp acted
    obtain ⟨m, hm, h⟩ := exists_left_of_mem made hs
    exact ⟨m, hm, (actionsAfterCreation_handled h).created_id hc⟩
  · obtain ⟨-, i, same, -⟩ := Server.mem_leftovers.mp left_
    cases same

theorem isSome_perform_iff_spares {new : Nat → String}
    (fresh : ∀ m ∈ ds, ∀ i, m.id = some i → i ∉ defaults.filterMap (·.id))
    (apart : ∀ k, new k ∉ defaults.filterMap (·.id))
    (ok : planAfterCreation ds defaults f prune = .ok plan) :
    (perform new plan (.of defaults)).isSome ↔ plan.Pairwise Action.Spares := by
  have addressed := planAfterCreation_addresses ok
  rw [perform_isSome_iff addressed (fun c hc i hi => ?_) apart, and_iff_right fun a ha =>
    (addressed a ha).mono fun i hi => mem_keys_of.mpr hi]
  obtain ⟨m, hm, same⟩ := planAfterCreation_created ok hc
  exact fresh m hm i (same.symm.trans hi)

/-- A plan for a new federation can be carried out just if its actions spare each other, which is just
if no declared mapper deprives a later one of the default of its name. -/
theorem executable_iff {new : Nat → String} (identified : ∀ p ∈ defaults, p.id.isSome)
    (nodup : (defaults.map (·.id)).Nodup)
    (fresh : ∀ m ∈ ds, ∀ i, m.id = some i → i ∉ defaults.filterMap (·.id))
    (apart : ∀ k, new k ∉ defaults.filterMap (·.id))
    (ok : planAfterCreation ds defaults f prune = .ok plan) :
    ((perform new plan (.of defaults)).isSome ↔ plan.Pairwise Action.Spares) ∧
      (plan.Pairwise Action.Spares ↔ ds.Pairwise fun m m' => ¬Deprives defaults m m') :=
  ⟨isSome_perform_iff_spares fresh apart ok, pairwise_spares_iff identified nodup fresh ok⟩

namespace Collection.Sample

/-- The mappers that come with a federation. -/
def shipped : List Component :=
  [{ id := some "d", name := some "mail", parentId := some "people" },
    { id := some "e", name := some "phone", parentId := some "people" },
    { id := some "s", name := some "spare", parentId := some "people" }]

/-- One mapper takes the place of a default, one is matched with a default, one has an unknown id, and
one has neither name nor id. -/
def ordered : List Component :=
  [{ id := some "m", name := some "mail" }, { name := some "phone" },
    { id := some "t", name := some "title" }, { parentId := some "group" }]

/-- Two mappers are matched with one default. -/
def contending : Declaration where
  id := some "people"
  mappers := some [{ id := some "m", name := some "mail" }, { name := some "mail" }]

end Collection.Sample

open Collection.Sample in
theorem ordered_executable : (∀ p ∈ shipped, p.id.isSome) ∧ (shipped.map (·.id)).Nodup ∧
    (∀ m ∈ ordered, ∀ i, m.id = some i → i ∉ shipped.filterMap (·.id)) ∧
    (∀ k, Server.tally.id k ∉ shipped.filterMap (·.id)) ∧
    ∃ plan, planAfterCreation ordered shipped "people" true = .ok plan ∧
      .delete "d" ∈ plan ∧ plan.Pairwise Action.Spares ∧
      (perform Server.tally.id plan (.of shipped)).isSome := by
  have identified : ∀ p ∈ shipped, p.id.isSome := by decide
  have nodup : (shipped.map (·.id)).Nodup := by decide
  have fresh : ∀ m ∈ ordered, ∀ i, m.id = some i → i ∉ shipped.filterMap (·.id) := by
    simp [ordered, shipped]
  have apart : ∀ k, Server.tally.id k ∉ shipped.filterMap (·.id) := (unused_tally (by decide)).apart
  refine ⟨identified, nodup, fresh, apart, _, rfl, by decide, ?_⟩
  have executable := executable_iff identified nodup fresh apart
    (show planAfterCreation ordered shipped "people" true = .ok _ from rfl)
  have spares := executable.2.mpr (by decide)
  exact ⟨spares, executable.1.mpr spares⟩

open Collection.Sample in
/-- The second mapper is matched with the default that was deleted for the first one. -/
theorem contending_stuck : contending.validate = .ok () ∧
    (∀ p ∈ shipped, p.id.isSome) ∧ (shipped.map (·.id)).Nodup ∧
    ∃ ds c m, contending.mapperComponents = some ds ∧
      (∀ m ∈ ds, ∀ i, m.id = some i → i ∉ shipped.filterMap (·.id)) ∧
      planAfterCreation ds shipped "people" false = .ok [.delete "d", .create c, .update m] ∧
      m.id = some "d" ∧ ¬[.delete "d", .create c, .update m].Pairwise Action.Spares ∧
      perform Server.tally.id [.delete "d", .create c, .update m] (.of shipped) = none := by
  refine ⟨rfl, by decide, by decide, _, _, _, rfl, by simp [MapperDeclaration.component, shipped],
    rfl, rfl, fun spares => ?_, rfl⟩
  obtain ⟨first, -⟩ := List.pairwise_cons.mp spares
  exact (first _ (List.mem_cons_of_mem _ List.mem_cons_self) "d" rfl).2 _ rfl rfl

end Mapper

end UserFederation
