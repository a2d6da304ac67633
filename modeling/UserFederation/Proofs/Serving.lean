import Mathlib.Data.List.Pairwise
import UserFederation.Mapper.Plan
import UserFederation.Proofs.Execution
import UserFederation.Proofs.Matching

/-! What a plan is for. Every action of it sees to one declared mapper or deletes one that none of
them refers to, and each declared mapper has its action or is there as declared (`Serves`). This
holds of the plan for an existing federation (`planUpdate_serves`) and of the one after a creation
(`planAfterCreation_serves`). -/

namespace UserFederation

namespace Mapper.Action

/-- Two actions on different mappers; of actions that give no id, two that differ. -/
def Apart (a b : Action) : Prop := a.id? = b.id? → a.id? = none ∧ a ≠ b

theorem distinct_of_apart {plan : List Action} (apart : plan.Pairwise Apart) :
    (plan.filterMap id?).Nodup := by
  refine List.pairwise_filterMap.mpr (apart.imp fun {a b} hab i hi j hj => ?_)
  rintro rfl
  cases hi.symm.trans (hab (hi.trans hj.symm)).1

theorem nodup_of_apart {plan : List Action} (apart : plan.Pairwise Apart) : plan.Nodup :=
  apart.imp fun {a b} hab => by
    rintro rfl
    exact (hab rfl).2 rfl

end Mapper.Action

namespace Mapper

variable {existing defaults : List Component} {f i : String} {m : Component}

theorem isSome_withId? : (withId? i existing).isSome ↔ i ∈ existing.filterMap (·.id) := by
  rw [withId?, List.find?_isSome, List.mem_filterMap]
  simp only [decide_eq_true_eq]

/-- What is done for one mapper to end up with: nothing if it is there already, else it is updated if
its id is known, and created if not. -/
inductive Attended (existing : List Component) (f : String) (m : Component) : Option Action → Prop
  | idle {b : Component} (there : b ∈ existing) (same : b.Same m) : Attended existing f m none
  | update {i : String} (new : ∀ b ∈ existing, ¬b.Same m) (known : i ∈ existing.filterMap (·.id))
    (hid : m.id = some i) : Attended existing f m (some (.update m))
  | create (new : ∀ b ∈ existing, ¬b.Same m)
    (unknown : ∀ i, m.id = some i → i ∉ existing.filterMap (·.id)) :
    Attended existing f m (some (.create (m.withParent f)))

theorem actionFor_attended {a : Option Action} (h : actionFor existing f m = a) :
    Attended existing f m a := by
  subst h
  unfold actionFor
  split
  · rename_i there
    obtain ⟨b, hb, same⟩ := List.any_eq_true.mp there
    exact .idle hb (of_decide_eq_true same)
  · rename_i absent
    have new : ∀ b ∈ existing, ¬b.Same m := fun b hb same =>
      absent (List.any_eq_true.mpr ⟨b, hb, decide_eq_true same⟩)
    cases hid : m.id with
    | none =>
      refine .create new ?_
      simp [hid]
    | some i =>
      rw [Option.bind_some]
      split
      · rename_i known
        exact .update new (isSome_withId?.mp known) hid
      · rename_i unknown
        refine .create new fun j hj => ?_
        cases hid.symm.trans hj
        exact fun there => unknown (isSome_withId?.mpr there)

/-- The default `p` is the only one of the name that the declared mapper `m` gives. -/
structure Matched (defaults : List Component) (m p : Component) : Prop where
  mem : p ∈ defaults
  named : m.name.isSome
  name : p.name = m.name
  only : ∀ q ∈ defaults, q.name = m.name → q = p

/-- What is done for a declared mapper after a creation, and the id of the default that is used up:
the mapper is created, or the default of its name is updated, or that one is deleted and created
anew under another id, or it has no id and is created once more. -/
inductive Handled (defaults : List Component) (f : String) (m : Component) :
    List Action × Option String → Prop
  | create (free : m.name.isSome → ∀ p ∈ defaults, p.name ≠ m.name) :
    Handled defaults f m ([.create (m.withParent f)], none)
  | update {p : Component} {i : String} (matched : Matched defaults m p) (hi : p.id = some i)
    (kept : (p.mergedWith m).id = some i) :
    Handled defaults f m ([.update (p.mergedWith m)], some i)
  | replace {p : Component} {i : String} (matched : Matched defaults m p) (hi : p.id = some i)
    (moved : (p.mergedWith m).id ≠ some i) :
    Handled defaults f m ([.delete i, .create ((p.mergedWith m).withParent f)], some i)
  | unidentified {p : Component} (matched : Matched defaults m p) (hi : p.id = none) :
    Handled defaults f m ([.create ((p.mergedWith m).withParent f)], none)

/-- A default that keeps its id was given none. -/
theorem id_of_kept {p : Component} (kept : (p.mergedWith m).id = some i) (other : m.id ≠ some i) :
    m.id = none := by
  cases hid : m.id with
  | none => rfl
  | some j =>
    have same : m.id.or p.id = some i := kept
    rw [hid, Option.some_or, ← hid] at same
    exact absurd same other

theorem id_of_moved {p : Component} (hi : p.id = some i) (moved : (p.mergedWith m).id ≠ some i) :
    m.id.isSome := by
  cases hid : m.id with
  | none => exact absurd (show m.id.or p.id = some i by rw [hid, Option.none_or, hi]) moved
  | some j => rfl

theorem actionsAfterCreation_handled {stage : List Action × Option String}
    (h : actionsAfterCreation defaults f m = .ok stage) : Handled defaults f m stage := by
  unfold actionsAfterCreation at h
  cases hn : m.name with
  | none =>
    rw [hn] at h
    cases h
    exact .create fun named => by simp [hn] at named
  | some n =>
    rw [hn, Option.elim_some] at h
    cases hf : withName? n defaults with
    | error e =>
      rw [hf] at h
      cases h
    | ok found =>
      rw [hf] at h
      simp only [bind, Except.bind, pure, Except.pure] at h
      rcases withName?_ok hf with ⟨rfl, none⟩ | ⟨p, hp, rfl, same, only⟩
      · cases h
        exact .create fun _ => hn ▸ none
      · have matched : Matched defaults m p := ⟨hp, by rw [hn]; rfl, hn ▸ same, hn ▸ only⟩
        cases hi : p.id with
        | none =>
          simp only [hi] at h
          cases h
          exact .unidentified matched hi
        | some i =>
          simp only [hi] at h
          split at h
          · rename_i kept
            cases h
            exact .update matched hi kept
          · rename_i moved
            cases h
            exact .replace matched hi moved

end Mapper

namespace Server

open Mapper

variable {supply : Supply} {s : Server} {f realm k : String} {d p : Component}
  {ds existing target : List Component} {prune : Bool}

/-- What is known of declared mappers: none has a parent, no two share an id or a name or refer to
the same mapper, and a given id that is no mapper's is new. -/
structure Declared (supply : Supply) (s : Server) (f realm : String) (ds : List Component) :
    Prop where
  extra : ∀ d ∈ ds, d.extra = .empty
  parentId : ∀ d ∈ ds, d.parentId = none
  identified : ∀ d ∈ ds, d.id = none → d.name.isSome
  nodup : ds.Nodup
  ids : ∀ d ∈ ds, ∀ d' ∈ ds, ∀ i, d.id = some i → d'.id = some i → d = d'
  names : ∀ d ∈ ds, ∀ d' ∈ ds, d.name.isSome → d.name = d'.name → d = d'
  unshared : ∀ d ∈ ds, ∀ d' ∈ ds, ∀ k p, s.Refers f realm d k p → s.Refers f realm d' k p → d = d'
  given : ∀ d ∈ ds, ∀ i, d.id = some i → (s.mapper? f realm i).isSome ∨
    i ≠ f ∧ s.components.get? i = none ∧ Past supply s i

/-- What a new mapper is laid over: nothing, or a mapper of its name that it takes the place of. -/
def Ground (s : Server) (f realm : String) (d base : Component) : Prop :=
  base = {} ∨ d.id.isSome ∧ d.name.isSome ∧
    ∃ k p, s.mapper? f realm k = some p ∧ p.name = d.name ∧ base = redact p

/-- The action that sees to a declared mapper. -/
inductive Reason (s : Server) (f realm : String) (d : Component) : Action → Prop
  | update {k : String} {p : Component} (refers : s.Refers f realm d k p) :
    Reason s f realm d (.update ((redact p).mergedWith d))
  | create {base : Component} (new : s.Unreferred f realm d) (ground : s.Ground f realm d base) :
    Reason s f realm d (.create ((base.mergedWith d).withParent f))

/-- What a plan does for the declared mappers. -/
structure Serves (s : Server) (f realm : String) (prune : Bool) (ds : List Component)
    (plan : List Action) : Prop where
  actions : ∀ a ∈ plan, (∃ d ∈ ds, s.Reason f realm d a) ∨
    ∃ i, a = .delete i ∧ (s.mapper? f realm i).isSome ∧
      (∀ d ∈ ds, ∀ p, ¬s.Refers f realm d i p) ∧ (prune = true ∨ ∃ d ∈ ds, d.id.isSome)
  complete : ∀ d ∈ ds, (∃ a ∈ plan, s.Reason f realm d a) ∨
    ∃ k p, s.Refers f realm d k p ∧ (redact p).mergedWith d = redact p ∧
      ∀ a ∈ plan, a.id? ≠ some k
  swept : prune = true → ∀ k p, s.mapper? f realm k = some p →
    (∀ d ∈ ds, ¬s.Refers f realm d k p) → .delete k ∈ plan
  apart : plan.Pairwise Action.Apart

theorem Refers.merged_id (h : s.Refers f realm d k p) (keyed : s.Keyed) :
    ((redact p).mergedWith d).id = some k := by
  have hid : p.id = some k := keyed.mapper?_id h.1
  change d.id.or p.id = some k
  rcases h.2 with given | ⟨none, -⟩
  · rw [given, Option.some_or]
  · rw [none, Option.none_or, hid]

theorem Refers.merged_name (h : s.Refers f realm d k p) (hid : d.id = none) : p.name = d.name := by
  rcases h.2 with given | ⟨-, -, same, -⟩
  · cases hid.symm.trans given
  · exact same

/-- A declared mapper is apart from the others by what it makes: a new mapper by its given id or its
name, an existing one by the id of that. -/
theorem Declared.apart (declared : Declared supply s f realm ds) (keyed : s.Keyed)
    {d' : Component} (hd : d ∈ ds) (hd' : d' ∈ ds) (ne : d ≠ d') {m m' : Component}
    (hm : (s.Unreferred f realm d ∧ m = d) ∨
      ∃ k p, s.Refers f realm d k p ∧ m = (redact p).mergedWith d)
    (hm' : (s.Unreferred f realm d' ∧ m' = d') ∨
      ∃ k p, s.Refers f realm d' k p ∧ m' = (redact p).mergedWith d') :
    m.id = m'.id → m.id = none ∧ m.name ≠ m'.name := by
  intro same
  rcases hm with ⟨new, rfl⟩ | ⟨k, p, refers, rfl⟩ <;>
    rcases hm' with ⟨new', rfl⟩ | ⟨k', p', refers', rfl⟩
  · cases hid : m.id with
    | some i => exact absurd (declared.ids _ hd _ hd' i hid (same.symm.trans hid)) ne
    | none =>
      refine ⟨rfl, fun names => ne ?_⟩
      exact declared.names _ hd _ hd' (declared.identified _ hd hid) names
  · rw [refers'.merged_id keyed] at same
    cases (new.1 k' same).symm.trans refers'.1
  · rw [refers.merged_id keyed] at same
    cases (new'.1 k same.symm).symm.trans refers.1
  · rw [refers.merged_id keyed, refers'.merged_id keyed, Option.some.injEq] at same
    subst same
    cases refers.1.symm.trans refers'.1
    exact absurd (declared.unshared _ hd _ hd' _ _ refers refers') ne

/-! ### An existing federation -/

theorem Declared.resolve_ok (declared : Declared supply s f realm ds) (keyed : s.Keyed)
    (listing : existing.Perm (s.children f realm)) (hd : d ∈ ds) {m : Component}
    (h : resolve existing d = .ok m) : (s.Unreferred f realm d ∧ m = d) ∨
      ∃ k p, s.Refers f realm d k p ∧ m = (redact p).mergedWith d := by
  obtain ⟨found, hr, rfl⟩ := resolve_eq_ok_iff.mp h
  rcases keyed.referent?_ok listing hr with ⟨rfl, new⟩ | ⟨k, p, rfl, refers⟩
  · exact .inl ⟨new, Component.empty_mergedWith (declared.extra d hd)⟩
  · exact .inr ⟨k, p, refers, rfl⟩

theorem actionFor_new (keyed : s.Keyed) (listing : existing.Perm (s.children f realm))
    (new : s.Unreferred f realm d) :
    actionFor existing f d = some (.create (d.withParent f)) := by
  have unknown : (d.id.bind fun id => withId? id existing) = none := by
    cases hid : d.id with
    | none => rfl
    | some i => simp [keyed.withId?_listing listing, new.1 i hid]
  have different : (existing.any fun m => decide (m.Same d)) = false := by
    refine List.any_eq_false.mpr fun e he => ?_
    obtain ⟨k, p, hp, rfl⟩ := (mem_listing listing).mp he
    intro same
    have ids := Component.Same.id (a := redact p) (of_decide_eq_true same)
    rw [redact_id] at ids
    cases (new.1 k (ids.symm.trans (keyed.mapper?_id hp))).symm.trans hp
  rw [actionFor, different, unknown]
  rfl

theorem actionFor_refers (keyed : s.Keyed) (listing : existing.Perm (s.children f realm))
    (refers : s.Refers f realm d k p) :
    actionFor existing f ((redact p).mergedWith d) =
      if (redact p).mergedWith d = redact p then none
      else some (.update ((redact p).mergedWith d)) := by
  have known : (((redact p).mergedWith d).id.bind fun id => withId? id existing).isSome := by
    simp [refers.merged_id keyed, keyed.withId?_listing listing, refers.1]
  have there : (existing.any fun m => decide (m.Same ((redact p).mergedWith d))) =
      decide ((redact p).mergedWith d = redact p) := by
    rw [Bool.eq_iff_iff, List.any_eq_true, decide_eq_true_eq]
    constructor
    · rintro ⟨e, he, same⟩
      obtain ⟨k', q, hq, rfl⟩ := (mem_listing listing).mp he
      have same : (redact q).Same ((redact p).mergedWith d) := of_decide_eq_true same
      have ids : q.id = ((redact p).mergedWith d).id := same.id
      rw [keyed.mapper?_id hq, refers.merged_id keyed, Option.some.injEq] at ids
      subst ids
      cases hq.symm.trans refers.1
      exact (same.eq rfl).symm
    · intro same
      refine ⟨redact p, (mem_listing listing).mpr ⟨k, p, refers.1, rfl⟩, ?_⟩
      rw [same]
      exact decide_eq_true rfl
  rw [actionFor, there, known]
  by_cases same : (redact p).mergedWith d = redact p <;> simp [same]

theorem actionFor_same {e m : Component} (he : e ∈ existing) (same : e.Same m) :
    actionFor existing f m = none := by
  have there : (existing.any fun e => decide (e.Same m)) = true :=
    List.any_eq_true.mpr ⟨e, he, decide_eq_true same⟩
  rw [actionFor, if_pos there]

theorem actionFor_existing {e : Component} (he : e ∈ existing) : actionFor existing f e = none :=
  actionFor_same he rfl

theorem actionFor_eq_some {m : Component} {a : Action} (h : actionFor existing f m = some a) :
    a = .update m ∨ a = .create (m.withParent f) := by
  cases actionFor_attended h with
  | update => exact .inl rfl
  | create => exact .inr rfl

theorem actionFor_id {m : Component} {a : Action} (h : actionFor existing f m = some a) :
    a.id? = m.id := by
  rcases actionFor_eq_some h with rfl | rfl <;> rfl

/-- Two components with different ids, or without ids and with different names. -/
def Distinct (m m' : Component) : Prop := m.id = m'.id → m.id = none ∧ m.name ≠ m'.name

theorem Distinct.symm {m m' : Component} (h : Distinct m m') : Distinct m' m := by
  intro same
  obtain ⟨none, names⟩ := h same.symm
  exact ⟨same.trans none, names.symm⟩

theorem Distinct.actions {m m' : Component} (h : Distinct m m') {a a' : Action}
    (ha : actionFor existing f m = some a) (ha' : actionFor existing f m' = some a') :
    a.Apart a' := by
  intro same
  rw [actionFor_id ha, actionFor_id ha'] at same
  obtain ⟨none, names⟩ := h same
  refine ⟨(actionFor_id ha).trans none, ?_⟩
  rintro rfl
  refine names ?_
  rcases actionFor_eq_some ha with rfl | rfl <;> rcases actionFor_eq_some ha' with h | h
  · rw [Action.update.inj h]
  · cases h
  · cases h
  · exact show (m.withParent f).name = (m'.withParent f).name by rw [Action.create.inj h]

/-- What an existing federation is planned to end up with is told apart by ids, or by names. -/
theorem Declared.target_distinct (declared : Declared supply s f realm ds) (keyed : s.Keyed)
    (listing : existing.Perm (s.children f realm)) {merged : List Component}
    (resolved : List.Forall₂ (fun d m => resolve existing d = .ok m) ds merged) (prune : Bool) :
    (arranged existing merged prune).Pairwise Distinct := by
  refine ((arranged_perm existing merged prune).pairwise_iff Distinct.symm).mpr ?_
  have inner : merged.Pairwise Distinct :=
    pairwise_of_related resolved declared.nodup fun d hd d' hd' m m' hm hm' ne =>
      declared.apart keyed hd hd' ne (declared.resolve_ok keyed listing hd hm)
        (declared.resolve_ok keyed listing hd' hm')
  have outer : (existing.filter (unlisted (merged.filterMap (·.id)))).Pairwise Distinct := by
    refine List.Pairwise.filter _ ?_
    have nodup := List.pairwise_map.mp (keyed.listing_nodup listing)
    exact nodup.imp fun ne same => absurd same ne
  refine List.pairwise_append.mpr ⟨inner, ?_, fun m hm e he => ?_⟩
  · split
    · exact .nil
    · exact outer
  · split at he
    · simp at he
    · obtain ⟨he, free⟩ := List.mem_filter.mp he
      obtain ⟨k, p, hp, rfl⟩ := (mem_listing listing).mp he
      intro same
      rw [redact_id, keyed.mapper?_id hp] at same
      have listed : k ∈ merged.filterMap (·.id) := List.mem_filterMap.mpr ⟨m, hm, same⟩
      simp [unlisted, keyed.mapper?_id hp, listed] at free

theorem mem_listed_ids (keyed : s.Keyed) (listing : existing.Perm (s.children f realm))
    {i : String} : i ∈ existing.filterMap (·.id) ↔ (s.mapper? f realm i).isSome := by
  simp only [List.mem_filterMap, Option.isSome_iff_exists]
  constructor
  · rintro ⟨e, he, hid⟩
    obtain ⟨k, p, hp, rfl⟩ := (mem_listing listing).mp he
    cases (keyed.mapper?_id hp).symm.trans hid
    exact ⟨p, hp⟩
  · rintro ⟨p, hp⟩
    exact ⟨redact p, (mem_listing listing).mpr ⟨i, p, hp, rfl⟩, keyed.shown_id hp⟩

/-- Deletions of listed mappers are apart. -/
theorem deletions_apart (keyed : s.Keyed) (listing : existing.Perm (s.children f realm))
    (p : String → Bool) :
    (((existing.filterMap (·.id)).filter p).map Action.delete).Pairwise Action.Apart := by
  have ids := ids_nodup (keyed.listing_nodup listing)
  refine List.pairwise_map.mpr ((ids.filter _).imp fun ne same => ?_)
  exact absurd (Option.some.inj same) ne

/-- The ids that the plan for an existing federation deletes. -/
theorem delete_mem_planUpdate {i : String} : .delete i ∈ planUpdate target existing f ↔
    i ∈ existing.filterMap (·.id) ∧ ∀ m ∈ target, m.id ≠ some i := by
  have acted : Action.delete i ∉ target.filterMap (actionFor existing f) := by
    intro acted
    obtain ⟨m, -, h⟩ := List.mem_filterMap.mp acted
    rcases actionFor_eq_some h with h | h <;> cases h
  rw [planUpdate, List.append_eq, List.mem_append, or_iff_left acted, List.mem_map]
  simp

theorem mem_planUpdate_delete (keyed : s.Keyed) (listing : existing.Perm (s.children f realm))
    {i : String} : .delete i ∈ planUpdate target existing f ↔
      (s.mapper? f realm i).isSome ∧ ∀ m ∈ target, m.id ≠ some i := by
  rw [delete_mem_planUpdate, mem_listed_ids keyed listing]

theorem mem_planUpdate {a : Action} : a ∈ planUpdate target existing f ↔
    (∃ i, a = .delete i ∧ .delete i ∈ planUpdate target existing f) ∨
      ∃ m ∈ target, actionFor existing f m = some a := by
  simp only [planUpdate, List.append_eq, List.mem_append, List.mem_map,
    List.mem_filterMap (f := actionFor existing f)]
  constructor
  · rintro (⟨i, hi, rfl⟩ | acted)
    · exact .inl ⟨i, rfl, .inl ⟨i, hi, rfl⟩⟩
    · exact .inr acted
  · rintro (⟨i, rfl, h⟩ | acted)
    · exact h
    · exact .inr acted

theorem planUpdate_apart (keyed : s.Keyed) (listing : existing.Perm (s.children f realm))
    (distinct : target.Pairwise Distinct) : (planUpdate target existing f).Pairwise Action.Apart := by
  simp only [planUpdate, List.append_eq]
  refine List.pairwise_append.mpr ⟨deletions_apart keyed listing _, ?_, fun a ha b hb => ?_⟩
  · refine List.pairwise_filterMap.mpr (distinct.imp ?_)
    intro m m' h a ha b hb
    exact h.actions ha hb
  · obtain ⟨i, hi, rfl⟩ := List.mem_map.mp ha
    obtain ⟨m, hm, hb⟩ := List.mem_filterMap.mp hb
    obtain ⟨-, free⟩ := List.mem_filter.mp hi
    intro same
    rw [actionFor_id hb] at same
    have listed : i ∈ target.filterMap (·.id) := List.mem_filterMap.mpr ⟨m, hm, same.symm⟩
    simp [listed] at free

theorem Declared.mem_arranged (declared : Declared supply s f realm ds) (keyed : s.Keyed)
    (listing : existing.Perm (s.children f realm)) {merged : List Component}
    (resolved : List.Forall₂ (fun d m => resolve existing d = .ok m) ds merged) (prune : Bool)
    (hd : d ∈ ds) :
    (s.Unreferred f realm d ∧ d ∈ arranged existing merged prune) ∨
      ∃ k p, s.Refers f realm d k p ∧ (redact p).mergedWith d ∈ arranged existing merged prune := by
  obtain ⟨m, hm, h⟩ := exists_right_of_mem resolved hd
  have there : m ∈ arranged existing merged prune :=
    (arranged_perm existing merged prune).mem_iff.mpr (List.mem_append_left _ hm)
  rcases declared.resolve_ok keyed listing hd h with ⟨new, rfl⟩ | ⟨k, p, refers, rfl⟩
  · exact .inl ⟨new, there⟩
  · exact .inr ⟨k, p, refers, there⟩

theorem Declared.of_mem_arranged (declared : Declared supply s f realm ds) (keyed : s.Keyed)
    (listing : existing.Perm (s.children f realm)) {merged : List Component}
    (resolved : List.Forall₂ (fun d m => resolve existing d = .ok m) ds merged) {m : Component}
    (hm : m ∈ arranged existing merged prune) :
    (∃ d ∈ ds, (s.Unreferred f realm d ∧ m = d) ∨
      ∃ k p, s.Refers f realm d k p ∧ m = (redact p).mergedWith d) ∨
      prune = false ∧ m ∈ existing := by
  rcases List.mem_append.mp ((arranged_perm existing merged prune).mem_iff.mp hm) with hm | hm
  · obtain ⟨d, hd, h⟩ := exists_left_of_mem resolved hm
    exact .inl ⟨d, hd, declared.resolve_ok keyed listing hd h⟩
  · cases prune with
    | true => simp at hm
    | false => exact .inr ⟨rfl, (List.mem_filter.mp (by simpa using hm)).1⟩

/-- Existing mappers that are not listed stay unless they are pruned. -/
theorem prune_of_unlisted (keyed : s.Keyed) (listing : existing.Perm (s.children f realm))
    {merged : List Component} (there : (s.mapper? f realm k).isSome)
    (free : ∀ m ∈ arranged existing merged prune, m.id ≠ some k) : prune = true := by
  obtain ⟨p, hp⟩ := Option.isSome_iff_exists.mp there
  have perm := arranged_perm existing merged prune
  cases prune with
  | true => rfl
  | false =>
    by_cases listed : k ∈ merged.filterMap (·.id)
    · obtain ⟨m, hm, same⟩ := List.mem_filterMap.mp listed
      exact absurd same (free m (perm.mem_iff.mpr (List.mem_append_left _ hm)))
    · have shown : redact p ∈ existing := (mem_listing listing).mpr ⟨k, p, hp, rfl⟩
      refine absurd (keyed.shown_id hp) (free (redact p) (perm.mem_iff.mpr ?_))
      refine List.mem_append_right _ (List.mem_filter.mpr ⟨shown, ?_⟩)
      simp [unlisted, keyed.mapper?_id hp, listed]

/-- The plan for an existing federation leaves a mapper alone that it has to end up with as it is. -/
theorem planUpdate_leaves (keyed : s.Keyed) (listing : existing.Perm (s.children f realm))
    (distinct : target.Pairwise Distinct) {m : Component} (hm : m ∈ target) (hid : m.id = some k)
    (idle : actionFor existing f m = none) : ∀ a ∈ planUpdate target existing f, a.id? ≠ some k := by
  intro a ha same
  rcases mem_planUpdate.mp ha with ⟨i, rfl, deleted⟩ | ⟨m', hm', acted⟩
  · cases same
    exact ((mem_planUpdate_delete keyed listing).mp deleted).2 m hm hid
  · rw [actionFor_id acted] at same
    by_cases other : m' = m
    · subst other
      cases idle.symm.trans acted
    · have : Std.Symm Distinct := ⟨fun _ _ => Distinct.symm⟩
      cases same.symm.trans (distinct.forall hm' hm other (same.trans hid.symm)).1

/-- The plan for an existing federation leaves mappers alone that are as declared. -/
theorem planUpdate_spares (declared : Declared supply s f realm ds) (keyed : s.Keyed)
    (listing : existing.Perm (s.children f realm))
    (hT : Mapper.target ds existing prune = .ok target) (hd : d ∈ ds)
    (refers : s.Refers f realm d k p) (same : (redact p).mergedWith d = redact p) :
    ∀ a ∈ planUpdate target existing f, a.id? ≠ some k := by
  obtain ⟨merged, resolved, rfl⟩ := target_eq_ok_iff.mp hT
  obtain ⟨k', p', refers', hm⟩ :=
    (declared.mem_arranged keyed listing resolved prune hd).resolve_left
      fun new => new.1.not_refers refers
  obtain ⟨rfl, rfl⟩ := refers.unique refers'
  have idle := actionFor_refers keyed listing refers
  rw [if_pos same] at idle
  exact planUpdate_leaves keyed listing (declared.target_distinct keyed listing resolved prune) hm
    (refers.merged_id keyed) idle

/-- The plan for an existing federation serves the declared mappers. -/
theorem planUpdate_serves (declared : Declared supply s f realm ds) (keyed : s.Keyed)
    (listing : existing.Perm (s.children f realm))
    (hT : Mapper.target ds existing prune = .ok target) :
    s.Serves f realm prune ds (planUpdate target existing f) := by
  obtain ⟨merged, resolved, form⟩ := target_eq_ok_iff.mp hT
  subst form
  have distinct := declared.target_distinct keyed listing resolved prune
  have mem := fun d (hd : d ∈ ds) => declared.mem_arranged keyed listing resolved prune hd
  refine ⟨fun a ha => ?_, fun d hd => ?_, fun hprune k p hp free => ?_,
    planUpdate_apart keyed listing distinct⟩
  · rcases mem_planUpdate.mp ha with ⟨i, rfl, deleted⟩ | ⟨m, hm, acted⟩
    · obtain ⟨there, free⟩ := (mem_planUpdate_delete keyed listing).mp deleted
      refine .inr ⟨i, rfl, there, fun d hd p refers => ?_,
        .inl (prune_of_unlisted keyed listing there free)⟩
      rcases mem d hd with ⟨new, -⟩ | ⟨k, q, refers', hm⟩
      · exact new.not_refers refers
      · obtain ⟨rfl, rfl⟩ := refers.unique refers'
        exact free _ hm (refers.merged_id keyed)
    · rcases declared.of_mem_arranged keyed listing resolved hm with
        ⟨d, hd, ⟨new, rfl⟩ | ⟨k, p, refers, rfl⟩⟩ | ⟨-, he⟩
      · refine .inl ⟨m, hd, ?_⟩
        rw [actionFor_new keyed listing new, Option.some.injEq] at acted
        have reason := Reason.create new (.inl rfl)
        rwa [Component.empty_mergedWith (declared.extra m hd), acted] at reason
      · rw [actionFor_refers keyed listing refers] at acted
        split at acted
        · cases acted
        · exact .inl ⟨d, hd, Option.some.inj acted ▸ .update refers⟩
      · rw [actionFor_existing he] at acted
        cases acted
  · rcases mem d hd with ⟨new, hm⟩ | ⟨k, p, refers, hm⟩
    · have acted := actionFor_new keyed listing new
      have reason := Reason.create new (.inl rfl)
      rw [Component.empty_mergedWith (declared.extra d hd)] at reason
      exact .inl ⟨_, mem_planUpdate.mpr (.inr ⟨d, hm, acted⟩), reason⟩
    · have acted := actionFor_refers keyed listing refers
      by_cases same : (redact p).mergedWith d = redact p
      · exact .inr ⟨k, p, refers, same, planUpdate_spares declared keyed listing hT hd refers same⟩
      · rw [if_neg same] at acted
        exact .inl ⟨_, mem_planUpdate.mpr (.inr ⟨_, hm, acted⟩), .update refers⟩
  · refine (mem_planUpdate_delete keyed listing).mpr ⟨by simp [hp], fun m hm hid => ?_⟩
    rcases declared.of_mem_arranged keyed listing resolved hm with
      ⟨d, hd, ⟨new, rfl⟩ | ⟨k', p', refers, rfl⟩⟩ | ⟨none, -⟩
    · cases (new.1 k hid).symm.trans hp
    · cases (refers.merged_id keyed).symm.trans hid
      cases refers.1.symm.trans hp
      exact free d hd refers
    · cases hprune.symm.trans none

/-! ### A federation that was just created -/

/-- What is done for a declared mapper after a creation, and the id of the mapper that is used up. -/
inductive Stage (s : Server) (f realm : String) (d : Component) : List Action × Option String → Prop
  | create (new : s.Unreferred f realm d) : Stage s f realm d ([.create (d.withParent f)], none)
  | update {k : String} {p : Component} (refers : s.Refers f realm d k p) :
    Stage s f realm d ([.update ((redact p).mergedWith d)], some k)
  | replace {j k : String} {p : Component} (given : d.id = some j) (new : s.Unreferred f realm d)
    (there : s.mapper? f realm k = some p) (named : d.name.isSome) (same : p.name = d.name) :
    Stage s f realm d
      ([.delete k, .create (((redact p).mergedWith d).withParent f)], some k)

theorem actionsAfterCreation_stage (keyed : s.Keyed)
    (listing : existing.Perm (s.children f realm))
    (given : ∀ i, d.id = some i → s.mapper? f realm i = none) {stage : List Action × Option String}
    (h : actionsAfterCreation existing f d = .ok stage) : s.Stage f realm d stage := by
  have shown {k : String} {q : Component} (hq : s.mapper? f realm k = some q) :
      redact q ∈ existing := (mem_listing listing).mpr ⟨k, q, hq, rfl⟩
  cases actionsAfterCreation_handled h with
  | create free => exact .create ⟨given, fun _ named k q hq => free named (redact q) (shown hq)⟩
  | @update p i matched hi kept =>
    obtain ⟨k, q, hq, rfl⟩ := (mem_listing listing).mp matched.mem
    cases (keyed.shown_id hq).symm.trans hi
    -- A given id is no mapper's, so none is given where the default keeps its own.
    have unnamed : d.id = none := id_of_kept kept fun same => by
      cases (given _ same).symm.trans hq
    refine .update ⟨hq, .inr ⟨unnamed, matched.named, matched.name, fun k' q' hq' same => ?_⟩⟩
    have ids := congrArg Component.id (matched.only _ (shown hq') same)
    rw [keyed.shown_id hq', keyed.shown_id hq] at ids
    exact Option.some.inj ids
  | @replace p i matched hi moved =>
    obtain ⟨k, q, hq, rfl⟩ := (mem_listing listing).mp matched.mem
    cases (keyed.shown_id hq).symm.trans hi
    obtain ⟨j, hj⟩ := Option.isSome_iff_exists.mp (id_of_moved hi moved)
    refine .replace hj ⟨given, fun none => ?_⟩ hq matched.named matched.name
    cases hj.symm.trans none
  | unidentified matched hi =>
    obtain ⟨k, q, hq, rfl⟩ := (mem_listing listing).mp matched.mem
    cases (keyed.shown_id hq).symm.trans hi

/-- The actions of a stage are apart from each other. -/
theorem Stage.apart {stage : List Action × Option String} (h : s.Stage f realm d stage) :
    stage.1.Pairwise Action.Apart := by
  cases h with
  | create | update => exact List.pairwise_singleton _ _
  | @replace j k p given new there named same =>
    refine List.pairwise_pair.mpr fun eq => ?_
    change some k = d.id.or (redact p).id at eq
    rw [given, Option.some_or, Option.some.injEq] at eq
    cases (new.1 j given).symm.trans (eq ▸ there)

/-- The actions of a stage are about an existing mapper of the name, or create a new one of it. -/
theorem Stage.about (keyed : s.Keyed) (given : ∀ i, d.id = some i → s.mapper? f realm i = none)
    {stage : List Action × Option String} (h : s.Stage f realm d stage) {a : Action}
    (ha : a ∈ stage.1) :
    (∃ k p, a.id? = some k ∧ stage.2 = some k ∧ s.mapper? f realm k = some p ∧
      d.name.isSome ∧ p.name = d.name) ∨
      a.id? = d.id ∧ ∃ c, a = .create c ∧ c.name = d.name := by
  cases h with
  | create new =>
    rw [List.mem_singleton] at ha
    subst ha
    exact .inr ⟨rfl, _, rfl, rfl⟩
  | @update k p refers =>
    rw [List.mem_singleton] at ha
    subst ha
    obtain ⟨there, hid | ⟨hid, named, same, -⟩⟩ := refers
    · cases (given k hid).symm.trans there
    · refine .inl ⟨k, p, ?_, rfl, there, named, same⟩
      change d.id.or (redact p).id = some k
      rw [hid, Option.none_or, keyed.shown_id there]
  | @replace j k p hj new there named same =>
    rcases List.mem_pair.mp ha with rfl | rfl
    · exact .inl ⟨k, p, rfl, rfl, there, named, same⟩
    · refine .inr ⟨?_, _, rfl, ?_⟩
      · change d.id.or (redact p).id = d.id
        rw [hj, Option.some_or]
      · change d.name.or p.name = d.name
        obtain ⟨n, hn⟩ := Option.isSome_iff_exists.mp named
        rw [hn, Option.some_or]

/-- The stages of two declared mappers are about different ones. -/
theorem Declared.stages_apart (declared : Declared supply s f realm ds) (keyed : s.Keyed)
    (given : ∀ d ∈ ds, ∀ i, d.id = some i → s.mapper? f realm i = none) {d' : Component}
    (hd : d ∈ ds) (hd' : d' ∈ ds) (ne : d ≠ d') {stage stage' : List Action × Option String}
    (h : s.Stage f realm d stage) (h' : s.Stage f realm d' stage') :
    ∀ a ∈ stage.1, ∀ b ∈ stage'.1, a.Apart b := by
  intro a ha b hb same
  rcases h.about keyed (given d hd) ha with ⟨k, p, hk, -, hp, named, hn⟩ | ⟨hid, c, rfl, hc⟩ <;>
    rcases h'.about keyed (given d' hd') hb with ⟨k', p', hk', -, hp', -, hn'⟩ | ⟨hid', c', rfl, hc'⟩
  · cases hk.symm.trans (same.trans hk')
    cases hp.symm.trans hp'
    exact absurd (declared.names d hd d' hd' named (hn.symm.trans hn')) ne
  · have := given d' hd' k (hid'.symm.trans (same.symm.trans hk))
    cases this.symm.trans hp
  · have := given d hd k' (hid.symm.trans (same.trans hk'))
    cases this.symm.trans hp'
  · cases hi : d.id with
    | some i =>
      have := hid'.symm.trans (same.symm.trans (hid.trans hi))
      exact absurd (declared.ids d hd d' hd' i hi this) ne
    | none =>
      refine ⟨hid.trans hi, fun eq => ne ?_⟩
      have names : d.name = d'.name := by rw [← hc, ← hc', Action.create.inj eq]
      exact declared.names d hd d' hd' (declared.identified d hd hi) names

/-- The deletions after the stages: what none of them uses up. -/
def leftovers (existing : List Component) (stages : List (List Action × Option String))
    (prune : Bool) : List Action :=
  if prune then
    ((existing.filterMap (·.id)).filter (!(stages.filterMap (·.2)).contains ·)).map .delete
  else []

theorem planAfterCreation_eq_ok {plan : List Action}
    (h : planAfterCreation target existing f prune = .ok plan) :
    ∃ stages, List.Forall₂ (fun d stage => actionsAfterCreation existing f d = .ok stage) target
      stages ∧ plan = stages.flatMap (·.1) ++ leftovers existing stages prune := by
  unfold planAfterCreation at h
  cases hs : target.mapM (actionsAfterCreation existing f) with
  | error e => simp [hs, bind, Except.bind] at h
  | ok stages =>
    simp only [hs, bind, Except.bind, pure, Except.pure, Except.ok.injEq] at h
    exact ⟨stages, mapM_eq_ok_iff.mp hs, h.symm⟩

theorem mem_leftovers {stages : List (List Action × Option String)} {a : Action} :
    a ∈ leftovers existing stages prune ↔ prune = true ∧ ∃ i, a = .delete i ∧
      i ∈ existing.filterMap (·.id) ∧ ∀ stage ∈ stages, stage.2 ≠ some i := by
  cases prune with
  | false => simp [leftovers]
  | true =>
    simp only [leftovers, if_true, List.mem_map, List.mem_filter, true_and]
    constructor
    · rintro ⟨i, ⟨there, free⟩, rfl⟩
      refine ⟨i, rfl, there, fun stage hs hk => ?_⟩
      have used : i ∈ stages.filterMap (·.2) := List.mem_filterMap.mpr ⟨stage, hs, hk⟩
      simp [used] at free
    · rintro ⟨i, rfl, there, free⟩
      have unused : i ∉ stages.filterMap (·.2) := by
        intro h
        obtain ⟨stage, hs, hk⟩ := List.mem_filterMap.mp h
        exact free stage hs hk
      exact ⟨i, ⟨there, by simpa using unused⟩, rfl⟩

theorem mem_leftovers_listing (keyed : s.Keyed) (listing : existing.Perm (s.children f realm))
    {stages : List (List Action × Option String)} {a : Action} :
    a ∈ leftovers existing stages prune ↔ prune = true ∧ ∃ i, a = .delete i ∧
      (s.mapper? f realm i).isSome ∧ ∀ stage ∈ stages, stage.2 ≠ some i := by
  simp only [mem_leftovers, mem_listed_ids keyed listing]

/-- Each action of a stage sees to its declared mapper, or deletes the one that this replaces. -/
theorem Stage.actions (declared : Declared supply s f realm ds)
    (given : ∀ d ∈ ds, ∀ i, d.id = some i → s.mapper? f realm i = none) (hd : d ∈ ds)
    {stage : List Action × Option String} (h : s.Stage f realm d stage) {a : Action}
    (ha : a ∈ stage.1) : s.Reason f realm d a ∨
      ∃ i, a = .delete i ∧ stage.2 = some i ∧ (s.mapper? f realm i).isSome ∧
        (∀ d ∈ ds, ∀ p, ¬s.Refers f realm d i p) ∧ d.id.isSome := by
  cases h with
  | create new =>
    have reason := Reason.create new (.inl rfl)
    rw [Component.empty_mergedWith (declared.extra d hd)] at reason
    exact .inl (List.mem_singleton.mp ha ▸ reason)
  | update refers => exact .inl (List.mem_singleton.mp ha ▸ .update refers)
  | @replace j k p hj new there named same =>
    rcases List.mem_pair.mp ha with rfl | rfl
    · refine .inr ⟨k, rfl, rfl, by simp [there], fun d' hd' q refers => ?_, by simp [hj]⟩
      cases there.symm.trans refers.1
      rcases refers.2 with hid | ⟨hid, -, same', -⟩
      · cases (given d' hd' k hid).symm.trans there
      · cases declared.names d hd d' hd' named (same.symm.trans same')
        cases hid.symm.trans hj
    · exact .inl (.create new (.inr ⟨by simp [hj], named, k, p, there, same, rfl⟩))

/-- A stage has an action that sees to its declared mapper. -/
theorem Stage.complete (declared : Declared supply s f realm ds) (hd : d ∈ ds)
    {stage : List Action × Option String} (h : s.Stage f realm d stage) :
    ∃ a ∈ stage.1, s.Reason f realm d a := by
  cases h with
  | create new =>
    have reason := Reason.create new (.inl rfl)
    rw [Component.empty_mergedWith (declared.extra d hd)] at reason
    exact ⟨_, List.mem_cons_self, reason⟩
  | update refers => exact ⟨_, List.mem_cons_self, .update refers⟩
  | @replace j k p hj new there named same =>
    refine ⟨_, List.mem_cons_of_mem _ List.mem_cons_self, .create new (.inr ?_)⟩
    exact ⟨by simp [hj], named, k, p, there, same, rfl⟩

/-- The mapper that a stage uses up is referred to, or deleted by it. -/
theorem Stage.used {stage : List Action × Option String} (h : s.Stage f realm d stage)
    (hk : stage.2 = some k) : (∃ p, s.Refers f realm d k p) ∨ .delete k ∈ stage.1 := by
  cases h with
  | create => cases hk
  | update refers =>
    cases hk
    exact .inl ⟨_, refers⟩
  | replace =>
    cases hk
    exact .inr List.mem_cons_self

/-- The stages and the deletions after them are about different mappers. -/
theorem planAfterCreation_apart (declared : Declared supply s f realm ds) (keyed : s.Keyed)
    (listing : existing.Perm (s.children f realm))
    (given : ∀ d ∈ ds, ∀ i, d.id = some i → s.mapper? f realm i = none) (nodup : target.Nodup)
    {stages : List (List Action × Option String)}
    (staged : List.Forall₂ (fun d stage => d ∈ ds ∧ s.Stage f realm d stage) target stages) :
    (stages.flatMap (·.1) ++ leftovers existing stages prune).Pairwise Action.Apart := by
  refine List.pairwise_append.mpr ⟨List.pairwise_flatMap.mpr ⟨fun stage hs => ?_, ?_⟩, ?_, ?_⟩
  · obtain ⟨d, -, -, h⟩ := exists_left_of_mem staged hs
    exact h.apart
  · refine pairwise_of_related staged nodup ?_
    rintro d - d' - stage stage' ⟨hd, h⟩ ⟨hd', h'⟩ ne
    exact declared.stages_apart keyed given hd hd' ne h h'
  · unfold leftovers
    split
    · exact deletions_apart keyed listing _
    · exact .nil
  · intro a ha b hb same
    obtain ⟨stage, hs, ha⟩ := List.mem_flatMap.mp ha
    obtain ⟨d, -, hd, h⟩ := exists_left_of_mem staged hs
    obtain ⟨-, i, rfl, there, free⟩ := (mem_leftovers_listing keyed listing).mp hb
    rcases h.about keyed (given d hd) ha with ⟨k, p, hk, used, -⟩ | ⟨hid, -⟩
    · exact absurd (used.trans (hk.symm.trans same)) (free stage hs)
    · have := given d hd i (hid.symm.trans same)
      simp [this] at there

/-- The plan after a creation serves the declared mappers. -/
theorem planAfterCreation_serves (declared : Declared supply s f realm ds) (keyed : s.Keyed)
    (listing : existing.Perm (s.children f realm))
    (given : ∀ d ∈ ds, ∀ i, d.id = some i → s.mapper? f realm i = none) (perm : target.Perm ds)
    {plan : List Action} (hplan : planAfterCreation target existing f prune = .ok plan) :
    s.Serves f realm prune ds plan := by
  obtain ⟨stages, made, rfl⟩ := planAfterCreation_eq_ok hplan
  have staged : List.Forall₂ (fun d stage => d ∈ ds ∧ s.Stage f realm d stage) target stages := by
    obtain ⟨length, each⟩ := List.forall₂_iff_zip.mp made
    refine List.forall₂_iff_zip.mpr ⟨length, fun {d stage} hz => ?_⟩
    have hd := perm.mem_iff.mp (List.of_mem_zip hz).1
    exact ⟨hd, actionsAfterCreation_stage keyed listing (given d hd) (each hz)⟩
  have stage_of : ∀ d ∈ ds, ∃ stage ∈ stages, s.Stage f realm d stage := by
    intro d hd
    obtain ⟨stage, hs, -, h⟩ := exists_right_of_mem staged (perm.mem_iff.mpr hd)
    exact ⟨stage, hs, h⟩
  refine ⟨fun a ha => ?_, fun d hd => ?_, fun hprune k p hp free => ?_,
    planAfterCreation_apart declared keyed listing given (perm.nodup_iff.mpr declared.nodup) staged⟩
  · rcases List.mem_append.mp ha with ha | ha
    · obtain ⟨stage, hs, ha⟩ := List.mem_flatMap.mp ha
      obtain ⟨d, -, hd, h⟩ := exists_left_of_mem staged hs
      rcases h.actions declared given hd ha with reason | ⟨i, rfl, -, there, free, given⟩
      · exact .inl ⟨d, hd, reason⟩
      · exact .inr ⟨i, rfl, there, free, .inr ⟨d, hd, given⟩⟩
    · obtain ⟨hprune, i, rfl, there, free⟩ := (mem_leftovers_listing keyed listing).mp ha
      refine .inr ⟨i, rfl, there, fun d hd p refers => ?_, .inl hprune⟩
      obtain ⟨stage, hs, h⟩ := stage_of d hd
      cases h with
      | create new => exact new.not_refers refers
      | update refers' => exact free _ hs (congrArg some (refers'.unique refers).1)
      | replace _ new => exact new.not_refers refers
  · obtain ⟨stage, hs, h⟩ := stage_of d hd
    obtain ⟨a, ha, reason⟩ := h.complete declared hd
    exact .inl ⟨a, List.mem_append_left _ (List.mem_flatMap.mpr ⟨stage, hs, ha⟩), reason⟩
  · by_cases used : ∃ stage ∈ stages, stage.2 = some k
    · obtain ⟨stage, hs, hk⟩ := used
      obtain ⟨d, -, hd, h⟩ := exists_left_of_mem staged hs
      rcases h.used hk with ⟨q, refers⟩ | deleted
      · cases refers.1.symm.trans hp
        exact absurd refers (free d hd)
      · exact List.mem_append_left _ (List.mem_flatMap.mpr ⟨stage, hs, deleted⟩)
    · have unused : ∀ stage ∈ stages, stage.2 ≠ some k := fun stage hs hk => used ⟨stage, hs, hk⟩
      have left := (mem_leftovers_listing keyed listing).mpr ⟨hprune, k, rfl, by simp [hp], unused⟩
      exact List.mem_append_right _ left

end Server

end UserFederation
