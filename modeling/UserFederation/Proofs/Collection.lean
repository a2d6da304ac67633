import UserFederation.Proofs.Satisfaction
import UserFederation.Proofs.Scope

/-! Mappers held by their ids, and what a plan makes of them. A plan can be carried out just if each
mapper that it updates or deletes is there and is not deleted by an earlier action
(`perform_isSome_iff`). Where its actions are about different ids, each one leaves its own mapper, and
the mappers that no action is about stay (`perform_effect`). -/

namespace UserFederation

namespace Mapper

/-- Mappers by their ids. -/
abbrev Collection := SortedMap Component

/-- The listed mappers that have an id; of two with one id, the first counts. -/
def Collection.of (mappers : List Component) : Collection :=
  mappers.foldr (fun m held => m.id.elim held (held.insert · m)) .empty

/-- The collection holds one mapper for each description, under different ids, and no others. -/
def Collection.Consists (held : Collection) (wanted : List (String → Component → Prop)) : Prop :=
  ∃ ids : List String, ids.Nodup ∧
    List.Forall₂ (fun P i => ∃ c, held.get? i = some c ∧ P i c) wanted ids ∧
    ∀ i c, held.get? i = some c → i ∈ ids

/-- New ids: all are different, and none of them is in use. -/
structure Unused (new : Nat → String) (used : List String) : Prop where
  injective : ∀ k l, new k = new l → k = l
  apart : ∀ k, new k ∉ used

/-- What becomes of a declared mapper that is created: it has its own id or a new one, and its own
parent or the federation. -/
def Created (new : Nat → String) (f : String) (m : Component) (i : String) (c : Component) : Prop :=
  (m.id = some i ∨ m.id = none ∧ ∃ k, i = new k) ∧ c = { m.withParent f with id := some i }

namespace Action

/-- The id that an action is about, where a mapper without id is created under a new one. -/
def subject (new : String) (a : Action) : String := a.id?.getD new

/-- What an action leaves under the id that it is about. -/
def leaves (new : String) : Action → Option Component
  | .create m => some { m with id := some (m.id.getD new) }
  | .update m => some m
  | .delete _ => none

/-- Carries out an action, unless what it updates or deletes is missing. -/
def perform (new : String) (held : Collection) : Action → Option Collection
  | .create m => some (held.insert (m.id.getD new) { m with id := some (m.id.getD new) })
  | .update m => m.id.bind fun i => (held.get? i).map fun _ => held.insert i m
  | .delete i => (held.get? i).map fun _ => held.erase i

/-- An action does not delete what a later one updates or deletes. -/
def Spares (a b : Action) : Prop :=
  ∀ i, a = .delete i → b ≠ .delete i ∧ ∀ m, b = .update m → m.id ≠ some i

/-- Whether an action puts a mapper in place. -/
def isPlacing : Action → Bool
  | .create _ | .update _ => true
  | .delete _ => false

end Action

/-- Carries out the actions of a plan in order. For each one a new id is at hand. -/
def perform (new : Nat → String) : List Action → Collection → Option Collection
  | [], held => some held
  | a :: plan, held => (a.perform (new 0) held).bind (perform (fun k => new (k + 1)) plan)

/-- The ids that the actions of a plan are about. -/
def subjects (new : Nat → String) : List Action → List String
  | [] => []
  | a :: plan => a.subject (new 0) :: subjects (fun k => new (k + 1)) plan

variable {mappers : List Component} {held held' final : Collection} {plan : List Action}
  {a b : Action} {n i : String} {new : Nat → String} {ids used : List String}

theorem get?_of : (Collection.of mappers).get? i = withId? i mappers := by
  induction mappers with
  | nil => rfl
  | cons m mappers ih =>
    rw [withId?, List.find?_cons]
    change (m.id.elim (Collection.of mappers) ((Collection.of mappers).insert · m)).get? i = _
    cases hid : m.id with
    | none =>
      simp only [Option.elim_none, reduceCtorEq, decide_false]
      exact ih
    | some j =>
      rw [Option.elim_some, SortedMap.get?_insert, ih]
      by_cases same : i = j
      · simp [same]
      · have other : ¬j = i := fun eq => same eq.symm
        simp [same, other, withId?]

theorem mem_keys_of : i ∈ (Collection.of mappers).keys ↔ i ∈ mappers.filterMap (·.id) := by
  rw [SortedMap.mem_keys, get?_of, isSome_withId?]

theorem get?_of_eq_some (nodup : (mappers.map (·.id)).Nodup) {c : Component} :
    (Collection.of mappers).get? i = some c ↔ c ∈ mappers ∧ c.id = some i := by
  rw [get?_of]
  constructor
  · intro h
    exact ⟨List.mem_of_find?_eq_some h, by simpa using List.find?_some h⟩
  · rintro ⟨hc, hid⟩
    exact withId?_of_mem nodup hc hid

/-! ### One action -/

namespace Action

theorem isSome_perform : (a.perform n held).isSome ↔ a.Addresses held.keys := by
  cases a with
  | create m => simp [perform, Addresses]
  | update m => cases hid : m.id <;> simp [perform, Addresses, hid, SortedMap.mem_keys]
  | delete j => simp [perform, Addresses, SortedMap.mem_keys]

theorem get?_perform (h : a.perform n held = some held') :
    held'.get? i = if i = a.subject n then a.leaves n else held.get? i := by
  cases a with
  | create m =>
    cases h
    exact SortedMap.get?_insert ..
  | update m =>
    obtain ⟨j, hid, h⟩ := Option.bind_eq_some_iff.mp h
    have about : (Action.update m).subject n = j := by simp [subject, id?, hid]
    obtain ⟨-, -, rfl⟩ := Option.map_eq_some_iff.mp h
    rw [about]
    exact SortedMap.get?_insert ..
  | delete j =>
    obtain ⟨-, -, rfl⟩ := Option.map_eq_some_iff.mp h
    exact SortedMap.get?_erase ..

theorem Addresses.mono (h : a.Addresses ids) (sub : ids ⊆ used) : a.Addresses used := by
  cases a with
  | create m => trivial
  | update m =>
    obtain ⟨i, hi, hid⟩ := h
    exact ⟨i, sub hi, hid⟩
  | delete i => exact sub h

theorem Addresses.needs (h : b.Addresses ids) : (∃ m, b = .create m) ∨ ∃ j ∈ ids,
    (∀ there, b.Addresses there ↔ j ∈ there) ∧ ∀ a : Action, a.Spares b ↔ a ≠ .delete j := by
  cases b with
  | create m => exact .inl ⟨m, rfl⟩
  | update m =>
    obtain ⟨j, hj, hid⟩ := h
    refine .inr ⟨j, hj, fun there => ?_, fun a => ?_⟩
    · simp [Addresses, hid]
    · simp [Spares, hid]
      grind
  | delete j =>
    refine .inr ⟨j, h, fun there => Iff.rfl, fun a => ?_⟩
    simp [Spares]
    grind

/-- What a later action needs is there after an action just if it was there before, and the action
spares it. -/
theorem addresses_perform (h : a.perform n held = some held')
    (created : ∀ m, a = .create m → m.id.getD n ∉ ids) (hb : b.Addresses ids) :
    b.Addresses held'.keys ↔ b.Addresses held.keys ∧ a.Spares b := by
  obtain ⟨m, rfl⟩ | ⟨j, hj, needs, spares⟩ := hb.needs
  · simp [Addresses, Spares]
  rw [needs, needs, spares, SortedMap.mem_keys, SortedMap.mem_keys, get?_perform h]
  by_cases about : j = a.subject n
  · rw [if_pos about]
    have here : a.Addresses held.keys := isSome_perform.mp (by rw [h]; rfl)
    cases a with
    | create m => exact absurd hj (about ▸ created m rfl)
    | update m =>
      obtain ⟨i, there, hid⟩ := here
      have same : j = i := by simpa [subject, id?, hid] using about
      subst same
      simp [leaves, SortedMap.mem_keys.mp there]
    | delete i =>
      have same : j = i := about
      simp [leaves, same]
  · have other : a ≠ .delete j := by
      rintro rfl
      exact about rfl
    rw [if_neg about, and_iff_left other]

/-- The action left its mapper under an id. -/
def Left (new : Nat → String) (final : Collection) (a : Action) (i : String) : Prop :=
  ∃ k, i = a.subject (new k) ∧ final.get? i = a.leaves (new k)

theorem Left.id (h : a.Left new final i) : a.id? = some i ∨ a.id? = none ∧ ∃ k, i = new k := by
  obtain ⟨k, rfl, -⟩ := h
  unfold subject
  cases a.id? with
  | none => exact .inr ⟨rfl, k, rfl⟩
  | some j => exact .inl rfl

theorem Left.get?_create {m : Component} (h : (create m).Left new final i) :
    final.get? i = some { m with id := some i } := by
  obtain ⟨k, rfl, there⟩ := h
  exact there

theorem Left.get?_update {m : Component} (h : (update m).Left new final i) :
    final.get? i = some m := by
  obtain ⟨k, -, there⟩ := h
  exact there

theorem spares_of_distinct (distinct : (plan.filterMap id?).Nodup) : plan.Pairwise Spares := by
  refine (List.pairwise_filterMap.mp distinct).imp fun {a b} apart i ha => ?_
  subst ha
  refine ⟨?_, fun m hb hid => ?_⟩
  · rintro rfl
    exact apart i rfl i rfl rfl
  · subst hb
    exact apart i rfl i hid rfl

end Action

theorem Unused.mono (h : Unused new used) (sub : ids ⊆ used) : Unused new ids :=
  ⟨h.injective, fun k there => h.apart k (sub there)⟩

theorem unused_tally (unmarked : ∀ i ∈ used, i.toList.head? ≠ some '~') :
    Unused Server.tally.id used := by
  refine ⟨Server.tally_injective, fun k there => unmarked _ there ?_⟩
  simp [Server.tally, List.replicate_succ]

/-! ### A plan -/

/-- A plan can be carried out just if all that it updates or deletes is there, and none of it is
deleted by an earlier action. What it creates has other ids. -/
theorem perform_isSome_iff (addressed : ∀ a ∈ plan, a.Addresses ids)
    (created : ∀ m, .create m ∈ plan → ∀ i, m.id = some i → i ∉ ids) (apart : ∀ k, new k ∉ ids) :
    (perform new plan held).isSome ↔
      (∀ a ∈ plan, a.Addresses held.keys) ∧ plan.Pairwise Action.Spares := by
  -- What is held changes with each action; that later ones find what they need says both parts.
  induction plan generalizing held new with
  | nil => simp [perform]
  | cons a plan ih =>
    obtain ⟨-, addressed⟩ := List.forall_mem_cons.mp addressed
    rw [perform, List.forall_mem_cons, List.pairwise_cons, ← Action.isSome_perform (n := new 0)]
    cases ha : a.perform (new 0) held with
    | none => simp
    | some held' =>
      have fresh : ∀ m, a = .create m → m.id.getD (new 0) ∉ ids := by
        rintro m rfl
        cases hid : m.id with
        | none => exact apart 0
        | some i => exact created m List.mem_cons_self i hid
      have step := fun b hb => Action.addresses_perform ha fresh (addressed b hb)
      rw [Option.bind_some, ih addressed (fun m hm => created m (List.mem_cons_of_mem _ hm))
        fun k => apart (k + 1)]
      constructor
      · rintro ⟨there, spared⟩
        exact ⟨⟨rfl, fun b hb => ((step b hb).mp (there b hb)).1⟩,
          fun b hb => ((step b hb).mp (there b hb)).2, spared⟩
      · rintro ⟨⟨-, there⟩, spares, spared⟩
        exact ⟨fun b hb => (step b hb).mpr ⟨there b hb, spares b hb⟩, spared⟩

theorem mem_subjects_of_id (ha : a ∈ plan) (hi : a.id? = some i) : i ∈ subjects new plan := by
  induction plan generalizing new with
  | nil => cases ha
  | cons b plan ih =>
    rcases List.mem_cons.mp ha with rfl | ha
    · exact List.mem_cons.mpr (.inl (by simp [Action.subject, hi]))
    · exact List.mem_cons_of_mem _ (ih ha)

theorem id_of_mem_subjects (h : i ∈ subjects new plan) :
    i ∈ plan.filterMap Action.id? ∨ ∃ k, i = new k := by
  induction plan generalizing new with
  | nil => cases h
  | cons a plan ih =>
    rw [List.filterMap_cons]
    rcases List.mem_cons.mp h with rfl | h
    · cases hid : a.id? with
      | none => exact .inr ⟨0, by simp [Action.subject, hid]⟩
      | some j => exact .inl (List.mem_cons.mpr (.inl (by simp [Action.subject, hid])))
    · rcases ih h with there | ⟨k, hk⟩
      · refine .inl ?_
        split
        · exact there
        · exact List.mem_cons_of_mem _ there
      · exact .inr ⟨k + 1, hk⟩

theorem subjects_nodup (unused : Unused new (plan.filterMap Action.id?))
    (distinct : (plan.filterMap Action.id?).Nodup) : (subjects new plan).Nodup := by
  induction plan generalizing new with
  | nil => exact .nil
  | cons a plan ih =>
    have rest : plan.filterMap Action.id? ⊆ (a :: plan).filterMap Action.id? :=
      ((List.sublist_cons_self a plan).filterMap _).subset
    have later : Unused (fun k => new (k + 1)) (plan.filterMap Action.id?) :=
      ⟨fun k l same => Nat.succ.inj (unused.injective _ _ same),
        fun k there => unused.apart (k + 1) (rest there)⟩
    refine List.nodup_cons.mpr ⟨fun again => ?_, ih later
      (distinct.sublist ((List.sublist_cons_self a plan).filterMap _))⟩
    cases hid : a.id? with
    | none =>
      rw [Action.subject, hid, Option.getD_none] at again
      rcases id_of_mem_subjects again with there | ⟨k, hk⟩
      · exact unused.apart 0 (rest there)
      · cases unused.injective _ _ hk
    | some i =>
      rw [Action.subject, hid, Option.getD_some] at again
      rw [List.filterMap_cons_some hid] at distinct unused
      rcases id_of_mem_subjects again with there | ⟨k, hk⟩
      · exact (List.nodup_cons.mp distinct).1 there
      · exact unused.apart (k + 1) (hk ▸ List.mem_cons_self)

theorem get?_perform_of_not_mem (h : perform new plan held = some final)
    (other : i ∉ subjects new plan) : final.get? i = held.get? i := by
  induction plan generalizing held new with
  | nil =>
    cases h
    rfl
  | cons a plan ih =>
    obtain ⟨held', ha, rest⟩ := Option.bind_eq_some_iff.mp h
    obtain ⟨hne, other⟩ := List.ne_and_not_mem_of_not_mem_cons other
    rw [ih rest other, Action.get?_perform ha, if_neg hne]

theorem perform_left (h : perform new plan held = some final) (distinct : (subjects new plan).Nodup) :
    List.Forall₂ (Action.Left new final) plan (subjects new plan) := by
  induction plan generalizing held new with
  | nil => exact .nil
  | cons a plan ih =>
    obtain ⟨held', ha, rest⟩ := Option.bind_eq_some_iff.mp h
    obtain ⟨only, distinct⟩ := List.nodup_cons.mp distinct
    refine .cons ⟨0, rfl, ?_⟩ (related_imp (ih rest distinct) fun b _ i _ hb => ?_)
    · rw [get?_perform_of_not_mem rest only, Action.get?_perform ha, if_pos rfl]
    · obtain ⟨k, hk⟩ := hb
      exact ⟨k + 1, hk⟩

/-- A plan whose actions give different ids leaves the mappers that it creates and updates under
different ids. What else is there when it is carried out was there before, and no action is about
it. -/
theorem perform_effect (unused : Unused new (plan.filterMap Action.id?))
    (distinct : (plan.filterMap Action.id?).Nodup) (h : perform new plan held = some final) :
    ∃ ks : List String, ks.Nodup ∧
      List.Forall₂ (Action.Left new final) (plan.filter Action.isPlacing) ks ∧
      (∀ i c, final.get? i = some c → i ∈ ks ∨
        (∀ a ∈ plan, a.id? ≠ some i) ∧ held.get? i = some c) ∧
      ∀ i, (∀ a ∈ plan, a.id? ≠ some i) → (∀ k, new k ≠ i) → final.get? i = held.get? i := by
  have nodup := subjects_nodup unused distinct
  obtain ⟨ks, sub, placed, all⟩ := related_filter (perform_left h nodup) Action.isPlacing
  refine ⟨ks, nodup.sublist sub, placed, fun i c hc => ?_, fun i free other => ?_⟩
  · by_cases about : i ∈ subjects new plan
    · refine .inl ((all i about).resolve_right ?_)
      -- Nothing is left where a mapper was deleted.
      rintro ⟨a, deletes, k, -, left_⟩
      cases a with
      | create | update => cases deletes
      | delete => cases hc.symm.trans left_
    · refine .inr ⟨fun a ha hi => about (mem_subjects_of_id ha hi), ?_⟩
      rw [← get?_perform_of_not_mem h about, hc]
  · refine get?_perform_of_not_mem h fun about => ?_
    rcases id_of_mem_subjects about with there | ⟨k, hk⟩
    · obtain ⟨a, ha, hi⟩ := List.mem_filterMap.mp there
      exact free a ha hi
    · exact other k hk.symm

end Mapper

end UserFederation
