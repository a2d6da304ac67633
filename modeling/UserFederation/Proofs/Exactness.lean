import UserFederation.Proofs.Satisfaction

/-! Changes are exactly what a declaration makes different. Applied to the federation that they were
worked out from, they lay the declaration over it; a field is among them just if this gives it
another value (`changes_exact`). So an update is needed just if there is such a field, or the
mappers to end up with are others than those that there are. -/

namespace UserFederation

open Component

variable {α β : Type} {wanted current : Option α} {d : Declaration} {before : Option Federation}
  {existing f g : Federation} {changes : Changeset}

/-! ### One value -/

/-- A wanted value is a change just if it makes a difference when it is laid over the current one. -/
theorem isSome_changed_iff [DecidableEq α] :
    (Changeset.changed wanted current).isSome ↔ wanted.or current ≠ current := by
  unfold Changeset.changed
  cases wanted with
  | none => cases current <;> simp
  | some w => by_cases same : some w = current <;> simp [same]

/-! ### The fields of a federation -/

namespace Federation

/-- The value of a field of a federation. -/
def field? (f : Federation) : Field → Option Changeset.Change
  | .id => f.component.id.map .text
  | .name => f.component.name.map .text
  | .providerId => f.component.providerId.map .text
  | .providerType => f.component.providerType.map .text
  | .parentId => f.component.parentId.map .text
  | .config => f.component.config.map .config
  | .mappers => some (.mappers f.mappers)

theorem text_injective : Function.Injective (Option.map Changeset.Change.text) :=
  Option.map_injective fun _ _ => Changeset.Change.text.inj

theorem config_injective : Function.Injective (Option.map Changeset.Change.config) :=
  Option.map_injective fun _ _ => Changeset.Change.config.inj

/-- Components with the same uninterpreted fields differ in one of the others if they differ. -/
theorem component_eq_iff (extra : f.component.extra = g.component.extra) :
    f.component = g.component ↔ ∀ field ≠ .mappers, f.field? field = g.field? field := by
  constructor
  · intro same field other
    cases field with
    | mappers => exact absurd rfl other
    | id | name | providerId | providerType | parentId | config => simp only [field?, same]
  · intro same
    refine Component.ext (text_injective ?_) (text_injective ?_) (text_injective ?_)
      (text_injective ?_) (text_injective ?_) (config_injective ?_) extra
    · exact same .id nofun
    · exact same .name nofun
    · exact same .providerId nofun
    · exact same .providerType nofun
    · exact same .parentId nofun
    · exact same .config nofun

end Federation

open Federation

/-! ### All changes of a declaration -/

/-- Changes that were worked out are those of the declared component, with mappers if any are
declared. -/
theorem changes_eq (h : Changeset.of d before = .ok changes) :
    changes = changesWith d before changes.mappers ∧ changes.mappers.isSome = d.mappers.isSome := by
  have declared : d.mappers.isSome = d.mapperComponents.isSome := Option.isSome_map.symm
  rw [declared]
  rw [of_eq] at h
  split at h
  · cases h
    exact ⟨rfl, by simp [changesWith, *]⟩
  · split at h
    · cases h
    · cases h
    · cases h
      exact ⟨rfl, by simp [changesWith, *]⟩

/-- A field other than the mappers is among the changes just if it comes to another value. -/
theorem isSome_get?_iff (h : Changeset.of d before = .ok changes) {field : Field}
    (other : field ≠ .mappers) : (changes.get? field).isSome ↔
      (changes.applyTo before).field? field ≠ (before.getD {}).field? field := by
  have found : (before.getD {}).component = foundComponent before := by cases before <;> rfl
  rw [(changes_eq h).1, applyTo_changesWith]
  cases field with
  | mappers => exact absurd rfl other
  | config =>
    simp only [Changeset.get?, field?, Option.isSome_map, found, config_injective.ne_iff,
      ← or_config, changesWith]
    exact isSome_changed_iff
  | id | name | providerId | providerType | parentId =>
    simp only [Changeset.get?, field?, Option.isSome_map, found, text_injective.ne_iff]
    exact isSome_changed_iff

theorem field?_of_get? {field : Field} {change : Changeset.Change}
    (h : changes.get? field = some change) :
    (changes.applyTo before).field? field = some change := by
  cases field <;> obtain ⟨value, there, rfl⟩ := Option.map_eq_some_iff.mp h <;>
    simp [field?, Changeset.applyTo, there]

/-- A federation has to be updated just if one of its fields changes, or its mappers do. -/
theorem needsUpdate_always_iff (h : Changeset.of d (some existing) = .ok changes) :
    (changes.applyTo (some existing)).needsUpdate existing .always = true ↔
      (∃ field ≠ .mappers, (changes.get? field).isSome) ∨
        ∃ ms, changes.mappers = some ms ∧ ¬List.Forall₂ Component.Same ms existing.mappers := by
  have laid : (changes.applyTo (some existing)).component =
      existing.component.mergedWith d.component := applyTo_component h
  have component : (changes.applyTo (some existing)).component.Same existing.component ↔
      ∀ field ≠ .mappers, ¬(changes.get? field).isSome := by
    have whole : (changes.applyTo (some existing)).component.Same existing.component ↔
        (changes.applyTo (some existing)).component = existing.component := by
      rw [laid]
      exact @CredentialPolicy.counted_mergedWith_same _ _ .always
    have extra : (changes.applyTo (some existing)).component.extra = existing.component.extra := by
      rw [laid]
      rfl
    rw [whole, Federation.component_eq_iff extra]
    exact forall₂_congr fun field other => by
      rw [isSome_get?_iff h other, not_not, Option.getD_some]
  have mappers : List.Forall₂ Component.Same (changes.applyTo (some existing)).mappers
      existing.mappers ↔
        ∀ ms, changes.mappers = some ms → List.Forall₂ Component.Same ms existing.mappers := by
    change List.Forall₂ _ (changes.mappers.getD existing.mappers) _ ↔ _
    cases changes.mappers with
    | none => simp [List.forall₂_same, Component.Same]
    | some ms => simp
  rw [← Bool.not_eq_false, needsUpdate_eq_false, not_and_or]
  refine or_congr ?_ ?_
  · change ¬(changes.applyTo (some existing)).component.Same existing.component ↔ _
    rw [component]
    push Not
    rfl
  · rw [mappers]
    simp

/-- The changes that were worked out lay the declaration over the federation that was found. A field
is among them just if it comes to another value, which is the one that is noted, and the mappers are
among them just if some are declared. A federation that was found has to be updated just if there is
a change of another field, or the mappers to end up with are not the same as those that were found. -/
theorem changes_exact (h : Changeset.of d before = .ok changes) :
    let found := before.getD {}
    let wanted := changes.applyTo before
    wanted.component = found.component.mergedWith d.component ∧
      (match d.mapperComponents with
        | none => wanted.mappers = found.mappers
        | some ds => Mapper.target ds found.mappers d.prune = .ok wanted.mappers) ∧
      (∀ field ≠ .mappers,
        ((changes.get? field).isSome ↔ wanted.field? field ≠ found.field? field)) ∧
      (∀ field change, changes.get? field = some change → wanted.field? field = some change) ∧
      ((changes.get? .mappers).isSome ↔ d.mappers.isSome) ∧
      ∀ existing, before = some existing →
        (wanted.needsUpdate existing .always = true ↔
          (∃ field ≠ .mappers, (changes.get? field).isSome) ∨
            ∃ ms, changes.mappers = some ms ∧ ¬List.Forall₂ Component.Same ms existing.mappers) := by
  have component : (before.getD {}).component = foundComponent before := by cases before <;> rfl
  have mappers : (before.getD {}).mappers = foundMappers before := by cases before <;> rfl
  refine ⟨component ▸ applyTo_component h, ?_, fun field => isSome_get?_iff h,
    fun field change => field?_of_get?, ?_, ?_⟩
  · split
    · rename_i undeclared
      exact mappers ▸ applyTo_mappers_of_none h undeclared
    · rename_i ds listed
      exact mappers ▸ (applyTo_mappers_of_some h listed).2
  · rw [← (changes_eq h).2, Changeset.get?, Option.isSome_map]
  · rintro existing rfl
    exact needsUpdate_always_iff h

namespace Federation.Sample

/-- The federation gets another parent and another setting, and keeps its mapper. -/
def moved : Declaration :=
  { asked with
    parentId := some "north"
    config := some (.ofList [("batchSize", some (.integer 9))]) }

def movedChanges : Changeset := changesWith moved (some provided) (some [posted])

theorem moved_changes : Changeset.of moved (some provided) = .ok movedChanges :=
  of_eq_ok rfl rfl posted_target

end Federation.Sample

open Federation.Sample in
theorem moved_changes_exact : Changeset.of moved (some provided) = .ok movedChanges ∧
    (movedChanges.applyTo (some provided)).component =
      provided.component.mergedWith moved.component ∧
    Mapper.target [{ name := some "mail", providerType := some mapperType }] [posted] true =
      .ok (movedChanges.applyTo (some provided)).mappers ∧
    (movedChanges.applyTo (some provided)).field? .parentId ≠ provided.field? .parentId ∧
    (movedChanges.applyTo (some provided)).field? .name = provided.field? .name ∧
    (movedChanges.applyTo (some provided)).needsUpdate provided .always = true := by
  obtain ⟨component, mappers, fields, -, -, update⟩ := changes_exact moved_changes
  have parent : (movedChanges.get? .parentId).isSome := rfl
  have name : ¬(movedChanges.get? .name).isSome := nofun
  refine ⟨moved_changes, component, mappers, (fields .parentId nofun).mp parent, ?_, ?_⟩
  · exact not_not.mp fun differs => name ((fields .name nofun).mpr differs)
  · exact (update provided rfl).mpr (.inl ⟨.parentId, nofun, parent⟩)

end UserFederation
