import UserFederation.Proofs.Exactness
import UserFederation.Proofs.Legible

/-! Changes are shown as the federation that they lead to. The one is rewritten from its JSON value,
where configs are found by the names of the fields that hold them, and the other is rendered from its
configs; what the first shows under a name, the second shows there too
(`changes_shown_as_applied`). -/

namespace UserFederation

open Component

variable {d : Declaration} {before : Option Federation} {cs changes : Changeset} {f : Federation}
  {m : Component} {key : String} {value : Json}

/-! ### Uninterpreted fields -/

/-- The uninterpreted fields of a component have names of their own, as in every component that is
read. -/
def Component.Apart (c : Component) : Prop := ∀ key ∈ knownFields, c.extra.get? key = none

instance (c : Component) : Decidable c.Apart :=
  inferInstanceAs (Decidable (∀ key ∈ knownFields, c.extra.get? key = none))

theorem Component.Apart.of_read {document : Document} (h : read? document = some m) : m.Apart :=
  apart_of_read h

/-- The uninterpreted fields of a federation and its mappers have names of their own. -/
structure Federation.Apart (f : Federation) : Prop where
  component : f.component.Apart
  mappers : ∀ m ∈ f.mappers, m.Apart

/-- The mappers to end up with have the uninterpreted fields of existing ones, or none. -/
theorem Mapper.target_apart {ds existing target : List Component} {prune : Bool}
    (ok : Mapper.target ds existing prune = .ok target) (apart : ∀ m ∈ existing, m.Apart) :
    ∀ m ∈ target, m.Apart := by
  obtain ⟨merged, resolved, rfl⟩ := target_eq_ok_iff.mp ok
  intro m hm
  rcases List.mem_append.mp ((arranged_perm existing merged prune).mem_iff.mp hm) with hm | hm
  · obtain ⟨d, -, hd⟩ := exists_left_of_mem resolved hm
    obtain ⟨found, hr, rfl⟩ := resolve_eq_ok_iff.mp hd
    cases found with
    | none => exact fun _ _ => rfl
    | some b => exact apart b (referent?_mem hr)
  · split at hm
    · cases hm
    · exact apart m (List.mem_filter.mp hm).1

theorem applyTo_apart (h : Changeset.of d before = .ok changes) (apart : ∀ f ∈ before, f.Apart) :
    (changes.applyTo before).Apart := by
  have found : (foundComponent before).Apart ∧ ∀ m ∈ foundMappers before, m.Apart := by
    cases before with
    | none => exact ⟨fun _ _ => rfl, nofun⟩
    | some existing => exact ⟨(apart existing rfl).component, (apart existing rfl).mappers⟩
  refine ⟨?_, ?_⟩
  · rw [applyTo_component h]
    exact found.1
  · cases declared : d.mapperComponents with
    | none =>
      rw [applyTo_mappers_of_none h declared]
      exact found.2
    | some ds => exact Mapper.target_apart (applyTo_mappers_of_some h declared).2 found.2

/-! ### What is shown under a name -/

/-- A mapper is shown in the same way from its JSON value and from its config. -/
theorem Mapper.display_json (apart : m.Apart) : Mapper.display m.json = Mapper.render m := by
  refine (Json.mapFields_object _ _).trans (congrArg Json.ofMap (SortedMap.ext_get? fun key => ?_))
  refine (SortedMap.get?_ofList_map
    (fun key value => if key = "config" then displayConfig false value else value) _ key).trans ?_
  rw [SortedMap.get?_ofList_append, SortedMap.ofList_entries, get?_renderedFields]
  by_cases hk : key = "config"
  · subst hk
    rw [apart "config" (by decide), get?_jsonFields]
    cases hc : m.config with
    | none => simp
    | some config => simp [displayConfig_configJson]
  · simp [hk]

namespace Federation

/-- A federation is shown with its mappers, and otherwise as its component. -/
theorem get?_render (f : Federation) (key : String) : f.render.get? key =
    if key = "mappers" then some (.arr (f.mappers.map Mapper.render))
    else (SortedMap.ofList (f.component.renderedFields true)).get? key := by
  have single : ∀ x : Json, (SortedMap.ofList [("mappers", x)]).get? key =
      if key = "mappers" then some x else none := fun x => SortedMap.get?_insert _ _ _ _
  change (SortedMap.ofList _).get? key = _
  rw [SortedMap.get?_ofList_append, single]
  split <;> simp

theorem get?_render_wireName (apart : f.component.Apart) (field : Field) :
    f.render.get? field.wireName =
      (f.field? field).map (·.jsonWith (renderConfig true) Mapper.render) := by
  rw [get?_render, get?_renderedFields]
  cases field with
  | mappers => rfl
  | config =>
    rw [apart _ (by decide), get?_jsonFields]
    cases hc : f.component.config <;> simp [Field.wireName, field?, hc, Changeset.Change.jsonWith]
  | id | name | providerId | providerType | parentId =>
    rw [apart _ (by decide), get?_jsonFields]
    simp [Field.wireName, field?, Changeset.Change.jsonWith, Function.comp_def]

end Federation

theorem Federation.Field.ofWireName?_eq_some_iff {field : Federation.Field} :
    Federation.Field.ofWireName? key = some field ↔ field.wireName = key := by
  constructor
  · intro h
    simpa using List.find?_some h
  · rintro rfl
    cases field <;> rfl

/-- Changes are shown with each new value under the name of its field. -/
theorem Changeset.get?_render (cs : Changeset) (key : String) : cs.render.get? key =
    (Federation.Field.ofWireName? key).bind fun field =>
      (cs.get? field).map (·.jsonWith (renderConfig true) fun m => Mapper.display m.json) := by
  rw [render_eq, jsonWith, changes, List.map_filterMap]
  have fields := SortedMap.get?_ofList_filterMap Federation.Field.wireName
    (fun field => (cs.get? field).map (·.jsonWith (renderConfig true) fun m => Mapper.display m.json))
    (l := Federation.Field.all) (by decide) key
  simp only [Option.map_map] at fields ⊢
  exact fields

/-! ### Changes and where they lead -/

theorem jsonWith_display {change : Changeset.Change} (apart : f.Apart) {field : Federation.Field}
    (there : f.field? field = some change) :
    (change.jsonWith (renderConfig true) fun m => Mapper.display m.json) =
      change.jsonWith (renderConfig true) Mapper.render := by
  cases change with
  | text | config => rfl
  | mappers ms =>
    have same : ms = f.mappers := by
      cases field <;> simp [Federation.field?] at there
      exact there.symm
    exact congrArg Json.arr (List.map_congr_left fun m hm =>
      Mapper.display_json (apart.mappers m (same ▸ hm)))

/-- What changes show under a name is what the federation that they lead to shows there. -/
theorem get?_render_applyTo (apart : (cs.applyTo before).Apart)
    (shown : cs.render.get? key = some value) :
    (cs.applyTo before).render.get? key = some value := by
  rw [cs.get?_render] at shown
  obtain ⟨field, named, shown⟩ := Option.bind_eq_some_iff.mp shown
  obtain ⟨change, there, rfl⟩ := Option.map_eq_some_iff.mp shown
  obtain rfl := Federation.Field.ofWireName?_eq_some_iff.mp named
  have comes : (cs.applyTo before).field? field = some change := field?_of_get? there
  rw [Federation.get?_render_wireName apart.component, comes, jsonWith_display apart comes]
  rfl

/-- Where nothing was found, all that is shown of the federation that comes to be is what changes,
its mappers aside. -/
theorem get?_render_applyTo_none (cs : Changeset) (other : key ≠ "mappers") :
    (cs.applyTo none).render.get? key = cs.render.get? key := by
  rw [cs.get?_render]
  cases named : Federation.Field.ofWireName? key with
  | none =>
    have unknown : key ∉ knownFields := by
      intro known
      have names : knownFields = Federation.Field.all.dropLast.map (·.wireName) := rfl
      obtain ⟨field, -, same⟩ := List.mem_map.mp (names ▸ known)
      cases named.symm.trans (Federation.Field.ofWireName?_eq_some_iff.mpr same)
    have unconfigured : key ≠ "config" := fun same => unknown (same ▸ by decide)
    rw [Federation.get?_render, if_neg other, get?_renderedFields, if_neg unconfigured,
      get?_jsonFields_of_unknown unknown]
    rfl
  | some field =>
    obtain rfl := Federation.Field.ofWireName?_eq_some_iff.mp named
    rw [Federation.get?_render_wireName fun _ _ => rfl]
    cases field with
    | mappers => exact absurd rfl other
    | id | name | providerId | providerType | parentId | config =>
      simp [Changeset.get?, Federation.field?, Changeset.applyTo, Changeset.Change.jsonWith,
        Function.comp_def]

/-- Changes that were worked out show under each name what the federation that they lead to shows
there. Where nothing was found, the federation shows no more than that and its mappers. -/
theorem changes_shown_as_applied (h : Changeset.of d before = .ok changes)
    (apart : ∀ existing ∈ before, existing.Apart) :
    (∀ key value, changes.render.get? key = some value →
      (changes.applyTo before).render.get? key = some value) ∧
    (before = none → ∃ shown : SortedMap Json, changes.render = .ofMap shown ∧
      (changes.applyTo before).render =
        .ofMap (shown.insert "mappers"
          (.arr ((changes.applyTo before).mappers.map Mapper.render)))) := by
  refine ⟨fun key value => get?_render_applyTo (applyTo_apart h apart), ?_⟩
  rintro rfl
  refine ⟨_, changes.render_eq, congrArg Json.ofMap (SortedMap.ext_get? fun key => ?_)⟩
  rw [SortedMap.get?_insert]
  split
  · rename_i here
    subst here
    exact (Federation.get?_render _ "mappers").trans (if_pos rfl)
  · rename_i other
    refine (get?_render_applyTo_none changes other).trans ?_
    rw [changes.render_eq]
    rfl

namespace Federation.Sample

/-- A mapper with lists of two values and of none, and with a field of its own. -/
def notedMail : Component :=
  { posted with
    config := some (.ofList [("aliases", ["a", "b"]), ("filter", [])])
    extra := .ofList [("subType", .str "x")] }

def noted : Federation :=
  ⟨{ provided.component with extra := .ofList [("subType", .null)] }, [notedMail]⟩

/-- The mapper stays, and a bind credential is set. -/
def bound : Declaration :=
  { asked with config := some (.ofList [(bindCredentialKey, some (.text "x"))]) }

def boundChanges : Changeset := changesWith bound (some noted) (some [notedMail])

theorem bound_changes : Changeset.of bound (some noted) = .ok boundChanges := by
  have target : Mapper.target [{ name := some "mail", providerType := some mapperType }]
      [notedMail] true = .ok [notedMail] :=
    Mapper.target_eq_ok_iff.mpr ⟨[notedMail], .cons rfl .nil, by simp [Mapper.arranged, sortByName]⟩
  exact of_eq_ok rfl rfl target

theorem noted_apart : noted.Apart where
  component := by decide
  mappers m hm := by
    cases List.mem_singleton.mp hm
    decide

end Federation.Sample

open Federation.Sample in
theorem noted_shown_as_applied : Changeset.of bound (some noted) = .ok boundChanges ∧ noted.Apart ∧
    (boundChanges.render.get? "config").isSome ∧ (boundChanges.render.get? "mappers").isSome ∧
    ∀ key value, boundChanges.render.get? key = some value →
      (boundChanges.applyTo (some noted)).render.get? key = some value :=
  ⟨bound_changes, noted_apart, by decide, by decide,
    (changes_shown_as_applied bound_changes fun _ h => Option.some.inj h ▸ noted_apart).1⟩

end UserFederation
