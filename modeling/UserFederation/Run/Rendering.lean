import UserFederation.Changeset
import UserFederation.Component.Json

/-! What is shown of federations and changes: each config key with its first value, and the bind
credential of the federation masked. -/

namespace UserFederation

/-- Shows the mask in place of a bind credential. -/
def maskCredential (config : SortedMap Json) : SortedMap Json :=
  if config.contains bindCredentialKey then config.insert bindCredentialKey (.str secretMask)
  else config

/-- A config as it is shown. -/
def renderConfig (masked : Bool) (config : WireConfig) : Json :=
  let shown := config.firstValues
  .ofMap (if masked then maskCredential shown else shown)

/-- The JSON value of a config as it is shown: each list becomes its first value. -/
def displayConfig (masked : Bool) (config : Json) : Json :=
  config.mapFields fun key values =>
    if masked ∧ key = bindCredentialKey then .str secretMask else values.firstItem

theorem entries_maskCredential (config : SortedMap Json) :
    (maskCredential config).entries = config.entries.map fun e =>
      if e.1 = bindCredentialKey then (bindCredentialKey, .str secretMask) else e := by
  unfold maskCredential
  split
  · rename_i there
    obtain ⟨value, there⟩ := Option.isSome_iff_exists.mp there
    exact SortedMap.entries_insert_of_get? there _
  · rename_i missing
    refine ((List.map_congr_left fun e he => if_neg ?_).trans (List.map_id' _)).symm
    intro same
    have there : config.get? e.1 = some e.2 := SortedMap.get?_eq_some_iff.mpr he
    rw [same] at there
    exact missing (by rw [SortedMap.contains, there]; rfl)

/-- A config is shown in the same way from its lists and from its JSON value. -/
theorem displayConfig_configJson (masked : Bool) (config : WireConfig) :
    displayConfig masked (Component.configJson config) = renderConfig masked config := by
  have first : ∀ values : List String,
      (Json.arr (values.map .str)).firstItem = .ofOption values.head? := by
    intro values
    cases values <;> rfl
  change Json.obj _ = Json.obj _
  cases masked with
  | false => simp [SortedMap.mapValues, WireConfig.firstValues, first, Function.comp_def]
  | true =>
    simp only [if_true, entries_maskCredential, SortedMap.mapValues, WireConfig.firstValues,
      List.map_map]
    refine congrArg Json.obj (List.map_congr_left fun e _ => ?_)
    simp only [Function.comp, first, true_and]
    split
    · rename_i here
      rw [here]
    · rfl

/-- The fields of a component as they are shown. -/
def Component.renderedFields (masked : Bool) (c : Component) : List (String × Json) :=
  c.jsonFields ++ c.extra.entries ++
    c.config.toList.map fun config => ("config", renderConfig masked config)

/-- A mapper as it is shown. -/
def Mapper.render (m : Component) : Json := .object (m.renderedFields false)

/-- The JSON value of a mapper as it is shown. -/
def Mapper.display (m : Json) : Json :=
  m.mapFields fun key value => if key = "config" then displayConfig false value else value

namespace Federation

/-- A federation as it is shown. -/
def render (f : Federation) : Json :=
  .object (f.component.renderedFields true ++ [("mappers", .arr (f.mappers.map Mapper.render))])

/-- A federation that may be missing, as it is shown. -/
def renderOption : Option Federation → Json
  | some f => f.render
  | none => .emptyObject

end Federation

namespace Changeset

/-- The JSON value of a new value, by a function for configs and one for mappers. -/
def Change.jsonWith (config : WireConfig → Json) (mapper : Component → Json) : Change → Json
  | .text value => .str value
  | .config value => config value
  | .mappers value => .arr (value.map mapper)

/-- The JSON value of a changeset, by a function for configs and one for mappers. -/
def jsonWith (config : WireConfig → Json) (mapper : Component → Json) (cs : Changeset) : Json :=
  .object (cs.changes.map fun (field, change) => (field.wireName, change.jsonWith config mapper))

/-- The JSON value of a changeset. -/
def json (cs : Changeset) : Json := cs.jsonWith Component.configJson Component.json

/-- A changeset as it is shown: its JSON value, where the fields that have configs are found by their
names and rewritten. -/
def render (cs : Changeset) : Json :=
  cs.json.mapFields fun key value =>
    match Federation.Field.ofWireName? key with
    | some .config => displayConfig true value
    | some .mappers => value.mapItems Mapper.display
    | _ => value

/-- The fields of a changeset are shown one by one, each new value in its own way. -/
theorem render_eq (cs : Changeset) :
    cs.render = cs.jsonWith (renderConfig true) fun m => Mapper.display m.json := by
  rw [render, json, jsonWith, Json.mapFields_object, List.map_map]
  refine congrArg Json.object (List.map_congr_left fun ⟨field, change⟩ member => ?_)
  obtain ⟨field', -, there⟩ := List.mem_filterMap.mp member
  obtain ⟨change', there, same⟩ := Option.map_eq_some_iff.mp there
  cases same
  cases field <;> obtain ⟨value, -, rfl⟩ := Option.map_eq_some_iff.mp there
  case config => exact congrArg (Prod.mk _) (displayConfig_configJson true value)
  case mappers => exact congrArg (fun items => (_, Json.arr items)) (List.map_map ..)
  all_goals rfl

end Changeset

end UserFederation
