import UserFederation.Proofs.Noninterference
import UserFederation.Proofs.Satisfaction

/-! What a report tells of a federation. An object is known by what it holds under each key
(`Json.object_same_iff`), and a rendering holds every part of a component under a key of its own. So
two federations that can be read off their renderings look the same just if they are the same, their
bind credentials aside (`Federation.render_same_iff`). -/

namespace UserFederation

open Component Server

/-! ### Objects by their keys -/

namespace Json

variable {key name : String}

theorem canonicalItems_eq (items : List Json) : canonicalItems items = items.map canonical := by
  induction items with
  | nil => rfl
  | cons x items ih => rw [canonicalItems, ih, List.map_cons]

theorem canonicalFields_eq (fields : List (String × Json)) :
    canonicalFields fields = fields.map fun e => (e.1, e.2.canonical) := by
  induction fields with
  | nil => rfl
  | cons e fields ih => rw [canonicalFields, ih, List.map_cons]

/-- The objects of two maps are the same just if they hold the same under each key. -/
theorem ofMap_same_iff {m n : SortedMap Json} :
    (ofMap m).canonical = (ofMap n).canonical ↔
      ∀ key, (m.get? key).map canonical = (n.get? key).map canonical := by
  have fields : ∀ m : SortedMap Json, (ofMap m).canonical = ofMap (m.mapValues canonical) :=
    fun m => congrArg obj (canonicalFields_eq m.entries)
  rw [fields, fields]
  constructor
  · intro same key
    rw [← SortedMap.get?_mapValues, ← SortedMap.get?_mapValues, SortedMap.get?, obj.inj same]
    rfl
  · intro same
    refine congrArg ofMap (SortedMap.ext_get? fun key => ?_)
    rw [SortedMap.get?_mapValues, SortedMap.get?_mapValues, same key]

theorem object_same_iff {a b : List (String × Json)} :
    (object a).canonical = (object b).canonical ↔
      ∀ key, ((SortedMap.ofList a).get? key).map canonical =
        ((SortedMap.ofList b).get? key).map canonical := ofMap_same_iff

end Json

/-! ### What is shown of a component -/

/-- A component can be read off its rendering: its uninterpreted fields have names of their own, as
in every component that is read, and every list of its config has one value. -/
structure Component.Legible (c : Component) : Prop where
  apart : ∀ key ∈ knownFields, c.extra.get? key = none
  single : ∀ key values, c.configList? key = some values → ∃ value, values = [value]

namespace Component

variable {a b c : Component} {key : String}

theorem keys_fieldValues? {entries : List (String × Document)} {fields : List (String × Json)}
    (h : Document.fieldValues? entries = some fields) : fields.map (·.1) = entries.map (·.1) := by
  induction entries generalizing fields with
  | nil =>
    cases h
    rfl
  | cons e entries ih =>
    obtain ⟨k, document⟩ := e
    simp only [Document.fieldValues?, Option.bind_eq_bind, Option.pure_def,
      Option.bind_eq_some_iff] at h
    obtain ⟨value, -, rest, hrest, same⟩ := h
    cases same
    rw [List.map_cons, List.map_cons, ih hrest]

theorem get?_ofList_eq_none {fields : List (String × Json)} (h : key ∉ fields.map (·.1)) :
    (SortedMap.ofList fields).get? key = none := by
  induction fields with
  | nil => rfl
  | cons e fields ih =>
    rw [List.map_cons, List.mem_cons, not_or] at h
    rw [← List.singleton_append, SortedMap.get?_ofList_append, ih h.2, Option.none_or]
    exact SortedMap.get?_insert_of_ne _ _ h.1

/-- The uninterpreted fields of a component that is read have names of their own. -/
theorem apart_of_read {document : Document} (h : read? document = some c) :
    ∀ key ∈ knownFields, c.extra.get? key = none := by
  intro key known
  unfold read? at h
  split at h
  · rename_i entries
    simp only [Option.bind_eq_bind, Option.bind_eq_some_iff, Option.pure_def] at h
    obtain ⟨_, -, _, -, _, -, _, -, _, -, _, -, _, -, fields, others, same⟩ := h
    cases same
    refine get?_ofList_eq_none ?_
    rw [keys_fieldValues? others]
    simp [known]
  · cases h

/-- What is shown of a component under a key. -/
def shownAt (c : Component) (key : String) : Option Json :=
  (SortedMap.ofList (c.renderedFields false)).get? key

/-- What a rendering holds under a key: the config as it is shown, or else an uninterpreted field, or
else a known one. -/
theorem get?_renderedFields (masked : Bool) (c : Component) (key : String) :
    (SortedMap.ofList (c.renderedFields masked)).get? key =
      (if key = "config" then c.config.map (renderConfig masked) else none).or
        ((c.extra.get? key).or ((SortedMap.ofList c.jsonFields).get? key)) := by
  rw [renderedFields, SortedMap.get?_ofList_append, SortedMap.get?_ofList_append,
    SortedMap.ofList_entries, SortedMap.get?_ofList_optional]

theorem shownAt_eq : c.shownAt key =
    (if key = "config" then c.config.map (renderConfig false) else none).or
      ((c.extra.get? key).or ((SortedMap.ofList c.jsonFields).get? key)) :=
  get?_renderedFields false c key

/-- The known fields of a component under their keys. -/
theorem get?_jsonFields : (SortedMap.ofList c.jsonFields).get? key =
    if key = "id" then c.id.map .str
    else if key = "name" then c.name.map .str
    else if key = "providerId" then c.providerId.map .str
    else if key = "providerType" then c.providerType.map .str
    else if key = "parentId" then c.parentId.map .str
    else if key = "config" then c.config.map configJson
    else none := by
  simp only [jsonFields, SortedMap.get?_ofList_append, SortedMap.get?_ofList_optional]
  split_ifs <;> simp_all

theorem get?_jsonFields_of_unknown (unknown : key ∉ knownFields) :
    (SortedMap.ofList c.jsonFields).get? key = none := by
  simp only [knownFields, List.mem_cons, List.not_mem_nil, or_false, not_or] at unknown
  simp [get?_jsonFields, unknown]

theorem shownAt_of_unknown (unknown : key ∉ knownFields) : c.shownAt key = c.extra.get? key := by
  simp only [knownFields, List.mem_cons, List.not_mem_nil, or_false, not_or] at unknown
  simp [shownAt_eq, get?_jsonFields, unknown]

/-- A component that can be read off is shown with each known field under its key. -/
theorem Legible.shownAt_known (h : c.Legible) : c.shownAt "id" = c.id.map .str ∧
    c.shownAt "name" = c.name.map .str ∧ c.shownAt "providerId" = c.providerId.map .str ∧
    c.shownAt "providerType" = c.providerType.map .str ∧
    c.shownAt "parentId" = c.parentId.map .str ∧
    c.shownAt "config" = c.config.map (renderConfig false) := by
  have config : c.shownAt "config" = c.config.map (renderConfig false) := by
    rw [shownAt_eq, h.apart _ (by decide), get?_jsonFields]
    cases c.config <;> rfl
  refine ⟨?_, ?_, ?_, ?_, ?_, config⟩ <;>
    rw [shownAt_eq, h.apart _ (by decide), get?_jsonFields] <;> rfl

/-- A config whose lists have one value each can be read off its rendering. -/
theorem config_of_rendered {p q : WireConfig}
    (hp : ∀ key values, p.get? key = some values → ∃ value, values = [value])
    (hq : ∀ key values, q.get? key = some values → ∃ value, values = [value])
    (same : (renderConfig false p).canonical = (renderConfig false q).canonical) : p = q := by
  refine SortedMap.ext_get? fun key => ?_
  have values := Json.ofMap_same_iff.mp same key
  simp only [Bool.false_eq_true, if_false, WireConfig.firstValues, SortedMap.get?_mapValues,
    Option.map_map] at values
  cases hpk : p.get? key with
  | none =>
    rw [hpk, Option.map_none, eq_comm, Option.map_eq_none_iff] at values
    rw [values]
  | some list =>
    obtain ⟨value, rfl⟩ := hp key list hpk
    rw [hpk, Option.map_some, eq_comm, Option.map_eq_some_iff] at values
    obtain ⟨list', hqk, shown⟩ := values
    obtain ⟨value', rfl⟩ := hq key list' hqk
    cases shown
    rw [hqk]

theorem Legible.config_eq (ha : a.Legible) (hb : b.Legible)
    (same : (a.config.map (renderConfig false)).map Json.canonical =
      (b.config.map (renderConfig false)).map Json.canonical) : a.config = b.config := by
  have single : ∀ {c : Component} {config : WireConfig}, c.Legible → c.config = some config →
      ∀ key values, config.get? key = some values → ∃ value, values = [value] := by
    intro c config h hc key values hv
    refine h.single key values ?_
    rw [configList?, hc]
    exact hv
  cases hca : a.config with
  | none =>
    rw [hca, Option.map_none, Option.map_none, eq_comm, Option.map_eq_none_iff,
      Option.map_eq_none_iff] at same
    exact same.symm
  | some p =>
    rw [hca, Option.map_map, Option.map_some, Option.map_map, eq_comm,
      Option.map_eq_some_iff] at same
    obtain ⟨q, hcb, shown⟩ := same
    rw [hcb, config_of_rendered (single ha hca) (single hb hcb) shown.symm]

theorem same_iff : a.Same b ↔ { a with extra := .empty } = { b with extra := .empty } ∧
    ∀ key, (a.extra.get? key).map Json.canonical = (b.extra.get? key).map Json.canonical := by
  have extra : a.extra.mapValues Json.canonical = b.extra.mapValues Json.canonical ↔
      ∀ key, (a.extra.get? key).map Json.canonical = (b.extra.get? key).map Json.canonical := by
    simp only [← SortedMap.get?_mapValues]
    exact ⟨fun same key => congrArg (·.get? key) same, SortedMap.ext_get?⟩
  rw [← extra]
  constructor
  · intro same
    obtain ⟨id, name, providerId, providerType, parentId, config, alike⟩ :=
      Component.ext_iff.mp (show a.canonical = b.canonical from same)
    exact ⟨Component.ext id name providerId providerType parentId config rfl, alike⟩
  · rintro ⟨known, alike⟩
    obtain ⟨id, name, providerId, providerType, parentId, config, -⟩ := Component.ext_iff.mp known
    exact Component.ext id name providerId providerType parentId config alike

/-- Components that are the same are shown the same. -/
theorem Same.shownAt (h : a.Same b) (key : String) :
    (a.shownAt key).map Json.canonical = (b.shownAt key).map Json.canonical := by
  obtain ⟨known, extra⟩ := same_iff.mp h
  have fields : a.jsonFields = b.jsonFields :=
    show jsonFields { a with extra := .empty } = jsonFields { b with extra := .empty } from
      congrArg jsonFields known
  have config : a.config = b.config :=
    show ({ a with extra := .empty } : Component).config =
      ({ b with extra := .empty } : Component).config from congrArg Component.config known
  simp only [shownAt_eq, fields, config, Option.map_or, extra]

/-- Components that can be read off and are shown the same are the same. -/
theorem Legible.same_of_shownAt (ha : a.Legible) (hb : b.Legible)
    (same : ∀ key, (a.shownAt key).map Json.canonical = (b.shownAt key).map Json.canonical) :
    a.Same b := by
  have text : ∀ {x y : Option String}, (x.map Json.str).map Json.canonical =
      (y.map Json.str).map Json.canonical → x = y := by
    intro x y h
    cases x <;> cases y <;> cases h <;> rfl
  obtain ⟨ida, namea, providerIda, typea, parenta, configa⟩ := ha.shownAt_known
  obtain ⟨idb, nameb, providerIdb, typeb, parentb, configb⟩ := hb.shownAt_known
  have config : a.config = b.config := ha.config_eq hb (by rw [← configa, ← configb, same])
  refine same_iff.mpr ⟨?_, fun key => ?_⟩
  · refine Component.ext (text ?_) (text ?_) (text ?_) (text ?_) (text ?_) config rfl
    · rw [← ida, ← idb, same]
    · rw [← namea, ← nameb, same]
    · rw [← providerIda, ← providerIdb, same]
    · rw [← typea, ← typeb, same]
    · rw [← parenta, ← parentb, same]
  · by_cases known : key ∈ knownFields
    · rw [ha.apart key known, hb.apart key known]
    · rw [← shownAt_of_unknown known, ← shownAt_of_unknown known, same]

theorem render_same_iff (ha : a.Legible) (hb : b.Legible) :
    (Mapper.render a).canonical = (Mapper.render b).canonical ↔ a.Same b :=
  Json.object_same_iff.trans ⟨ha.same_of_shownAt hb, Same.shownAt⟩

theorem Legible.redact (h : c.Legible) : (redact c).Legible := by
  refine ⟨h.apart, fun key values hv => ?_⟩
  rw [configList?_redact] at hv
  split at hv
  · obtain ⟨-, -, rfl⟩ := Option.map_eq_some_iff.mp hv
    exact ⟨secretMask, rfl⟩
  · exact h.single key values hv

end Component

/-! ### What is shown of a federation -/

namespace Federation

variable {f g : Federation} {ms ns : List Component}

/-- The component and the mappers of a federation can be read off its rendering. -/
structure Legible (f : Federation) : Prop where
  component : f.component.Legible
  unlisted : f.component.extra.get? "mappers" = none
  mappers : ∀ m ∈ f.mappers, m.Legible

/-- A federation with the mask in place of its bind credential. -/
def veiled (f : Federation) : Federation := { f with component := redact f.component }

/-- Two renderings are the same just if the mappers and all other fields are. -/
theorem render_same : f.render.canonical = g.render.canonical ↔
    List.Forall₂ (fun m n => (Mapper.render m).canonical = (Mapper.render n).canonical)
        f.mappers g.mappers ∧
      ∀ key ≠ "mappers", ((redact f.component).shownAt key).map Json.canonical =
        ((redact g.component).shownAt key).map Json.canonical := by
  have single : ∀ (x : Json) (key : String), (SortedMap.ofList [("mappers", x)]).get? key =
      if key = "mappers" then some x else none := fun x key => SortedMap.get?_insert _ _ _ _
  rw [← map_same_iff]
  simp only [render, object_renderedFields, Json.object_same_iff, SortedMap.get?_ofList_append,
    single, shownAt]
  constructor
  · intro same
    refine ⟨?_, fun key other => by simpa [other] using same key⟩
    simpa [Json.canonical, Json.canonicalItems_eq, Function.comp_def] using same "mappers"
  · rintro ⟨mappers, others⟩ key
    by_cases hk : key = "mappers"
    · simpa [hk, Json.canonical, Json.canonicalItems_eq, Function.comp_def] using mappers
    · simpa [hk] using others key hk

/-- Federations that are the same, their bind credentials aside, look the same. -/
theorem Same.render (h : f.veiled.Same g.veiled) : f.render.canonical = g.render.canonical := by
  obtain ⟨component, mappers⟩ := same_iff.mp h
  refine render_same.mpr ⟨mappers.imp fun _ _ same => ?_, fun key _ => component.shownAt key⟩
  exact Json.object_same_iff.mpr same.shownAt

/-- Of federations that can be read off, those that look the same are the same, their bind
credentials aside. -/
theorem render_same_iff (hf : f.Legible) (hg : g.Legible) :
    f.render.canonical = g.render.canonical ↔ f.veiled.Same g.veiled := by
  refine ⟨fun looks => ?_, Same.render⟩
  obtain ⟨mappers, others⟩ := render_same.mp looks
  have component : (redact f.component).Same (redact g.component) := by
    refine hf.component.redact.same_of_shownAt hg.component.redact fun key => ?_
    by_cases hk : key = "mappers"
    · subst hk
      have unknown : "mappers" ∉ knownFields := by decide
      rw [shownAt_of_unknown unknown, shownAt_of_unknown unknown]
      exact congrArg (Option.map Json.canonical) (hf.unlisted.trans hg.unlisted.symm)
    · exact others key hk
  refine same_iff.mpr ⟨component, related_imp mappers fun m hm n hn look => ?_⟩
  exact (Component.render_same_iff (hf.mappers m hm) (hg.mappers n hn)).mp look

/-- A rendering tells which keys the config has. -/
theorem configKeys_of_render (looks : f.render.canonical = g.render.canonical)
    (hf : f.component.config.isSome) (hg : g.component.config.isSome) (key : String) :
    (f.component.configList? key).isSome = (g.component.configList? key).isSome := by
  have keys : ∀ (c : Component) (p : WireConfig), (redact c).config = some p →
      (c.configList? key).isSome = (p.firstValues.get? key).isSome := by
    intro c p hp
    have list : (redact c).configList? key = p.get? key := by rw [configList?, hp]; rfl
    rw [WireConfig.firstValues, SortedMap.get?_mapValues, Option.isSome_map, ← list,
      configList?_redact]
    split <;> simp
  obtain ⟨p, hp⟩ := Option.isSome_iff_exists.mp (isSome_config_redact.trans hf)
  obtain ⟨q, hq⟩ := Option.isSome_iff_exists.mp (isSome_config_redact.trans hg)
  have configs := (render_same.mp looks).2 "config" (by decide)
  rw [shownAt_eq, shownAt_eq, if_pos rfl, if_pos rfl, hp, hq] at configs
  have values := Json.ofMap_same_iff.mp (Option.some.inj configs) key
  have there := congrArg Option.isSome values
  rw [Option.isSome_map, Option.isSome_map] at there
  rw [keys _ p hp, keys _ q hq]
  exact there

end Federation

end UserFederation
