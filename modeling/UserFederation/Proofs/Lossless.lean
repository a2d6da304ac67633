import UserFederation.Proofs.Legible
import UserFederation.Proofs.Wire

/-! Reading what is written and writing what is read. A component is read back from what is written
of it, and what is written of one that was read is all that it was read from, up to the known fields
that were `null`. The same holds of federations and their mappers (`wire_lossless`). -/

namespace UserFederation

/-! ### Components -/

namespace Component

open Document

variable {c : Component} {d : Document} {entries : List (String × Document)} {key : String}

theorem config_wire : Wire readConfig? configJson := text_wire.items.mapOf

/-- A component as a program holds it, with uninterpreted fields of names of their own. -/
structure Writable (c : Component) : Prop where
  apart : ∀ key ∈ knownFields, c.extra.get? key = none
  ordered : ∀ key x, c.extra.get? key = some x → x.Ordered

/-- The fields of an object without those of a component that are `null`. -/
def withoutNulls (m : SortedMap Json) : SortedMap Json :=
  m.filter fun key x => decide (key ∈ knownFields → x ≠ .null)

/-- All fields that are written of a component. -/
def wireFields (c : Component) : SortedMap Json := .ofList (c.jsonFields ++ c.extra.entries)

theorem get?_wireFields (c : Component) (key : String) :
    c.wireFields.get? key = (c.extra.get? key).or ((SortedMap.ofList c.jsonFields).get? key) := by
  rw [wireFields, SortedMap.get?_ofList_append, SortedMap.ofList_entries]

theorem ordered_jsonFields : ∀ e ∈ c.jsonFields, e.2.Ordered := by
  intro e he
  simp only [jsonFields, List.mem_append, List.mem_map, Option.mem_toList] at he
  rcases he with ((((⟨s, -, rfl⟩ | ⟨s, -, rfl⟩) | ⟨s, -, rfl⟩) | ⟨s, -, rfl⟩) | ⟨s, -, rfl⟩) |
    ⟨config, -, rfl⟩
  iterate 5 exact text_wire.ordered s
  exact config_wire.ordered config

theorem Writable.ordered_wireFields (h : c.Writable) : Json.OrderedFields c.wireFields.entries := by
  refine Json.orderedFields_iff.mpr fun e he => ?_
  rcases List.mem_append.mp (SortedMap.mem_of_mem_ofList he) with known | extra
  · exact ordered_jsonFields e known
  · exact h.ordered e.1 e.2 (SortedMap.get?_eq_some_iff.mpr extra)

/-- A component is read just if each known field is and the others say something. -/
theorem read?_map_eq_some_iff : read? (.map entries) = some c ↔
    fieldOf? text? entries "id" = some c.id ∧
    fieldOf? text? entries "name" = some c.name ∧
    fieldOf? text? entries "providerId" = some c.providerId ∧
    fieldOf? text? entries "providerType" = some c.providerType ∧
    fieldOf? text? entries "parentId" = some c.parentId ∧
    fieldOf? readConfig? entries "config" = some c.config ∧
    ∃ others, fieldValues? (entries.filter fun e => !knownFields.contains e.1) = some others ∧
      c.extra = .ofList others := by
  simp only [read?, fieldOf?, Option.bind_eq_bind, Option.bind_eq_some_iff, Option.pure_def]
  constructor
  · rintro ⟨id, hid, name, hname, providerId, hproviderId, providerType, hproviderType, parentId,
      hparentId, o, ho, config, hconfig, others, hothers, same⟩
    cases same
    exact ⟨hid, hname, hproviderId, hproviderType, hparentId, ⟨o, ho, hconfig⟩, others, hothers,
      rfl⟩
  · rintro ⟨hid, hname, hproviderId, hproviderType, hparentId, ⟨o, ho, hconfig⟩, others, hothers,
      hextra⟩
    exact ⟨_, hid, _, hname, _, hproviderId, _, hproviderType, _, hparentId, o, ho, _, hconfig,
      others, hothers, by rw [← hextra]⟩

/-- Writing a component and reading it gives it back. -/
theorem Writable.read_json (h : c.Writable) : read? c.json.document = some c := by
  have known : ∀ key ∈ knownFields,
      c.wireFields.get? key = (SortedMap.ofList c.jsonFields).get? key := by
    intro key member
    rw [get?_wireFields, h.apart key member, Option.none_or]
  have others : (c.wireFields.filter fun key _ => !knownFields.contains key) = c.extra := by
    refine SortedMap.ext_get? fun key => ?_
    rw [SortedMap.get?_filter_key c.wireFields fun key => !knownFields.contains key]
    by_cases member : key ∈ knownFields
    · simp [member, h.apart key member]
    · rw [if_pos (by simpa using member), get?_wireFields, get?_jsonFields_of_unknown member,
        Option.or_none]
  change read? (.map (Json.fieldDocuments c.wireFields.entries)) = some c
  refine read?_map_eq_some_iff.mpr ⟨text_wire.field_reads ?_, text_wire.field_reads ?_,
    text_wire.field_reads ?_, text_wire.field_reads ?_, text_wire.field_reads ?_,
    config_wire.field_reads ?_, c.extra.entries, ?_, (SortedMap.ofList_entries c.extra).symm⟩
  iterate 6 rw [known _ (by decide), get?_jsonFields]; rfl
  have told := fieldValues?_filter (fun key => !knownFields.contains key)
    (Json.fieldValues?_fieldDocuments _ h.ordered_wireFields)
  rw [← others]
  exact told

/-- The component without an uninterpreted field. -/
def withoutExtra (c : Component) (key : String) : Component :=
  { c with extra := c.extra.erase key }

theorem Writable.withoutExtra (h : c.Writable) (key : String) : (c.withoutExtra key).Writable where
  apart key' known := by
    rw [Component.withoutExtra, SortedMap.get?_erase, h.apart key' known, ite_self]
  ordered key' x there := by
    rw [Component.withoutExtra, SortedMap.get?_erase] at there
    split at there
    · cases there
    · exact h.ordered key' x there

/-- What is read of a component is all that the entries say, up to its fields that are `null`. -/
theorem wireFields_of_read (h : read? (.map entries) = some c) : ∃ fields,
    fieldValues? entries = some fields ∧
      c.wireFields = withoutNulls (.ofList fields) := by
  have apart := apart_of_read h
  obtain ⟨hid, hname, hproviderId, hproviderType, hparentId, hconfig, others, hothers, extra⟩ :=
    read?_map_eq_some_iff.mp h
  have id := text_wire.field_tells hid
  have name := text_wire.field_tells hname
  have providerId := text_wire.field_tells hproviderId
  have providerType := text_wire.field_tells hproviderType
  have parentId := text_wire.field_tells hparentId
  have config := config_wire.field_tells hconfig
  -- Each known field was read by itself, the others together.
  have told : ∀ e ∈ entries, ∃ x, e.2.value? = some x := by
    intro e he
    by_cases known : e.1 ∈ knownFields
    · simp only [knownFields, List.mem_cons, List.not_mem_nil, or_false] at known
      rcases known with key | key | key | key | key | key
      · exact id.1 e he key
      · exact name.1 e he key
      · exact providerId.1 e he key
      · exact providerType.1 e he key
      · exact parentId.1 e he key
      · exact config.1 e he key
    · exact exists_fieldValues?_iff.mp ⟨others, hothers⟩ e
        (List.mem_filter.mpr ⟨he, by simpa using known⟩)
  obtain ⟨fields, hfields⟩ := exists_fieldValues?_iff.mpr told
  refine ⟨fields, hfields, SortedMap.ext_get? fun key => ?_⟩
  rw [get?_wireFields, withoutNulls, SortedMap.get?_filter]
  by_cases known : key ∈ knownFields
  · rw [apart key known, Option.none_or, get?_jsonFields]
    simp only [known, forall_const]
    simp only [knownFields, List.mem_cons, List.not_mem_nil, or_false] at known
    rcases known with rfl | rfl | rfl | rfl | rfl | rfl
    · exact (id.2 fields hfields).symm
    · exact (name.2 fields hfields).symm
    · exact (providerId.2 fields hfields).symm
    · exact (providerType.2 fields hfields).symm
    · exact (parentId.2 fields hfields).symm
    · exact (config.2 fields hfields).symm
  · have rest : others = fields.filter fun e => !knownFields.contains e.1 :=
      Option.some.inj (hothers.symm.trans
        (fieldValues?_filter (fun key => !knownFields.contains key) hfields))
    rw [get?_jsonFields_of_unknown known, Option.or_none, extra, rest,
      SortedMap.get?_ofList_filter (fun key => !knownFields.contains key) (by simpa using known)]
    cases (SortedMap.ofList fields).get? key <;> simp [known, Option.filter]

/-- What is read is a component as a program holds it. -/
theorem writable_of_read (h : read? d = some c) : c.Writable where
  apart := apart_of_read h
  ordered key x there := by
    unfold read? at h
    split at h
    · rename_i entries
      obtain ⟨-, -, -, -, -, -, others, hothers, extra⟩ := read?_map_eq_some_iff.mp h
      rw [extra] at there
      exact Json.orderedFields_iff.mp (ordered_of_fieldValues? _ hothers) (key, x)
        (SortedMap.mem_of_mem_ofList (SortedMap.get?_eq_some_iff.mp there))
    · cases h

theorem tells_of_read (h : read? d = some c) :
    ∃ m, d.value? = some (.ofMap m) ∧ c.json = .ofMap (withoutNulls m) := by
  unfold read? at h
  split at h
  · rename_i entries
    obtain ⟨fields, said, same⟩ := wireFields_of_read h
    exact ⟨.ofList fields, congrArg (Option.map Json.object) said, congrArg Json.ofMap same⟩
  · cases h

end Component

/-! ### Federations -/

namespace Federation

open Document Component

variable {f : Federation} {d : Document} {entries : List (String × Document)} {key : String}

/-- A federation is read just if its mappers and, beside them, its component are. -/
theorem read?_map_eq_some_iff : read? (.map entries) = some f ↔
    (∃ o, entry? entries "mappers" = some o ∧
      (o.elim (some []) fun d => d.items? Component.read?) = some f.mappers) ∧
    Component.read? (.map (entries.filter (·.1 ≠ "mappers"))) = some f.component := by
  simp only [read?, Option.bind_eq_bind, Option.pure_def]
  rw [Option.bind_eq_some_iff]
  constructor
  · rintro ⟨o, ho, parts⟩
    cases o <;> simp only [Option.bind_eq_some_iff] at parts <;>
      obtain ⟨mappers, hmappers, component, hcomponent, same⟩ := parts <;> cases same
    · exact ⟨⟨none, ho, hmappers⟩, hcomponent⟩
    · exact ⟨⟨some _, ho, hmappers⟩, hcomponent⟩
  · rintro ⟨⟨o, ho, hmappers⟩, hcomponent⟩
    refine ⟨o, ho, ?_⟩
    cases o <;> simp only [Option.bind_eq_some_iff] <;>
      exact ⟨f.mappers, hmappers, f.component, hcomponent, rfl⟩

/-- All fields that are written of a federation. -/
def wireFields (f : Federation) : SortedMap Json :=
  f.component.wireFields.insert "mappers" (.arr (f.mappers.map Component.json))

theorem json_eq (f : Federation) : f.json = .ofMap f.wireFields := by
  refine congrArg Json.ofMap (SortedMap.ext_get? fun key => ?_)
  have last : ∀ x : Json, (SortedMap.ofList [("mappers", x)]).get? key =
      if key = "mappers" then some x else none :=
    fun x => SortedMap.get?_insert .empty "mappers" key x
  rw [SortedMap.get?_ofList_append, last, wireFields, SortedMap.get?_insert]
  split
  · rfl
  · exact Option.none_or

/-- Writing a federation and reading it gives back all but the field of its component that its
mappers take the place of. -/
theorem read_json (h : f.component.Writable) (mappers : ∀ c ∈ f.mappers, c.Writable) :
    read? f.json.document = some ⟨f.component.withoutExtra "mappers", f.mappers⟩ := by
  have component : (f.wireFields.filter fun key _ => key ≠ "mappers") =
      (f.component.withoutExtra "mappers").wireFields := by
    refine SortedMap.ext_get? fun key => ?_
    rw [SortedMap.get?_filter_key f.wireFields fun key => key ≠ "mappers", wireFields,
      SortedMap.get?_insert, get?_wireFields, get?_wireFields, withoutExtra, SortedMap.get?_erase]
    by_cases same : key = "mappers"
    · subst same
      exact (get?_jsonFields_of_unknown (by decide)).symm
    · simp only [same, ne_eq, not_false_eq_true, decide_true, if_true, if_false]
      rfl
  rw [json_eq]
  change read? (.map (Json.fieldDocuments f.wireFields.entries)) = _
  refine read?_map_eq_some_iff.mpr ⟨⟨_, entry?_fieldDocuments .., ?_⟩, ?_⟩
  · rw [wireFields, SortedMap.get?_insert_self]
    exact items?_reads fun c hc => (mappers c hc).read_json
  · rw [Json.fieldDocuments_eq, List.filter_map, ← (h.withoutExtra "mappers").read_json]
    change Component.read?
      (.map ((f.wireFields.filter fun key _ => key ≠ "mappers").entries.map _)) = _
    rw [component, ← Json.fieldDocuments_eq]
    rfl

/-- What is read of the mappers is all that is said of them, up to their fields that are `null`. -/
theorem mappers_of_read {o : Option Document} {mappers : List Component}
    (h : (o.elim (some []) fun d => d.items? Component.read?) = some mappers) :
    ∃ objects : List (SortedMap Json), (∀ d, o = some d → ∃ x, d.value? = some x) ∧
      (o.bind value?).getD (.arr []) = .arr (objects.map .ofMap) ∧
      mappers.map Component.json = objects.map fun m => .ofMap (withoutNulls m) := by
  cases o with
  | none =>
    cases h
    exact ⟨[], nofun, rfl, rfl⟩
  | some d =>
    obtain ⟨xs, said, related⟩ := items?_tells
      (R := fun x c => ∃ m, x = .ofMap m ∧ c.json = .ofMap (withoutNulls m))
      (fun d c hc => (Component.tells_of_read hc).elim fun m told =>
        ⟨.ofMap m, told.1, m, rfl, told.2⟩) h
    suffices objects : ∃ objects : List (SortedMap Json), xs = objects.map .ofMap ∧
        mappers.map Component.json = objects.map fun m => .ofMap (withoutNulls m) by
      obtain ⟨objects, rfl, same⟩ := objects
      exact ⟨objects, fun _ hd => by cases hd; exact ⟨_, said⟩, by rw [Option.bind_some, said]; rfl,
        same⟩
    clear h said
    induction related with
    | nil => exact ⟨[], rfl, rfl⟩
    | cons first _ ih =>
      obtain ⟨m, rfl, same⟩ := first
      obtain ⟨objects, rfl, sames⟩ := ih
      exact ⟨m :: objects, rfl, by rw [List.map_cons, List.map_cons, same, sames]⟩

/-- What is read of a federation is all that the entries say, up to the fields of its component and
its mappers that are `null`, and mappers if there are none. -/
theorem wireFields_of_read (h : read? (.map entries) = some f) :
    ∃ fields, ∃ objects : List (SortedMap Json), fieldValues? entries = some fields ∧
      ((SortedMap.ofList fields).get? "mappers").getD (.arr []) = .arr (objects.map .ofMap) ∧
      f.wireFields = (withoutNulls (.ofList fields)).insert "mappers"
        (.arr (objects.map fun m => .ofMap (withoutNulls m))) := by
  obtain ⟨⟨o, ho, hmappers⟩, hcomponent⟩ := read?_map_eq_some_iff.mp h
  obtain ⟨others, hothers, component⟩ := Component.wireFields_of_read hcomponent
  obtain ⟨objects, readable, said, same⟩ := mappers_of_read hmappers
  have told : ∀ e ∈ entries, ∃ x, e.2.value? = some x := by
    intro e he
    by_cases key : e.1 = "mappers"
    · have member : e ∈ (o.map ("mappers", ·)).toList :=
        entry?_eq_some_iff.mp ho ▸ List.mem_filter.mpr ⟨he, decide_eq_true key⟩
      obtain ⟨d, hd, rfl⟩ := Option.map_eq_some_iff.mp (Option.mem_toList.mp member)
      exact readable d hd
    · exact exists_fieldValues?_iff.mp ⟨others, hothers⟩ e
        (List.mem_filter.mpr ⟨he, decide_eq_true key⟩)
  obtain ⟨fields, hfields⟩ := exists_fieldValues?_iff.mpr told
  refine ⟨fields, objects, hfields, by rw [get?_of_entry ho hfields, said], ?_⟩
  refine SortedMap.ext_get? fun key => ?_
  rw [wireFields, SortedMap.get?_insert, SortedMap.get?_insert, same, component]
  by_cases own : key = "mappers"
  · rw [if_pos own, if_pos own]
  · have rest : others = fields.filter fun e => e.1 ≠ "mappers" :=
      Option.some.inj (hothers.symm.trans (fieldValues?_filter (· ≠ "mappers") hfields))
    rw [if_neg own, if_neg own, withoutNulls, withoutNulls, SortedMap.get?_filter,
      SortedMap.get?_filter, rest,
      SortedMap.get?_ofList_filter (· ≠ "mappers") (by simpa using own)]

theorem writable_of_read (h : read? (.map entries) = some f) : f.component.Writable ∧
    (∀ c ∈ f.mappers, c.Writable) ∧ f.component.extra.get? "mappers" = none := by
  obtain ⟨⟨o, ho, hmappers⟩, hcomponent⟩ := read?_map_eq_some_iff.mp h
  refine ⟨Component.writable_of_read hcomponent, fun c hc => ?_, ?_⟩
  · cases o with
    | none =>
      rw [← Option.some.inj hmappers] at hc
      cases hc
    | some d =>
      obtain ⟨d', read⟩ := exists_of_mem_items? hmappers hc
      exact Component.writable_of_read read
  · obtain ⟨-, -, -, -, -, -, others, hothers, extra⟩ :=
      Component.read?_map_eq_some_iff.mp hcomponent
    rw [extra]
    refine Component.get?_ofList_eq_none ?_
    rw [Component.keys_fieldValues? hothers]
    simp

/-- Where no mappers are given, there are none. -/
theorem read?_without_mappers {c : Component} (missing : "mappers" ∉ entries.map (·.1))
    (h : Component.read? (.map entries) = some c) : read? (.map entries) = some ⟨c, []⟩ := by
  have other : ∀ e ∈ entries, e.1 ≠ "mappers" := fun e he same =>
    missing (List.mem_map.mpr ⟨e, he, same⟩)
  refine read?_map_eq_some_iff.mpr ⟨⟨none, entry?_eq_some_iff.mpr ?_, rfl⟩, ?_⟩
  · exact List.filter_eq_nil_iff.mpr fun e he same => other e he (of_decide_eq_true same)
  · rwa [List.filter_eq_self.mpr fun e he => decide_eq_true (other e he)]

end Federation

open Component in
/-- The wire format loses nothing. A component is read back from what is written of it, and what is
written of a component that was read is what it was read from, without its known fields that were
`null`; what is read can be written. The same holds of federations: their mappers are always written
and take the place of a field of that name, and missing mappers are none. -/
theorem wire_lossless :
    (∀ c : Component, c.Writable → Component.read? c.json.document = some c) ∧
    (∀ d c, Component.read? d = some c → c.Writable ∧
      ∃ m, d.value? = some (.ofMap m) ∧ c.json = .ofMap (withoutNulls m)) ∧
    (∀ f : Federation, f.component.Writable → (∀ c ∈ f.mappers, c.Writable) →
      Federation.read? f.json.document =
        some ⟨f.component.withoutExtra "mappers", f.mappers⟩ ∧
      (f.component.extra.get? "mappers" = none → Federation.read? f.json.document = some f)) ∧
    (∀ d f, Federation.read? d = some f →
      f.component.Writable ∧ (∀ c ∈ f.mappers, c.Writable) ∧
      f.component.extra.get? "mappers" = none ∧
      ∃ m, ∃ objects : List (SortedMap Json), d.value? = some (.ofMap m) ∧
        (m.get? "mappers").getD (.arr []) = .arr (objects.map .ofMap) ∧
        f.json = .ofMap ((withoutNulls m).insert "mappers"
          (.arr (objects.map fun m => .ofMap (withoutNulls m))))) ∧
    ∀ entries c, "mappers" ∉ entries.map (·.1) → Component.read? (.map entries) = some c →
      Federation.read? (.map entries) = some ⟨c, []⟩ := by
  refine ⟨fun c h => h.read_json, fun d c h => ⟨writable_of_read h, tells_of_read h⟩,
    fun f h mappers => ⟨Federation.read_json h mappers, fun apart => ?_⟩, fun d f h => ?_,
    fun entries c missing h => Federation.read?_without_mappers missing h⟩
  · have same : f.component.withoutExtra "mappers" = f.component := by
      rw [withoutExtra, SortedMap.erase_eq_self apart]
    rw [Federation.read_json h mappers, same]
  · unfold Federation.read? at h
    split at h
    · rename_i entries
      obtain ⟨component, mappers, apart⟩ := Federation.writable_of_read h
      obtain ⟨fields, objects, told, given, same⟩ := Federation.wireFields_of_read h
      exact ⟨component, mappers, apart, .ofList fields, objects,
        congrArg (Option.map Json.object) told, given,
        (Federation.json_eq f).trans (congrArg Json.ofMap same)⟩
    · cases h

namespace Sample

/-- A component with uninterpreted fields, one of them `null`. -/
def annotated : Component where
  name := some "people"
  config := some (.ofList [("enabled", ["true"])])
  extra := .ofList [("subType", .null), ("vendor", .obj [("tags", .arr [.int 1])])]

/-- An object that gives a known and an unknown field as `null`. -/
def blank : Document := .map [("id", .null), ("subType", .null), ("name", .text "people")]

/-- What is read of it. -/
def bare : Component := { name := some "people", extra := .ofList [("subType", .null)] }

theorem annotated_writable : annotated.Writable where
  apart := by decide
  ordered key x there := by
    have member := SortedMap.mem_of_mem_ofList (SortedMap.get?_eq_some_iff.mp there)
    simp only [List.mem_cons, Prod.mk.injEq, List.not_mem_nil, or_false] at member
    rcases member with ⟨-, rfl⟩ | ⟨-, rfl⟩
    · trivial
    · simp [Json.Ordered, Json.OrderedFields, Json.OrderedItems]

end Sample

open Sample in
theorem annotated_lossless :
    Component.read? annotated.json.document = some annotated ∧
    Federation.read? (Federation.json ⟨annotated, [annotated]⟩).document =
      some ⟨annotated, [annotated]⟩ ∧
    Component.read? blank = some bare ∧
    (∃ m, blank.value? = some (.ofMap m) ∧ bare.json = .ofMap (Component.withoutNulls m)) ∧
    bare.json = .obj [("name", .str "people"), ("subType", .null)] ∧
    Federation.read? blank = some ⟨bare, []⟩ := by
  have read : Component.read? blank = some bare := by decide
  obtain ⟨components, objects, federations, -, missing⟩ := wire_lossless
  refine ⟨components annotated annotated_writable, ?_, read, (objects blank bare read).2, by decide,
    missing _ bare (by decide) read⟩
  refine (federations ⟨annotated, [annotated]⟩ annotated_writable ?_).2 (by decide)
  exact fun c hc => List.mem_singleton.mp hc ▸ annotated_writable

end UserFederation
