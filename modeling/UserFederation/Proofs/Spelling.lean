import UserFederation.Declaration.Json
import UserFederation.Proofs.Wire
import Mathlib.Data.List.Nodup
import Mathlib.Data.List.Lattice
import Mathlib.Data.List.Pairwise
import Mathlib.Logic.Relation

/-! How a declaration may be written. A field that holds its default may be left out, and a name of
two words may be joined by a capital or by an underscore. Neither changes what is read
(`Declaration.Respelled.read`), and a declaration is read back from its JSON value, so it is read
back however it is spelled (`declaration_read_back`). -/

namespace UserFederation

theorem SortedMap.get?_ofList_of_mem {α : Type} {l : List (String × α)} {key : String} {x : α}
    (distinct : (l.map (·.1)).Nodup) (h : (key, x) ∈ l) : (ofList l).get? key = some x := by
  have member : (key, x) ∈ l.filter (·.1 = key) := List.mem_filter.mpr ⟨h, decide_eq_true rfl⟩
  obtain ⟨e, last⟩ := Option.isSome_iff_exists.mp
    (List.getLast?_isSome.mpr (List.ne_nil_of_mem member))
  obtain ⟨he, same⟩ := List.mem_filter.mp (List.mem_of_getLast? last)
  rw [get?_ofList, last, Option.map_some,
    List.inj_on_of_nodup_map distinct he h (of_decide_eq_true same)]

/-! ### Records -/

/-- A field of a record: its name, the other names under which it is read, and its default. -/
structure RecordField where
  name : String
  aliases : List String := []
  default : Json := .null

/-- All names of a field. -/
def RecordField.names (f : RecordField) : List String := f.name :: f.aliases

namespace Document

/-- The entries of a record written otherwise: a field that holds its default is left out, or one is
given under another of its names. -/
inductive Respelled (fields : List RecordField) :
    List (String × Document) → List (String × Document) → Prop
  | omitted {before after : List (String × Document)} {f : RecordField} {key : String} :
      f ∈ fields → key ∈ f.names →
      Respelled fields (before ++ (key, f.default.document) :: after) (before ++ after)
  | renamed {before after : List (String × Document)} {f : RecordField} {key key' : String}
      {d : Document} : f ∈ fields → key ∈ f.names → key' ∈ f.names →
      Respelled fields (before ++ (key, d) :: after) (before ++ (key', d) :: after)

/-- What the entries of a record give to a field of some names. -/
def given (entries : List (String × Document)) (names : List String) : List Document :=
  (entries.filter (names.contains ·.1)).map (·.2)

/-- The part of a record under one of some names, which may be missing. -/
def part? (entries : List (String × Document)) (names : List String) : Option (Option Document) :=
  match entries.filter (names.contains ·.1) with
  | [] => some none
  | [e] => some (some e.2)
  | _ => none

variable {α : Type} {rules : RecordRules} {entries entries' before after : List (String × Document)}
  {fields : List RecordField} {names : List String} {key : String} {d d' : Document}
  {o : Option Document} {read : Option Document → Option α} {a : α}

theorem record?_map (width : Nat) :
    record? rules width (.map entries) = some fun _ names => part? entries names := rfl

theorem part?_eq_some_iff : part? entries names = some o ↔ given entries names = o.toList := by
  unfold part? given
  generalize entries.filter (names.contains ·.1) = found
  rcases found with - | ⟨e, - | ⟨e', rest⟩⟩ <;> cases o <;> simp

/-- A part of a record is looked up and read before the rest goes on. -/
theorem bind_read_eq_some_iff {β : Type} {part : Option (Option Document)} {f : α → Option β}
    {b : β} : (part.bind fun o => (read o).bind f) = some b ↔
      ∃ a, part.bind read = some a ∧ f a = some b := by
  rw [← Option.bind_assoc, Option.bind_eq_some_iff]

/-- A field is read of a record. -/
def Gives (entries : List (String × Document)) (names : List String)
    (read : Option Document → Option α) (a : α) : Prop :=
  (part? entries names).bind read = some a

theorem gives_iff : Gives entries names read a ↔
    ∃ o : Option Document, given entries names = o.toList ∧ read o = some a := by
  rw [Gives, Option.bind_eq_some_iff]
  simp only [part?_eq_some_iff]

theorem given_append_cons : given (before ++ (key, d) :: after) names =
    given before names ++ ((if key ∈ names then [d] else []) ++ given after names) := by
  unfold given
  rw [List.filter_append, List.filter_cons]
  split <;> rename_i h <;> simp only [List.contains_iff_mem] at h <;> simp [h]

theorem given_append :
    given (before ++ after) names = given before names ++ given after names := by
  simp [given]

/-- Of two lists around one item, a list of at most one item holds the item alone. -/
theorem toList_eq_append_cons {l r : List Document} (h : l ++ ([d] ++ r) = o.toList) :
    l = [] ∧ r = [] ∧ o = some d := by
  have length := congrArg List.length h
  have le : o.toList.length ≤ 1 := by cases o <;> simp
  simp only [List.length_append, List.length_cons, List.length_nil] at length
  have hl : l = [] := List.eq_nil_of_length_eq_zero (by omega)
  have hr : r = [] := List.eq_nil_of_length_eq_zero (by omega)
  subst hl hr
  refine ⟨rfl, rfl, ?_⟩
  cases o <;> simp_all

/-- A field is read as before if an entry of another name is replaced. -/
theorem Gives.elsewhere (said : Gives (before ++ (key, d) :: after) names read a)
    (other : key ∉ names) : Gives (before ++ (key, d') :: after) names read a := by
  obtain ⟨o, only, ho⟩ := gives_iff.mp said
  rw [given_append_cons, if_neg other] at only
  exact gives_iff.mpr ⟨o, by rw [given_append_cons, if_neg other, only], ho⟩

/-- A field is read as before if its entry gets a value that is read as the old one. -/
theorem Gives.replaced (said : Gives (before ++ (key, d) :: after) names read a)
    (alike : read (some d) = some a → read (some d') = some a) :
    Gives (before ++ (key, d') :: after) names read a := by
  by_cases member : key ∈ names
  · obtain ⟨o, only, ho⟩ := gives_iff.mp said
    rw [given_append_cons, if_pos member] at only
    obtain ⟨hl, hr, rfl⟩ := toList_eq_append_cons only
    refine gives_iff.mpr ⟨some d', ?_, alike ho⟩
    rw [given_append_cons, if_pos member, hl, hr]
    rfl
  · exact said.elsewhere member

/-- Fields of different names: a name tells the field. -/
theorem field_of_name (apart : (fields.flatMap RecordField.names).Nodup) {f g : RecordField}
    (hf : f ∈ fields) (hg : g ∈ fields) (key_f : key ∈ f.names) (key_g : key ∈ g.names) :
    f = g := by
  by_contra ne
  have disjoint := (List.nodup_flatMap.mp apart).2
  have symm : Std.Symm (Function.onFun List.Disjoint RecordField.names) :=
    ⟨fun _ _ h => List.Disjoint.symm h⟩
  exact disjoint.forall hf hg ne key_f key_g

/-- A field whose default is read as if it was missing is read as before. -/
theorem Respelled.gives (step : Respelled fields entries entries')
    (apart : (fields.flatMap RecordField.names).Nodup) (i : Nat) (hi : i < fields.length)
    (default : read (some fields[i].default.document) = read none)
    (said : Gives entries fields[i].names read a) : Gives entries' fields[i].names read a := by
  have hg := List.getElem_mem hi
  generalize fields[i] = g at hg default said ⊢
  obtain ⟨o, only, ho⟩ := gives_iff.mp said
  refine gives_iff.mpr ?_
  cases step with
  | @omitted before after f key hf key_f =>
    rw [given_append_cons] at only
    rw [given_append]
    by_cases member : key ∈ g.names
    · cases field_of_name apart hf hg key_f member
      rw [if_pos member] at only
      obtain ⟨hl, hr, rfl⟩ := toList_eq_append_cons only
      exact ⟨none, by rw [hl, hr]; rfl, default ▸ ho⟩
    · rw [if_neg member] at only
      exact ⟨o, only, ho⟩
  | @renamed before after f key key' d hf key_f key_f' =>
    have same : key ∈ g.names ↔ key' ∈ g.names := by
      constructor
      · exact fun member => field_of_name apart hf hg key_f member ▸ key_f'
      · exact fun member => field_of_name apart hf hg key_f' member ▸ key_f
    rw [given_append_cons] at only ⊢
    rw [if_congr same.symm rfl rfl]
    exact ⟨o, only, ho⟩

/-- A field of an object that gives each field under its own name is read as its value is. -/
theorem gives_object {written : List (String × Json)}
    (apart : (fields.flatMap RecordField.names).Nodup)
    (keys : written.map (·.1) = fields.map (·.name)) (i : Nat) (hi : i < fields.length) {x : Json}
    (there : written[i]? = some (fields[i].name, x)) (hx : read (some x.document) = some a) :
    Gives (Json.fieldDocuments (SortedMap.ofList written).entries) fields[i].names read a := by
  have hf := List.getElem_mem hi
  have there := List.mem_of_getElem? there
  generalize fields[i] = f at hf there ⊢
  have distinct : (written.map (·.1)).Nodup := by
    rw [keys]
    refine List.pairwise_map.mpr ((List.nodup_flatMap.mp apart).2.imp fun {f g} h same => ?_)
    exact h List.mem_cons_self (same ▸ List.mem_cons_self)
  -- No field is given under one of its other names.
  have only : ∀ e ∈ (SortedMap.ofList written).entries,
      f.names.contains e.1 = decide (e.1 = f.name) := by
    intro e he
    refine Bool.eq_iff_iff.mpr ?_
    rw [List.contains_iff_mem, decide_eq_true_iff]
    refine ⟨fun name => ?_, fun same => same ▸ List.mem_cons_self⟩
    have key := List.mem_map_of_mem (f := (·.1)) (SortedMap.mem_of_mem_ofList he)
    rw [keys] at key
    obtain ⟨g, hg, same⟩ := List.mem_map.mp key
    rw [← same, field_of_name apart hf hg name (same ▸ List.mem_cons_self)]
  have entry : (SortedMap.ofList written).entries.filter (f.names.contains ·.1) =
      [(f.name, x)] := by
    rw [List.filter_congr only, SortedMap.filter_key (SortedMap.ofList written).sorted]
    change (((SortedMap.ofList written).get? f.name).map _).toList = _
    rw [SortedMap.get?_ofList_of_mem distinct there]
    rfl
  refine gives_iff.mpr ⟨some x.document, ?_, hx⟩
  rw [given, Json.fieldDocuments_eq, List.filter_map, List.map_map]
  exact congrArg (List.map _) entry

end Document

/-! ### Values -/

/-- A value as a program holds it: an integer has 64 bits. A float is a number, as no other has a
JSON form. -/
def Scalar.Writable : Scalar → Prop
  | .integer n => isInteger n
  | .float x => x.isFinite
  | .bool _ | .text _ => True

/-- A config whose values can be written. -/
def DeclaredConfig.Writable (config : DeclaredConfig) : Prop :=
  ∀ key v, config.get? key = some (some v) → v.Writable

theorem Scalar.Writable.read {v : Scalar} (h : v.Writable) :
    read? v.json.document = some v ∧ v.json.document ≠ .null := by
  cases v with
  | bool b => exact ⟨rfl, nofun⟩
  | integer n => exact ⟨congrArg some (if_pos h), nofun⟩
  | float x =>
    rw [json, if_pos (show x.isFinite from h)]
    exact ⟨rfl, nofun⟩
  | text s => exact ⟨rfl, nofun⟩

/-- Writing a config and reading it gives it back. -/
theorem DeclaredConfig.Writable.read {config : DeclaredConfig} (h : config.Writable) :
    DeclaredConfig.read? config.json.document = some config := by
  have entries : config.json.document =
      .map (config.entries.map fun e => (e.1, ((e.2.map Scalar.json).getD .null).document)) := by
    rw [json, Json.ofMap, Json.document, Json.fieldDocuments_eq, SortedMap.mapValues, List.map_map]
    rfl
  rw [entries, read?]
  suffices read : List.mapM _ _ = some config.entries by
    rw [read, Option.map_some, SortedMap.ofList_entries]
  rw [Document.mapM_eq_some_iff, List.forall₂_map_left_iff, List.forall₂_same]
  rintro ⟨key, value⟩ member
  cases value with
  | none => rfl
  | some v =>
    obtain ⟨read, solid⟩ := (h key v (SortedMap.get?_eq_some_iff.mpr member)).read
    simp only [Option.map_some, Option.getD_some, read]

open Document

/-- A text that may be missing is read back. -/
theorem optional?_text (o : Option String) :
    optional? text? (some (Json.ofOption o).document) = some o := by
  cases o <;> rfl

theorem optional?_config {o : Option DeclaredConfig}
    (h : ∀ config, o = some config → config.Writable) :
    optional? DeclaredConfig.read?
      (some ((o.map DeclaredConfig.json).getD .null).document) = some o := by
  cases o with
  | none => rfl
  | some config => exact congrArg (Option.map some) (h config rfl).read

/-! ### Mappers -/

namespace MapperDeclaration

variable {rules : RecordRules} {entries : List (String × Document)} {d d' : Document}
  {m : MapperDeclaration}

/-- The fields of a declared mapper. -/
def fields : List RecordField :=
  [{ name := "id" }, { name := "name" }, { name := "parentId", aliases := ["parent_id"] },
    { name := "providerId", aliases := ["provider_id"] },
    { name := "providerType", aliases := ["provider_type"], default := .str mapperType },
    { name := "config" }]

/-- A mapper whose config can be written. -/
def Writable (m : MapperDeclaration) : Prop := ∀ config, m.config = some config → config.Writable

/-- The JSON value of a declared mapper. -/
def json (m : MapperDeclaration) : Json := m.jsonWith DeclaredConfig.json

/-- A declared mapper written otherwise. -/
inductive Respelled : Document → Document → Prop
  | record {entries entries' : List (String × Document)} :
      Document.Respelled fields entries entries' → Respelled (.map entries) (.map entries')

/-- A mapper is read just if each field is. -/
theorem read?_eq_some_iff {doc : Document} : read? rules doc = some m ↔
    ∃ part, doc.record? rules 6 = some part ∧
      (part 0 ["id"]).bind (optional? text?) = some m.id ∧
      (part 1 ["name"]).bind (optional? text?) = some m.name ∧
      (part 2 ["parentId", "parent_id"]).bind (optional? text?) = some m.parentId ∧
      (part 3 ["providerId", "provider_id"]).bind (optional? text?) = some m.providerId ∧
      (part 4 ["providerType", "provider_type"]).bind (withDefault? mapperType text?) =
        some m.providerType ∧
      (part 5 ["config"]).bind (optional? DeclaredConfig.read?) = some m.config := by
  constructor
  · intro h
    obtain ⟨part, record, h⟩ := Option.bind_eq_some_iff.mp h
    obtain ⟨_, id, h⟩ := Option.bind_eq_some_iff.mp h
    obtain ⟨_, name, h⟩ := Option.bind_eq_some_iff.mp h
    obtain ⟨_, parentId, h⟩ := Option.bind_eq_some_iff.mp h
    obtain ⟨_, providerId, h⟩ := Option.bind_eq_some_iff.mp h
    obtain ⟨_, type, h⟩ := bind_read_eq_some_iff.mp h
    obtain ⟨_, config, h⟩ := bind_read_eq_some_iff.mp h
    cases h
    exact ⟨part, record, id, name, parentId, providerId, type, config⟩
  · rintro ⟨part, record, id, name, parentId, providerId, type, config⟩
    refine Option.bind_eq_some_iff.mpr ⟨part, record, Option.bind_eq_some_iff.mpr ⟨_, id, ?_⟩⟩
    refine Option.bind_eq_some_iff.mpr ⟨_, name, Option.bind_eq_some_iff.mpr ⟨_, parentId, ?_⟩⟩
    refine Option.bind_eq_some_iff.mpr ⟨_, providerId, ?_⟩
    refine bind_read_eq_some_iff.mpr ⟨_, type, ?_⟩
    exact bind_read_eq_some_iff.mpr ⟨_, config, rfl⟩

theorem read?_map_eq_some_iff : read? rules (.map entries) = some m ↔
    Gives entries ["id"] (optional? text?) m.id ∧
    Gives entries ["name"] (optional? text?) m.name ∧
    Gives entries ["parentId", "parent_id"] (optional? text?) m.parentId ∧
    Gives entries ["providerId", "provider_id"] (optional? text?) m.providerId ∧
    Gives entries ["providerType", "provider_type"] (withDefault? mapperType text?) m.providerType ∧
    Gives entries ["config"] (optional? DeclaredConfig.read?) m.config := by
  rw [read?_eq_some_iff, record?_map]
  constructor
  · rintro ⟨_, ⟨⟩, fields⟩
    exact fields
  · exact fun fields => ⟨_, rfl, fields⟩

theorem fields_apart : (fields.flatMap RecordField.names).Nodup := by decide

/-- A mapper is read the same however it is spelled. -/
theorem Respelled.read (step : Respelled d d') (said : read? rules d = some m) :
    read? rules d' = some m := by
  obtain ⟨step⟩ := step
  obtain ⟨id, name, parentId, providerId, type, config⟩ := read?_map_eq_some_iff.mp said
  refine read?_map_eq_some_iff.mpr ⟨?_, ?_, ?_, ?_, ?_, ?_⟩
  · exact step.gives fields_apart 0 (by decide) rfl id
  · exact step.gives fields_apart 1 (by decide) rfl name
  · exact step.gives fields_apart 2 (by decide) rfl parentId
  · exact step.gives fields_apart 3 (by decide) rfl providerId
  · exact step.gives fields_apart 4 (by decide) rfl type
  · exact step.gives fields_apart 5 (by decide) rfl config

/-- A mapper is read back from its JSON value. -/
theorem Writable.read (h : m.Writable) : read? rules m.json.document = some m := by
  refine read?_map_eq_some_iff.mpr ⟨?_, ?_, ?_, ?_, ?_, ?_⟩
  · exact gives_object fields_apart rfl 0 (by decide) rfl (optional?_text m.id)
  · exact gives_object fields_apart rfl 1 (by decide) rfl (optional?_text m.name)
  · exact gives_object fields_apart rfl 2 (by decide) rfl (optional?_text m.parentId)
  · exact gives_object fields_apart rfl 3 (by decide) rfl (optional?_text m.providerId)
  · exact gives_object fields_apart rfl 4 (by decide) rfl rfl
  · exact gives_object fields_apart rfl 5 (by decide) rfl (optional?_config h)

theorem json_default :
    ({} : MapperDeclaration).json = .object (fields.map fun f => (f.name, f.default)) := rfl

end MapperDeclaration

/-! ### Declarations -/

namespace Declaration

variable {rules : RecordRules} {entries : List (String × Document)} {doc doc' : Document}
  {d : Declaration}

/-- The fields of a declaration. -/
def fields : List RecordField :=
  [{ name := "state", default := .str "present" },
    { name := "realm", default := .str defaultRealm }, { name := "id" }, { name := "name" },
    { name := "provider_id", aliases := ["providerId"] },
    { name := "provider_type", aliases := ["providerType"], default := .str federationType },
    { name := "parent_id", aliases := ["parentId"] },
    { name := "remove_unspecified_mappers", default := .bool true },
    { name := "bind_credential_update_mode", default := .str "always" }, { name := "config" },
    { name := "mappers" }]

/-- A declaration whose configs can be written. -/
structure Writable (d : Declaration) : Prop where
  config : ∀ config, d.config = some config → config.Writable
  mappers : ∀ ms, d.mappers = some ms → ∀ m ∈ ms, m.Writable

/-- A declaration written otherwise, or one of its mappers. -/
inductive Respelled : Document → Document → Prop
  | record {entries entries' : List (String × Document)} :
      Document.Respelled fields entries entries' → Respelled (.map entries) (.map entries')
  | mapper {before after : List (String × Document)} {ms ns : List Document} {m m' : Document} :
      MapperDeclaration.Respelled m m' →
      Respelled (.map (before ++ ("mappers", .seq (ms ++ m :: ns)) :: after))
        (.map (before ++ ("mappers", .seq (ms ++ m' :: ns)) :: after))

/-- A declaration is read just if each field is. -/
theorem read?_eq_some_iff : read? rules doc = some d ↔
    ∃ part, doc.record? rules 11 = some part ∧
      (part 0 ["state"]).bind (withDefault? .present (word? rules TargetState.words)) =
        some d.state ∧
      (part 1 ["realm"]).bind (withDefault? defaultRealm text?) = some d.realm ∧
      (part 2 ["id"]).bind (optional? text?) = some d.id ∧
      (part 3 ["name"]).bind (optional? text?) = some d.name ∧
      (part 4 ["provider_id", "providerId"]).bind (optional? text?) = some d.providerId ∧
      (part 5 ["provider_type", "providerType"]).bind (withDefault? federationType text?) =
        some d.providerType ∧
      (part 6 ["parent_id", "parentId"]).bind (optional? text?) = some d.parentId ∧
      (part 7 ["remove_unspecified_mappers"]).bind (withDefault? true bool?) = some d.prune ∧
      (part 8 ["bind_credential_update_mode"]).bind
        (withDefault? .always (word? rules CredentialPolicy.words)) = some d.credentialPolicy ∧
      (part 9 ["config"]).bind (optional? DeclaredConfig.read?) = some d.config ∧
      (part 10 ["mappers"]).bind (optional? (items? (MapperDeclaration.read? rules))) =
        some d.mappers := by
  constructor
  · intro h
    obtain ⟨part, record, h⟩ := Option.bind_eq_some_iff.mp h
    obtain ⟨_, state, h⟩ := bind_read_eq_some_iff.mp h
    obtain ⟨_, realm, h⟩ := bind_read_eq_some_iff.mp h
    obtain ⟨_, id, h⟩ := Option.bind_eq_some_iff.mp h
    obtain ⟨_, name, h⟩ := Option.bind_eq_some_iff.mp h
    obtain ⟨_, providerId, h⟩ := Option.bind_eq_some_iff.mp h
    obtain ⟨_, type, h⟩ := bind_read_eq_some_iff.mp h
    obtain ⟨_, parentId, h⟩ := Option.bind_eq_some_iff.mp h
    obtain ⟨_, prune, h⟩ := bind_read_eq_some_iff.mp h
    obtain ⟨_, policy, h⟩ := bind_read_eq_some_iff.mp h
    obtain ⟨_, config, h⟩ := bind_read_eq_some_iff.mp h
    obtain ⟨_, mappers, h⟩ := bind_read_eq_some_iff.mp h
    cases h
    exact ⟨part, record, state, realm, id, name, providerId, type, parentId, prune, policy, config,
      mappers⟩
  · rintro ⟨part, record, state, realm, id, name, providerId, type, parentId, prune, policy,
      config, mappers⟩
    refine Option.bind_eq_some_iff.mpr ⟨part, record, ?_⟩
    refine bind_read_eq_some_iff.mpr ⟨_, state, ?_⟩
    refine bind_read_eq_some_iff.mpr ⟨_, realm, ?_⟩
    refine Option.bind_eq_some_iff.mpr ⟨_, id, Option.bind_eq_some_iff.mpr ⟨_, name, ?_⟩⟩
    refine Option.bind_eq_some_iff.mpr ⟨_, providerId, ?_⟩
    refine bind_read_eq_some_iff.mpr ⟨_, type, ?_⟩
    refine Option.bind_eq_some_iff.mpr ⟨_, parentId, ?_⟩
    refine bind_read_eq_some_iff.mpr ⟨_, prune, ?_⟩
    refine bind_read_eq_some_iff.mpr ⟨_, policy, ?_⟩
    refine bind_read_eq_some_iff.mpr ⟨_, config, ?_⟩
    exact bind_read_eq_some_iff.mpr ⟨_, mappers, rfl⟩

theorem read?_map_eq_some_iff : read? rules (.map entries) = some d ↔
    Gives entries ["state"] (withDefault? .present (word? rules TargetState.words)) d.state ∧
    Gives entries ["realm"] (withDefault? defaultRealm text?) d.realm ∧
    Gives entries ["id"] (optional? text?) d.id ∧
    Gives entries ["name"] (optional? text?) d.name ∧
    Gives entries ["provider_id", "providerId"] (optional? text?) d.providerId ∧
    Gives entries ["provider_type", "providerType"] (withDefault? federationType text?)
      d.providerType ∧
    Gives entries ["parent_id", "parentId"] (optional? text?) d.parentId ∧
    Gives entries ["remove_unspecified_mappers"] (withDefault? true bool?) d.prune ∧
    Gives entries ["bind_credential_update_mode"]
      (withDefault? .always (word? rules CredentialPolicy.words)) d.credentialPolicy ∧
    Gives entries ["config"] (optional? DeclaredConfig.read?) d.config ∧
    Gives entries ["mappers"] (optional? (items? (MapperDeclaration.read? rules))) d.mappers := by
  rw [read?_eq_some_iff, record?_map]
  constructor
  · rintro ⟨_, ⟨⟩, fields⟩
    exact fields
  · exact fun fields => ⟨_, rfl, fields⟩

theorem fields_apart : (fields.flatMap RecordField.names).Nodup := by decide

/-- A list of mappers is read the same however one of them is spelled. -/
theorem items?_respelled {ms ns : List Document} {m m' : Document}
    (step : MapperDeclaration.Respelled m m') {l : List MapperDeclaration}
    (said : items? (MapperDeclaration.read? rules) (.seq (ms ++ m :: ns)) = some l) :
    items? (MapperDeclaration.read? rules) (.seq (ms ++ m' :: ns)) = some l := by
  simp only [items?, List.mapM_append, List.mapM_cons, Option.bind_eq_bind, Option.pure_def,
    Option.bind_eq_some_iff] at said ⊢
  obtain ⟨first, hfirst, rest, ⟨a, here, others, hothers, hrest⟩, same⟩ := said
  exact ⟨first, hfirst, rest, ⟨a, step.read here, others, hothers, hrest⟩, same⟩

/-- A declaration is read the same however it is spelled. -/
theorem Respelled.read (step : Respelled doc doc') (said : read? rules doc = some d) :
    read? rules doc' = some d := by
  cases step with
  | record step =>
    obtain ⟨state, realm, id, name, providerId, type, parentId, prune, policy, config, mappers⟩ :=
      read?_map_eq_some_iff.mp said
    refine read?_map_eq_some_iff.mpr ⟨?_, ?_, ?_, ?_, ?_, ?_, ?_, ?_, ?_, ?_, ?_⟩
    · exact step.gives fields_apart 0 (by decide) rfl state
    · exact step.gives fields_apart 1 (by decide) rfl realm
    · exact step.gives fields_apart 2 (by decide) rfl id
    · exact step.gives fields_apart 3 (by decide) rfl name
    · exact step.gives fields_apart 4 (by decide) rfl providerId
    · exact step.gives fields_apart 5 (by decide) rfl type
    · exact step.gives fields_apart 6 (by decide) rfl parentId
    · exact step.gives fields_apart 7 (by decide) rfl prune
    · exact step.gives fields_apart 8 (by decide) rfl policy
    · exact step.gives fields_apart 9 (by decide) rfl config
    · exact step.gives fields_apart 10 (by decide) rfl mappers
  | @mapper before after ms ns m m' step =>
    obtain ⟨state, realm, id, name, providerId, type, parentId, prune, policy, config, mappers⟩ :=
      read?_map_eq_some_iff.mp said
    refine read?_map_eq_some_iff.mpr ⟨?_, ?_, ?_, ?_, ?_, ?_, ?_, ?_, ?_, ?_, ?_⟩
    · exact state.elsewhere (by decide)
    · exact realm.elsewhere (by decide)
    · exact id.elsewhere (by decide)
    · exact name.elsewhere (by decide)
    · exact providerId.elsewhere (by decide)
    · exact type.elsewhere (by decide)
    · exact parentId.elsewhere (by decide)
    · exact prune.elsewhere (by decide)
    · exact policy.elsewhere (by decide)
    · exact config.elsewhere (by decide)
    · refine mappers.replaced fun said => ?_
      obtain ⟨l, hl, same⟩ := Option.map_eq_some_iff.mp said
      exact Option.map_eq_some_iff.mpr ⟨l, items?_respelled step hl, same⟩

/-- A declaration is read back from its JSON value. -/
theorem Writable.read (h : d.Writable) : read? rules d.json.document = some d := by
  refine read?_map_eq_some_iff.mpr ⟨?_, ?_, ?_, ?_, ?_, ?_, ?_, ?_, ?_, ?_, ?_⟩
  · exact gives_object fields_apart rfl 0 (by decide) rfl (by cases d.state <;> rfl)
  · exact gives_object fields_apart rfl 1 (by decide) rfl rfl
  · exact gives_object fields_apart rfl 2 (by decide) rfl (optional?_text d.id)
  · exact gives_object fields_apart rfl 3 (by decide) rfl (optional?_text d.name)
  · exact gives_object fields_apart rfl 4 (by decide) rfl (optional?_text d.providerId)
  · exact gives_object fields_apart rfl 5 (by decide) rfl rfl
  · exact gives_object fields_apart rfl 6 (by decide) rfl (optional?_text d.parentId)
  · exact gives_object fields_apart rfl 7 (by decide) rfl rfl
  · exact gives_object fields_apart rfl 8 (by decide) rfl (by cases d.credentialPolicy <;> rfl)
  · exact gives_object fields_apart rfl 9 (by decide) rfl (optional?_config h.config)
  · refine gives_object fields_apart rfl 10 (by decide) rfl ?_
    cases hms : d.mappers with
    | none => rfl
    | some ms =>
      exact congrArg (Option.map some) (items?_reads fun m hm => (h.mappers ms hms m hm).read)

/-- A field that is left out has the default of the model. -/
theorem json_default :
    ({} : Declaration).json = .object (fields.map fun f => (f.name, f.default)) := rfl

end Declaration

/-- A declaration is read back from its JSON value, and from each document that comes of it by
leaving out fields that hold their default and by spelling names otherwise, in the declaration and
in its mappers. -/
theorem declaration_read_back {d : Declaration} (h : d.Writable) :
    Declaration.read? Json.recordRules d.json.document = some d ∧
    ∀ doc, Relation.ReflTransGen Declaration.Respelled d.json.document doc →
      Declaration.read? Json.recordRules doc = some d := by
  refine ⟨h.read, fun doc steps => ?_⟩
  induction steps with
  | refl => exact h.read
  | tail _ step ih => exact step.read ih

namespace Sample

/-- A declaration with config values of all kinds and a mapper. -/
def assorted : Declaration where
  name := some "corp"
  providerId := some "ldap"
  config := some (.ofList [("bindDn", none), ("enabled", some (.bool true)),
    ("priority", some (.integer (-1))), ("ratio", some (.float (Double.ofDecimal false 15 (-1)))),
    ("vendor", some (.text "true"))])
  mappers := some [{ name := some "email", providerId := some "attribute" }]

/-- The entries of its JSON value before the state, where the name of the provider is spelled in
some way, here and in the mapper. -/
def stated (providerId mapperProviderId : String) : List (String × Document) :=
  [("bind_credential_update_mode", .text "always"),
    ("config", .map [("bindDn", .null), ("enabled", .bool true), ("priority", .int (-1)),
      ("ratio", .float (Double.ofDecimal false 15 (-1))), ("vendor", .text "true")]),
    ("id", .null),
    ("mappers", .seq [.map [("config", .null), ("id", .null), ("name", .text "email"),
      ("parentId", .null), (mapperProviderId, .text "attribute"),
      ("providerType", .text mapperType)]]),
    ("name", .text "corp"), ("parent_id", .null), (providerId, .text "ldap"),
    ("provider_type", .text federationType), ("realm", .text defaultRealm),
    ("remove_unspecified_mappers", .bool true)]

/-- The state of the declaration is left out, and the provider's name is spelled as elsewhere. -/
theorem assorted_respelled : Relation.ReflTransGen Declaration.Respelled
    assorted.json.document (.map (stated "providerId" "provider_id")) := by
  have written : assorted.json.document =
      .map (stated "provider_id" "providerId" ++ [("state", .text "present")]) := rfl
  have omitted : Declaration.Respelled assorted.json.document
      (.map (stated "provider_id" "providerId")) :=
    written ▸ .record (@Document.Respelled.omitted Declaration.fields
      (stated "provider_id" "providerId") [] Declaration.fields[0] "state" (List.getElem_mem _)
      List.mem_cons_self)
  have mapper : Declaration.Respelled (.map (stated "provider_id" "providerId"))
      (.map (stated "provider_id" "provider_id")) :=
    @Declaration.Respelled.mapper ((stated "provider_id" "").take 3)
      ((stated "provider_id" "").drop 4) [] [] _ _
      (.record (@Document.Respelled.renamed MapperDeclaration.fields
        [("config", .null), ("id", .null), ("name", .text "email"), ("parentId", .null)]
        [("providerType", .text mapperType)] MapperDeclaration.fields[3] _ _ _
        (List.getElem_mem _) (by decide) (by decide)))
  have renamed : Declaration.Respelled (.map (stated "provider_id" "provider_id"))
      (.map (stated "providerId" "provider_id")) :=
    .record (@Document.Respelled.renamed Declaration.fields ((stated "" "provider_id").take 6)
      ((stated "" "provider_id").drop 7) Declaration.fields[4] _ _ _
      (List.getElem_mem _) (by decide) (by decide))
  exact ((Relation.ReflTransGen.single omitted).tail mapper).tail renamed

theorem assorted_writable : assorted.Writable := by
  refine ⟨fun config h key v there => ?_, fun ms h m member config hc => ?_⟩
  · cases h
    have member := SortedMap.mem_of_mem_ofList (SortedMap.get?_eq_some_iff.mp there)
    simp only [List.mem_cons, Prod.mk.injEq, Option.some.injEq, List.not_mem_nil, reduceCtorEq,
      and_false, or_false, false_or] at member
    obtain ⟨-, rfl⟩ | ⟨-, rfl⟩ | ⟨-, rfl⟩ | ⟨-, rfl⟩ := member
    · trivial
    · exact (by decide : Scalar.isInteger (-1))
    · exact (by decide : (Double.ofDecimal false 15 (-1)).isFinite)
    · trivial
  · cases h
    cases List.mem_singleton.mp member
    cases hc

open Declaration in
theorem assorted_read_back : assorted.Writable ∧
    Relation.ReflTransGen Respelled assorted.json.document
      (.map (stated "providerId" "provider_id")) ∧
    read? Json.recordRules (.map (stated "providerId" "provider_id")) = some assorted :=
  ⟨assorted_writable, assorted_respelled,
    (declaration_read_back assorted_writable).2 _ assorted_respelled⟩

end Sample

end UserFederation
