import Mathlib.Data.List.Nodup
import UserFederation.Server.Operation

/-! What a server shows of what it stores. Entries are stored under the ids of their components
(`Reachable.keyed`), so the mappers of a federation are shown with ids (`exists_of_mem_children`),
each once (`children_nodup`). -/

namespace UserFederation

namespace Server

variable {supply : Supply} {s : Server} {federation realm id : String} {c : Component}

@[simp] theorem redact_id (c : Component) : (redact c).id = c.id := rfl

@[simp] theorem redact_name (c : Component) : (redact c).name = c.name := rfl

@[simp] theorem redact_providerId (c : Component) : (redact c).providerId = c.providerId := rfl

@[simp] theorem redact_providerType (c : Component) : (redact c).providerType = c.providerType :=
  rfl

@[simp] theorem redact_parentId (c : Component) : (redact c).parentId = c.parentId := rfl

@[simp] theorem redact_extra (c : Component) : (redact c).extra = c.extra := rfl

/-- Every component is stored under its own id. -/
def Keyed (s : Server) : Prop :=
  ∀ id e, s.components.get? id = some e → e.component.id = some id

/-- The stored mapper of an id below a federation. -/
def mapper? (s : Server) (federation realm id : String) : Option Component :=
  ((s.stored? id realm).map (·.component)).filter (·.parentId = some federation)

theorem stored?_eq_some_iff {e : Stored} :
    s.stored? id realm = some e ↔ s.components.get? id = some e ∧ e.realm = realm := by
  simp [stored?, Option.filter_eq_some_iff]

theorem mapper?_eq_some_iff {m : Component} :
    s.mapper? federation realm id = some m ↔
      ∃ e, s.components.get? id = some e ∧ e.realm = realm ∧ e.component = m ∧
        m.parentId = some federation := by
  simp only [mapper?, Option.filter_eq_some_iff, Option.map_eq_some_iff, stored?_eq_some_iff,
    decide_eq_true_eq]
  constructor
  · rintro ⟨⟨e, ⟨he, hr⟩, hm⟩, hp⟩
    exact ⟨e, he, hr, hm, hp⟩
  · rintro ⟨e, he, hr, hm, hp⟩
    exact ⟨⟨e, ⟨he, hr⟩, hm⟩, hp⟩

/-! ### Listings -/

theorem mem_visible {e : Stored} :
    e ∈ s.visible realm ↔ ∃ id, s.components.get? id = some e ∧ e.realm = realm := by
  simp only [visible, List.mem_mergeSort, List.mem_filter, decide_eq_true_eq, SortedMap.values,
    List.mem_map]
  constructor
  · rintro ⟨⟨⟨id, e⟩, he, rfl⟩, hr⟩
    exact ⟨id, SortedMap.get?_eq_some_iff.mpr he, hr⟩
  · rintro ⟨id, he, hr⟩
    exact ⟨⟨(id, e), SortedMap.get?_eq_some_iff.mp he, rfl⟩, hr⟩

theorem mem_list {p : Component → Bool} :
    c ∈ s.list realm p ↔ ∃ id e, s.components.get? id = some e ∧ e.realm = realm ∧
      p e.component = true ∧ redact e.component = c := by
  simp only [list, List.mem_map, List.mem_filter, mem_visible]
  constructor
  · rintro ⟨_, ⟨⟨e, ⟨id, he, hr⟩, rfl⟩, hp⟩, hc⟩
    exact ⟨id, e, he, hr, hp, hc⟩
  · rintro ⟨id, e, he, hr, hp, hc⟩
    exact ⟨_, ⟨⟨e, ⟨id, he, hr⟩, rfl⟩, hp⟩, hc⟩

theorem mem_children :
    c ∈ s.children federation realm ↔
      ∃ id m, s.mapper? federation realm id = some m ∧ redact m = c := by
  simp only [children, mem_list, decide_eq_true_eq, mapper?_eq_some_iff]
  constructor
  · rintro ⟨id, e, he, hr, hp, hc⟩
    exact ⟨id, e.component, ⟨e, he, hr, rfl, hp⟩, hc⟩
  · rintro ⟨id, m, ⟨e, he, hr, rfl, hp⟩, hc⟩
    exact ⟨id, e, he, hr, hp, hc⟩

theorem mem_find {type name : String} :
    c ∈ s.find realm type name ↔ ∃ id e, s.components.get? id = some e ∧ e.realm = realm ∧
      e.component.providerType = some type ∧ e.component.name = some name ∧
        redact e.component = c := by
  simp only [find, mem_list, decide_eq_true_eq, and_assoc]

/-- A listing shows ids of its realm, in their order. -/
theorem list_ids_sublist (s : Server) (realm : String) (p : Component → Bool) :
    ((s.list realm p).map (·.id)).Sublist ((s.visible realm).map (·.component.id)) := by
  have shown : (s.list realm p).map (·.id) =
      (((s.visible realm).map (·.component)).filter p).map (·.id) := by
    simp [list]
  have whole : (s.visible realm).map (·.component.id) =
      ((s.visible realm).map (·.component)).map (·.id) := List.map_map.symm
  rw [shown, whole]
  exact List.filter_sublist.map _

/-- No listing shows an id twice. -/
theorem Keyed.list_nodup (keyed : s.Keyed) (p : Component → Bool) :
    ((s.list realm p).map (·.id)).Nodup := by
  have keys : (s.components.entries.map fun e => e.2.component.id) = s.components.keys.map some := by
    rw [SortedMap.keys, List.map_map]
    refine List.map_congr_left fun e he => ?_
    exact keyed e.1 e.2 (SortedMap.get?_eq_some_iff.mpr he)
  have stored : ((s.visible realm).map (·.component.id)).Nodup := by
    have whole : (s.components.values.map (·.component.id)).Nodup := by
      rw [SortedMap.values, List.map_map]
      exact keys ▸ s.components.keys_nodup.map fun _ _ => Option.some.inj
    refine ((List.mergeSort_perm _ _).map _).nodup_iff.mpr ?_
    exact whole.sublist (List.filter_sublist.map _)
  exact stored.sublist (s.list_ids_sublist realm p)

theorem Keyed.children_nodup (keyed : s.Keyed) (federation realm : String) :
    ((s.children federation realm).map (·.id)).Nodup :=
  keyed.list_nodup _

theorem Keyed.mapper?_id (keyed : s.Keyed) {m : Component}
    (h : s.mapper? federation realm id = some m) : m.id = some id := by
  obtain ⟨e, he, -, rfl, -⟩ := mapper?_eq_some_iff.mp h
  exact keyed id e he

theorem Keyed.shown_id (keyed : s.Keyed) {m : Component}
    (h : s.mapper? federation realm id = some m) : (redact m).id = some id :=
  (redact_id m).trans (keyed.mapper?_id h)

/-- A mapper that is shown has an id, under which it is stored. -/
theorem Keyed.exists_of_mem_children (keyed : s.Keyed) (h : c ∈ s.children federation realm) :
    ∃ id m, c.id = some id ∧ s.mapper? federation realm id = some m ∧ redact m = c := by
  obtain ⟨id, m, hm, rfl⟩ := mem_children.mp h
  exact ⟨id, m, (redact_id m).trans (keyed.mapper?_id hm), hm, rfl⟩

/-! ### Replacing an entry -/

/-- An entry, or `new` in place of the one of an id. -/
def replaced (id : String) (new e : Stored) : Stored :=
  if e.component.id = some id then new else e

theorem Keyed.replaced_eq {e e' : Stored} (keyed : s.Keyed) (he : s.components.get? id = some e)
    (he' : e' ∈ s.components.values) (new : Stored) :
    replaced id new e' = e' ∨ e' = e ∧ replaced id new e' = new := by
  obtain ⟨⟨k, _⟩, stored, rfl⟩ := List.mem_map.mp he'
  rw [← SortedMap.get?_eq_some_iff] at stored
  simp only [replaced, keyed k _ stored, Option.some.injEq]
  split
  · rename_i hk
    exact .inr ⟨Option.some.inj (stored.symm.trans (hk ▸ he)), rfl⟩
  · exact .inl rfl

/-- A component that is stored in place of another one stands where that did. -/
theorem Keyed.visible_insert {s' : Server} {e : Stored} {x : Component} (keyed : s.Keyed)
    (he : s.components.get? id = some e)
    (after : s'.components = s.components.insert id { e with component := x }) (realm : String) :
    s'.visible realm = (s.visible realm).map (replaced id { e with component := x }) := by
  have values : s'.components.values =
      s.components.values.map (replaced id { e with component := x }) := by
    rw [after, SortedMap.values, SortedMap.entries_insert_of_get? he, List.map_map,
      SortedMap.values, List.map_map]
    refine List.map_congr_left fun entry stored => ?_
    obtain ⟨k, e'⟩ := entry
    rw [← SortedMap.get?_eq_some_iff] at stored
    simp only [Function.comp_apply, replaced, keyed k e' stored, Option.some.injEq]
    split <;> rfl
  have alike : ∀ e' ∈ s.components.values,
      (replaced id { e with component := x } e').realm = e'.realm ∧
        (replaced id { e with component := x } e').order = e'.order := by
    intro e' he'
    rcases keyed.replaced_eq he he' { e with component := x } with same | ⟨rfl, same⟩ <;>
      rw [same] <;> exact ⟨rfl, rfl⟩
  unfold visible
  rw [values, List.filter_map, List.map_mergeSort]
  · congr 2
    refine List.filter_congr fun e' he' => ?_
    simp only [Function.comp_apply, (alike e' he').1]
  · intro a ha b hb
    rw [(alike a (List.mem_filter.mp ha).1).2, (alike b (List.mem_filter.mp hb).1).2]

end Server

end UserFederation
