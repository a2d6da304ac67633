import Mathlib.Data.List.Dedup
import Mathlib.Data.List.Sort
import UserFederation.Proofs.Addition

/-! The order of listings. Entries are listed by their numbers (`WellFormed.visible_pairwise`), and
an entry gets a higher number than all others when it is inserted. So what is inserted is listed
last, what takes the place of a component is listed where that was, and what is dropped leaves the
others in their order (`Follows.change`). After any operations, the ids of a listing are in the
order in which they were last inserted (`listed_as_inserted`). -/

namespace UserFederation

/-- Of a list with one more item at the end, the last occurrences are the ones before, of other
items, and this one. -/
theorem dedup_concat {α : Type} [DecidableEq α] (l : List α) (x : α) :
    (l ++ [x]).dedup = l.dedup.filter (· ≠ x) ++ [x] := by
  induction l with
  | nil => rfl
  | cons y l ih =>
    rw [List.cons_append]
    by_cases again : y ∈ l
    · rw [List.dedup_cons_of_mem (List.mem_append_left _ again), List.dedup_cons_of_mem again, ih]
    · rw [List.dedup_cons_of_notMem again]
      by_cases same : y = x
      · rw [List.dedup_cons_of_mem (by simp [same]), ih, List.filter_cons_of_neg (by simp [same])]
      · rw [List.dedup_cons_of_notMem (by simp [again, same]), ih,
          List.filter_cons_of_pos (by simp [same]), List.cons_append]

namespace Server

variable {supply : Supply} {s s' : Server} {realm id : String} {e : Stored}
  {ids history : List String}

/-! ### Listings by number -/

/-- The entries of a realm are listed with increasing numbers. -/
theorem WellFormed.visible_pairwise (h : s.WellFormed) (realm : String) :
    (s.visible realm).Pairwise fun e e' => e.order < e'.order := by
  have apart : s.components.values.Pairwise fun e e' => e.order ≠ e'.order := by
    refine List.pairwise_map.mpr (s.components.sorted.imp_of_mem fun {a b} ha hb lt same => ?_)
    have key := h.distinct a.1 b.1 a.2 b.2 (SortedMap.get?_eq_some_iff.mpr ha)
      (SortedMap.get?_eq_some_iff.mpr hb) same
    exact String.ne_of_lt lt key
  have different : (s.visible realm).Pairwise fun e e' => e.order ≠ e'.order :=
    (List.mergeSort_perm _ _).symm.pairwise (apart.filter _) Ne.symm
  have ascending : (s.visible realm).Pairwise fun e e' => decide (e.order ≤ e'.order) = true := by
    refine List.pairwise_mergeSort (fun a b c => ?_) (fun a b => ?_) _
    · simpa using Nat.le_trans
    · simpa using Nat.le_total a.order b.order
  exact (ascending.and different).imp fun ⟨le, ne⟩ => Nat.lt_of_le_of_ne (of_decide_eq_true le) ne

/-- A listing is determined by the entries in it. -/
theorem WellFormed.visible_eq (h : s.WellFormed) {entries : List Stored}
    (ascending : entries.Pairwise fun e e' => e.order < e'.order)
    (same : ∀ e, e ∈ s.visible realm ↔ e ∈ entries) : s.visible realm = entries := by
  have nodup : ∀ {l : List Stored}, (l.Pairwise fun e e' => e.order < e'.order) → l.Nodup :=
    List.Pairwise.imp fun lt eq => Nat.ne_of_lt lt (congrArg Stored.order eq)
  have perm : (s.visible realm).Perm entries :=
    (List.perm_ext_iff_of_nodup (nodup (h.visible_pairwise realm)) (nodup ascending)).mpr same
  exact perm.eq_of_pairwise (fun _ _ _ _ lt gt => absurd lt (Nat.lt_asymm gt))
    (h.visible_pairwise realm) ascending

/-- What is inserted is listed last, and not where a component of its id was any more. -/
theorem WellFormed.visible_of_insert (h : s.WellFormed) (h' : s'.WellFormed)
    (order : e.order = s.insertions + 1) (components : s'.components = s.components.insert id e)
    (realm : String) : s'.visible realm =
      (s.visible realm).filter (·.component.id ≠ some id) ++ [e].filter (·.realm = realm) := by
  refine h'.visible_eq (List.pairwise_append.mpr ⟨?_, ?_, fun a ha b hb => ?_⟩) fun e' => ?_
  · exact (h.visible_pairwise realm).filter _
  · exact (List.pairwise_singleton _ e).filter _
  · obtain ⟨k, hk, -⟩ := mem_visible.mp (List.mem_filter.mp ha).1
    rw [List.mem_singleton.mp (List.mem_filter.mp hb).1, order]
    exact Nat.lt_succ_of_le (h.bounded k a hk)
  · simp only [mem_visible, components, SortedMap.get?_insert, List.mem_append, List.mem_filter,
      List.mem_singleton, decide_eq_true_eq]
    constructor
    · rintro ⟨k, stored, hr⟩
      split at stored
      · cases stored
        exact .inr ⟨rfl, hr⟩
      · rename_i other
        refine .inl ⟨⟨k, stored, hr⟩, fun same => other ?_⟩
        exact Option.some.inj ((h.keyed k e' stored).symm.trans same)
    · rintro (⟨⟨k, stored, hr⟩, other⟩ | ⟨rfl, hr⟩)
      · have ne : k ≠ id := fun same => other (same ▸ h.keyed k e' stored)
        exact ⟨k, (if_neg ne).trans stored, hr⟩
      · exact ⟨id, if_pos rfl, hr⟩

/-- What is left of a listing keeps its order. -/
theorem WellFormed.visible_of_drop (h : s.WellFormed) (h' : s'.WellFormed) {p : String → Bool}
    (components : s'.components = s.components.filter fun id _ => p id) (realm : String) :
    s'.visible realm = (s.visible realm).filter (·.component.id.any p) := by
  refine h'.visible_eq ((h.visible_pairwise realm).filter _) fun e => ?_
  simp only [mem_visible, components, SortedMap.get?_filter_key, List.mem_filter]
  constructor
  · rintro ⟨k, stored, hr⟩
    split at stored
    · rename_i left
      exact ⟨⟨k, stored, hr⟩, by rw [h.keyed k e stored]; exact left⟩
    · cases stored
  · rintro ⟨⟨k, stored, hr⟩, left⟩
    rw [h.keyed k e stored] at left
    exact ⟨k, (if_pos left).trans stored, hr⟩

/-! ### Listings by history -/

/-- The ids of every listing are in the order in which they come last in a history. -/
def Follows (s : Server) (history : List String) : Prop :=
  ∀ realm, ((s.visible realm).map (·.component.id)).Sublist (history.dedup.map some)

theorem follows_of_empty (empty : s.components = .empty) : s.Follows [] := by
  intro realm
  have none : s.visible realm = [] := by
    rw [visible, empty]
    exact List.mergeSort_nil
  rw [none]
  exact List.nil_sublist _

/-- What takes the place of a component has its id. -/
theorem map_id_replaced {new : Stored} (own : new.component.id = some id) (entries : List Stored) :
    (entries.map (replaced id new)).map (·.component.id) = entries.map (·.component.id) := by
  rw [List.map_map]
  refine List.map_congr_left fun e _ => ?_
  rw [Function.comp_apply, replaced]
  split
  · rename_i same
    exact own.trans same.symm
  · rfl

/-- What is inserted comes last in the history as in the listing. -/
theorem Follows.insert (follows : s.Follows history) (h : s.WellFormed) (h' : s'.WellFormed)
    (own : e.component.id = some id) (order : e.order = s.insertions + 1)
    (components : s'.components = s.components.insert id e) : s'.Follows (history ++ [id]) := by
  intro realm
  -- The id leaves the place that it had before, in the listing and in the history alike.
  have before : (((s.visible realm).filter (·.component.id ≠ some id)).map (·.component.id)).Sublist
      ((history.dedup.filter (· ≠ id)).map some) := by
    have kept := (follows realm).filter (· ≠ some id)
    rw [List.filter_map, List.filter_map] at kept
    simpa [Function.comp_def] using kept
  have last : (([e].filter (·.realm = realm)).map (·.component.id)).Sublist ([id].map some) := by
    have all : ([e].map (·.component.id)) = [id].map some := congrArg (fun i => [i]) own
    exact all ▸ List.filter_sublist.map _
  rw [h.visible_of_insert h' order components, dedup_concat, List.map_append, List.map_append]
  exact before.append last

theorem Follows.change (follows : s.Follows history) (h : s.WellFormed)
    (change : Change s ids s') : s'.Follows (history ++ ids) := by
  have h' := h.change change
  cases change with
  | keep components =>
    rw [List.append_nil]
    intro realm
    rw [visible, components]
    exact follows realm
  | insert own _ order components => exact follows.insert h h' own order components
  | @replace _ id e x stored own _ components =>
    rw [List.append_nil]
    intro realm
    rw [h.keyed.visible_insert stored components, map_id_replaced own]
    exact follows realm
  | drop components =>
    rw [List.append_nil]
    intro realm
    rw [h.visible_of_drop h' components]
    exact (List.filter_sublist.map _).trans (follows realm)

theorem Follows.changes (follows : s.Follows history) (h : s.WellFormed)
    (changes : Changes s ids s') : s'.Follows (history ++ ids) := by
  induction changes generalizing history with
  | nil => rwa [List.append_nil]
  | cons change _ ih =>
    rw [← List.append_assoc]
    exact ih (follows.change h change) (h.change change)

/-- The ids under which operations insert components, one after another. -/
def inserted (supply : Supply) (s : Server) : List Operation → List String
  | [] => []
  | operation :: later =>
    s.inserts supply operation ++ (s.apply supply operation).inserted supply later

theorem changes_foldl (supply : Supply) (s : Server) (operations : List Operation) :
    Changes s (s.inserted supply operations) (operations.foldl (apply supply) s) := by
  induction operations generalizing s with
  | nil => exact .nil
  | cons operation later ih => exact (changes_apply supply s operation).trans (ih _)

/-- A listed component is what is got under its id. -/
theorem Keyed.get_of_mem_list (keyed : s.Keyed) {p : Component → Bool} {c : Component}
    (listed : c ∈ s.list realm p) : ∃ id, c.id = some id ∧ s.get id realm = some c := by
  obtain ⟨id, e, stored, hr, -, rfl⟩ := mem_list.mp listed
  have there : s.stored? id realm = some e := stored?_eq_some_iff.mpr ⟨stored, hr⟩
  exact ⟨id, keyed id e stored, by rw [get, there, Option.map_some]⟩

/-- After any operations on a new server, each component is stored under its own id and has a
parent, and each entry has a number of its own, none of which exceeds the number of insertions. So
the entries of a realm are listed with increasing numbers. No listing shows an id twice, each is in
the order in which its ids were last inserted, and what it shows is what is got under its id. An
update leaves every entry in its place. -/
theorem listed_as_inserted {fresh : Server}
    (new : fresh = withLdapDefaults ∨ fresh = withoutDefaults) (operations : List Operation) :
    let s := operations.foldl (apply supply) fresh
    s.WellFormed ∧
      (∀ realm, (s.visible realm).Pairwise fun e e' => e.order < e'.order) ∧
      (∀ realm p, ((s.list realm p).map (·.id)).Nodup ∧
        ((s.list realm p).map (·.id)).Sublist
          ((fresh.inserted supply operations).dedup.map some) ∧
        ∀ c ∈ s.list realm p, ∃ id, c.id = some id ∧ s.get id realm = some c) ∧
      ∀ c realm s', s.update supply c realm = (.ok (), s') → ∃ id e x, c.id = some id ∧
        s.components.get? id = some e ∧ x.id = some id ∧
        ∀ r, s'.visible r = (s.visible r).map (replaced id { e with component := x }) := by
  intro s
  have empty : fresh.components = .empty := by
    rcases new with rfl | rfl <;> rfl
  have changes := changes_foldl supply fresh operations
  have wellFormed : s.WellFormed := changes.wellFormed (wellFormed_of_empty empty)
  have follows : s.Follows (fresh.inserted supply operations) :=
    (follows_of_empty empty).changes (wellFormed_of_empty empty) changes
  refine ⟨wellFormed, wellFormed.visible_pairwise, fun realm p => ?_, fun c realm s' h => ?_⟩
  · exact ⟨wellFormed.keyed.list_nodup p, (s.list_ids_sublist realm p).trans (follows realm),
      fun _ listed => wellFormed.keyed.get_of_mem_list listed⟩
  · obtain ⟨id, e, y, hid, stored, -, stamped, -, components⟩ := update_entry h
    have own : y.id = some id := (congrArg Component.id stamped.rest).trans hid
    exact ⟨id, e, { y with parentId := c.parentId.or e.component.parentId }, hid, stored, own,
      wellFormed.keyed.visible_insert stored components⟩

namespace Sample

/-- Operations that insert a mapper with a preset id and one component twice, rename the mapper
without giving its parent, and fail to create and to delete. -/
def reinserting : List Operation :=
  [.setDefaults "ldap" [{ mail with id := some "mail" }], .call (.create supplied "master"),
    .seed "master" { id := some "staff" }, .failNext .create,
    .call (.create { name := some "guests" } "master"),
    .call (.update { id := some "mail", name := some "e-mail" } "master"), .seed "master" people,
    .call (.delete "nobody" "master")]

end Sample

open Server.Sample in
theorem listed_as_reinserted :
    let s := reinserting.foldl (apply tally) withLdapDefaults
    withLdapDefaults.inserted tally reinserting = ["people", "mail", "staff", "people"] ∧
      (s.list "master" fun _ => true).map (·.id) = [some "mail", some "staff", some "people"] ∧
      (s.stored? "mail" "master").map (fun e => (e.order, e.component.name, e.component.parentId)) =
        some (2, some "e-mail", some "people") := by
  obtain ⟨-, -, listings, -⟩ := @listed_as_inserted tally _ (.inl rfl) reinserting
  have inserted : withLdapDefaults.inserted tally reinserting =
      ["people", "mail", "staff", "people"] := by decide
  have ordered := (listings "master" fun _ => true).2.1
  rw [inserted] at ordered
  refine ⟨inserted, ordered.eq_of_length ?_, by decide⟩
  simp only [list, visible, List.length_map, List.length_mergeSort, List.filter_true]
  decide

end Server

end UserFederation
