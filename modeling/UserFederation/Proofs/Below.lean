import Mathlib.Logic.Relation
import UserFederation.Server.Cascade

/-! The components below a component are exactly those from which a chain of parent links leads to
it (`mem_descendants`), whatever cycles the links form. -/

namespace UserFederation.Server

/-- `child` is stored with the parent `parent`. -/
def ChildOf (s : Server) (child parent : String) : Prop :=
  ∃ e, s.components.get? child = some e ∧ e.component.parentId = some parent

/-- A chain of parent links leads from `id` to `ancestor`. -/
def Below (s : Server) (id ancestor : String) : Prop := Relation.TransGen s.ChildOf id ancestor

theorem mem_newChildren {entries : List (String × Stored)} {found : List String}
    {parent id : String} :
    id ∈ newChildren entries found parent ↔
      id ∉ found ∧ ∃ e, (id, e) ∈ entries ∧ e.component.parentId = some parent := by
  simp only [newChildren, List.mem_map, List.mem_filter, Bool.and_eq_true, Bool.not_eq_true',
    decide_eq_true_eq, List.contains_eq_mem, decide_eq_false_iff_not, Prod.exists]
  constructor
  · rintro ⟨id', e, ⟨he, hnew, hp⟩, rfl⟩
    exact ⟨hnew, e, he, hp⟩
  · rintro ⟨hnew, e, he, hp⟩
    exact ⟨id, e, ⟨he, hnew, hp⟩, rfl⟩

/-- Every component that is found, and every one right below a queued one, lies below the start. -/
theorem below_of_mem_cascade {s : Server} {start : String} {found queue : List String}
    (hf : ∀ id ∈ found, s.Below id start) (hq : ∀ id ∈ queue, id = start ∨ s.Below id start) :
    ∀ id ∈ cascade s.components.entries found queue, s.Below id start := by
  induction found, queue using cascade.induct s.components.entries with
  | case1 found =>
    rw [cascade]
    exact hf
  | case2 found parent rest new ih =>
    have hnew : ∀ id ∈ new, s.Below id start := by
      intro id hid
      obtain ⟨-, e, he, hp⟩ := mem_newChildren.mp hid
      have link : s.ChildOf id parent := ⟨e, SortedMap.get?_eq_some_iff.mpr he, hp⟩
      rcases hq parent List.mem_cons_self with rfl | hb
      · exact .single link
      · exact .head link hb
    rw [cascade]
    refine ih (List.forall_mem_append.mpr ⟨hf, hnew⟩) fun id hid => ?_
    rcases List.mem_append.mp hid with hid | hid
    · exact .inr (hnew id (List.mem_reverse.mp hid))
    · exact hq id (List.mem_cons_of_mem _ hid)

/-- The result is closed under parent links: a child of the start or of a found component is found,
for such a parent is either done with or still queued. -/
theorem cascade_closed {s : Server} {start : String} {found queue : List String}
    (inv : ∀ parent, parent = start ∨ parent ∈ found →
      parent ∈ queue ∨ ∀ id, s.ChildOf id parent → id ∈ found) :
    ∀ parent, parent = start ∨ parent ∈ cascade s.components.entries found queue →
      ∀ id, s.ChildOf id parent → id ∈ cascade s.components.entries found queue := by
  induction found, queue using cascade.induct s.components.entries with
  | case1 found =>
    rw [cascade]
    intro parent hp
    exact (inv parent hp).resolve_left List.not_mem_nil
  | case2 found parent rest new ih =>
    rw [cascade]
    refine ih fun p hp => ?_
    have listed : ∀ id, s.ChildOf id parent → id ∈ found ++ new := by
      rintro id ⟨e, he, hpar⟩
      by_cases hid : id ∈ found
      · exact List.mem_append_left _ hid
      · have := mem_newChildren.mpr ⟨hid, e, SortedMap.get?_eq_some_iff.mp he, hpar⟩
        exact List.mem_append_right _ this
    by_cases same : p = parent
    · exact .inr (same ▸ listed)
    · have old : p = start ∨ p ∈ found → p ∈ new.reverse ++ rest ∨
          ∀ id, s.ChildOf id p → id ∈ found ++ new := by
        intro h
        rcases inv p h with hq | hdone
        · have := (List.mem_cons.mp hq).resolve_left same
          exact .inl (List.mem_append_right _ this)
        · exact .inr fun id hid => List.mem_append_left _ (hdone id hid)
      rcases hp with h | h
      · exact old (.inl h)
      · rcases List.mem_append.mp h with h | h
        · exact old (.inr h)
        · exact .inl (List.mem_append_left _ (List.mem_reverse.mpr h))

/-- The cascade of an id finds exactly what is below it. -/
theorem mem_descendants {s : Server} {id ancestor : String} :
    id ∈ s.descendants ancestor ↔ s.Below id ancestor := by
  constructor
  · intro h
    refine below_of_mem_cascade (fun _ h => absurd h List.not_mem_nil) (fun id hid => ?_) id h
    exact .inl (List.mem_singleton.mp hid)
  · intro h
    have closed := @cascade_closed s ancestor [] [ancestor]
      fun p hp => .inl (List.mem_singleton.mpr (hp.resolve_right List.not_mem_nil))
    induction h using Relation.TransGen.head_induction_on with
    | single link => exact closed _ (.inl rfl) _ link
    | head link _ ih => exact closed _ (.inr ih) _ link

end UserFederation.Server
