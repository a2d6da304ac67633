import Mathlib.Data.List.Perm.Subperm
import UserFederation.Proofs.Effects

/-! What a deletion takes along. The loop that gathers the ids below one ends, whatever cycles the
parent links form: a round takes one parent from the queue, and no id is queued twice (`Gathers`,
`gathers_cascade`). It finds what is below the id, each once, so a deletion takes this and the
component itself and leaves no component whose parent it took (`cascade_exact`). -/

namespace UserFederation.Server

variable {s s' : Server} {id : String}

/-! ### The loop -/

/-- From the ids `found` and a queue of parents, so many rounds of the loop lead to the ids
`result` and an empty queue. A round looks for the children of the parent that was queued last. -/
inductive Gathers (entries : List (String × Stored)) (result : List String) :
    (found queue : List String) → (rounds : Nat) → Prop
  | done : Gathers entries result result [] 0
  | round {found rest : List String} {parent : String} {rounds : Nat} :
    Gathers entries result (found ++ newChildren entries found parent)
      ((newChildren entries found parent).reverse ++ rest) rounds →
    Gathers entries result found (parent :: rest) (rounds + 1)

/-- The loop ends. It has one round for each queued id and one for each id that it finds. -/
theorem gathers_cascade (entries : List (String × Stored)) (found queue : List String) :
    ∃ rounds, Gathers entries (cascade entries found queue) found queue rounds ∧
      found.length + rounds = (cascade entries found queue).length + queue.length := by
  induction found, queue using cascade.induct entries with
  | case1 found =>
    rw [cascade]
    exact ⟨0, .done, rfl⟩
  | case2 found parent rest new ih =>
    obtain ⟨rounds, gathers, counted⟩ := ih
    rw [cascade]
    refine ⟨rounds + 1, .round gathers, ?_⟩
    change found.length + (rounds + 1) =
      (cascade entries (found ++ new) (new.reverse ++ rest)).length + (rest.length + 1)
    simp only [List.length_append, List.length_reverse] at counted
    omega

/-! ### What is found -/

theorem newChildren_nodup (m : SortedMap Stored) (found : List String) (parent : String) :
    (newChildren m.entries found parent).Nodup :=
  m.keys_nodup.sublist (List.Sublist.map _ List.filter_sublist)

/-- Each round finds ids that were not found before. -/
theorem cascade_nodup (m : SortedMap Stored) {found : List String} (queue : List String)
    (distinct : found.Nodup) : (cascade m.entries found queue).Nodup := by
  induction found, queue using cascade.induct m.entries with
  | case1 found =>
    rw [cascade]
    exact distinct
  | case2 found parent rest new ih =>
    rw [cascade]
    refine ih (List.nodup_append'.mpr ⟨distinct, newChildren_nodup m found parent, ?_⟩)
    exact fun id old new => (mem_newChildren.mp new).1 old

theorem descendants_nodup (s : Server) (id : String) : (s.descendants id).Nodup :=
  cascade_nodup s.components [id] List.nodup_nil

theorem Below.stored {k : String} (below : s.Below k id) : (s.components.get? k).isSome := by
  cases below using Relation.TransGen.head_induction_on with
  | single link | head link =>
    obtain ⟨e, there, -⟩ := link
    rw [there]
    rfl

theorem length_descendants_le (s : Server) (id : String) :
    (s.descendants id).length ≤ s.components.size := by
  have stored : s.descendants id ⊆ s.components.keys := fun k hk =>
    SortedMap.mem_keys.mpr (mem_descendants.mp hk).stored
  have fewer := (List.subperm_of_subset (s.descendants_nodup id) stored).length_le
  rwa [SortedMap.keys, List.length_map] at fewer

/-! ### Deletions -/

/-- A deletion takes no parent from a component that it leaves. -/
theorem Deleted.parent_kept (deleted : Deleted s id s') {k parent : String}
    (link : s'.ChildOf k parent) (stored : (s.components.get? parent).isSome) :
    (s'.components.get? parent).isSome := by
  obtain ⟨e, there, above⟩ := link
  have old : s.ChildOf k parent := ⟨e, deleted.get?_of_some there, above⟩
  -- Had the parent gone, the component would have been below the id and gone as well.
  have spared : ¬s.Below k id := fun below => by
    cases (deleted.below k below).symm.trans there
  have other : parent ≠ id := fun same => spared (same ▸ .single old)
  have outside : ¬s.Below parent id := fun below => spared (.head old below)
  rwa [deleted.kept parent other outside]

/-- However the parent links run, the loop that looks for what is below an id ends, after as many
rounds as it finds ids and one. It finds each component from which a chain of parent links leads to
the id, once, and nothing else. So a deletion takes the component and these, leaves all others as
they are, and leaves none whose parent it took. -/
theorem cascade_exact (s : Server) (id : String) :
    Gathers s.components.entries (s.descendants id) [] [id] ((s.descendants id).length + 1) ∧
    (s.descendants id).length ≤ s.components.size ∧
    (s.descendants id).Nodup ∧
    (∀ k, k ∈ s.descendants id ↔ s.Below k id) ∧
    ∀ realm s', s.delete id realm = (.ok (), s') →
      (∃ e, s.components.get? id = some e ∧ e.realm = realm) ∧
      (∀ k, k = id ∨ s.Below k id → s'.components.get? k = none) ∧
      (∀ k, ¬(k = id ∨ s.Below k id) → s'.components.get? k = s.components.get? k) ∧
      ∀ k parent, s'.ChildOf k parent → (s.components.get? parent).isSome →
        (s'.components.get? parent).isSome := by
  refine ⟨?_, s.length_descendants_le id, s.descendants_nodup id, fun k => mem_descendants,
    fun realm s' succeeds => ?_⟩
  · obtain ⟨rounds, gathers, counted⟩ := gathers_cascade s.components.entries [] [id]
    have count : rounds = (s.descendants id).length + 1 := by
      rw [descendants]
      simpa using counted
    exact count ▸ gathers
  · have deleted := delete_entry succeeds
    refine ⟨delete_ok succeeds, ?_, ?_, fun k parent => deleted.parent_kept⟩
    · rintro k (rfl | below)
      · exact deleted.gone
      · exact deleted.below k below
    · exact fun k outside =>
        deleted.kept k (fun same => outside (.inl same)) fun below => outside (.inr below)

namespace Sample

/-- A ring of three components that leaves its realm, and one that is its own parent. -/
def ring : Server where
  components := .ofList [
    ("a", ⟨"master", 1, { id := some "a", parentId := some "c" }⟩),
    ("b", ⟨"other", 2, { id := some "b", parentId := some "a" }⟩),
    ("c", ⟨"master", 3, { id := some "c", parentId := some "b" }⟩),
    ("d", ⟨"master", 4, { id := some "d", parentId := some "d" }⟩)]
  insertions := 4

theorem ring_descendants : ring.descendants "a" = ["b", "c", "a"] := by
  have entries : ring.components.entries =
      [("a", ⟨"master", 1, { id := some "a", parentId := some "c" }⟩),
        ("b", ⟨"other", 2, { id := some "b", parentId := some "a" }⟩),
        ("c", ⟨"master", 3, { id := some "c", parentId := some "b" }⟩),
        ("d", ⟨"master", 4, { id := some "d", parentId := some "d" }⟩)] := rfl
  simp [descendants, entries, cascade, newChildren]

end Sample

open Server.Sample in
theorem ring_cascade : ∃ s', ring.delete "a" "master" = (.ok (), s') ∧
    (∀ k ∈ ["a", "b", "c"], s'.components.get? k = none) ∧
    s'.components.get? "d" = some ⟨"master", 4, { id := some "d", parentId := some "d" }⟩ := by
  obtain ⟨s', deleted⟩ := @delete_succeeds ring "master" "a" _ rfl nofun
  obtain ⟨-, gone, kept, -⟩ := (cascade_exact ring "a").2.2.2.2 "master" s' deleted
  have below : ∀ k, ring.Below k "a" ↔ k ∈ ["b", "c", "a"] := fun k => by
    rw [← ring_descendants, mem_descendants]
  simp only [below] at gone kept
  exact ⟨s', deleted, fun k hk => gone k (by grind), kept "d" (by decide)⟩

end UserFederation.Server
