import UserFederation.Server.Basic

/-! The components below a component. Parent links may form cycles, and need not stay in one
realm. -/

namespace UserFederation.Server

/-- The entries below a parent that are not found yet. -/
def newChildren (entries : List (String × Stored)) (found : List String) (parent : String) :
    List String :=
  (entries.filter fun e =>
    !found.contains e.1 && decide (e.2.component.parentId = some parent)).map (·.1)

/-- The number of entries that are not found yet. -/
def unfound (entries : List (String × Stored)) (found : List String) : Nat :=
  entries.countP fun e => !found.contains e.1

theorem unfound_newChildren (entries : List (String × Stored)) (found : List String)
    (parent : String) :
    unfound entries (found ++ newChildren entries found parent) +
      (newChildren entries found parent).length ≤ unfound entries found := by
  have key : ∀ e ∈ entries, (!(found ++ newChildren entries found parent).contains e.1) = true →
      (!found.contains e.1 && !decide (e.2.component.parentId = some parent)) = true := by
    intro e he h
    simp only [List.contains_eq_mem, List.mem_append, newChildren, List.mem_map, List.mem_filter,
      Bool.not_eq_true', decide_eq_false_iff_not, Bool.and_eq_true, decide_eq_true_eq] at h ⊢
    grind
  have h₁ := List.countP_mono_left key
  have h₂ : ∀ l : List (String × Stored),
      (l.countP fun e => !found.contains e.1 && !decide (e.2.component.parentId = some parent)) +
        (l.filter fun e => !found.contains e.1 &&
          decide (e.2.component.parentId = some parent)).length =
      l.countP fun e => !found.contains e.1 := by
    intro l
    induction l with
    | nil => rfl
    | cons e l ih => grind
  have h₃ := h₂ entries
  simp only [unfound, newChildren, List.length_map] at h₁ h₃ ⊢
  omega

/-- Adds to the found ids those below the parents in a queue. What is found last is looked at
first. -/
def cascade (entries : List (String × Stored)) (found queue : List String) : List String :=
  match queue with
  | [] => found
  | parent :: rest =>
    let new := newChildren entries found parent
    cascade entries (found ++ new) (new.reverse ++ rest)
termination_by unfound entries found + queue.length
decreasing_by
  have := unfound_newChildren entries found parent
  simp only [List.length_append, List.length_reverse, List.length_cons]
  omega

/-- The ids of the components below an id. -/
def descendants (s : Server) (id : String) : List String := cascade s.components.entries [] [id]

end UserFederation.Server
