import UserFederation.Proofs.Effects

/-! What holds of every server that operations lead to from a new one. What an operation does to the
store is one change after another (`changes_apply`): a component is inserted under its id and with
the next number, or one takes the place of the component of its id, or some are dropped. Each of
these keeps a server well-formed (`WellFormed.change`), so every reachable server is
(`Reachable.wellFormed`). -/

namespace UserFederation.Server

open Dialogue

variable {supply : Supply} {s s' t : Server} {realm : String} {c : Component}
  {ids ids' : List String}

/-! ### Changes of the store -/

/-- The ids under which components are stored one after another, after a number of new ids. -/
@[simp] def idsOf (supply : Supply) : Nat → List Component → List String
  | _, [] => []
  | issued, c :: cs =>
    c.id.getD (supply.id issued) ::
      idsOf supply (if c.id.isNone then issued + 1 else issued) cs

/-- A change of the store, with the ids under which it inserts. -/
inductive Change : Server → List String → Server → Prop
  | keep {s s' : Server} (components : s'.components = s.components)
    (insertions : s'.insertions = s.insertions) : Change s [] s'
  | insert {s s' : Server} {id : String} {e : Stored} (own : e.component.id = some id)
    (parent : e.component.parentId.isSome) (order : e.order = s.insertions + 1)
    (components : s'.components = s.components.insert id e)
    (insertions : s'.insertions = s.insertions + 1) : Change s [id] s'
  | replace {s s' : Server} {id : String} {e : Stored} {x : Component}
    (stored : s.components.get? id = some e) (own : x.id = some id)
    (parent : e.component.parentId.isSome → x.parentId.isSome)
    (components : s'.components = s.components.insert id { e with component := x })
    (insertions : s'.insertions = s.insertions) : Change s [] s'
  | drop {s s' : Server} {p : String → Bool}
    (components : s'.components = s.components.filter fun id _ => p id)
    (insertions : s'.insertions = s.insertions) : Change s [] s'

/-- Changes one after another. -/
inductive Changes : Server → List String → Server → Prop
  | nil {s : Server} : Changes s [] s
  | cons {s t s' : Server} {ids ids' : List String} (change : Change s ids t)
    (changes : Changes t ids' s') : Changes s (ids ++ ids') s'

theorem Change.changes (change : Change s ids s') : Changes s ids s' := by
  have single := Changes.cons change .nil
  rwa [List.append_nil] at single

theorem changes_of_same (components : s'.components = s.components)
    (insertions : s'.insertions = s.insertions) : Changes s [] s' :=
  (Change.keep components insertions).changes

theorem Changes.trans (changes : Changes s ids t) (changes' : Changes t ids' s') :
    Changes s (ids ++ ids') s' := by
  induction changes with
  | nil => exact changes'
  | cons change _ ih =>
    rw [List.append_assoc]
    exact .cons change (ih changes')

theorem change_put (supply : Supply) (s : Server) (realm : String) (c : Component) :
    Change s [(s.put supply realm c).1] (s.put supply realm c).2 := by
  have parent : (c.withParent realm).parentId.isSome := by
    rw [Component.withParent, Option.isSome_or, Option.isSome_some, Bool.or_true]
  exact .insert rfl parent rfl rfl rfl

theorem changes_provision (supply : Supply) (s : Server) (realm parent : String)
    (mappers : List Component) :
    Changes s (idsOf supply s.idsIssued mappers) (s.provision supply realm parent mappers) := by
  induction mappers generalizing s with
  | nil => exact .nil
  | cons m mappers ih =>
    rw [provision_cons]
    exact .cons (change_put supply s realm { m with parentId := some parent }) (ih _)

/-- A creation that succeeds inserts the component and its default mappers one after another. -/
theorem changes_create {reply : Component} (h : s.create supply c realm = (.ok reply, s')) :
    Changes s (idsOf supply s.idsIssued (c :: s.provided c)) s' := by
  obtain ⟨e, -, -, rfl⟩ := create_ok h
  obtain ⟨n, y, stamped, whole⟩ := establish_eq supply s c realm
  have own : y.id = c.id := by rw [stamped.rest]; rfl
  have ids : idsOf supply s.idsIssued (y :: s.provided c) =
      idsOf supply s.idsIssued (c :: s.provided c) := by
    rw [idsOf, idsOf, own]
  have timed : Change s [] { s with timesIssued := n } := .keep rfl rfl
  have stored := change_put supply { s with timesIssued := n } realm y
  have provided := changes_provision supply (put supply { s with timesIssued := n } realm y).2 realm
    (put supply { s with timesIssued := n } realm y).1 (s.provided c)
  have noted : Changes (s.establish supply c realm).2 []
      ((s.establish supply c realm).2.record .create e.component) := changes_of_same rfl rfl
  rw [whole] at noted ⊢
  have all := (Changes.cons timed (.cons stored provided)).trans noted
  rw [List.append_nil] at all
  exact ids ▸ all

/-- An update that succeeds puts a component in the place of the one of its id. -/
theorem change_update (h : s.update supply c realm = (.ok (), s')) : Change s [] s' := by
  obtain ⟨id, e, y, n, hid, he, -, stamped, rfl⟩ := update_supplants h
  have own : y.id = some id := (congrArg Component.id stamped.rest).trans hid
  have parent (before : e.component.parentId.isSome) :
      (y.parentId.or e.component.parentId).isSome := by
    rw [Option.isSome_or, before, Bool.or_true]
  exact .replace (x := { y with parentId := y.parentId.or e.component.parentId }) he own parent rfl
    rfl

/-- A deletion that succeeds drops a component and what is below it. -/
theorem change_delete {id : String} (h : s.delete id realm = (.ok (), s')) : Change s [] s' := by
  obtain ⟨e, -, -, rfl⟩ := delete_drops h
  exact .drop (p := fun key => !(id :: s.descendants id).contains key) rfl rfl

/-- The ids under which an operation inserts components. -/
def inserts (supply : Supply) (s : Server) : Operation → List String
  | .seed realm c => [(s.put supply realm c).1]
  | .call (.create c realm) =>
    if (s.create supply c realm).1.isOk then idsOf supply s.idsIssued (c :: s.provided c) else []
  | .call (.find ..) | .call (.get ..) | .call (.update ..) | .call (.delete ..)
  | .call (.children ..) | .setDefaults .. | .ignoreKey _ | .failNext _ | .clearJournal => []

/-- What an operation does to the store, whether it succeeds or fails. -/
theorem changes_apply (supply : Supply) (s : Server) (operation : Operation) :
    Changes s (s.inserts supply operation) (s.apply supply operation) := by
  have failed : ∀ (call : Call) {e : Failure} {s' : Server},
      answer supply call s = (.error e, s') → Changes s [] s' := by
    intro call e s' h
    rw [answer_error h]
    exact changes_of_same rfl rfl
  cases operation with
  | seed realm c => exact (change_put supply s realm c).changes
  | setDefaults | ignoreKey | failNext | clearJournal => exact changes_of_same rfl rfl
  | call call =>
    cases call with
    | find | get | children => exact .nil
    | create c realm =>
      rcases h : s.create supply c realm with ⟨e | reply, s'⟩ <;> simp only [apply, inserts, answer, h]
      · exact failed (.create c realm) h
      · exact changes_create h
    | update c realm =>
      rcases h : s.update supply c realm with ⟨e | _, s'⟩ <;> simp only [apply, inserts, answer, h]
      · exact failed (.update c realm) h
      · exact (change_update h).changes
    | delete id realm =>
      rcases h : s.delete id realm with ⟨e | _, s'⟩ <;>
        simp only [apply, inserts, answer, h]
      · exact failed (.delete id realm) h
      · exact (change_delete h).changes

/-! ### Well-formed servers -/

/-- Every component is stored under its own id and has a parent, and every entry has a number of its
own, which is none that is still to come. -/
structure WellFormed (s : Server) : Prop where
  keyed : s.Keyed
  parent : ∀ id e, s.components.get? id = some e → e.component.parentId.isSome
  bounded : ∀ id e, s.components.get? id = some e → e.order ≤ s.insertions
  distinct : ∀ id id' e e', s.components.get? id = some e → s.components.get? id' = some e' →
    e.order = e'.order → id = id'

/-- A server stays well-formed if its entries are old ones, up to components that have ids and
parents. -/
theorem WellFormed.of_entries (h : s.WellFormed)
    (entries : ∀ id e', s'.components.get? id = some e' → ∃ e, s.components.get? id = some e ∧
      e'.order = e.order ∧ e'.component.id = some id ∧ e'.component.parentId.isSome)
    (insertions : s'.insertions = s.insertions) : s'.WellFormed where
  keyed id e' he' := by
    obtain ⟨_, -, -, own, -⟩ := entries id e' he'
    exact own
  parent id e' he' := by
    obtain ⟨_, -, -, -, parent⟩ := entries id e' he'
    exact parent
  bounded id e' he' := by
    obtain ⟨e, he, order, -⟩ := entries id e' he'
    rw [order, insertions]
    exact h.bounded id e he
  distinct i j a' b' ha' hb' same := by
    obtain ⟨a, ha, order, -⟩ := entries i a' ha'
    obtain ⟨b, hb, order', -⟩ := entries j b' hb'
    exact h.distinct i j a b ha hb (order ▸ order' ▸ same)

/-- A component that is inserted with the next number has no number of another entry. -/
theorem WellFormed.of_insert (h : s.WellFormed) {id : String} {e : Stored}
    (own : e.component.id = some id) (parent : e.component.parentId.isSome)
    (order : e.order = s.insertions + 1) (components : s'.components = s.components.insert id e)
    (insertions : s'.insertions = s.insertions + 1) : s'.WellFormed := by
  have entries : ∀ k e', s'.components.get? k = some e' →
      k = id ∧ e' = e ∨ s.components.get? k = some e' := by
    intro k e' he'
    rw [components, SortedMap.get?_insert] at he'
    split at he'
    · rename_i hk
      exact .inl ⟨hk, (Option.some.inj he').symm⟩
    · exact .inr he'
  refine ⟨fun k e' he' => ?_, fun k e' he' => ?_, fun k e' he' => ?_, fun i j a b ha hb same => ?_⟩
  · rcases entries k e' he' with ⟨rfl, rfl⟩ | old
    · exact own
    · exact h.keyed k e' old
  · rcases entries k e' he' with ⟨rfl, rfl⟩ | old
    · exact parent
    · exact h.parent k e' old
  · rcases entries k e' he' with ⟨rfl, rfl⟩ | old
    · exact Nat.le_of_eq (order.trans insertions.symm)
    · have := h.bounded k e' old
      omega
  · rcases entries i a ha with ⟨rfl, rfl⟩ | old <;> rcases entries j b hb with ⟨rfl, rfl⟩ | old'
    · rfl
    · have := h.bounded j b old'
      omega
    · have := h.bounded i a old
      omega
    · exact h.distinct i j a b old old' same

theorem WellFormed.change (h : s.WellFormed) (change : Change s ids s') : s'.WellFormed := by
  cases change with
  | keep components insertions =>
    refine h.of_entries (fun id e he => ?_) insertions
    rw [components] at he
    exact ⟨e, he, rfl, h.keyed id e he, h.parent id e he⟩
  | insert own parent order components insertions =>
    exact h.of_insert own parent order components insertions
  | @replace _ id e x stored own parent components insertions =>
    refine h.of_entries (fun k e' he' => ?_) insertions
    rw [components, SortedMap.get?_insert] at he'
    split at he'
    · rename_i hk
      cases he'
      exact ⟨e, hk ▸ stored, rfl, hk ▸ own, parent (h.parent id e stored)⟩
    · exact ⟨e', he', rfl, h.keyed k e' he', h.parent k e' he'⟩
  | drop components insertions =>
    refine h.of_entries (fun id e he => ?_) insertions
    rw [components, SortedMap.get?_filter_key] at he
    split at he
    · exact ⟨e, he, rfl, h.keyed id e he, h.parent id e he⟩
    · cases he

theorem Changes.wellFormed (changes : Changes s ids s') (h : s.WellFormed) : s'.WellFormed := by
  induction changes with
  | nil => exact h
  | cons change _ ih => exact ih (h.change change)

/-- A server that stores nothing is well-formed. -/
theorem wellFormed_of_empty (empty : s.components = .empty) : s.WellFormed := by
  have unstored : ∀ id e, s.components.get? id ≠ some e := by
    intro id e he
    rw [empty] at he
    cases he
  exact ⟨fun id e he => absurd he (unstored id e), fun id e he => absurd he (unstored id e),
    fun id e he => absurd he (unstored id e), fun id _ e _ he => absurd he (unstored id e)⟩

theorem Reachable.wellFormed (h : Reachable supply s) : s.WellFormed := by
  induction h with
  | withDefaults | withoutDefaults => exact wellFormed_of_empty rfl
  | apply operation _ ih => exact (changes_apply supply _ operation).wellFormed ih

/-- On a reachable server, every component is stored under its own id. -/
theorem Reachable.keyed (h : Reachable supply s) : s.Keyed := h.wellFormed.keyed

/-! ### Runs -/

/-- A run leads from a reachable server to another one, if it succeeds or not. -/
theorem Reachable.run {α : Type} (h : Reachable supply s) (p : Dialogue α) :
    Reachable supply (p.run (answer supply) s).2 := by
  induction p generalizing s with
  | done | fail => exact h
  | ask call next ih =>
    have after : Reachable supply (answer supply call s).2 := h.apply (.call call)
    unfold Dialogue.run
    rcases hc : answer supply call s with ⟨_ | reply, s'⟩ <;> rw [hc] at after
    · exact after
    · exact ih reply after

end UserFederation.Server
