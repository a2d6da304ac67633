import UserFederation.Proofs.Sparing

/-! What calls keep. A call that sends nothing that answers to the name of a federation leaves the
federation the only one of its name (`Alone.run`). A call that deletes nothing a federation is below
leaves it in place (`Sheltered.run`). -/

namespace UserFederation.Server

open Dialogue

variable {supply : Supply} {s s₁ : Server} {d : Declaration} {f k : String} {c : Component}
  {call : Call} {T : String → Prop}

/-! ### Components that answer to a name -/

/-- A component that a look-up of the declared name comes upon. -/
def AnswersTo (d : Declaration) (c : Component) : Prop :=
  c.providerType = some federationType ∧ c.name = d.name

/-- In the realm of a declaration, nothing answers to its name but what is stored under `f`, and
nothing that does comes with a new federation. -/
structure Alone (s : Server) (d : Declaration) (f : String) : Prop where
  only : ∀ k e, s.components.get? k = some e → e.realm = d.realm → AnswersTo d e.component → k = f
  unnumbered : ∀ provider mappers, s.defaults.get? provider = some mappers →
    ∀ m ∈ mappers, m.id = none
  defaults : ∀ provider mappers, s.defaults.get? provider = some mappers →
    ∀ m ∈ mappers, ¬AnswersTo d m

/-- A call that sends nothing that answers to the name of a declaration. -/
def Modest (d : Declaration) : Call → Prop
  | .create c _ | .update c _ => ¬AnswersTo d c
  | _ => True

theorem Grown.alone {reply : Component} {realm id : String} (alone : s.Alone d f)
    (grown : Grown supply s c realm reply id s₁) (h : AnswersTo d c → id = f) : s₁.Alone d f where
  only k e he hr answers := by
    rcases grown.entries k e he with old | ⟨rfl, -, name, type, -⟩ |
      ⟨n, provider, mappers, m, -, -, -, -, hd, hm, name, type, -⟩
    · exact alone.only k e old hr answers
    · exact h ⟨type.symm.trans answers.1, name.symm.trans answers.2⟩
    · exact absurd ⟨type.symm.trans answers.1, name.symm.trans answers.2⟩
        (alone.defaults provider mappers hd m hm)
  unnumbered := grown.frame.defaults ▸ alone.unnumbered
  defaults := grown.frame.defaults ▸ alone.defaults

theorem Alone.congr (alone : s.Alone d f)
    (entries : ∀ k e, s₁.components.get? k = some e → s.components.get? k = some e)
    (defaults : s₁.defaults = s.defaults) : s₁.Alone d f where
  only k e he := alone.only k e (entries k e he)
  unnumbered := defaults ▸ alone.unnumbered
  defaults := defaults ▸ alone.defaults

theorem Alone.step (alone : s.Alone d f) (modest : Modest d call)
    (answered : Answered supply s call s₁) : s₁.Alone d f := by
  have defaults := answered.defaults
  cases answered with
  | kept components => exact alone.congr (fun _ _ he => components ▸ he) defaults
  | created grown => exact grown.alone alone fun answers => absurd answers modest
  | updated _ name type _ components =>
    refine ⟨fun k e he hr answers => ?_, defaults ▸ alone.unnumbered, defaults ▸ alone.defaults⟩
    rw [components, SortedMap.get?_insert] at he
    split at he
    · cases he
      exact absurd ⟨type.symm.trans answers.1, name.symm.trans answers.2⟩ modest
    · exact alone.only k e he hr answers
  | deleted deleted => exact alone.congr (fun _ _ he => deleted.get?_of_some he) defaults

/-! ### Ids out of reach of a deletion -/

/-- From the ids of a set, parent links lead to ids of the set only, and none of it is given out. -/
structure Sheltered (supply : Supply) (T : String → Prop) (s : Server) : Prop where
  unnumbered : ∀ provider mappers, s.defaults.get? provider = some mappers →
    ∀ m ∈ mappers, m.id = none
  new : ∀ n, s.idsIssued ≤ n → ¬T (supply.id n)
  closed : ∀ k p, T k → s.ChildOf k p → T p

/-- A call that changes no parent link in a set of ids, but to ids of the set, and deletes none. -/
def Shelters (T : String → Prop) : Call → Prop
  | .create c realm => T (c.parentId.getD realm)
  | .update c _ => ∀ k, c.id = some k → ¬T k
  | .delete i _ => ¬T i
  | _ => True

/-- A chain of parent links from an id of the set does not leave it. -/
theorem Sheltered.not_below (h : Sheltered supply T s) (hf : T f) (hk : ¬T k) : ¬s.Below f k := by
  intro below
  induction below with
  | single link => exact hk (h.closed _ _ hf link)
  | tail _ link ih => exact ih fun hb => hk (h.closed _ _ hb link)

theorem Sheltered.past (h : Sheltered supply T s) (hf : T f) : Past supply s f :=
  fun n hn same => h.new n hn (same ▸ hf)

theorem Sheltered.congr (h : Sheltered supply T s) (defaults : s₁.defaults = s.defaults)
    (issued : s.idsIssued ≤ s₁.idsIssued)
    (links : ∀ k p, T k → s₁.ChildOf k p → s.ChildOf k p) : Sheltered supply T s₁ where
  unnumbered := defaults ▸ h.unnumbered
  new n hn := h.new n (Nat.le_trans issued hn)
  closed k p hk link := h.closed k p hk (links k p hk link)

/-- After a call that shelters a set, it is sheltered as before, and an entry in it that the call
avoids is as it was. -/
theorem Sheltered.step (h : Sheltered supply T s) (hf : T f) (shelters : Shelters T call)
    (avoids : Avoids f call) (answered : Answered supply s call s₁) :
    Sheltered supply T s₁ ∧ s₁.components.get? f = s.components.get? f := by
  have defaults := answered.defaults
  have issued := answered.idsIssued
  cases answered with
  | kept components =>
    refine ⟨h.congr defaults issued fun k p _ ⟨e, he, hp⟩ => ⟨e, components ▸ he, hp⟩, ?_⟩
    rw [components]
  | created grown =>
    refine ⟨⟨defaults ▸ h.unnumbered, fun n hn => h.new n (Nat.le_trans issued hn), ?_⟩,
      grown.kept f (grown.id_ne (h.past hf) avoids) (h.past hf)⟩
    rintro k p hk ⟨e, he, hp⟩
    rcases grown.entries k e he with old | ⟨-, -, -, -, parent⟩ | ⟨n, -, -, -, rfl, hn, -⟩
    · exact h.closed k p hk ⟨e, old, hp⟩
    · cases hp.symm.trans parent
      exact shelters
    · exact absurd hk (h.new n hn)
  | updated hid _ _ _ components =>
    have others : ∀ k, T k → s₁.components.get? k = s.components.get? k := by
      intro k hk
      rw [components, SortedMap.get?_insert, if_neg]
      rintro rfl
      exact shelters k hid hk
    refine ⟨h.congr defaults issued fun k p hk ⟨e, he, hp⟩ => ?_, others f hf⟩
    exact ⟨e, (others k hk).symm.trans he, hp⟩
  | @deleted _ i _ deleted =>
    have ne : f ≠ i := fun same => shelters (same ▸ hf)
    refine ⟨h.congr defaults issued fun k p _ ⟨e, he, hp⟩ => ?_,
      deleted.kept f ne (h.not_below hf shelters)⟩
    exact ⟨e, deleted.get?_of_some he, hp⟩

/-! ### Runs -/

section Runs

variable {α : Type} {p : Dialogue α}

theorem Alone.run (alone : s.Alone d f) (modest : p.Calls (Modest d)) :
    (p.run (answer supply) s).2.Alone d f :=
  modest.invariant (I := (Alone · d f))
    (fun call _ modest alone => alone.step modest (answered alone.unnumbered call)) alone

theorem Sheltered.run (h : Sheltered supply T s) (hf : T f)
    (shelters : p.Calls fun call => Shelters T call ∧ Avoids f call) :
    (p.run (answer supply) s).2.components.get? f = s.components.get? f := by
  let I := fun t : Server => Sheltered supply T t ∧ t.components.get? f = s.components.get? f
  have step : ∀ call t, Shelters T call ∧ Avoids f call → I t → I (answer supply call t).2 := by
    rintro call t ⟨shelters, avoids⟩ ⟨sheltered, same⟩
    obtain ⟨after, kept⟩ := sheltered.step hf shelters avoids (answered sheltered.unnumbered call)
    exact ⟨after, kept.trans same⟩
  have kept : I (p.run (answer supply) s).2 := shelters.invariant step ⟨h, rfl⟩
  exact kept.2

end Runs

end UserFederation.Server
