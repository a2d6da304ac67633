import UserFederation.Proofs.Convergence
import UserFederation.Proofs.Retention
import UserFederation.Proofs.Shelter
import UserFederation.Proofs.Verdict

/-! Whether a run finds again what the run before it has written. A run that looks for a federation
by its name looks for the type of federations, but writes the type that is declared. So the next run
finds the federation just if this is the type of federations, and creates another one if it is not
(`rerun_recognizes`): a run leaves no other component that answers to the name, and does not lose
the federation along with a mapper. -/

namespace UserFederation.Server

open Dialogue Mapper Reconcile

variable {supply : Supply} {s s₁ u : Server} {d : Declaration} {f k : String} {e : Stored}
  {m : Component}

/-! ### What is sent for a mapper -/

theorem not_answers_mergedWith {base : Component} (h : ¬AnswersTo d m)
    (typed : m.providerType.isSome)
    (other : m.name = none → m.providerType = some federationType → base.name ≠ d.name) :
    ¬AnswersTo d (base.mergedWith m) := by
  rintro ⟨type, name⟩
  obtain ⟨t, ht⟩ := Option.isSome_iff_exists.mp typed
  have same : m.providerType = some federationType := by
    change m.providerType.or base.providerType = _ at type
    rwa [ht, Option.some_or, ← ht] at type
  change m.name.or base.name = d.name at name
  cases hn : m.name with
  | none =>
    rw [hn, Option.none_or] at name
    exact other hn same name
  | some n =>
    rw [hn, Option.some_or, ← hn] at name
    exact h ⟨same, name⟩

theorem typed_of_declared {ds : List Component} (hds : d.mapperComponents = some ds) :
    ∀ m ∈ ds, m.providerType.isSome := by
  intro m hm
  obtain ⟨-, t, ht⟩ := mapperComponents_eq_some hds hm
  rw [ht]
  rfl

theorem referent?_of_named {existing : List Component} {b : Component} (unnumbered : m.id = none)
    (h : referent? m existing = .ok (some b)) : b.name = m.name := by
  cases hn : m.name with
  | none =>
    rw [referent?, unnumbered, hn] at h
    cases h
  | some n =>
    rw [referent?, unnumbered, hn] at h
    obtain ⟨none, -⟩ | ⟨c, -, same, name, -⟩ := withName?_ok h
    · cases none
    · cases same
      exact name

theorem referent?_of_numbered {existing : List Component} {b : Component} (unnamed : m.name = none)
    (h : referent? m existing = .ok (some b)) : ∃ i, m.id = some i ∧ b.id = some i := by
  cases hid : m.id with
  | none =>
    rw [referent?, hid, unnamed] at h
    cases h
  | some i =>
    rw [referent?, hid] at h
    have same := List.find?_some (Except.ok.inj h)
    exact ⟨i, rfl, of_decide_eq_true same⟩

section Found

variable {ds target : List Component} {prune : Bool} {w : Component}

/-- A declared mapper that neither refers to the federation `f` itself nor makes a federation of a
mapper of the same name. -/
structure Other (s : Server) (d : Declaration) (f : String) (m : Component) : Prop where
  id : m.id ≠ some f
  named : m.id = none → m.name = d.name → s.mapper? f d.realm f = none
  typed : m.name = none → m.providerType = some federationType → ∀ i p, m.id = some i →
    s.mapper? f d.realm i = some p → p.name ≠ d.name

theorem exists_of_mem_normalized (keyed : s.Keyed) {b : Component}
    (hb : b ∈ (s.normalized d.realm f e).mappers) :
    ∃ i p, b.id = some i ∧ s.mapper? f d.realm i = some p ∧ redact p = b :=
  keyed.exists_of_mem_children ((normalized_listing s d.realm f e).mem_iff.mp hb)

theorem Other.not_answers (other : s.Other d f w) (keyed : s.Keyed) (named : d.name.isSome)
    (typed : w.providerType.isSome) (silent : ¬AnswersTo d w)
    (resolved : resolve (s.normalized d.realm f e).mappers w = .ok m) : ¬AnswersTo d m := by
  obtain ⟨base, hr, rfl⟩ := resolve_eq_ok_iff.mp resolved
  refine not_answers_mergedWith silent typed fun unnamed type => ?_
  cases base with
  | none =>
    intro none
    rw [← none] at named
    cases named
  | some b =>
    obtain ⟨i, hi, hbi⟩ := referent?_of_numbered unnamed hr
    obtain ⟨j, p, hbj, hp, rfl⟩ := exists_of_mem_normalized keyed (referent?_mem hr)
    cases hbi.symm.trans hbj
    exact other.typed unnamed type i p hi hp

theorem Other.resolved_id (other : s.Other d f w) (keyed : s.Keyed)
    (he : s.components.get? f = some e) (name : e.component.name = d.name)
    (resolved : resolve (s.normalized d.realm f e).mappers w = .ok m) : m.id ≠ some f := by
  obtain ⟨base, hr, rfl⟩ := resolve_eq_ok_iff.mp resolved
  intro same
  change w.id.or (base.getD {}).id = some f at same
  cases hid : w.id with
  | some i =>
    rw [hid, Option.some_or, ← hid] at same
    exact other.id same
  | none =>
    rw [hid, Option.none_or] at same
    cases base with
    | none => cases same
    | some b =>
      -- The federation is listed as its own mapper, and referred to by its name.
      obtain ⟨j, p, hbj, hp, rfl⟩ := exists_of_mem_normalized keyed (referent?_mem hr)
      cases hbj.symm.trans same
      obtain ⟨e', he', -, rfl, -⟩ := mapper?_eq_some_iff.mp hp
      cases he.symm.trans he'
      have alike : w.name = d.name := (referent?_of_named hid hr).symm.trans name
      cases (other.named hid alike).symm.trans hp

/-- The plan for a federation that was found sends nothing that answers to its name, and nothing
under its id. -/
theorem Found.plan (found : s.Found d f e) (keyed : s.Keyed) (name : e.component.name = d.name)
    (named : d.name.isSome)
    (ok : Mapper.target ds (s.normalized d.realm f e).mappers prune = .ok target)
    (typed : ∀ m ∈ ds, m.providerType.isSome) (silent : ∀ m ∈ ds, ¬AnswersTo d m)
    (others : ∀ m ∈ ds, s.Other d f m) :
    ∀ a ∈ planUpdate target (s.normalized d.realm f e).mappers f,
      Modest d (a.call d.realm) ∧ Avoids f (a.call d.realm) := by
  have sends : ∀ w ∈ ds, ∀ m, resolve (s.normalized d.realm f e).mappers w = .ok m →
      ¬AnswersTo d m ∧ m.id ≠ some f := fun w hw m resolved =>
    ⟨(others w hw).not_answers keyed named (typed w hw) (silent w hw) resolved,
      (others w hw).resolved_id keyed found.1 name resolved⟩
  intro a ha
  obtain ⟨i, rfl⟩ | ⟨w, hw, m, resolved, rfl | rfl⟩ := planUpdate_sends ok ha
  · exact ⟨trivial, trivial⟩
  · exact sends w hw m resolved
  · exact sends w hw m resolved

end Found

/-! ### A federation that is created -/

section Created

variable {reply : Component}

/-- The id of a new federation, or one that was not given out any more before it. -/
def Former (supply : Supply) (s : Server) (f k : String) : Prop := k = f ∨ Past supply s k

theorem Grown.new (grown : Grown supply s c d.realm reply f s₁) (hid : c.id = none) :
    f = supply.id s.idsIssued ∧ s.idsIssued < s₁.idsIssued := by
  have same := grown.id_eq
  rw [hid, Option.getD_none] at same
  exact ⟨same, grown.used hid⟩

theorem Fresh.not_former (fresh : Fresh supply s d) (hf : f = supply.id s.idsIssued) {n : Nat}
    (hn : s.idsIssued < n) : ¬Former supply s f (supply.id n) := by
  rintro (same | past)
  · have := fresh.injective n s.idsIssued (same.trans hf)
    omega
  · exact past n (Nat.le_of_lt hn) rfl

theorem Fresh.past_parent (fresh : Fresh supply s d) : Past supply s (d.parentId.getD d.realm) := by
  cases hp : d.parentId with
  | none => exact fresh.realm
  | some p => exact fresh.parentId p hp

/-- A new federation is below nothing that is new. -/
theorem Fresh.sheltered (fresh : Fresh supply s d) (unnumbered : d.id = none)
    (alone : s.Alone d f) (grown : Grown supply s d.component d.realm reply f s₁) :
    Sheltered supply (Former supply s f) s₁ := by
  obtain ⟨hf, used⟩ := grown.new unnumbered
  refine ⟨grown.frame.defaults ▸ alone.unnumbered,
    fun n hn => fresh.not_former hf (Nat.lt_of_lt_of_le used hn), ?_⟩
  rintro k p hk ⟨e, he, hp⟩
  -- An old component has an old parent, the federation its own; the ids of its mappers are new.
  rcases grown.entries k e he with old | ⟨-, -, -, -, parent⟩ | ⟨n, -, -, -, rfl, -, later, -⟩
  · exact .inr (fresh.parents k e p old hp)
  · cases hp.symm.trans parent
    exact .inr fresh.past_parent
  · exact absurd hk (fresh.not_former hf (later unnumbered))

theorem Fresh.stored_new (fresh : Fresh supply s d) (unnumbered : d.id = none)
    (grown : Grown supply s d.component d.realm reply f s₁) :
    ∃ e, s₁.components.get? f = some e ∧ e.realm = d.realm ∧ e.component.name = d.name ∧
      e.component.providerType = some d.providerType := by
  obtain ⟨hf, -⟩ := grown.new unnumbered
  obtain ⟨e, he, -⟩ := grown.stored
  rcases grown.entries f e he with old | ⟨-, hr, name, type, -⟩ | ⟨n, -, -, -, same, -, later, -⟩
  · exact absurd hf.symm (fresh.stored f e old s.idsIssued (Nat.le_refl _))
  · exact ⟨e, he, hr, name, type⟩
  · exact absurd (.inl same.symm) (fresh.not_former hf (later unnumbered))

/-- The mappers of a new federation came with it, so they have new ids. -/
theorem Fresh.listed_new (fresh : Fresh supply s d) (keyed : s₁.Keyed) (unnumbered : d.id = none)
    (grown : Grown supply s d.component d.realm reply f s₁) :
    ∀ p ∈ s₁.children f d.realm, p.parentId = some f ∧ ∃ i, p.id = some i ∧ ¬Former supply s f i := by
  obtain ⟨hf, -⟩ := grown.new unnumbered
  intro p hp
  obtain ⟨i, m, hid, hm, rfl⟩ := keyed.exists_of_mem_children hp
  obtain ⟨e, he, -, rfl, own⟩ := mapper?_eq_some_iff.mp hm
  refine ⟨own, i, hid, ?_⟩
  rcases grown.entries i e he with old | ⟨-, -, -, -, parent⟩ | ⟨n, -, -, -, rfl, -, later, -⟩
  · exact absurd hf.symm (fresh.parents i e f old own s.idsIssued (Nat.le_refl _))
  · have same : d.parentId.getD d.realm = f := Option.some.inj (parent.symm.trans own)
    exact absurd (same.trans hf).symm (fresh.past_parent s.idsIssued (Nat.le_refl _))
  · exact fresh.not_former hf (later unnumbered)

/-- The plan for a new federation sends nothing that answers to its name or has its id, and deletes
nothing that it is below. -/
theorem stem_kept {ds defaults : List Component} {a : Action} (stems : Stems ds defaults f a)
    (listed : ∀ p ∈ defaults, p.parentId = some f ∧ ∃ i, p.id = some i ∧ ¬Former supply s f i)
    (ids : ∀ m ∈ ds, m.id ≠ some f) (parents : ∀ m ∈ ds, ∀ p, m.parentId = some p → Past supply s p)
    (typed : ∀ m ∈ ds, m.providerType.isSome) (silent : ∀ m ∈ ds, ¬AnswersTo d m) :
    Modest d (a.call d.realm) ∧ Shelters (Former supply s f) (a.call d.realm) ∧
      Avoids f (a.call d.realm) := by
  have laid : ∀ m ∈ ds, ∀ p : Component, m.name.isSome → ¬AnswersTo d (p.mergedWith m) := by
    intro m hm p named
    refine not_answers_mergedWith (silent m hm) (typed m hm) fun unnamed => ?_
    rw [unnamed] at named
    cases named
  cases stems with
  | delete hp hi =>
    obtain ⟨-, i, hid, new⟩ := listed _ hp
    cases hi.symm.trans hid
    exact ⟨trivial, new, trivial⟩
  | @create m hm =>
    refine ⟨silent m hm, ?_, ids m hm⟩
    · change Former supply s f ((m.parentId.or (some f)).getD d.realm)
      cases hp : m.parentId with
      | none => exact .inl rfl
      | some p => exact .inr (parents m hm p hp)
  | @replace p m hm hp named =>
    obtain ⟨own, i, hid, new⟩ := listed p hp
    refine ⟨laid m hm p named, ?_, fun same => ?_⟩
    · change Former supply s f (((m.parentId.or p.parentId).or (some f)).getD d.realm)
      cases hp : m.parentId with
      | none =>
        rw [own]
        exact .inl rfl
      | some p => exact .inr (parents m hm p hp)
    · change m.id.or p.id = some f at same
      cases hm' : m.id with
      | none =>
        rw [hm', Option.none_or, hid, Option.some.injEq] at same
        exact new (.inl same)
      | some j =>
        rw [hm', Option.some_or] at same
        exact ids m hm (hm'.trans same)
  | @update p m i hm hp named hi kept =>
    obtain ⟨-, j, hid, new⟩ := listed p hp
    cases hi.symm.trans hid
    refine ⟨laid m hm p named, fun k hk => ?_, fun same => ?_⟩
    · cases kept.symm.trans hk
      exact new
    · cases kept.symm.trans same
      exact new (.inl rfl)

end Created

/-! ### What a run leaves -/

/-- A federation that is stored under `f` as it is declared; nothing else answers to its name. -/
structure Sole (s : Server) (d : Declaration) (f : String) (e : Stored) : Prop where
  stored : s.components.get? f = some e
  realm : e.realm = d.realm
  name : e.component.name = d.name
  type : e.component.providerType = some d.providerType
  alone : s.Alone d f

theorem Sole.found (h : s.Sole d f e) (unnumbered : d.id = none) (named : d.name.isSome)
    (type : d.providerType = federationType) : s.Found d f e :=
  ⟨h.stored, h.realm, .inr ⟨unnumbered, h.type.trans (congrArg some type), named, h.name,
    fun k e' he hr ht hn => h.alone.only k e' he hr ⟨ht, hn⟩⟩⟩

theorem Sole.unfound (h : s.Sole d f e) (unnumbered : d.id = none) (named : d.name.isSome)
    (other : d.providerType ≠ federationType) : s.Unfound d := by
  refine ⟨fun i hi => ?_, fun _ => ⟨named, fun k e' he hr ht hn => ?_⟩⟩
  · cases unnumbered.symm.trans hi
  · cases h.alone.only k e' he hr ⟨ht, hn⟩
    cases h.stored.symm.trans he
    exact other (Option.some.inj (h.type.symm.trans ht))

/-- What a server and a declaration without an id have to be like for a run to leave nothing else
that answers to the name of the federation. -/
structure Recognizable (supply : Supply) (s : Server) (d : Declaration) : Prop where
  reachable : Reachable supply s
  fresh : Fresh supply s d
  valid : d.validate = .ok ()
  present : d.state = .present
  unnumbered : d.id = none
  defaults : ∀ provider mappers, s.defaults.get? provider = some mappers →
    ∀ m ∈ mappers, m.id = none ∧ ¬AnswersTo d m
  mappers : ∀ ds, d.mapperComponents = some ds → ∀ m ∈ ds, ¬AnswersTo d m ∧
    ∀ parent, m.parentId = some parent → Past supply s parent
  others : ∀ ds, d.mapperComponents = some ds → ∀ f e, s.Found d f e → ∀ m ∈ ds, s.Other d f m

namespace Recognizable

variable {changes : Changeset}

theorem named (h : Recognizable supply s d) : d.name.isSome := named_of_valid h.valid h.unnumbered

theorem alone (h : Recognizable supply s d) (only : ∀ k e, s.components.get? k = some e →
    e.realm = d.realm → AnswersTo d e.component → k = f) : s.Alone d f :=
  ⟨only, fun provider mappers hd m hm => (h.defaults provider mappers hd m hm).1,
    fun provider mappers hd m hm => (h.defaults provider mappers hd m hm).2⟩

/-- A federation without an id that is found is the only one of its name. -/
theorem only (h : Recognizable supply s d) (found : s.Found d f e) :
    e.component.name = d.name ∧ e.component.providerType = some federationType ∧ s.Alone d f := by
  rcases found.2.2 with given | ⟨-, type, -, name, only⟩
  · cases h.unnumbered.symm.trans given
  · exact ⟨name, type, h.alone fun k e' he hr answers => only k e' he hr answers.1 answers.2⟩

/-- A federation that is found as it has to be is of the declared type. -/
theorem sole_idle (h : Recognizable supply s d) (found : s.Found d f e)
    (changed : Changeset.of d (some (s.normalized d.realm f e)) = .ok changes)
    (same : (changes.applyTo (some (s.normalized d.realm f e))).needsUpdate
      (s.normalized d.realm f e) d.credentialPolicy = false) : s.Sole d f e := by
  obtain ⟨name, -, alone⟩ := h.only found
  obtain ⟨component, -⟩ := needsUpdate_eq_false.mp same
  rw [desired_component changed] at component
  obtain ⟨fields, -⟩ :=
    CredentialPolicy.counted_mergedWith.mp (CredentialPolicy.counted_mergedWith_same.mp component)
  exact ⟨found.1, found.2.1, name, fields.providerType _ rfl, alone⟩

/-- An update of the federation that is found stores it as declared. -/
theorem sole_update (h : Recognizable supply s d) (found : s.Found d f e)
    (changed : Changeset.of d (some (s.normalized d.realm f e)) = .ok changes)
    (update : s.update supply (changes.applyTo (some (s.normalized d.realm f e))).component
      d.realm = (.ok (), s₁)) : ∃ e₁, s₁.Sole d f e₁ ∧ Past supply s₁ f := by
  obtain ⟨name, -, alone⟩ := h.only found
  obtain ⟨id, e₁, hid, realm, named, type, frame, components⟩ := update_names update
  rw [desired_component changed] at hid named type
  have same : id = f := by
    have given : d.id.or e.component.id = some id := hid
    rw [h.unnumbered, Option.none_or, h.reachable.keyed f e found.1, Option.some.injEq] at given
    exact given.symm
  subst same
  have entry : ∀ k, s₁.components.get? k = if k = id then some e₁ else s.components.get? k :=
    fun k => by rw [components, SortedMap.get?_insert]
  refine ⟨e₁, ⟨(entry id).trans (if_pos rfl), realm, ?_, type, ?_⟩,
    (h.fresh.stored id e found.1).mono frame⟩
  · refine named.trans ?_
    change d.name.or e.component.name = d.name
    rw [name, Option.or_self]
  · refine ⟨fun k e' he hr answers => ?_, frame.defaults ▸ alone.unnumbered,
      frame.defaults ▸ alone.defaults⟩
    by_contra other
    rw [entry, if_neg other] at he
    exact other (alone.only k e' he hr answers)

theorem sole_updated (h : Recognizable supply s d) (found : s.Found d f e)
    (changed : Changeset.of d (some (s.normalized d.realm f e)) = .ok changes)
    (update : s.update supply (changes.applyTo (some (s.normalized d.realm f e))).component
      d.realm = (.ok (), s₁))
    (plan : (execute d.realm (planUpdate
      (changes.applyTo (some (s.normalized d.realm f e))).mappers
      (s.normalized d.realm f e).mappers f)).run (answer supply) s₁ = (.ok (), u))
    (there : (u.get f d.realm).isSome) : ∃ e', u.Sole d f e' := by
  obtain ⟨name, -, -⟩ := h.only found
  obtain ⟨e₁, sole, past⟩ := h.sole_update found changed update
  have kept : ∀ a ∈ planUpdate (changes.applyTo (some (s.normalized d.realm f e))).mappers
      (s.normalized d.realm f e).mappers f, Modest d (a.call d.realm) ∧ Avoids f (a.call d.realm) := by
    cases hds : d.mapperComponents with
    | none =>
      have idle : planUpdate (foundMappers (some (s.normalized d.realm f e)))
          (s.normalized d.realm f e).mappers f = [] := planUpdate_eq_nil (.refl _)
      rw [applyTo_mappers_of_none changed hds, idle]
      exact List.forall_mem_nil _
    | some ds =>
      exact found.plan h.reachable.keyed name h.named (applyTo_mappers_of_some changed hds).2
        (typed_of_declared hds) (fun m hm => (h.mappers ds hds m hm).1) (h.others ds hds f e found)
  have alone : (Dialogue.run (answer supply) _ s₁).2.Alone d f :=
    sole.alone.run (execute_calls fun a ha => (kept a ha).1)
  have spared := run_spared (execute_calls fun a ha => (kept a ha).2) (fun _ => none) 0 past
    sole.alone.unnumbered
  rw [congrArg Prod.snd (run_refusing_none _ 0 s₁), plan] at spared
  rw [plan] at alone
  refine ⟨e₁, ?_, sole.realm, sole.name, sole.type, alone⟩
  -- A mapper that is deleted could take the federation with it; then the run would not succeed.
  rcases spared.entry with same | gone
  · exact same.trans sole.stored
  · rw [get, stored?, gone] at there
    cases there

theorem sole_created (h : Recognizable supply s d) (unfound : s.Unfound d)
    (changed : Changeset.of d none = .ok changes) {c : Component} {plan : List Action}
    (create : s.create supply (changes.applyTo none).component d.realm = (.ok c, s₁))
    (hid : c.id = some f)
    (planned : planAfterCreation (changes.applyTo none).mappers (s₁.children f d.realm) f d.prune =
      .ok plan)
    (done : (execute d.realm plan).run (answer supply) s₁ = (.ok (), u)) : ∃ e, u.Sole d f e := by
  rw [desired_component_of_unfound changed] at create
  have keyed : s₁.Keyed := by
    have after := (h.reachable.apply (.call (.create d.component d.realm))).keyed
    rwa [Server.apply, answer, create] at after
  have alone : s.Alone d f := h.alone fun k e he hr answers =>
    absurd answers.2 ((unfound.2 h.unnumbered).2 k e he hr answers.1)
  obtain ⟨id, grown⟩ := create_entry alone.unnumbered create
  have same : id = f := by
    obtain ⟨e, he, rfl⟩ := grown.stored
    exact Option.some.inj ((keyed id e he).symm.trans hid)
  subst same
  obtain ⟨e, he, realm, name, type⟩ := h.fresh.stored_new h.unnumbered grown
  have listed := h.fresh.listed_new keyed h.unnumbered grown
  have declared : ∀ m ∈ (changes.applyTo none).mappers,
      ∃ ds, d.mapperComponents = some ds ∧ m ∈ ds := by
    intro m hm
    have hm := (applyTo_none_mappers_perm changed).mem_iff.mp hm
    cases hds : d.mapperComponents with
    | none =>
      rw [hds] at hm
      cases hm
    | some ds =>
      rw [hds] at hm
      exact ⟨ds, rfl, hm⟩
  have kept : ∀ a ∈ plan, Modest d (a.call d.realm) ∧
      Shelters (Former supply s id) (a.call d.realm) ∧ Avoids id (a.call d.realm) := by
    intro a ha
    refine stem_kept (planAfterCreation_stems planned a ha) listed (fun m hm => ?_)
      (fun m hm => ?_) (fun m hm => ?_) fun m hm => ?_ <;> obtain ⟨ds, hds, hm⟩ := declared m hm
    · exact fun same => h.fresh.mappers ds hds m hm id same _ (Nat.le_refl _)
        (grown.new h.unnumbered).1.symm
    · exact (h.mappers ds hds m hm).2
    · exact typed_of_declared hds m hm
    · exact (h.mappers ds hds m hm).1
  have alone₁ : (Dialogue.run (answer supply) _ s₁).2.Alone d id :=
    (grown.alone alone fun _ => rfl).run (execute_calls fun a ha => (kept a ha).1)
  have same := (h.fresh.sheltered h.unnumbered alone grown).run (.inl rfl)
    (execute_calls fun a ha => (kept a ha).2)
  rw [done] at alone₁ same
  exact ⟨e, same.trans he, realm, name, type, alone₁⟩

end Recognizable

/-! ### The next run -/

section Subject

variable {changes : Changeset} {mode : RunMode}

theorem subject?_of_sighted {xs : List Exchange} {before : Federation}
    (sighted : Sighted xs (some before)) (hid : before.component.id = some f) :
    subject? xs = some f := by
  cases sighted with
  | nameless none => cases none.symm.trans hid
  | found h =>
    obtain ⟨c, shown, looked, -, rfl⟩ := sighting_eq_some h
    simp only [subject?, foundIn, List.head?_cons, Option.bind_some, looked, Option.join_some,
      Option.some_or]
    exact hid

theorem Found.subject (found : s.Found d f e) (keyed : s.Keyed) (valid : d.validate = .ok ())
    (changed : Changeset.of d (some (s.normalized d.realm f e)) = .ok changes) :
    subject? ((reconcile d mode).exchanges (answer supply) s) = some f := by
  have surveyed : (survey d).run (answer supply) s =
      (.ok (some (s.normalized d.realm f e), changes), s) := by
    rw [survey_run, found.surveyed_ok keyed valid changed]
  have sighted := ((survey_ends d).run surveyed).1
  rw [reconcile_eq, exchanges_bind]
  exact subject?_append (subject?_of_sighted sighted (normalized_id keyed found.1 d.realm))

theorem Unfound.subject (unfound : s.Unfound d) (valid : d.validate = .ok ())
    (present : d.state = .present) (apply : mode.dryRun = false)
    (changed : Changeset.of d none = .ok changes) {c : Component}
    (create : s.create supply (changes.applyTo none).component d.realm = (.ok c, s₁))
    (hid : c.id = some f) :
    subject? ((reconcile d mode).exchanges (answer supply) s) = some f := by
  have surveyed : (survey d).run (answer supply) s = (.ok (none, changes), s) := by
    rw [survey_run, unfound.surveyed_ok valid changed]
  have sighted := ((survey_ends d).run surveyed).1
  rw [reconcile_eq, exchanges_bind, surveyed]
  generalize (survey d).exchanges (answer supply) s = xs at sighted
  cases sighted with
  | @missing x h =>
    have reads : Unchanged [x] := List.forall_mem_singleton.mpr (found?_reads h)
    have unfound : foundIn [x] = none := by simp [foundIn, h]
    simp only [conclude, present, create_apply apply, exchanges_ask, answer, create]
    rw [List.append_cons]
    exact subject?_append (subject?_created (List.cons_ne_nil _ _) unfound reads hid)

/-- A run that finds the federation creates none. -/
theorem Found.creates_none (found : s.Found d f e) (keyed : s.Keyed) (valid : d.validate = .ok ())
    (present : d.state = .present) (mode : RunMode) (c : Component) (realm : String) :
    firstChange ((reconcile d mode).exchanges (answer supply) s) ≠ some (.create c realm) := by
  have reads : Unchanged ((survey d).exchanges (answer supply) s) := (survey_reads d).exchanges s
  rw [reconcile_eq, exchanges_bind, firstChange_append reads, survey_run,
    found.surveyed keyed valid]
  cases changed : Changeset.of d (some (s.normalized d.realm f e)) with
  | error => exact unchanged_nil.firstChange_ne _
  | ok changes =>
    simp only [Except.map, conclude, present]
    have hid := normalized_id keyed found.1 d.realm
    cases needed : (changes.applyTo (some (s.normalized d.realm f e))).needsUpdate
      (s.normalized d.realm f e) d.credentialPolicy with
    | false =>
      rw [update_idle hid needed]
      exact unchanged_nil.firstChange_ne _
    | true =>
      cases apply : mode.dryRun with
      | true =>
        obtain ⟨o, dry, -⟩ := update_dry hid apply
        rw [dry]
        exact unchanged_nil.firstChange_ne _
      | false =>
        rw [update_busy hid apply needed, exchanges_ask]
        intro same
        cases Option.some.inj (show some (Call.update _ _) = _ from same)

end Subject

/-- A run leaves the federation that it is about as declared, and nothing else that answers to its
name. -/
theorem Recognizable.sole (h : Recognizable supply s d) {mode : RunMode} {o : Outcome}
    (apply : mode.dryRun = false)
    (run : (reconcile d mode).run (answer supply) s = (.ok o, u)) :
    ∃ f e, subject? ((reconcile d mode).exchanges (answer supply) s) = some f ∧ u.Sole d f e := by
  have keyed := h.reachable.keyed
  cases run_present keyed h.present apply run with
  | idle found changed same =>
    exact ⟨_, _, found.subject keyed h.valid changed, h.sole_idle found changed same⟩
  | updated found changed update plan there =>
    obtain ⟨e', sole⟩ := h.sole_updated found changed update plan there
    exact ⟨_, e', found.subject keyed h.valid changed, sole⟩
  | created unfound changed create hid planned plan =>
    obtain ⟨e, sole⟩ := h.sole_created unfound changed create hid planned plan
    exact ⟨_, e, unfound.subject h.valid h.present apply changed create hid, sole⟩

/-- A run leaves the federation that it found or created. The next run finds it by its name, and
creates none, if the declared type is that of federations; with any other type it finds nothing. -/
theorem rerun_recognizes (h : Recognizable supply s d) {mode : RunMode} {o : Outcome}
    (apply : mode.dryRun = false)
    (run : (reconcile d mode).run (answer supply) s = (.ok o, u)) :
    ∃ f, subject? ((reconcile d mode).exchanges (answer supply) s) = some f ∧
      (∃ e, u.stored? f d.realm = some e ∧ e.component.name = d.name ∧
        e.component.providerType = some d.providerType) ∧
      (d.providerType = federationType →
        (∃ found, u.resolved d.realm d.id d.name = .ok (some found) ∧ found.component.id = some f) ∧
          ∀ again c realm, firstChange ((reconcile d again).exchanges (answer supply) u) ≠
            some (.create c realm)) ∧
      (d.providerType ≠ federationType → u.resolved d.realm d.id d.name = .ok none) := by
  obtain ⟨f, e, subject, sole⟩ := h.sole apply run
  have keyed : u.Keyed := by
    have after := h.reachable.run (reconcile d mode)
    rw [run] at after
    exact after.keyed
  refine ⟨f, subject, ⟨e, stored?_eq_some_iff.mpr ⟨sole.stored, sole.realm⟩, sole.name, sole.type⟩,
    fun type => ?_, fun other => (sole.unfound h.unnumbered h.named other).resolved⟩
  have found := sole.found h.unnumbered h.named type
  exact ⟨⟨_, found.resolved keyed, keyed f e found.1⟩, found.creates_none keyed h.valid h.present⟩

/-! ### Samples -/

namespace Sample

/-- A federation without an id, with one mapper. -/
def corp : Declaration := { name := some "corp", mappers := some [{ name := some "mail" }] }

def corpEntry : Stored :=
  ⟨"master", 1, { corp.component with id := some "~", parentId := some "master" }⟩

/-- The federation before its mapper is created. -/
def founded : Server where
  components := .ofList [("~", corpEntry)]
  insertions := 1
  journal := [⟨.create, "~", some "corp"⟩]
  idsIssued := 1

def staffed : Server where
  components := .ofList [("~", corpEntry),
    ("~~", ⟨"master", 2, { mail with id := some "~~", parentId := some "~" }⟩)]
  insertions := 2
  journal := [⟨.create, "~", some "corp"⟩, ⟨.create, "~~", some "mail"⟩]
  idsIssued := 2

theorem recognizable_corp : Recognizable tally withoutDefaults corp where
  reachable := .withoutDefaults
  fresh := fresh_tally (by decide) (by decide) (by decide)
  valid := rfl
  present := rfl
  unnumbered := rfl
  defaults _ _ h := by cases h
  mappers ds h m hm := by
    cases h
    cases List.mem_singleton.mp hm
    exact ⟨fun answers => absurd answers.1 (by decide), nofun⟩
  others _ _ _ _ h := by cases h.1

theorem unfound_corp : withoutDefaults.Unfound corp :=
  ⟨nofun, fun _ => ⟨rfl, nofun⟩⟩

theorem corp_run : ∃ o, (reconcile corp {}).run (answer tally) withoutDefaults =
    (.ok o, staffed) := by
  have target : Mapper.target [mail] (foundMappers none) corp.prune = .ok [mail] :=
    target_singleton rfl _
  have declared : corp.mapperComponents = some [mail] := rfl
  have surveyed : withoutDefaults.surveyed corp =
      .ok (none, changesWith corp none (some [mail])) := by
    rw [unfound_corp.surveyed rfl, of_eq, declared]
    simp only [target]
    rfl
  have listed : founded.children "~" corp.realm = [] :=
    children_of_values [corpEntry] rfl (by decide)
  have planned : planAfterCreation [mail] (founded.children "~" corp.realm) "~" corp.prune =
      .ok [.create (mail.withParent "~")] := by
    rw [listed]
    rfl
  have created : withoutDefaults.create tally corp.component corp.realm =
      (.ok corpEntry.component, founded) := rfl
  have executed : (execute corp.realm [.create (mail.withParent "~")]).run (answer tally)
      founded = (.ok (), staffed) := rfl
  have apply : ({} : RunMode).dryRun = false := rfl
  obtain ⟨o, run, -⟩ := run_created founded corpEntry.component rfl apply surveyed created rfl
    planned executed
  exact ⟨o, run⟩

end Sample

open Server.Sample in
theorem rerun_recognizes_corp : ∃ o u f,
    (reconcile corp {}).run (answer tally) withoutDefaults = (.ok o, u) ∧
      subject? ((reconcile corp {}).exchanges (answer tally) withoutDefaults) = some f ∧
      (∃ found, u.resolved corp.realm corp.id corp.name = .ok (some found) ∧
        found.component.id = some f) ∧
      ∀ again c realm, firstChange ((reconcile corp again).exchanges (answer tally) u) ≠
        some (.create c realm) := by
  obtain ⟨o, run⟩ := corp_run
  obtain ⟨f, subject, -, recognized, -⟩ := rerun_recognizes recognizable_corp rfl run
  exact ⟨o, staffed, f, run, subject, recognized rfl⟩

namespace Sample

/-- A federation that is declared with a type of its own. -/
def outsider : Declaration := { name := some "corp", providerType := "other" }

def outsiderEntry (id : String) (order : Nat) : Stored :=
  ⟨"master", order, { outsider.component with id := some id, parentId := some "master" }⟩

def settled : Server where
  components := .ofList [("~", outsiderEntry "~" 1)]
  insertions := 1
  journal := [⟨.create, "~", some "corp"⟩]
  idsIssued := 1

/-- The federation is there twice. -/
def doubled : Server where
  components := .ofList [("~", outsiderEntry "~" 1), ("~~", outsiderEntry "~~" 2)]
  insertions := 2
  journal := [⟨.create, "~", some "corp"⟩, ⟨.create, "~~", some "corp"⟩]
  idsIssued := 2

theorem recognizable_outsider : Recognizable tally withoutDefaults outsider where
  reachable := .withoutDefaults
  fresh := fresh_tally (by decide) (by decide) (by decide)
  valid := rfl
  present := rfl
  unnumbered := rfl
  defaults _ _ h := by cases h
  mappers _ h := by cases h
  others _ h := by cases h

theorem unfound_outsider : settled.Unfound outsider := by
  refine ⟨nofun, fun _ => ⟨rfl, fun k e he _ type => ?_⟩⟩
  have entry := SortedMap.get?_eq_some_iff.mp he
  cases List.mem_singleton.mp (show (k, e) ∈ [("~", outsiderEntry "~" 1)] from entry)
  exact absurd type (by decide)

end Sample

open Server.Sample in
/-- A federation of another type than that of federations is created again by the next run. -/
theorem rerun_outsider_creates_again : Recognizable tally withoutDefaults outsider ∧
    ∃ o o', (reconcile outsider {}).run (answer tally) withoutDefaults = (.ok o, settled) ∧
      subject? ((reconcile outsider {}).exchanges (answer tally) withoutDefaults) = some "~" ∧
      settled.resolved outsider.realm outsider.id outsider.name = .ok none ∧
      (reconcile outsider {}).run (answer tally) settled = (.ok o', doubled) ∧
      subject? ((reconcile outsider {}).exchanges (answer tally) settled) = some "~~" := by
  have unfound : withoutDefaults.Unfound outsider := ⟨nofun, fun _ => ⟨rfl, nofun⟩⟩
  have changed : Changeset.of outsider none = .ok (changesWith outsider none none) := rfl
  have created : withoutDefaults.create tally outsider.component outsider.realm =
      (.ok (outsiderEntry "~" 1).component, settled) := rfl
  have recreated : settled.create tally outsider.component outsider.realm =
      (.ok (outsiderEntry "~~" 2).component, doubled) := rfl
  have listed : settled.children "~" outsider.realm = [] :=
    children_of_values [outsiderEntry "~" 1] rfl (by decide)
  have relisted : doubled.children "~~" outsider.realm = [] :=
    children_of_values [outsiderEntry "~" 1, outsiderEntry "~~" 2] rfl (by decide)
  have idle : planAfterCreation [] (settled.children "~" outsider.realm) "~" outsider.prune =
      .ok [] := by
    rw [listed]
    rfl
  have again : planAfterCreation [] (doubled.children "~~" outsider.realm) "~~" outsider.prune =
      .ok [] := by
    rw [relisted]
    rfl
  have surveyed : withoutDefaults.surveyed outsider = .ok (none, changesWith outsider none none) := by
    rw [unfound.surveyed rfl, changed]
    rfl
  have resurveyed : settled.surveyed outsider = .ok (none, changesWith outsider none none) := by
    rw [unfound_outsider.surveyed rfl, changed]
    rfl
  have apply : ({} : RunMode).dryRun = false := rfl
  obtain ⟨o, run, -⟩ := run_created settled (outsiderEntry "~" 1).component rfl apply surveyed
    created rfl idle rfl
  obtain ⟨o', run', -⟩ := run_created doubled (outsiderEntry "~~" 2).component rfl apply resurveyed
    recreated rfl again rfl
  exact ⟨recognizable_outsider, o, o', run, unfound.subject rfl rfl rfl changed created rfl,
    unfound_outsider.resolved, run', unfound_outsider.subject rfl rfl rfl changed recreated rfl⟩

end UserFederation.Server
