import UserFederation.Proofs.Opening
import UserFederation.Proofs.Rerun

/-! What a run leaves on a server. A run that makes changes and succeeds leaves the federation as
declared, whether it updates it (`Convergent.converged_updated`) or creates it
(`Convergent.converged_created`). -/

namespace UserFederation.Server

open Dialogue Mapper Reconcile

variable {supply : Supply} {s s₁ u : Server} {d : Declaration} {f k : String} {e : Stored}
  {changes : Changeset}

/-- What a server and a declaration have to be like for a second run to find the federation as
declared. -/
structure Convergent (supply : Supply) (s : Server) (d : Declaration) : Prop where
  reachable : Reachable supply s
  unignored : s.ignoredKeys = []
  unarmed : s.failNext = none
  defaults : ∀ provider mappers, s.defaults.get? provider = some mappers →
    ∀ m ∈ mappers, m.id = none ∧ m.providerType ≠ some federationType
  fresh : Fresh supply s d
  valid : d.validate = .ok ()
  present : d.state = .present
  type : d.providerType = federationType
  unsynced : d.component.configList? lastSyncKey = none
  credential : d.component.configList? bindCredentialKey = none ∨ d.credentialPolicy = .onlyIndirect
  /-- Nothing that is declared of a mapper is kept back or dropped by the server. -/
  mappers : ∀ ds, d.mapperComponents = some ds → ∀ m ∈ ds,
    m.parentId = none ∧ m.providerType ≠ some federationType ∧
      m.configList? bindCredentialKey = none ∧
      ∀ values, m.configList? principalKey = some values → Filled values
  distinct : ∀ ds, d.mapperComponents = some ds → ds.Pairwise fun m n =>
    (∀ id, m.id = some id → n.id ≠ some id) ∧ ∀ name, m.name = some name → n.name ≠ some name
  /-- No two declared mappers refer to one existing mapper. -/
  unshared : ∀ ds, d.mapperComponents = some ds → ∀ f e, s.Found d f e → ds.Pairwise fun m n =>
    ∀ c, referent? m (s.children f d.realm) = .ok (some c) →
      referent? n (s.children f d.realm) ≠ .ok (some c)
  /-- The id of a declared mapper is new, or that of a mapper of the federation. -/
  given : ∀ ds, d.mapperComponents = some ds → ∀ m ∈ ds, ∀ id, m.id = some id → d.id ≠ some id ∧
    (s.components.get? id = none ∨ ∃ f e, s.Found d f e ∧ (s.mapper? f d.realm id).isSome)
  /-- The federation is not its own parent. -/
  rootless : ∀ f e, s.Found d f e → e.component.parentId ≠ some f ∧ d.parentId ≠ some f
  rootless_new : s.Unfound d → d.id ≠ some (d.parentId.getD d.realm)
  parentId : ∀ parent, d.parentId = some parent → s.components.get? parent = none

theorem Convergent.orderly (h : Convergent supply s d) : Orderly supply s :=
  h.reachable.orderly h.fresh h.unignored h.unarmed fun provider mappers hd m hm =>
    (h.defaults provider mappers hd m hm).1

/-- A declared mapper of which nothing is kept back or dropped can be seen to be there. -/
theorem visible_of_declared {ds : List Component} (hds : d.mapperComponents = some ds)
    (mappers : ∀ m ∈ ds, m.parentId = none ∧ m.providerType ≠ some federationType ∧
      m.configList? bindCredentialKey = none ∧
      ∀ values, m.configList? principalKey = some values → Filled values) :
    ∀ m ∈ ds, Visible m := by
  intro m hm
  obtain ⟨parentId, type, credential, principal⟩ := mappers m hm
  obtain ⟨-, t, ht⟩ := mapperComponents_eq_some hds hm
  exact ⟨⟨t, ht, fun same => type (ht.trans (congrArg some same))⟩, parentId, credential, principal⟩

theorem Convergent.visible (h : Convergent supply s d) {ds : List Component}
    (hds : d.mapperComponents = some ds) : ∀ m ∈ ds, Visible m :=
  visible_of_declared hds (h.mappers ds hds)

/-- Declared mappers that share no id and no name are told apart by each. -/
theorem separate_of_distinct (valid : d.validate = .ok ())
    {ds : List Component} (hds : d.mapperComponents = some ds) (distinct : ds.Pairwise fun m n =>
      (∀ id, m.id = some id → n.id ≠ some id) ∧ ∀ name, m.name = some name → n.name ≠ some name) :
    ds.Nodup ∧ (∀ m ∈ ds, ∀ n ∈ ds, ∀ i, m.id = some i → n.id = some i → m = n) ∧
      ∀ m ∈ ds, ∀ n ∈ ds, m.name.isSome → m.name = n.name → m = n := by
  have symm : Std.Symm fun m n : Component => (∀ id, m.id = some id → n.id ≠ some id) ∧
      ∀ name, m.name = some name → n.name ≠ some name := by
    constructor
    rintro m n ⟨ids, names⟩
    exact ⟨fun id hn hm => ids id hm hn, fun name hn hm => names name hm hn⟩
  refine ⟨?_, fun m hm n hn i hi hj => ?_, fun m hm n hn named same => ?_⟩
  · refine (List.pairwise_iff_forall_sublist.mpr fun {m n} sub => ?_)
    obtain ⟨ids, names⟩ := List.pairwise_iff_forall_sublist.mp distinct sub
    rintro rfl
    cases hid : m.id with
    | some i => exact ids i hid hid
    | none =>
      have member : m ∈ ds := sub.subset List.mem_cons_self
      obtain ⟨name, hn⟩ := Option.isSome_iff_exists.mp (identified_of_valid valid hds m member hid)
      exact names name hn hn
  · by_contra ne
    exact (distinct.forall hm hn ne).1 i hi hj
  · by_contra ne
    obtain ⟨name, hname⟩ := Option.isSome_iff_exists.mp named
    exact (distinct.forall hm hn ne).2 name hname (same.symm.trans hname)

/-- What is known of declared mappers that are told apart once the federation that was found is
updated. -/
theorem Found.declared (found : s.Found d f e) (o : Orderly supply s) (valid : d.validate = .ok ())
    (before : e.component.parentId ≠ some f) {c x : Component} (updated : Updated s c f e x s₁)
    (after : x.parentId ≠ some f) {ds : List Component} (hds : d.mapperComponents = some ds)
    (parentId : ∀ m ∈ ds, m.parentId = none)
    (apart : ds.Nodup ∧ (∀ m ∈ ds, ∀ n ∈ ds, ∀ i, m.id = some i → n.id = some i → m = n) ∧
      ∀ m ∈ ds, ∀ n ∈ ds, m.name.isSome → m.name = n.name → m = n)
    (unshared : ds.Pairwise fun m n => ∀ c, referent? m (s.children f d.realm) = .ok (some c) →
      referent? n (s.children f d.realm) ≠ .ok (some c))
    (given : ∀ m ∈ ds, ∀ id, m.id = some id → Past supply s id ∧
      (s.components.get? id = none ∨ (s.mapper? f d.realm id).isSome)) :
    Declared supply s₁ f d.realm ds := by
  obtain ⟨nodup, ids, names⟩ := apart
  have same := fun k => updated.mapper? found.1 before after d.realm k
  have refers : ∀ {m k p}, s₁.Refers f d.realm m k p → s.Refers f d.realm m k p := by
    intro m k p hm
    simpa only [Refers, same] using hm
  refine ⟨fun m hm => (mapperComponents_eq_some hds hm).1, parentId,
    identified_of_valid valid hds, nodup, ids, names, fun m hm n hn k p hmp hnp => ?_,
    fun m hm i hi => ?_⟩
  · by_contra ne
    have symm : Std.Symm fun m n : Component => ∀ c,
        referent? m (s.children f d.realm) = .ok (some c) →
          referent? n (s.children f d.realm) ≠ .ok (some c) :=
      ⟨fun m n h c hn hm => h c hm hn⟩
    exact unshared.forall hm hn ne (redact p)
      ((refers hmp).referent? o.keyed (.refl _)) ((refers hnp).referent? o.keyed (.refl _))
  · rw [same]
    obtain ⟨past, unstored | there⟩ := given m hm i hi
    · have other : i ≠ f := by
        rintro rfl
        cases unstored.symm.trans found.1
      refine .inr ⟨other, ?_, past.mono updated.frame⟩
      rw [updated.get?, if_neg other, unstored]
    · exact .inl there

/-- What is known of the declared mappers once the federation that was found is updated. -/
theorem Convergent.declared_found (h : Convergent supply s d)
    (found : s.Found d f e) {c x : Component} (updated : Updated s c f e x s₁)
    (after : x.parentId ≠ some f) {ds : List Component} (hds : d.mapperComponents = some ds) :
    Declared supply s₁ f d.realm ds := by
  refine found.declared h.orderly h.valid (h.rootless f e found).1 updated after hds
    (fun m hm => (h.mappers ds hds m hm).1)
    (separate_of_distinct h.valid hds (h.distinct ds hds)) (h.unshared ds hds f e found)
    fun m hm i hi => ⟨h.fresh.mappers ds hds m hm i hi, ?_⟩
  refine (h.given ds hds m hm i hi).2.imp id ?_
  rintro ⟨f', e', found', there⟩
  exact (found.unique found').1 ▸ there

theorem Unfound.not_found (h : s.Unfound d) : ¬s.Found d f e := by
  rintro ⟨he, hr, hid | ⟨hid, ht, -, hn, -⟩⟩
  · cases (h.1 f hid).symm.trans (stored?_eq_some_iff.mpr ⟨he, hr⟩)
  · exact (h.2 hid).2 f e he hr ht hn

/-- What is known of the declared mappers once a federation is created. -/
theorem Convergent.declared_created (h : Convergent supply s d)
    (unfound : s.Unfound d) {x : Component} (created : Created supply s d.component d.realm f x s₁)
    (hf : f = d.id.getD (supply.id s.idsIssued)) {ds : List Component}
    (hds : d.mapperComponents = some ds) :
    Declared supply s₁ f d.realm ds ∧
      ∀ m ∈ ds, ∀ i, m.id = some i → s₁.mapper? f d.realm i = none := by
  obtain ⟨nodup, ids, names⟩ := separate_of_distinct h.valid hds (h.distinct ds hds)
  have new : ∀ m ∈ ds, ∀ i, m.id = some i →
      i ≠ f ∧ s₁.components.get? i = none ∧ Past supply s₁ i := by
    intro m hm i hi
    obtain ⟨other, stored⟩ := h.given ds hds m hm i hi
    have past := h.fresh.mappers ds hds m hm i hi
    have ne : i ≠ f := by
      intro same
      cases hid : d.id with
      | some j =>
        rw [hid, Option.getD_some] at hf
        exact other (by rw [hid, same, hf])
      | none =>
        rw [hid, Option.getD_none] at hf
        exact past s.idsIssued (Nat.le_refl _) (same.trans hf).symm
    have unstored : s.components.get? i = none := by
      rcases stored with none | ⟨f', e', found, -⟩
      · exact none
      · exact absurd found unfound.not_found
    exact ⟨ne, (created.kept i ne past).trans unstored, past.mono created.frame⟩
  have unmapped : ∀ m ∈ ds, ∀ i, m.id = some i → s₁.mapper? f d.realm i = none :=
    fun m hm i hi => mapper?_of_unstored (new m hm i hi).2.1
  have by_name : ∀ m ∈ ds, ∀ k p, s₁.Refers f d.realm m k p → m.name.isSome ∧ p.name = m.name := by
    rintro m hm k p ⟨there, hid | ⟨-, named, same, -⟩⟩
    · cases (unmapped m hm k hid).symm.trans there
    · exact ⟨named, same⟩
  refine ⟨⟨fun m hm => (mapperComponents_eq_some hds hm).1, fun m hm => (h.mappers ds hds m hm).1,
    identified_of_valid h.valid hds, nodup, ids, names, fun m hm n hn k p hmp hnp => ?_,
    fun m hm i hi => .inr (new m hm i hi)⟩, unmapped⟩
  obtain ⟨named, same⟩ := by_name m hm k p hmp
  exact names m hm n hn named (same.symm.trans (by_name n hn k p hnp).2)

theorem Declared.nil {realm : String} : Declared supply s f realm [] := by
  constructor <;> simp

theorem resolve_nil (m : Component) : resolve [] m = .ok (({} : Component).mergedWith m) := by
  have none : referent? m [] = .ok none := by
    unfold referent?
    cases m.id with
    | some i => rfl
    | none => cases m.name <;> rfl
  rw [resolve, none]
  rfl

/-- Without existing mappers the declared ones are those to end up with. -/
theorem target_nil_perm {ds target : List Component} {prune : Bool}
    (extra : ∀ m ∈ ds, m.extra = .empty) (h : Mapper.target ds [] prune = .ok target) :
    target.Perm ds := by
  obtain ⟨merged, resolved, rfl⟩ := target_eq_ok_iff.mp h
  have same : merged = ds := by
    induction resolved with
    | nil => rfl
    | cons hm _ ih =>
      obtain ⟨bare, extra⟩ := List.forall_mem_cons.mp extra
      rw [resolve_nil, Component.empty_mergedWith bare, Except.ok.injEq] at hm
      rw [hm, ih extra (target_eq_ok_iff.mpr ⟨_, by assumption, rfl⟩)]
  simpa [same] using arranged_perm [] merged prune

/-- The mappers of a new federation are the declared ones, if any. -/
theorem applyTo_none_mappers_perm (changed : Changeset.of d none = .ok changes) :
    (changes.applyTo none).mappers.Perm (d.mapperComponents.getD []) := by
  cases hds : d.mapperComponents with
  | none =>
    rw [applyTo_mappers_of_none changed hds]
    exact .refl _
  | some ds =>
    exact target_nil_perm (fun m hm => (mapperComponents_eq_some hds hm).1)
      (applyTo_mappers_of_some changed hds).2

/-- What is sent for declared mappers is no federation. -/
theorem Serves.types {realm : String} {prune : Bool} {ds : List Component} {plan : List Action}
    (serves : s.Serves f realm prune ds plan) (visible : ∀ m ∈ ds, Visible m) :
    ∀ a ∈ plan, ∀ c, a = .create c ∨ a = .update c → c.providerType ≠ some federationType := by
  intro a ha c made
  have type : ∀ m ∈ ds, ∀ base : Component,
      (base.mergedWith m).providerType ≠ some federationType := by
    intro m hm base
    obtain ⟨t, ht, other⟩ := (visible m hm).type
    change m.providerType.or _ ≠ _
    rw [ht, Option.some_or]
    exact fun same => other (Option.some.inj same)
  rcases serves.actions a ha with ⟨m, hm, reason⟩ | ⟨i, rfl, -⟩
  · cases reason with
    | update =>
      rcases made with h | h <;> cases h
      exact type m hm _
    | create =>
      rcases made with h | h <;> cases h
      exact type m hm _
  · rcases made with h | h <;> cases h

/-- What is below a component after its creation was below it before. -/
theorem Created.below {c x : Component} {realm : String} (h : Created supply s c realm f x s₁)
    (o : Orderly supply s) (past : Past supply s k) (below : s₁.Below k f) :
    k = f ∨ s.Below k f := by
  induction below using Relation.TransGen.head_induction_on with
  | @single k link =>
    by_cases same : k = f
    · exact .inl same
    · obtain ⟨e, he, hp⟩ := link
      exact .inr (.single ⟨e, h.kept k same past ▸ he, hp⟩)
  | @head k parent link _ ih =>
    by_cases same : k = f
    · exact .inl same
    · obtain ⟨e, he, hp⟩ := link
      have old : s.components.get? k = some e := h.kept k same past ▸ he
      rcases ih (o.parents k e parent old hp) with rfl | below
      · exact .inr (.single ⟨e, old, hp⟩)
      · exact .inr (.head ⟨e, old, hp⟩ below)

/-- A federation is found where it was if no other one came about. -/
theorem Found.of_quiet (found : s.Found d f e) (same : u.components.get? f = s.components.get? f)
    (quiet : Quiet s u) : u.Found d f e := by
  obtain ⟨he, hr, how⟩ := found
  refine ⟨same.trans he, hr, how.imp id ?_⟩
  rintro ⟨hid, ht, named, hn, only⟩
  refine ⟨hid, ht, named, hn, fun k e' he' hr' ht' hn' => ?_⟩
  exact only k e' (quiet k e' he' ht') hr' ht' hn'

/-- A federation that is stored as declared is found, if it is the only one of its name. -/
theorem Begun.found (begun : Begun supply s d f e) (valid : d.validate = .ok ())
    (type : d.providerType = federationType) (only : d.id = none → ∀ k e',
      s.components.get? k = some e' → e'.realm = d.realm →
        e'.component.providerType = some federationType → e'.component.name = d.name → k = f) :
    s.Found d f e := by
  refine ⟨begun.stored, begun.realm, ?_⟩
  cases hid : d.id with
  | some i =>
    have given : d.id.or (some f) = some f := begun.formed.given
    rw [hid, Option.some_or] at given
    exact .inl given
  | none =>
    have named := named_of_valid valid hid
    refine .inr ⟨rfl, begun.formed.type ?_, named, begun.formed.name named, only hid⟩
    exact congrArg some type

/-- Once the mappers are brought about as well, the federation is as declared. -/
theorem Begun.converged (begun : Begun supply s₁ d f e) (found : s₁.Found d f e)
    (valid : d.validate = .ok ()) {plan : List Action}
    (steps : Steps supply f d.realm plan s₁ u) (quiet : Quiet s₁ u)
    (supported : ∀ ds, d.mapperComponents = some ds →
      checkMappersSupported (d.providerId.or e.component.providerId) ds.length = .ok ())
    (mappers : ∀ ds, d.mapperComponents = some ds → Declared supply s₁ f d.realm ds ∧
      s₁.Serves f d.realm d.prune ds plan ∧ ∀ m ∈ ds, Visible m) :
    Converged supply u d f e := by
  obtain ⟨ids, carried⟩ := steps.carried begun.orderly
  refine ⟨carried.orderly, valid, found.of_quiet carried.federation quiet, begun.formed,
    begun.rootless, supported, fun ds hds => (mappers ds hds).1.nodup, fun ds hds => ?_⟩
  obtain ⟨declared, serves, visible⟩ := mappers ds hds
  exact (serves.brought begun.orderly declared carried).fulfilled declared carried.orderly.keyed
    visible

/-- A run that updates leaves the federation as declared. -/
theorem Convergent.converged_updated (h : Convergent supply s d)
    (found : s.Found d f e)
    (changed : Changeset.of d (some (s.normalized d.realm f e)) = .ok changes)
    (update : s.update supply (changes.applyTo (some (s.normalized d.realm f e))).component
      d.realm = (.ok (), s₁))
    (run : (execute d.realm (planUpdate
      (changes.applyTo (some (s.normalized d.realm f e))).mappers
      (s.normalized d.realm f e).mappers f)).run (answer supply) s₁ = (.ok (), u))
    (there : (u.get f d.realm).isSome) : ∃ e, Converged supply u d f e := by
  have o := h.orderly
  have rootless := h.rootless f e found
  obtain ⟨x, updated, begun, listing⟩ := found.opened o h.fresh rootless changed update
  have after : x.parentId ≠ some f := begun.rootless
  have alive : u.components.get? f ≠ none := by
    intro none
    simp [get, stored?, none] at there
  have found₁ : s₁.Found d f { e with component := x } := by
    refine begun.found h.valid h.type fun hid k e' he' hr ht hn => ?_
    by_contra other
    rw [updated.get?, if_neg other] at he'
    rcases found.2.2 with given | ⟨-, -, -, -, only⟩
    · cases hid.symm.trans given
    · exact other (only k e' he' hr ht hn)
  refine ⟨{ e with component := x }, ?_⟩
  cases hds : d.mapperComponents with
  | none =>
    have idle : planUpdate (changes.applyTo (some (s.normalized d.realm f e))).mappers
        (s.normalized d.realm f e).mappers f = [] := by
      rw [applyTo_mappers_of_none changed hds]
      exact planUpdate_eq_nil (.refl _)
    rw [idle] at run
    cases run
    refine begun.converged found₁ h.valid .nil (fun _ _ he _ => he) ?_ ?_ <;> simp [hds]
  | some ds =>
    have target := (applyTo_mappers_of_some changed hds).2
    have declared := h.declared_found found updated after hds
    have serves := planUpdate_serves declared begun.orderly.keyed listing target
    have steps := execute_effect begun.orderly begun.rooted
      (serves.apt begun.orderly.keyed declared) (Action.distinct_of_apart serves.apart) run alive
    have visible := h.visible hds
    have quiet := steps.quiet (fun provider mappers hd m hm =>
      (h.defaults provider mappers (updated.frame.defaults ▸ hd) m hm).2) (serves.types visible)
    refine begun.converged found₁ h.valid steps quiet (fun _ => updated.supported changed)
      fun ds' h' => ?_
    cases hds.symm.trans h'
    exact ⟨declared, serves, visible⟩

/-- A new federation is below none of its mappers, if its parent was not below its id. -/
theorem Convergent.not_below_child (h : Convergent supply s d)
    (above : ∀ id, d.id = some id → ¬s.Below (d.parentId.getD d.realm) id) {x : Component}
    (created : Created supply s d.component d.realm f x s₁) (begun : Begun supply s₁ d f e)
    (hf : f = d.id.getD (supply.id s.idsIssued)) (own : s₁.ChildOf k f) : ¬s₁.Below f k := by
  intro below
  have o := h.orderly
  have past : Past supply s (d.parentId.getD d.realm) := by
    cases hp : d.parentId with
    | none => exact h.fresh.realm
    | some p => exact h.fresh.parentId p hp
  have parent : e.component.parentId = some (d.parentId.getD d.realm) := by
    obtain ⟨e', he', -, rfl⟩ := created.stored
    cases begun.stored.symm.trans he'
    obtain ⟨y, -, form⟩ := created.form
    rw [form]
    rfl
  -- A mapper that is above the federation has its parent below it, or is its parent.
  have cycle : s₁.Below (d.parentId.getD d.realm) f := by
    obtain ⟨p, ⟨e', he', hp⟩, rest⟩ := Relation.TransGen.head'_iff.mp below
    cases begun.stored.symm.trans he'
    cases parent.symm.trans hp
    exact Relation.TransGen.tail' rest own
  rcases created.below o past cycle with same | cycle
  · exact begun.rootless (parent.trans (congrArg some same))
  · cases hid : d.id with
    | some j =>
      rw [hid, Option.getD_some] at hf
      exact above j hid (hf ▸ cycle)
    | none =>
      rw [hid, Option.getD_none] at hf
      obtain ⟨k, -, e', he', hp'⟩ := Relation.TransGen.tail'_iff.mp cycle
      exact o.parents k e' f he' hp' s.idsIssued (Nat.le_refl _) hf.symm

/-- A run that creates leaves the federation as declared, if its parent was not below its id: no
mapper can take the federation along then. -/
theorem Convergent.converged_created (h : Convergent supply s d)
    (unfound : s.Unfound d) (above : ∀ id, d.id = some id → ¬s.Below (d.parentId.getD d.realm) id)
    (changed : Changeset.of d none = .ok changes) {c : Component}
    (create : s.create supply (changes.applyTo none).component d.realm = (.ok c, s₁))
    (hid : c.id = some f) {plan : List Action}
    (planned : planAfterCreation (changes.applyTo none).mappers (s₁.children f d.realm) f d.prune =
      .ok plan)
    (run : (execute d.realm plan).run (answer supply) s₁ = (.ok (), u)) :
    ∃ e, Converged supply u d f e := by
  have o := h.orderly
  obtain ⟨e, created, begun, hf⟩ :=
    h.fresh.opened o (h.rootless_new unfound) changed create hid
  have keyed := begun.orderly.keyed
  have found₁ : s₁.Found d f e := by
    refine begun.found h.valid h.type fun unnamed k e' he' hr ht hn => ?_
    by_contra other
    rcases created.added k e' other he' with old | ⟨-, -, -, provider, mappers, m, hd, hm, form⟩
    · exact (unfound.2 unnamed).2 k e' old hr ht hn
    · rw [form] at ht
      exact (h.defaults provider mappers hd m hm).2 ht
  have perm := applyTo_none_mappers_perm changed
  obtain ⟨ds, hds⟩ : ∃ ds, d.mapperComponents.getD [] = ds := ⟨_, rfl⟩
  rw [hds] at perm
  have known : Declared supply s₁ f d.realm ds ∧
      (∀ m ∈ ds, ∀ i, m.id = some i → s₁.mapper? f d.realm i = none) ∧ ∀ m ∈ ds, Visible m := by
    cases hm : d.mapperComponents with
    | none =>
      rw [hm, Option.getD_none] at hds
      subst hds
      exact ⟨.nil, by simp, by simp⟩
    | some ds' =>
      rw [hm, Option.getD_some] at hds
      subst hds
      obtain ⟨declared, unmapped⟩ := h.declared_created unfound created hf hm
      exact ⟨declared, unmapped, h.visible hm⟩
  obtain ⟨declared, unmapped, visible⟩ := known
  have serves := planAfterCreation_serves declared keyed (.refl _) unmapped perm planned
  have apt := serves.apt keyed declared
  have safe : ∀ i, .delete i ∈ plan → ¬s₁.Below f i := by
    intro i hi
    obtain ⟨m, hm⟩ := Option.isSome_iff_exists.mp (apt _ hi)
    obtain ⟨e', he', -, rfl, own⟩ := mapper?_eq_some_iff.mp hm
    exact h.not_below_child above created begun hf ⟨e', he', own⟩
  obtain ⟨u', steps⟩ := execute_safe begun.orderly begun.rooted apt
    (Action.distinct_of_apart serves.apart) safe
  cases steps.run.symm.trans run
  have quiet := steps.quiet (fun provider mappers hd m hm =>
    (h.defaults provider mappers (created.frame.defaults ▸ hd) m hm).2) (serves.types visible)
  refine ⟨e, begun.converged found₁ h.valid steps quiet (fun _ => created.supported changed)
    fun ds' h' => ?_⟩
  rw [h', Option.getD_some] at hds
  subst hds
  exact ⟨declared, serves, visible⟩

end UserFederation.Server
