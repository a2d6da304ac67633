import UserFederation.Proofs.Changes
import UserFederation.Proofs.Ways

/-! The call that a run opens its changes with: it updates the federation that is found, or creates
it. Either way the federation is then stored as declared, and is not one of its own mappers. -/

namespace UserFederation.Server

open Dialogue Mapper Reconcile

variable {supply : Supply} {s s₁ : Server} {d : Declaration} {f k : String} {e : Stored}
  {changes : Changeset}

/-- The ids that are given out from now on are new: they differ from each other, from the ids that
are stored, and from those that a declaration names. -/
structure Fresh (supply : Supply) (s : Server) (d : Declaration) : Prop where
  injective : ∀ m n, supply.id m = supply.id n → m = n
  stored : ∀ id e, s.components.get? id = some e → Past supply s id
  parents : ∀ id e parent, s.components.get? id = some e → e.component.parentId = some parent →
    Past supply s parent
  realm : Past supply s d.realm
  id : ∀ id, d.id = some id → Past supply s id
  parentId : ∀ parent, d.parentId = some parent → Past supply s parent
  mappers : ∀ ms, d.mapperComponents = some ms → ∀ m ∈ ms, ∀ id, m.id = some id → Past supply s id

theorem Reachable.orderly (reachable : Reachable supply s) (fresh : Fresh supply s d)
    (unignored : s.ignoredKeys = []) (unarmed : s.failNext = none)
    (defaults : ∀ provider mappers, s.defaults.get? provider = some mappers →
      ∀ m ∈ mappers, m.id = none) : Orderly supply s :=
  ⟨reachable.keyed, unignored, unarmed, defaults, fresh.injective, fresh.stored, fresh.parents⟩

/-- A federation that is stored as declared, and is not one of its own mappers. -/
structure Begun (supply : Supply) (s : Server) (d : Declaration) (f : String) (e : Stored) :
    Prop where
  orderly : Orderly supply s
  stored : s.components.get? f = some e
  realm : e.realm = d.realm
  formed : Formed d.component f e.component
  rootless : e.component.parentId ≠ some f

theorem Begun.rooted (h : Begun supply s d f e) : Rooted s f d.realm :=
  ⟨e, h.stored, h.realm, h.rootless⟩

theorem Formed.type {dc x : Component} (h : Formed dc f x) {t : String}
    (ht : dc.providerType = some t) : x.providerType = some t := by
  obtain ⟨previous, base, y, stamped, form⟩ := h.form
  rw [form, stamped.rest]
  change dc.providerType.or _ = some t
  rw [ht, Option.some_or]

theorem Formed.name {dc x : Component} (h : Formed dc f x) (named : dc.name.isSome) :
    x.name = dc.name := by
  obtain ⟨previous, base, y, stamped, form⟩ := h.form
  obtain ⟨n, hn⟩ := Option.isSome_iff_exists.mp named
  rw [form, stamped.rest]
  change dc.name.or _ = dc.name
  rw [hn, Option.some_or]

/-! ### Declared mappers -/

theorem mapperComponents_eq_some {ds : List Component} (h : d.mapperComponents = some ds)
    {m : Component} (hm : m ∈ ds) : m.extra = .empty ∧ ∃ t, m.providerType = some t := by
  unfold Declaration.mapperComponents at h
  obtain ⟨ms, -, rfl⟩ := Option.map_eq_some_iff.mp h
  obtain ⟨m', -, rfl⟩ := List.mem_map.mp hm
  exact ⟨rfl, _, rfl⟩

/-- A federation without an id is declared by its name. -/
theorem named_of_valid (valid : d.validate = .ok ()) : d.id = none → d.name.isSome :=
  (sound_of_valid valid).1

/-- A declared mapper has an id or a name. -/
theorem identified_of_valid (valid : d.validate = .ok ()) {ds : List Component}
    (hds : d.mapperComponents = some ds) : ∀ m ∈ ds, m.id = none → m.name.isSome := by
  obtain ⟨ms, hms, rfl⟩ := Option.map_eq_some_iff.mp hds
  intro m hm
  obtain ⟨m', hm', rfl⟩ := List.mem_map.mp hm
  exact ((sound_of_valid valid).2 ms hms).2 m' hm'

/-! ### Updating the federation that is found -/

/-- The parent that is declared is that of a federation that is stored as declared. -/
theorem Formed.parent (h : Formed d.component f e.component) (o : Orderly supply s)
    (he : s.components.get? f = some e) (rootless : e.component.parentId ≠ some f) {p : String}
    (hp : d.parentId = some p) : Past supply s p ∧ p ≠ f := by
  have own : e.component.parentId = some p := by
    rw [← h.parentId]
    change d.parentId.or _ = some p
    rw [hp, Option.some_or]
  exact ⟨o.parents f e p he own, fun same => rootless (same ▸ own)⟩

theorem Found.given (h : s.Found d f e) : d.component.id.or (some f) = some f := by
  change d.id.or (some f) = some f
  rcases h.2.2 with given | ⟨none, -⟩
  · rw [given, Option.some_or]
  · rw [none, Option.none_or]

/-- What a run sends for a federation that it finds. -/
theorem desired_component
    (changed : Changeset.of d (some (s.normalized d.realm f e)) = .ok changes) :
    (changes.applyTo (some (s.normalized d.realm f e))).component =
      (redact e.component).undoEcho.mergedWith d.component := applyTo_component changed

/-- The parent of a federation after an update is the one that is laid over it, or as before. -/
theorem Updated.parentId {c x : Component}
    (h : Updated s ((redact e.component).undoEcho.mergedWith c) f e x s₁) :
    x.parentId = c.parentId.or e.component.parentId := by
  obtain ⟨y, -, form⟩ := h.form
  rw [form]
  change (c.parentId.or e.component.parentId).or e.component.parentId = _
  cases c.parentId <;> cases e.component.parentId <;> rfl

/-- The update of a federation that is found succeeds and leaves it as declared; its mappers stay. -/
theorem Found.update (found : s.Found d f e) (o : Orderly supply s)
    (parent : ∀ p, d.parentId = some p → Past supply s p ∧ p ≠ f)
    (rootless : e.component.parentId ≠ some f) :
    ∃ x s₁, s.update supply ((redact e.component).undoEcho.mergedWith d.component) d.realm =
        (.ok (), s₁) ∧
      Updated s ((redact e.component).undoEcho.mergedWith d.component) f e x s₁ ∧
      Begun supply s₁ d f { e with component := x } := by
  have hid : ((redact e.component).undoEcho.mergedWith d.component).id = some f := by
    change d.component.id.or e.component.id = some f
    rw [o.keyed f e found.1]
    exact found.given
  obtain ⟨x, s₁, hs₁, updated⟩ := update_effect supply o hid found.1 found.2.1
  obtain ⟨y, stamped, form⟩ := updated.form
  have parentId : x.parentId = d.parentId.or e.component.parentId := updated.parentId
  have xid : x.id = some f := by
    rw [form, stamped.rest]
    exact hid
  have formed : Formed d.component f x := by
    refine ⟨xid, found.given, ?_, ⟨_, _, y, stamped, ?_⟩⟩
    · rw [parentId]
      change d.parentId.or (d.parentId.or e.component.parentId) = _
      cases d.parentId <;> rfl
    · have yid : y.id = x.id := by rw [form]
      rw [← yid, form]
  refine ⟨x, s₁, hs₁, updated, ?_, updated.get?.trans (if_pos rfl), found.2.1, formed, ?_⟩
  · refine updated.orderly o hid found.1 fun p hp => ?_
    change d.parentId.or e.component.parentId = some p at hp
    cases hd : d.parentId with
    | some q =>
      rw [hd, Option.some_or] at hp
      exact Option.some.inj hp ▸ (parent q hd).1
    | none =>
      rw [hd, Option.none_or] at hp
      exact o.parents f e p found.1 hp
  · change x.parentId ≠ some f
    rw [parentId]
    cases hd : d.parentId with
    | some q =>
      rw [Option.some_or]
      exact fun same => (parent q hd).2 (Option.some.inj same)
    | none => exact rootless

theorem mapper?_self (he : s.components.get? f = some e) (rootless : e.component.parentId ≠ some f)
    (realm : String) : s.mapper? f realm f = none := by
  refine Option.eq_none_iff_forall_ne_some.mpr fun m hm => ?_
  obtain ⟨e', he', -, rfl, hp⟩ := mapper?_eq_some_iff.mp hm
  cases he.symm.trans he'
  exact rootless hp

/-- An update of a federation leaves its mappers alone. -/
theorem Updated.mapper? {c x : Component} (h : Updated s c f e x s₁)
    (he : s.components.get? f = some e) (before : e.component.parentId ≠ some f)
    (after : x.parentId ≠ some f) (realm k : String) :
    s₁.mapper? f realm k = s.mapper? f realm k := by
  by_cases hk : k = f
  · subst hk
    rw [mapper?_self he before, mapper?_self (h.get?.trans (if_pos rfl)) after]
  · exact mapper?_congr (by rw [h.get?, if_neg hk])

/-- An update of a federation replaces it where it stands. -/
theorem Updated.visible {c x : Component} (h : Updated s c f e x s₁) (keyed : s.Keyed)
    (he : s.components.get? f = some e) (realm : String) :
    s₁.visible realm = (s.visible realm).map (replaced f { e with component := x }) :=
  keyed.visible_insert he h.components realm

/-- An update of a federation leaves the listing of its mappers alone. -/
theorem Updated.children {c x : Component} (h : Updated s c f e x s₁) (keyed : s.Keyed)
    (he : s.components.get? f = some e) (before : e.component.parentId ≠ some f)
    (after : x.parentId ≠ some f) (realm : String) :
    s₁.children f realm = s.children f realm := by
  have either : ∀ e' ∈ s.visible realm, replaced f { e with component := x } e' = e' ∨
      e' = e ∧ replaced f { e with component := x } e' = { e with component := x } :=
    fun e' he' => keyed.replaced_eq he (List.mem_filter.mp (List.mem_mergeSort.mp he')).1 _
  -- No listing of the mappers shows the federation, neither before nor after.
  have listed : ∀ e' ∈ s.visible realm,
      ((replaced f { e with component := x } e').component.parentId = some f ↔
        e'.component.parentId = some f) := by
    intro e' he'
    rcases either e' he' with same | ⟨rfl, same⟩ <;> rw [same]
    exact ⟨fun own => absurd own after, fun own => absurd own before⟩
  unfold Server.children Server.list
  rw [h.visible keyed he, List.map_map, List.filter_map, List.filter_map,
    List.filter_congr (q := fun e' => decide (e'.component.parentId = some f))
    fun e' he' => by simp only [Function.comp_apply, listed e' he']]
  congr 1
  refine List.map_congr_left fun e' he' => ?_
  obtain ⟨there, own⟩ := List.mem_filter.mp he'
  rcases either e' there with same | ⟨rfl, -⟩
  · exact congrArg Stored.component same
  · exact absurd (of_decide_eq_true own) before

/-- A run that updates leaves the federation as declared and its mappers as they were found. -/
theorem Found.opened (found : s.Found d f e) (o : Orderly supply s) (fresh : Fresh supply s d)
    (rootless : e.component.parentId ≠ some f ∧ d.parentId ≠ some f)
    (changed : Changeset.of d (some (s.normalized d.realm f e)) = .ok changes)
    (update : s.update supply (changes.applyTo (some (s.normalized d.realm f e))).component
      d.realm = (.ok (), s₁)) :
    ∃ x, Updated s ((redact e.component).undoEcho.mergedWith d.component) f e x s₁ ∧
      Begun supply s₁ d f { e with component := x } ∧
      (s.normalized d.realm f e).mappers.Perm (s₁.children f d.realm) := by
  obtain ⟨x, s₁', hs₁, updated, begun⟩ := found.update o
    (fun p hp => ⟨fresh.parentId p hp, fun same => rootless.2 (hp.trans (congrArg some same))⟩)
    rootless.1
  rw [desired_component changed, hs₁] at update
  cases update
  have same := updated.children o.keyed found.1 rootless.1 begun.rootless d.realm
  exact ⟨x, updated, begun, same ▸ normalized_listing s d.realm f e⟩

/-- What supports the declared mappers before an update does so after it. -/
theorem Updated.supported {x : Component}
    (updated : Updated s ((redact e.component).undoEcho.mergedWith d.component) f e x s₁)
    (changed : Changeset.of d (some (s.normalized d.realm f e)) = .ok changes)
    {ds : List Component} (hds : d.mapperComponents = some ds) :
    checkMappersSupported (d.providerId.or x.providerId) ds.length = .ok () := by
  obtain ⟨y, stamped, form⟩ := updated.form
  have provider : d.providerId.or x.providerId = d.providerId.or e.component.providerId := by
    rw [form, stamped.rest]
    change d.providerId.or (d.providerId.or e.component.providerId) = _
    cases d.providerId <;> rfl
  rw [provider]
  exact (applyTo_mappers_of_some changed hds).1

/-! ### Creating a federation -/

/-- What a run sends for a federation that it does not find. -/
theorem desired_component_of_unfound (changed : Changeset.of d none = .ok changes) :
    (changes.applyTo none).component = d.component := by
  rw [applyTo_component changed]
  exact Component.empty_mergedWith rfl

/-- The creation of a federation succeeds and stores it as declared. -/
theorem Fresh.create (fresh : Fresh supply s d) (o : Orderly supply s)
    (rootless : d.id ≠ some (d.parentId.getD d.realm)) :
    ∃ f x s₁, s.create supply d.component d.realm = (.ok (redact x), s₁) ∧
      Created supply s d.component d.realm f x s₁ ∧ f = d.id.getD (supply.id s.idsIssued) ∧
      ∃ e, e.component = x ∧ Begun supply s₁ d f e := by
  have parent : Past supply s (d.parentId.getD d.realm) := by
    cases hp : d.parentId with
    | none => exact fresh.realm
    | some p => exact fresh.parentId p hp
  obtain ⟨f, x, s₁, hs₁, created⟩ := create_effect (c := d.component) o fresh.id d.realm
  obtain ⟨e, he, hr, rfl⟩ := created.stored
  obtain ⟨y, stamped, form⟩ := created.form
  have hf : f = d.id.getD (supply.id s.idsIssued) := created.id_eq
  have given : d.component.id.or (some f) = some f := by
    change d.id.or (some f) = some f
    rw [hf]
    cases d.id <;> rfl
  have formed : Formed d.component f e.component := by
    refine ⟨by rw [form], given, ?_, ⟨none, {}, y, ?_, by rw [form]⟩⟩
    · rw [form]
      change d.parentId.or (some (d.parentId.getD d.realm)) = some (d.parentId.getD d.realm)
      cases d.parentId <;> rfl
    · rw [Component.empty_mergedWith rfl]
      exact stamped
  have own : e.component.parentId ≠ some f := by
    rw [form]
    intro same
    have same : d.parentId.getD d.realm = f := Option.some.inj same
    cases hid : d.id with
    | some i =>
      rw [hid, Option.getD_some] at hf
      exact rootless (by rw [hid, same, hf])
    | none =>
      rw [hid, Option.getD_none] at hf
      exact parent s.idsIssued (Nat.le_refl _) (same.trans hf).symm
  exact ⟨f, e.component, s₁, hs₁, created, hf, e, rfl,
    created.orderly o parent, he, hr, formed, own⟩

/-- What supports the declared mappers before a creation does so after it. -/
theorem Created.supported {x : Component} (created : Created supply s d.component d.realm f x s₁)
    (changed : Changeset.of d none = .ok changes) {ds : List Component}
    (hds : d.mapperComponents = some ds) :
    checkMappersSupported (d.providerId.or x.providerId) ds.length = .ok () := by
  obtain ⟨y, stamped, form⟩ := created.form
  have provider : d.providerId.or x.providerId = d.providerId.or none := by
    rw [form, stamped.rest]
    change d.providerId.or d.providerId = _
    cases d.providerId <;> rfl
  rw [provider]
  exact (applyTo_mappers_of_some changed hds).1

/-- A run that creates stores the federation as declared. -/
theorem Fresh.opened (fresh : Fresh supply s d) (o : Orderly supply s)
    (rootless : d.id ≠ some (d.parentId.getD d.realm)) (changed : Changeset.of d none = .ok changes)
    {c : Component} (create : s.create supply (changes.applyTo none).component d.realm = (.ok c, s₁))
    (hid : c.id = some f) :
    ∃ e, Created supply s d.component d.realm f e.component s₁ ∧ Begun supply s₁ d f e ∧
      f = d.id.getD (supply.id s.idsIssued) := by
  obtain ⟨f', x, s₁', hs₁, created, hf, e, rfl, begun⟩ := fresh.create o rootless
  rw [desired_component_of_unfound changed, hs₁] at create
  cases create
  cases begun.formed.id.symm.trans hid
  exact ⟨e, created, begun, hf⟩

end UserFederation.Server
