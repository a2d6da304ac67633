import UserFederation.Proofs.Landing
import UserFederation.Proofs.Noninterference

/-! A dry run of an update says what the run leaves. The one works out the federation that is to be,
the other reads it again from a server that rewrites what it accepts. What is shown of the federation
and of its mappers then is what was worked out (`Updated.foretold`, `Planned.foretold`), so the two
reports differ in the ids and parents of new mappers only (`dry_run_foretells`). -/

namespace UserFederation.Server

open Component Dialogue Mapper Reconcile

variable {supply : Supply} {s s₁ u : Server} {d : Declaration} {f : String} {e : Stored}
  {x : Component} {changes : Changeset} {o : Outcome}

/-! ### What is reported -/

/-- Two reports of one federation with the same mappers, of which the second knows the ids and the
parents of the new ones. -/
def Foretells (s : Server) (f : String) (shown applied : Json) : Prop :=
  ∃ c ms ms', shown = (⟨c, ms⟩ : Federation).render ∧ applied = (⟨c, ms'⟩ : Federation).render ∧
    List.Forall₂ (Foretold s f) ms ms'

theorem foretells_refl (c : Component) (ms : List Component) :
    Foretells s f (⟨c, ms⟩ : Federation).render (⟨c, ms⟩ : Federation).render :=
  ⟨c, ms, ms, rfl, rfl, List.forall₂_same.mpr fun _ _ => .inl rfl⟩

/-- A run that succeeds finds out the changes and goes on with them. -/
theorem Found.concluded (found : s.Found d f e) (keyed : s.Keyed) (valid : d.validate = .ok ())
    {mode : RunMode} (run : ((reconcile d mode).run (answer supply) s).1 = .ok o) :
    ∃ changes, Changeset.of d (some (s.normalized d.realm f e)) = .ok changes ∧
      ((conclude d mode (some (s.normalized d.realm f e)) changes).run (answer supply) s).1 =
        .ok o := by
  rw [reconcile_run, found.surveyed keyed valid] at run
  cases hc : Changeset.of d (some (s.normalized d.realm f e)) with
  | error failure =>
    rw [hc] at run
    cases run
  | ok changes =>
    rw [hc] at run
    exact ⟨changes, rfl, run⟩

variable {existing : Federation} {mode : RunMode}

/-- A run that makes the changes reports the federation that is to be if that is there already, and
else what it reads again after its calls. -/
theorem applied_endState (present : d.state = .present) (hid : existing.component.id = some f)
    (apply : mode.dryRun = false)
    (run : ((conclude d mode (some existing) changes).run (answer supply) s).1 = .ok o) :
    o.endState = (changes.applyTo (some existing)).render ∨
      ∃ s₁ u c, s.update supply (changes.applyTo (some existing)).component d.realm = (.ok (), s₁) ∧
        (execute d.realm (planUpdate (changes.applyTo (some existing)).mappers existing.mappers
          f)).run (answer supply) s₁ = (.ok (), u) ∧
        u.get f d.realm = some c ∧ o.endState = (u.shown d.realm f c).undoEcho.render := by
  simp only [conclude, present] at run
  cases need : (changes.applyTo (some existing)).needsUpdate existing d.credentialPolicy with
  | false =>
    rw [update_idle hid need] at run
    cases run
    exact .inl rfl
  | true =>
    rw [update_run apply hid need] at run
    rcases hu : s.update supply (changes.applyTo (some existing)).component d.realm with
      ⟨_ | _, s₁⟩ <;> simp only [hu] at run
    · cases run
    · rcases hx : (execute d.realm (planUpdate (changes.applyTo (some existing)).mappers
        existing.mappers f)).run (answer supply) s₁ with ⟨_ | _, u⟩ <;> simp only [hx] at run
      · cases run
      · cases hg : u.get f d.realm with
        | none => simp [hg] at run
        | some c =>
          simp only [hg] at run
          cases run
          exact .inr ⟨s₁, u, c, rfl, hx, hg, rfl⟩

/-! ### A dry run and the run -/

/-- What a server and a declaration have to be like for a dry run to say how the federation will
be. -/
structure Foreseeable (supply : Supply) (s : Server) (d : Declaration) (f : String) (e : Stored) :
    Prop where
  reachable : Reachable supply s
  unignored : s.ignoredKeys = []
  unarmed : s.failNext = none
  defaults : ∀ provider mappers, s.defaults.get? provider = some mappers →
    ∀ m ∈ mappers, m.id = none
  fresh : Fresh supply s d
  filled : ∀ k e', s.components.get? k = some e' →
    ∀ values, e'.component.configList? principalKey = some values → Filled values
  found : s.Found d f e
  sized : e.component.config.isSome
  valid : d.validate = .ok ()
  present : d.state = .present
  unsynced : d.component.configList? lastSyncKey = none
  unmasked : d.component.configList? bindCredentialKey ≠ some [secretMask]
  /-- Nothing that is declared of a mapper is kept back or dropped by the server. -/
  mappers : ∀ ds, d.mapperComponents = some ds → ∀ m ∈ ds,
    m.parentId = none ∧ m.providerType ≠ some federationType ∧
      m.configList? bindCredentialKey = none ∧
      ∀ values, m.configList? principalKey = some values → Filled values
  ids : ∀ ds, d.mapperComponents = some ds →
    ds.Pairwise fun m n => ∀ id, m.id = some id → n.id ≠ some id
  /-- No two declared mappers refer to one existing mapper. -/
  unshared : ∀ ds, d.mapperComponents = some ds → ds.Pairwise fun m n =>
    ∀ c, referent? m (s.children f d.realm) = .ok (some c) →
      referent? n (s.children f d.realm) ≠ .ok (some c)
  /-- The id of a declared mapper is new, or that of a mapper of the federation. -/
  given : ∀ ds, d.mapperComponents = some ds → ∀ m ∈ ds, ∀ id, m.id = some id →
    s.components.get? id = none ∨ (s.mapper? f d.realm id).isSome
  names : ∀ ds target, d.mapperComponents = some ds →
    Mapper.target ds (s.normalized d.realm f e).mappers d.prune = .ok target →
      target.Pairwise fun m n => m.name ≠ n.name
  /-- The federation is not made its own parent. -/
  parent : d.parentId.or e.component.parentId ≠ some f

/-- Names that are different count as different, but for none and the empty one. -/
theorem nameOrEmpty_ne {a b : Component} (ne : a.name ≠ b.name)
    (unmixed : a.name = none → b.name ≠ some "") (unmixed' : b.name = none → a.name ≠ some "") :
    a.nameOrEmpty ≠ b.nameOrEmpty := by
  unfold nameOrEmpty
  cases ha : a.name with
  | none =>
    cases hb : b.name with
    | none => exact absurd (ha.trans hb.symm) ne
    | some name => exact fun same => unmixed ha (hb.trans (congrArg some same.symm))
  | some name =>
    cases hb : b.name with
    | none => exact fun same => unmixed' hb (ha.trans (congrArg some same))
    | some name' => exact fun same => ne (ha.trans ((congrArg some same).trans hb.symm))

namespace Foreseeable

theorem orderly (h : Foreseeable supply s d f e) : Orderly supply s :=
  h.reachable.orderly h.fresh h.unignored h.unarmed h.defaults

/-- Declared mappers share no name, since those that they are merged into share none. -/
theorem distinct (h : Foreseeable supply s d f e) {ds target : List Component}
    (hds : d.mapperComponents = some ds)
    (ok : Mapper.target ds (s.normalized d.realm f e).mappers d.prune = .ok target) :
    ds.Pairwise fun m n => (∀ id, m.id = some id → n.id ≠ some id) ∧
      ∀ name, m.name = some name → n.name ≠ some name := by
  have names := h.names ds target hds ok
  obtain ⟨merged, resolved, rfl⟩ := target_eq_ok_iff.mp ok
  have perm := arranged_perm (s.normalized d.realm f e).mappers merged d.prune
  rw [perm.pairwise_iff fun ne => ne.symm] at names
  have apart : ds.Pairwise fun m n => ∀ name, m.name = some name → n.name ≠ some name := by
    refine pairwise_of_related resolved.flip (List.pairwise_append.mp names).1 ?_
    intro m _ m' _ c c' hc hc' ne name hn hn'
    obtain ⟨found, -, rfl⟩ := resolve_eq_ok_iff.mp hc
    obtain ⟨found', -, rfl⟩ := resolve_eq_ok_iff.mp hc'
    -- What is merged keeps the name that is declared for it.
    refine ne ?_
    change c.name.or _ = c'.name.or _
    rw [hn, hn', Option.some_or, Option.some_or]
  exact (h.ids ds hds).and apart

/-- Where mappers are declared, the plan for them is carried out as it was made, on the server after
the update. -/
theorem planned (h : Foreseeable supply s d f e) (rootless : e.component.parentId ≠ some f)
    {ds : List Component} (hds : d.mapperComponents = some ds)
    (changed : Changeset.of d (some (s.normalized d.realm f e)) = .ok changes)
    (updated : Updated s ((redact e.component).undoEcho.mergedWith d.component) f e x s₁)
    (begun : Begun supply s₁ d f { e with component := x })
    (run : (execute d.realm (planUpdate (changes.applyTo (some (s.normalized d.realm f e))).mappers
      (s.normalized d.realm f e).mappers f)).run (answer supply) s₁ = (.ok (), u))
    (alive : u.components.get? f ≠ none) :
    ∃ ids, Planned supply s₁ u f d.realm d.prune ds (s.normalized d.realm f e).mappers
      (changes.applyTo (some (s.normalized d.realm f e))).mappers ids := by
  have o := h.orderly
  have target := (applyTo_mappers_of_some changed hds).2
  have listing : (s.normalized d.realm f e).mappers.Perm (s₁.children f d.realm) := by
    rw [updated.children o.keyed h.found.1 rootless begun.rootless d.realm]
    exact normalized_listing s d.realm f e
  have declared := h.found.declared o h.valid rootless updated begun.rootless hds
    (fun m hm => (h.mappers ds hds m hm).1)
    (separate_of_distinct h.valid hds (h.distinct hds target)) (h.unshared ds hds)
    fun m hm i hi => ⟨h.fresh.mappers ds hds m hm i hi, h.given ds hds m hm i hi⟩
  have serves := planUpdate_serves declared begun.orderly.keyed listing target
  have steps := execute_effect begun.orderly begun.rooted
    (serves.apt begun.orderly.keyed declared) (Action.distinct_of_apart serves.apart) run alive
  obtain ⟨ids, carried⟩ := steps.carried begun.orderly
  refine ⟨ids, begun.orderly, declared, visible_of_declared hds (h.mappers ds hds), listing, target,
    carried, fun k p values hp hv => ?_⟩
  rw [updated.mapper? h.found.1 rootless begun.rootless d.realm] at hp
  obtain ⟨e', he', -, rfl, -⟩ := mapper?_eq_some_iff.mp hp
  exact h.filled k e' he' values hv

/-- The mappers that are to be are those that are shown once the plan is carried out. -/
theorem mappers_foretold (h : Foreseeable supply s d f e) (rootless : e.component.parentId ≠ some f)
    (unmixed : ∀ ds target, d.mapperComponents = some ds →
      Mapper.target ds (s.normalized d.realm f e).mappers d.prune = .ok target →
        ∀ m ∈ target, ∀ n ∈ target, m.name = none → n.name ≠ some "")
    (changed : Changeset.of d (some (s.normalized d.realm f e)) = .ok changes)
    (updated : Updated s ((redact e.component).undoEcho.mergedWith d.component) f e x s₁)
    (begun : Begun supply s₁ d f { e with component := x })
    (run : (execute d.realm (planUpdate (changes.applyTo (some (s.normalized d.realm f e))).mappers
      (s.normalized d.realm f e).mappers f)).run (answer supply) s₁ = (.ok (), u))
    (alive : u.components.get? f ≠ none) :
    u.components.get? f = some { e with component := x } ∧
      List.Forall₂ (Foretold s f) (changes.applyTo (some (s.normalized d.realm f e))).mappers
        (sortByName (u.children f d.realm)) := by
  cases hds : d.mapperComponents with
  | none =>
    -- The mappers are left alone, and the update does not touch them.
    have kept := applyTo_mappers_of_none changed hds
    have idle : planUpdate (foundMappers (some (s.normalized d.realm f e)))
        (s.normalized d.realm f e).mappers f = [] := planUpdate_eq_nil (.refl _)
    rw [kept] at run ⊢
    rw [idle] at run
    cases run
    have children := updated.children h.orderly.keyed h.found.1 rootless begun.rootless d.realm
    have shown : foundMappers (some (s.normalized d.realm f e)) =
        sortByName (s.children f d.realm) := normalized_mappers s d.realm f e
    refine ⟨begun.stored, ?_⟩
    rw [children, shown]
    exact List.forall₂_same.mpr fun _ _ => .inl rfl
  | some ds =>
    have target := (applyTo_mappers_of_some changed hds).2
    obtain ⟨ids, planned⟩ := h.planned rootless hds changed updated begun run alive
    have mixed := unmixed ds _ hds target
    have names := (h.names ds _ hds target).imp_of_mem fun {m n} hm hn ne =>
      nameOrEmpty_ne ne (mixed m hm n hn) (mixed n hn m hm)
    refine ⟨planned.carried.federation.trans begun.stored, (planned.foretold names).imp ?_⟩
    rintro m c (rfl | ⟨k, new, given, rfl⟩)
    · exact .inl rfl
    · -- An id that is new after the update was new before it.
      refine .inr ⟨k, ?_, given, rfl⟩
      rw [updated.get?] at new
      split at new
      · cases new
      · exact new

end Foreseeable

/-- If a dry run and the run both succeed, the dry run has reported what the run leaves, but for the
ids and parents of new mappers. -/
theorem dry_run_foretells (h : Foreseeable supply s d f e)
    (rootless : e.component.parentId ≠ some f)
    (unmixed : ∀ ds target, d.mapperComponents = some ds →
      Mapper.target ds (s.normalized d.realm f e).mappers d.prune = .ok target →
        ∀ m ∈ target, ∀ n ∈ target, m.name = none → n.name ≠ some "")
    {shown applied : RunMode} (dry : shown.dryRun = true) (apply : applied.dryRun = false)
    {o o' : Outcome} (run : ((reconcile d shown).run (answer supply) s).1 = .ok o)
    (run' : ((reconcile d applied).run (answer supply) s).1 = .ok o') :
    Foretells s f o.endState o'.endState := by
  have keyed := h.orderly.keyed
  have found := h.found
  have hid := normalized_id keyed found.1 d.realm
  obtain ⟨changes, changed, concluded⟩ := found.concluded keyed h.valid run
  obtain ⟨changes', changed', concluded'⟩ := found.concluded keyed h.valid run'
  cases changed.symm.trans changed'
  obtain ⟨told, ends, shows⟩ := update_dry (d := d) hid dry
  simp only [conclude, h.present] at concluded
  rw [ends] at concluded
  cases concluded
  rw [shows]
  rcases applied_endState h.present hid apply concluded' with
    idle | ⟨s₁, u, c, update, execute, there, report⟩
  · rw [idle]
    exact foretells_refl _ _
  · have away : d.parentId ≠ some f := by
      intro same
      exact h.parent (by rw [same, Option.some_or])
    obtain ⟨x, updated, begun, -⟩ := found.opened h.orderly h.fresh ⟨rootless, away⟩ changed update
    have alive : u.components.get? f ≠ none := by
      intro none
      simp [get, stored?, none] at there
    obtain ⟨entry, told⟩ :=
      h.mappers_foretold rootless unmixed changed updated begun execute alive
    have component := updated.foretold h.sized (h.filled f e found.1)
      (fun _ _ hv => declared_single hv) h.unsynced h.unmasked
    have shown : c = redact x := by
      rw [get, stored?_eq_some_iff.mpr ⟨entry, begun.realm⟩] at there
      exact (Option.some.inj there).symm
    refine ⟨(redact x).undoEcho, _, _, render_congr ?_ rfl, ?_, told⟩
    · rw [desired_component changed, component]
    · rw [report, ← shown_mappers u d.realm f c, shown]
      rfl

/-! ### Samples -/

/-- A mapper is shown with its name, whatever its id and its parent. -/
theorem Foretold.name_shown {m c : Component} (h : Foretold s f m c) :
    (Mapper.render c).get? "name" = (Mapper.render m).get? "name" := by
  rcases h with rfl | ⟨k, -, -, rfl⟩
  · rfl
  · change (SortedMap.ofList _).get? "name" = (SortedMap.ofList _).get? "name"
    unfold renderedFields jsonFields
    simp only [SortedMap.get?_ofList_append, SortedMap.get?_ofList_optional]
    rfl

theorem render_mappers (federation : Federation) :
    federation.render.get? "mappers" = some (.arr (federation.mappers.map Mapper.render)) := by
  change (SortedMap.ofList (_ ++ [("mappers", _)])).get? "mappers" = _
  rw [SortedMap.get?_ofList_append]
  rfl

/-- The names that are shown of the mappers of a federation. -/
def shownNames (mappers : List Component) : List (Option Json) :=
  (mappers.map Mapper.render).map (·.get? "name")

theorem shownNames_foretold {ms ms' : List Component} (told : List.Forall₂ (Foretold s f) ms ms') :
    shownNames ms' = shownNames ms := by
  induction told with
  | nil => rfl
  | cons told _ ih => exact congrArg₂ List.cons told.name_shown ih

/-- A report that foretells another one shows mappers of the same names. -/
theorem Foretells.names {a b : Federation} (h : Foretells s f a.render b.render) :
    shownNames b.mappers = shownNames a.mappers := by
  obtain ⟨c, ms, ms', ha, hb, told⟩ := h
  have shown : ∀ {g g' : Federation}, g.render = g'.render →
      shownNames g.mappers = shownNames g'.mappers := by
    intro g g' same
    have lists := congrArg (Json.get? · "mappers") same
    simp only [render_mappers] at lists
    exact congrArg (List.map (·.get? "name")) (Json.arr.inj (Option.some.inj lists))
  rw [shown ha, shown hb]
  exact shownNames_foretold told

/-- A dry run and the run both succeed if the calls of the update do. -/
theorem Found.runs (found : s.Found d f e) (keyed : s.Keyed) (valid : d.validate = .ok ())
    (present : d.state = .present)
    (changed : Changeset.of d (some (s.normalized d.realm f e)) = .ok changes)
    {desired : Federation}
    (leads : changes.applyTo (some (s.normalized d.realm f e)) = desired)
    (need : desired.needsUpdate (s.normalized d.realm f e) d.credentialPolicy = true)
    (update : s.update supply desired.component d.realm = (.ok (), s₁))
    (execute : (execute d.realm (planUpdate desired.mappers (s.normalized d.realm f e).mappers
      f)).run (answer supply) s₁ = (.ok (), u))
    {c : Component} (there : u.get f d.realm = some c) :
    ∃ o o', ((reconcile d { dryRun := true }).run (answer supply) s).1 = .ok o ∧
      ((reconcile d {}).run (answer supply) s).1 = .ok o' ∧
      o.endState = desired.render ∧ o'.endState = (u.shown d.realm f c).undoEcho.render := by
  have hid := normalized_id keyed found.1 d.realm
  have surveyed := found.surveyed_ok keyed valid changed
  have dry : ({ dryRun := true } : RunMode).dryRun = true := rfl
  have apply : ({} : RunMode).dryRun = false := rfl
  have run := found.run_updated keyed valid present apply rfl changed leads need update execute there
  obtain ⟨o, ends, shows⟩ := update_dry (d := d) hid dry
  refine ⟨o, _, ?_, congrArg Prod.fst run, shows, rfl⟩
  simp only [reconcile_run, surveyed, conclude, present, leads]
  rw [ends, run_done]

namespace Sample

theorem filled_of_none (h : ∀ entry ∈ s.components.entries,
    entry.2.component.configList? principalKey = none) : ∀ k e, s.components.get? k = some e →
      ∀ values, e.component.configList? principalKey = some values → Filled values := by
  intro k e he values hv
  cases (h (k, e) (SortedMap.get?_eq_some_iff.mp he)).symm.trans hv

/-- A federation with a config. -/
def equippedEntry : Stored := ⟨"master", 1, { people with config := some .empty }⟩

def equipped : Server := { components := .ofList [("people", equippedEntry)], insertions := 1 }

def equippedFound : Federation := equipped.normalized "master" "people" equippedEntry

/-- After the update of the federation. -/
def reequipped : Server := { equipped with journal := [⟨.update, "people", none⟩] }

/-- After the creation of its mapper. -/
def equippedMailed : Server where
  components := .ofList [("people", equippedEntry),
    ("~", ⟨"master", 2, { mail with id := some "~", parentId := some "people" }⟩)]
  insertions := 2
  journal := [⟨.update, "people", none⟩, ⟨.create, "~", some "mail"⟩]
  idsIssued := 1

theorem equippedFound_mappers : equippedFound.mappers = [] := by
  have listed : equipped.children "people" "master" = [] :=
    children_of_values [equippedEntry] rfl (by decide)
  rw [equippedFound, normalized_mappers, listed]
  exact List.mergeSort_nil

theorem target_withMail :
    Mapper.target [mail] equippedFound.mappers withMail.prune = .ok [mail] := by
  rw [equippedFound_mappers]
  exact target_singleton rfl _

theorem foreseeable_withMail : Foreseeable tally equipped withMail "people" equippedEntry where
  reachable := .apply (.seed "master" equippedEntry.component) .withoutDefaults
  unignored := rfl
  unarmed := rfl
  defaults _ _ h := by cases h
  fresh := fresh_tally (by decide) (by decide) (by decide)
  filled := filled_of_none (by decide)
  found := ⟨rfl, rfl, .inl rfl⟩
  sized := rfl
  valid := rfl
  present := rfl
  unsynced := rfl
  unmasked := by decide
  mappers ds h m hm := by
    cases h
    cases List.mem_singleton.mp hm
    exact ⟨rfl, by decide, rfl, fun _ hv => by cases hv⟩
  ids ds h := by
    cases h
    exact List.pairwise_singleton _ _
  unshared ds h := by
    cases h
    exact List.pairwise_singleton _ _
  given ds h m hm id hid := by
    cases h
    cases List.mem_singleton.mp hm
    cases hid
  names ds target h ok := by
    cases h
    cases ok.symm.trans target_withMail
    exact List.pairwise_singleton _ _
  parent := by decide

theorem equipped_changed : Changeset.of withMail (some equippedFound) =
    .ok (changesWith withMail (some equippedFound) (some [mail])) :=
  of_eq_ok rfl rfl target_withMail

theorem equipped_desired :
    (changesWith withMail (some equippedFound) (some [mail])).applyTo (some equippedFound) =
      ⟨equippedFound.component.mergedWith withMail.component, [mail]⟩ := applyTo_changesWith _

theorem withMail_runs : ∃ o o',
    ((reconcile withMail { dryRun := true }).run (answer tally) equipped).1 = .ok o ∧
    ((reconcile withMail {}).run (answer tally) equipped).1 = .ok o' := by
  have found : equipped.Found withMail "people" equippedEntry := ⟨rfl, rfl, .inl rfl⟩
  have keyed := foreseeable_withMail.reachable.keyed
  have need : Federation.needsUpdate ⟨equippedFound.component.mergedWith withMail.component, [mail]⟩
      equippedFound withMail.credentialPolicy = true := by
    have same : equippedFound = ⟨equippedFound.component, []⟩ :=
      congrArg (Federation.mk _) equippedFound_mappers
    rw [same]
    decide
  have update : equipped.update tally (equippedFound.component.mergedWith withMail.component)
      "master" = (.ok (), reequipped) := rfl
  have execute : (execute "master" (planUpdate [mail] equippedFound.mappers "people")).run
      (answer tally) reequipped = (.ok (), equippedMailed) := by
    rw [equippedFound_mappers]
    rfl
  have there : equippedMailed.get "people" "master" = some (redact equippedEntry.component) := rfl
  obtain ⟨o, o', run, run', -⟩ :=
    found.runs keyed rfl rfl equipped_changed equipped_desired need update execute there
  exact ⟨o, o', run, run'⟩

end Sample

open Server.Sample in
theorem withMail_foretold : ∃ o o',
    ((reconcile withMail { dryRun := true }).run (answer tally) equipped).1 = .ok o ∧
    ((reconcile withMail {}).run (answer tally) equipped).1 = .ok o' ∧
    Foretells equipped "people" o.endState o'.endState := by
  obtain ⟨o, o', run, run'⟩ := withMail_runs
  refine ⟨o, o', run, run', ?_⟩
  refine dry_run_foretells foreseeable_withMail (by decide) (fun ds target h ok => ?_) rfl rfl
    run run'
  cases h
  cases ok.symm.trans target_withMail
  intro m hm
  cases List.mem_singleton.mp hm
  exact nofun

namespace Sample

/-- A federation below itself. -/
def inwardEntry : Stored :=
  ⟨"master", 1, { people with parentId := some "people", config := some .empty }⟩

def inward : Server := { components := .ofList [("people", inwardEntry)], insertions := 1 }

def inwardFound : Federation := inward.normalized "master" "people" inwardEntry

/-- The federation is moved below the realm. -/
def moved : Declaration := { id := some "people", parentId := some "master" }

theorem inwardFound_mappers : inwardFound.mappers = [inwardEntry.component] := by
  have listed : inward.children "people" "master" = [inwardEntry.component] :=
    children_of_values [inwardEntry] rfl (by decide)
  rw [inwardFound, normalized_mappers, listed]
  exact sortByName_eq_self (List.pairwise_singleton _ _)

theorem foreseeable_moved : Foreseeable tally inward moved "people" inwardEntry where
  reachable := .apply (.seed "master" inwardEntry.component) .withoutDefaults
  unignored := rfl
  unarmed := rfl
  defaults _ _ h := by cases h
  fresh := fresh_tally (by decide) (by decide) (by decide)
  filled := filled_of_none (by decide)
  found := ⟨rfl, rfl, .inl rfl⟩
  sized := rfl
  valid := rfl
  present := rfl
  unsynced := rfl
  unmasked := by decide
  mappers ds h := by cases h
  ids ds h := by cases h
  unshared ds h := by cases h
  given ds h := by cases h
  names ds target h := by cases h
  parent := by decide

theorem moved_runs : ∃ o o',
    ((reconcile moved { dryRun := true }).run (answer tally) inward).1 = .ok o ∧
    ((reconcile moved {}).run (answer tally) inward).1 = .ok o' ∧
    ¬Foretells inward "people" o.endState o'.endState := by
  have found : inward.Found moved "people" inwardEntry := ⟨rfl, rfl, .inl rfl⟩
  have keyed := foreseeable_moved.reachable.keyed
  have changed : Changeset.of moved (some inwardFound) =
    .ok (changesWith moved (some inwardFound) none) := rfl
  have leads : (changesWith moved (some inwardFound) none).applyTo (some inwardFound) =
      ⟨inwardFound.component.mergedWith moved.component, [inwardEntry.component]⟩ := by
    rw [applyTo_changesWith]
    exact congrArg (Federation.mk _) inwardFound_mappers
  have need : Federation.needsUpdate
      ⟨inwardFound.component.mergedWith moved.component, [inwardEntry.component]⟩
      inwardFound moved.credentialPolicy = true := by
    have same : inwardFound = ⟨inwardFound.component, [inwardEntry.component]⟩ :=
      congrArg (Federation.mk _) inwardFound_mappers
    rw [same]
    decide
  have update : inward.update tally (inwardFound.component.mergedWith moved.component) "master" =
    (.ok (), reequipped) := rfl
  have execute : (execute "master" (planUpdate [inwardEntry.component] inwardFound.mappers
      "people")).run (answer tally) reequipped = (.ok (), reequipped) := by
    rw [inwardFound_mappers, planUpdate_eq_nil (.refl _)]
    rfl
  have there : reequipped.get "people" "master" = some (redact equippedEntry.component) := rfl
  obtain ⟨o, o', run, run', shows, reads⟩ :=
    found.runs keyed rfl rfl changed leads need update execute there
  refine ⟨o, o', run, run', fun told => ?_⟩
  rw [shows, reads] at told
  have names := congrArg List.length told.names
  have gone : sortByName (reequipped.children "people" "master") = [] := equippedFound_mappers ▸
    (normalized_mappers equipped "master" "people" _).symm
  rw [shown_mappers, show moved.realm = "master" from rfl, gone] at names
  cases names

/-- A mapper without a name, and one with an empty one. -/
def unnamed : Component :=
  { id := some "a", providerType := some mapperType, parentId := some "people" }

def blank : Component := { unnamed with id := some "b", name := some "" }

def untitledEntry : Stored := { equippedEntry with order := 3 }

def untitled : Server where
  components := .ofList [("a", ⟨"master", 1, unnamed⟩), ("b", ⟨"master", 2, blank⟩),
    ("people", untitledEntry)]
  insertions := 3

def untitledFound : Federation := untitled.normalized "master" "people" untitledEntry

/-- Both mappers are declared by their ids, the second one first. -/
def reversed : Declaration :=
  { id := some "people", mappers := some [{ id := some "b" }, { id := some "a" }] }

def retitled : Server := { untitled with journal := [⟨.update, "people", none⟩] }

theorem untitled_children : untitled.children "people" "master" = [unnamed, blank] :=
  children_of_values [⟨"master", 1, unnamed⟩, ⟨"master", 2, blank⟩, untitledEntry] rfl (by decide)

theorem untitledFound_mappers : untitledFound.mappers = [unnamed, blank] := by
  rw [untitledFound, normalized_mappers, untitled_children]
  exact sortByName_eq_self (by simp [unnamed, blank, nameOrEmpty])

theorem target_reversed {ds : List Component} (hds : reversed.mapperComponents = some ds) :
    Mapper.target ds untitledFound.mappers reversed.prune = .ok [blank, unnamed] := by
  cases hds
  rw [untitledFound_mappers]
  refine target_eq_ok_iff.mpr ⟨[blank, unnamed], .cons rfl (.cons rfl .nil), ?_⟩
  exact (sortByName_eq_self (by simp [unnamed, blank, nameOrEmpty])).symm

theorem foreseeable_reversed : Foreseeable tally untitled reversed "people" untitledEntry where
  reachable := .apply (.seed "master" untitledEntry.component)
    (.apply (.seed "master" blank) (.apply (.seed "master" unnamed) .withoutDefaults))
  unignored := rfl
  unarmed := rfl
  defaults _ _ h := by cases h
  fresh := fresh_tally (by decide) (by decide) (by decide)
  filled := filled_of_none (by decide)
  found := ⟨rfl, rfl, .inl rfl⟩
  sized := rfl
  valid := rfl
  present := rfl
  unsynced := rfl
  unmasked := by decide
  mappers ds h m hm := by
    cases h
    rcases List.mem_pair.mp hm with rfl | rfl <;>
      exact ⟨rfl, by decide, rfl, fun _ hv => by cases hv⟩
  ids ds h := by
    cases h
    exact List.pairwise_pair.mpr (by decide)
  unshared ds h := by
    cases h
    refine List.pairwise_pair.mpr fun c hb ha => ?_
    change referent? _ (untitled.children "people" "master") = _ at ha hb
    rw [untitled_children] at ha hb
    have same : unnamed = blank := Option.some.inj (Except.ok.inj (ha.trans hb.symm))
    exact absurd same (by decide)
  given ds h m hm id hid := by
    cases h
    rcases List.mem_pair.mp hm with rfl | rfl <;> cases hid <;> exact .inr rfl
  names ds target h ok := by
    cases ok.symm.trans (target_reversed h)
    exact List.pairwise_pair.mpr (by decide)
  parent := by decide

theorem reversed_runs : ∃ o o',
    ((reconcile reversed { dryRun := true }).run (answer tally) untitled).1 = .ok o ∧
    ((reconcile reversed {}).run (answer tally) untitled).1 = .ok o' ∧
    ¬Foretells untitled "people" o.endState o'.endState := by
  have found := foreseeable_reversed.found
  have keyed := foreseeable_reversed.reachable.keyed
  have changed : Changeset.of reversed (some untitledFound) =
      .ok (changesWith reversed (some untitledFound) (some [blank, unnamed])) := by
    have there : foundMappers (some untitledFound) = untitledFound.mappers := rfl
    obtain ⟨ds, declared⟩ : ∃ ds, reversed.mapperComponents = some ds := ⟨_, rfl⟩
    rw [of_eq, declared]
    simp only [there, target_reversed declared]
    rfl
  have leads : (changesWith reversed (some untitledFound) (some [blank, unnamed])).applyTo
      (some untitledFound) =
      ⟨untitledFound.component.mergedWith reversed.component, [blank, unnamed]⟩ :=
    applyTo_changesWith _
  have need : Federation.needsUpdate
      ⟨untitledFound.component.mergedWith reversed.component, [blank, unnamed]⟩
      untitledFound reversed.credentialPolicy = true := by
    have same : untitledFound = ⟨untitledFound.component, [unnamed, blank]⟩ :=
      congrArg (Federation.mk _) untitledFound_mappers
    rw [same]
    decide
  have update : untitled.update tally (untitledFound.component.mergedWith reversed.component)
    "master" = (.ok (), retitled) := rfl
  have execute : (execute "master" (planUpdate [blank, unnamed] untitledFound.mappers
      "people")).run (answer tally) retitled = (.ok (), retitled) := by
    rw [untitledFound_mappers, planUpdate_eq_nil (.swap _ _ _)]
    rfl
  have there : retitled.get "people" "master" = some (redact equippedEntry.component) := rfl
  obtain ⟨o, o', run, run', shows, reads⟩ :=
    found.runs keyed rfl rfl changed leads need update execute there
  refine ⟨o, o', run, run', fun told => ?_⟩
  rw [shows, reads] at told
  have names := told.names
  have listed : sortByName (retitled.children "people" "master") = [unnamed, blank] :=
    untitledFound_mappers ▸ (normalized_mappers untitled "master" "people" _).symm
  rw [shown_mappers, show reversed.realm = "master" from rfl, listed] at names
  exact absurd names (by decide)

end Sample

open Server.Sample in
/-- A federation below itself is one of its own mappers, and no longer so once it is moved; and a
mapper without a name may change places with one of an empty name. -/
theorem dry_run_misreports :
    (Foreseeable tally inward moved "people" inwardEntry ∧ ∃ o o',
      ((reconcile moved { dryRun := true }).run (answer tally) inward).1 = .ok o ∧
      ((reconcile moved {}).run (answer tally) inward).1 = .ok o' ∧
      ¬Foretells inward "people" o.endState o'.endState) ∧
    (Foreseeable tally untitled reversed "people" untitledEntry ∧ ∃ o o',
      ((reconcile reversed { dryRun := true }).run (answer tally) untitled).1 = .ok o ∧
      ((reconcile reversed {}).run (answer tally) untitled).1 = .ok o' ∧
      ¬Foretells untitled "people" o.endState o'.endState) :=
  ⟨⟨foreseeable_moved, moved_runs⟩, foreseeable_reversed, reversed_runs⟩

end UserFederation.Server
