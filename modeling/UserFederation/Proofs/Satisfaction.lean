import UserFederation.Proofs.Changes
import UserFederation.Proofs.Matching

/-! When a federation needs no update. Laying a declared component over the one that is found goes
unnoticed just if all that it gives is there already (`counted_mergedWith`), and a mapper laid over
another one comes out the same as an existing one only if it refers to that one
(`Mapper.resolve_same`). So a run that finds nothing to do leaves nothing undone
(`satisfies_of_idle`). -/

namespace UserFederation

open Component Server

variable {α : Type} {given there : Option α} {b c e m patch t : Component} {key : String}
  {policy : CredentialPolicy} {d : Declaration} {existing : Federation} {changes : Changeset}

/-- A value that is given is the one that is there. -/
def Given (given there : Option α) : Prop := ∀ v, given = some v → there = some v

theorem given_iff : Given given there ↔ given.or there = there := by
  cases given with
  | none => simp [Given]
  | some v => simp [Given, eq_comm]

theorem Given.none : Given none there := fun _ h => nomatch h

namespace Component

/-- The fields that a patch gives are those of a component; config does not count. -/
structure HasFields (c patch : Component) : Prop where
  id : Given patch.id c.id
  name : Given patch.name c.name
  providerId : Given patch.providerId c.providerId
  providerType : Given patch.providerType c.providerType
  parentId : Given patch.parentId c.parentId

/-- All that a patch gives is there in a component: its fields and the lists of its config. -/
structure Carries (c patch : Component) : Prop extends HasFields c patch where
  lists : ∀ key, Given (patch.configList? key) (c.configList? key)

theorem hasFields_iff :
    c.HasFields patch ↔ c.mergedWith patch = { c with config := (c.mergedWith patch).config } := by
  constructor
  · intro h
    exact Component.ext (given_iff.mp h.id) (given_iff.mp h.name) (given_iff.mp h.providerId)
      (given_iff.mp h.providerType) (given_iff.mp h.parentId) rfl rfl
  · intro h
    constructor <;> rw [given_iff]
    · exact congrArg Component.id h
    · exact congrArg Component.name h
    · exact congrArg Component.providerId h
    · exact congrArg Component.providerType h
    · exact congrArg Component.parentId h

end Component

/-! ### What counts when changes are sought -/

namespace CredentialPolicy

/-- What of a component counts when changes are sought. -/
def counted : CredentialPolicy → Component → Component
  | .always, c => c
  | .onlyIndirect, c => c.mapConfig (·.erase bindCredentialKey)

/-- Whether a config key counts when changes are sought. -/
def Counts (policy : CredentialPolicy) (key : String) : Prop :=
  policy = .always ∨ key ≠ bindCredentialKey

instance : Decidable (Counts policy key) := inferInstanceAs (Decidable (_ ∨ _))

theorem configList?_counted :
    (policy.counted c).configList? key = if policy.Counts key then c.configList? key else none := by
  cases policy with
  | always => simp [counted, Counts]
  | onlyIndirect =>
    rw [counted, configList?_erase]
    by_cases hb : key = bindCredentialKey <;> simp [Counts, hb]

theorem isSome_config_counted : (policy.counted c).config.isSome = c.config.isSome := by
  cases policy with
  | always => rfl
  | onlyIndirect => exact isSome_config_mapConfig _

theorem counted_rest : policy.counted c = { c with config := (policy.counted c).config } := by
  cases policy <;> rfl

theorem config_counted_mergedWith :
    (policy.counted (c.mergedWith patch)).config = (policy.counted c).config ↔
      (∀ key, policy.Counts key → Given (patch.configList? key) (c.configList? key)) ∧
        (patch.config.isSome → c.config.isSome) := by
  constructor
  · intro same
    refine ⟨fun key counts => given_iff.mpr ?_, fun given => ?_⟩
    · have lists : (policy.counted (c.mergedWith patch)).configList? key =
          (policy.counted c).configList? key := configList?_congr same
      rwa [configList?_counted, configList?_counted, if_pos counts, if_pos counts,
        configList?_mergedWith] at lists
    · have some := congrArg Option.isSome same
      rw [isSome_config_counted, isSome_config_counted, isSome_config_mergedWith, given] at some
      exact some.symm
  · rintro ⟨lists, some⟩
    refine config_ext ?_ fun key => ?_
    · rw [isSome_config_counted, isSome_config_counted, isSome_config_mergedWith]
      cases given : patch.config.isSome with
      | false => rfl
      | true => exact (some given).symm
    · rw [configList?_counted, configList?_counted]
      split
      · rename_i counts
        rw [configList?_mergedWith]
        exact given_iff.mp (lists key counts)
      · rfl

/-- Laying a patch over a component goes unnoticed just if everything of the patch that counts is
there already, and a config if it has one. -/
theorem counted_mergedWith :
    policy.counted (c.mergedWith patch) = policy.counted c ↔
      c.HasFields patch ∧
        (∀ key, policy.Counts key → Given (patch.configList? key) (c.configList? key)) ∧
          (patch.config.isSome → c.config.isSome) := by
  rw [← config_counted_mergedWith, hasFields_iff]
  constructor
  · intro same
    refine ⟨?_, congrArg Component.config same⟩
    have fields := congrArg ({ · with config := (c.mergedWith patch).config }) same
    rw [counted_rest, counted_rest (c := c)] at fields
    exact fields
  · rintro ⟨fields, same⟩
    rw [counted_rest, counted_rest (c := c), same]
    exact congrArg ({ · with config := (policy.counted c).config }) fields

theorem counted_extra : (policy.counted c).extra = c.extra := by rw [counted_rest]

-- What is laid over a component keeps its uninterpreted fields, so the two zeros do not matter.
theorem counted_mergedWith_same :
    (policy.counted (c.mergedWith patch)).Same (policy.counted c) ↔
      policy.counted (c.mergedWith patch) = policy.counted c := by
  constructor
  · intro same
    refine same.eq ?_
    rw [counted_extra, counted_extra]
    rfl
  · intro same
    rw [same]
    rfl

end CredentialPolicy

open CredentialPolicy

/-- Laying a patch over a component changes nothing just if all of it is there already. -/
theorem mergedWith_eq_self :
    c.mergedWith patch = c ↔ c.Carries patch ∧ (patch.config.isSome → c.config.isSome) := by
  have all : ∀ key, CredentialPolicy.always.Counts key := fun _ => .inl rfl
  have noticed : CredentialPolicy.always.counted (c.mergedWith patch) =
      CredentialPolicy.always.counted c ↔ _ := counted_mergedWith
  refine noticed.trans ?_
  constructor
  · rintro ⟨fields, lists, some⟩
    exact ⟨⟨fields, fun key => lists key (all key)⟩, some⟩
  · rintro ⟨carries, some⟩
    exact ⟨carries.toHasFields, fun key _ => carries.lists key, some⟩

theorem map_same_iff {α β : Type} {h : α → β} {xs ys : List α} :
    xs.map h = ys.map h ↔ List.Forall₂ (fun x y => h x = h y) xs ys := by
  rw [← List.forall₂_eq_eq_eq, List.forall₂_map_left_iff, List.forall₂_map_right_iff]

/-- Two federations are the same if their components are, and their mappers one by one. -/
theorem Federation.same_iff {a b : Federation} : a.Same b ↔ a.component.Same b.component ∧
    List.Forall₂ Component.Same a.mappers b.mappers := by
  simp only [Same, canonical, Federation.mk.injEq, map_same_iff]
  rfl

/-- A federation needs no update if what counts of its component is the same, and its mappers are
the same one by one. -/
theorem needsUpdate_eq_false {declared : Federation} :
    declared.needsUpdate existing policy = false ↔
      (policy.counted declared.component).Same (policy.counted existing.component) ∧
        List.Forall₂ Component.Same declared.mappers existing.mappers := by
  cases policy <;>
    simp [Federation.needsUpdate, Federation.same_iff, counted, Federation.withoutCredential]

/-! ### A run that finds nothing to do -/

namespace Mapper

variable {mappers : List Component}

theorem withId?_of_mem {i : String} (nodup : (mappers.map (·.id)).Nodup) (he : e ∈ mappers)
    (hi : e.id = some i) : withId? i mappers = some e := by
  have found : (withId? i mappers).isSome :=
    List.find?_isSome.mpr ⟨e, he, decide_eq_true hi⟩
  obtain ⟨b, hb⟩ := Option.isSome_iff_exists.mp found
  have ids : b.id = some i := by simpa using List.find?_some hb
  rw [hb, List.inj_on_of_nodup_map nodup (List.mem_of_find?_eq_some hb) he (ids.trans hi.symm)]

/-- A declared mapper that comes out with the id of an existing one refers to that one. -/
theorem referent?_of_id {i : String} (nodup : (mappers.map (·.id)).Nodup)
    (resolved : resolve mappers m = .ok t) (he : e ∈ mappers) (hi : e.id = some i)
    (ht : t.id = some i) : referent? m mappers = .ok (some e) := by
  obtain ⟨found, hr, rfl⟩ := resolve_eq_ok_iff.mp resolved
  have ids : m.id.or (found.getD {}).id = some i := ht
  cases hid : m.id with
  | some i' =>
    rw [hid, Option.some_or] at ids
    rw [referent?, hid]
    exact congrArg Except.ok (withId?_of_mem nodup he (hi.trans ids.symm))
  | none =>
    -- Without an id of its own, the declared mapper has one only from the mapper it refers to.
    rw [hid, Option.none_or] at ids
    cases found with
    | none => cases ids
    | some b =>
      have hb : b.id = some i := ids
      rw [hr, List.inj_on_of_nodup_map nodup (referent?_mem hr) he (hb.trans hi.symm)]

/-- A declared mapper that comes out the same as an existing one refers to that one, and changes
nothing in it. -/
theorem resolve_same (identified : ∀ b ∈ mappers, b.id.isSome) (nodup : (mappers.map (·.id)).Nodup)
    (resolved : resolve mappers m = .ok t) (he : e ∈ mappers) (same : t.Same e) :
    referent? m mappers = .ok (some e) ∧ e.mergedWith m = e := by
  obtain ⟨i, hi⟩ := Option.isSome_iff_exists.mp (identified e he)
  have refers := referent?_of_id nodup resolved he hi (same.id.trans hi)
  obtain ⟨found, hr, rfl⟩ := resolve_eq_ok_iff.mp resolved
  cases refers.symm.trans hr
  exact ⟨refers, same.eq rfl⟩

/-- Where the mappers to end up with are those that there are, each declared one refers to one of
them and changes nothing in it, and if mappers are pruned, each one is referred to. -/
theorem target_same {ds target : List Component} {prune : Bool}
    (identified : ∀ b ∈ mappers, b.id.isSome) (nodup : (mappers.map (·.id)).Nodup)
    (ok : Mapper.target ds mappers prune = .ok target)
    (same : List.Forall₂ Component.Same target mappers) :
    (∀ m ∈ ds, ∃ b ∈ mappers, referent? m mappers = .ok (some b) ∧ b.mergedWith m = b) ∧
      (prune = true → ∀ b ∈ mappers, ∃ m ∈ ds, referent? m mappers = .ok (some b)) := by
  obtain ⟨merged, resolved, rfl⟩ := target_eq_ok_iff.mp ok
  have perm := arranged_perm mappers merged prune
  constructor
  · intro m hm
    obtain ⟨t, ht, hmt⟩ := exists_right_of_mem resolved hm
    obtain ⟨b, hb, alike⟩ :=
      exists_right_of_mem same (perm.mem_iff.mpr (List.mem_append_left _ ht))
    exact ⟨b, hb, resolve_same identified nodup hmt hb alike⟩
  · intro hprune b hb
    rw [hprune, if_pos rfl, List.append_nil] at perm
    obtain ⟨t, ht, alike⟩ := exists_left_of_mem same hb
    obtain ⟨m, hm, hmt⟩ := exists_left_of_mem resolved (perm.mem_iff.mp (hprune ▸ ht))
    exact ⟨m, hm, (resolve_same identified nodup hmt hb alike).1⟩

end Mapper

theorem encode_eq_some_iff {config : Option DeclaredConfig} {values : List String} :
    (config.map DeclaredConfig.encode).bind (·.get? key) = some values ↔
      ∃ v, config.bind (·.get? key) = some (some v) ∧ values = [v.encode] := by
  cases config with
  | none => simp
  | some config =>
    rw [Option.map_some, Option.bind_some, Option.bind_some, DeclaredConfig.encode,
      SortedMap.get?_filterMap, Option.bind_eq_some_iff]
    simp [eq_comm]

theorem configList?_component {values : List String} :
    d.component.configList? key = some values ↔
      ∃ v, d.config.bind (·.get? key) = some (some v) ∧ values = [v.encode] := encode_eq_some_iff

/-- A federation is as a declaration asks, in all that counts. -/
structure Federation.Satisfies (existing : Federation) (d : Declaration)
    (policy : CredentialPolicy) : Prop where
  fields : existing.component.HasFields d.component
  config : ∀ key v, d.config.bind (·.get? key) = some (some v) → policy.Counts key →
    existing.component.configList? key = some [v.encode]
  /-- Each declared mapper refers to an existing one, and changes nothing in it. -/
  selects : ∀ ds, d.mapperComponents = some ds → ∀ m ∈ ds, ∃ b ∈ existing.mappers,
    Mapper.referent? m existing.mappers = .ok (some b) ∧ b.mergedWith m = b
  /-- Where mappers are pruned, each existing one is referred to. -/
  selected : ∀ ds, d.mapperComponents = some ds → d.prune = true → ∀ b ∈ existing.mappers,
    ∃ m ∈ ds, Mapper.referent? m existing.mappers = .ok (some b)

/-- A federation that needs no update is as declared. -/
theorem satisfies_of_idle (identified : ∀ b ∈ existing.mappers, b.id.isSome)
    (nodup : (existing.mappers.map (·.id)).Nodup)
    (changed : Changeset.of d (some existing) = .ok changes)
    (idle : (changes.applyTo (some existing)).needsUpdate existing policy = false) :
    existing.Satisfies d policy := by
  obtain ⟨component, mappers⟩ := needsUpdate_eq_false.mp idle
  rw [applyTo_component changed] at component
  obtain ⟨fields, lists, -⟩ := counted_mergedWith.mp (counted_mergedWith_same.mp component)
  have target := fun ds (declared : d.mapperComponents = some ds) =>
    Mapper.target_same identified nodup (applyTo_mappers_of_some changed declared).2 mappers
  refine ⟨fields, fun key v given counts => ?_, fun ds declared => (target ds declared).1,
    fun ds declared => (target ds declared).2⟩
  exact lists key counts _ (configList?_component.mpr ⟨v, given, rfl⟩)

namespace Federation.Sample

def posted : Component := { id := some "m", name := some "mail", providerType := some mapperType }

/-- A federation with a setting and a mapper. -/
def provided : Federation where
  component :=
    { id := some "people", providerType := some federationType, parentId := some "master",
      config := some (.ofList [("batchSize", ["7"])]) }
  mappers := [posted]

def asked : Declaration where
  id := some "people"
  config := some (.ofList [("batchSize", some (.integer 7))])
  mappers := some [{ name := some "mail" }]

theorem posted_target :
    Mapper.target [{ name := some "mail", providerType := some mapperType }] [posted] true =
      .ok [posted] :=
  Mapper.target_eq_ok_iff.mpr ⟨[posted], .cons rfl .nil, by simp [Mapper.arranged, sortByName]⟩

theorem asked_changes : Changeset.of asked (some provided) =
    .ok (changesWith asked (some provided) (some [posted])) := of_eq_ok rfl rfl posted_target

end Federation.Sample

open Federation.Sample in
theorem satisfies_asked : (∀ b ∈ provided.mappers, b.id.isSome) ∧
    (provided.mappers.map (·.id)).Nodup ∧ provided.Satisfies asked .always := by
  have identified : ∀ b ∈ provided.mappers, b.id.isSome := by decide
  have nodup : (provided.mappers.map (·.id)).Nodup := by decide
  refine ⟨identified, nodup, satisfies_of_idle identified nodup asked_changes ?_⟩
  rw [applyTo_changesWith]
  decide

/-! ### The credential alone -/

/-- A declaration without mappers of which all but the bind credential is there needs no update
under a policy that leaves the credential out, except where it has a config and the federation has
none. -/
theorem idle_apart_from_credential (unlisted : d.mappers = none)
    (fields : existing.component.HasFields d.component)
    (lists : ∀ key v, d.config.bind (·.get? key) = some (some v) → key ≠ bindCredentialKey →
      existing.component.configList? key = some [v.encode]) :
    ∃ changes, Changeset.of d (some existing) = .ok changes ∧
      ((changes.applyTo (some existing)).needsUpdate existing .onlyIndirect = false ↔
        (d.config.isSome → existing.component.config.isSome)) := by
  have undeclared : d.mapperComponents = none := by
    rw [Declaration.mapperComponents, unlisted]
    rfl
  have changed : Changeset.of d (some existing) = .ok (changesWith d (some existing) none) := by
    rw [of_eq, undeclared]
  refine ⟨_, changed, ?_⟩
  have component : foundComponent (some existing) = existing.component := rfl
  rw [needsUpdate_eq_false, applyTo_component changed, applyTo_mappers_of_none changed undeclared,
    component]
  have others : ∀ key, CredentialPolicy.onlyIndirect.Counts key →
      Given (d.component.configList? key) (existing.component.configList? key) := by
    intro key counts values hv
    obtain ⟨v, given, rfl⟩ := configList?_component.mp hv
    exact lists key v given (counts.resolve_left nofun)
  have config : d.component.config.isSome = d.config.isSome := Option.isSome_map
  have mappers : List.Forall₂ Component.Same (foundMappers (some existing)) existing.mappers :=
    List.forall₂_same.mpr fun _ _ => rfl
  rw [counted_mergedWith_same, counted_mergedWith, config]
  exact ⟨fun h => h.1.2.2, fun some => ⟨⟨fields, others, some⟩, mappers⟩⟩

namespace Federation.Sample

theorem provided_fields : provided.component.HasFields asked.component :=
  ⟨fun _ h => h, .none, .none, fun _ h => h, .none⟩

theorem provided_lists {v : Scalar} (given : asked.config.bind (·.get? key) = some (some v)) :
    provided.component.configList? key = some [v.encode] := by
  have only : (asked.config.bind (·.get? key)) =
      if key = "batchSize" then some (some (.integer 7)) else none :=
    SortedMap.get?_insert .empty "batchSize" key _
  by_cases hk : key = "batchSize"
  · subst hk
    cases only.symm.trans given
    decide
  · rw [if_neg hk] at only
    cases only.symm.trans given

end Federation.Sample

open Federation.Sample in
theorem idle_apart_from_asked :
    provided.component.HasFields { asked with mappers := none }.component ∧
    ∃ changes, Changeset.of { asked with mappers := none } (some provided) = .ok changes ∧
      ((changes.applyTo (some provided)).needsUpdate provided .onlyIndirect = false ↔
        (asked.config.isSome → provided.component.config.isSome)) :=
  ⟨provided_fields,
    idle_apart_from_credential rfl provided_fields fun _ _ given _ => provided_lists given⟩

namespace Federation.Sample

/-- A federation without config. -/
def plain : Federation :=
  ⟨{ id := some "people", providerType := some federationType, parentId := some "master" }, []⟩

/-- Only a bind credential is declared, which is not to count. -/
def sealing : Declaration where
  id := some "people"
  credentialPolicy := .onlyIndirect
  config := some (.ofList [(bindCredentialKey, some (.text "x"))])

end Federation.Sample

open Federation.Sample in
theorem credential_alone_updates_plain : sealing.mappers = none ∧
    plain.component.HasFields sealing.component ∧
    (∀ key v, sealing.config.bind (·.get? key) = some (some v) → key ≠ bindCredentialKey →
      plain.component.configList? key = some [v.encode]) ∧
    ∃ changes, Changeset.of sealing (some plain) = .ok changes ∧
      (changes.applyTo (some plain)).needsUpdate plain .onlyIndirect = true := by
  refine ⟨rfl, ⟨fun _ h => h, .none, .none, fun _ h => h, .none⟩, fun key v given other => ?_,
    changesWith sealing (some plain) none, rfl, by decide⟩
  have only : (sealing.config.bind (·.get? key)) =
      if key = bindCredentialKey then some (some (.text "x")) else none :=
    SortedMap.get?_insert .empty bindCredentialKey key _
  rw [if_neg other] at only
  cases only.symm.trans given

end UserFederation
