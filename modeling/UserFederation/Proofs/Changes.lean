import UserFederation.Changeset
import UserFederation.Federation.Echo
import UserFederation.Proofs.Settling

/-! What a declaration changes in a federation. The changes lay it over the component that is found
(`applyTo_component`); once that was accepted, laying it over what is shown and normalized changes
nothing but a bind credential (`Formed.absorbs`). -/

namespace UserFederation

open Component

variable {c base x : Component} {d : Declaration} {f key : String} {before : Option Federation}
  {changes : Changeset}

/-! ### Valid declarations -/

theorem checkMappersSupported_error {provider : Option String} {count : Nat} {e : Failure}
    (h : checkMappersSupported provider count = .error e) : e.isValidation = true := by
  unfold checkMappersSupported at h
  split at h
  · split at h <;> cases h
    rfl
  · cases h

/-- A declaration is identified, its provider can have the mappers that it lists, and these are
identified too; or it is invalid. -/
theorem validate_cases (d : Declaration) :
    (d.validate = .ok () ∧ (d.id = none → d.name.isSome) ∧ ∀ ms, d.mappers = some ms →
      checkMappersSupported d.providerId ms.length = .ok () ∧
        ∀ m ∈ ms, m.id = none → m.name.isSome) ∨
    ∃ e, d.validate = .error e ∧ e.isValidation = true := by
  unfold Declaration.validate
  by_cases unidentified : d.id.isNone ∧ d.name.isNone
  · exact .inr ⟨_, by simp only [unidentified, and_self, if_true]; rfl, rfl⟩
  · have identified : d.id = none → d.name.isSome := by
      simpa [Option.isSome_iff_ne_none] using unidentified
    simp only [unidentified, if_false]
    cases hm : d.mappers with
    | none => exact .inl ⟨rfl, identified, nofun⟩
    | some ms =>
      cases hc : checkMappersSupported d.providerId ms.length with
      | error e => exact .inr ⟨e, by simp only [hc]; rfl, checkMappersSupported_error hc⟩
      | ok _ =>
        by_cases nameless : (ms.any fun m => m.id.isNone ∧ m.name.isNone) = true
        · exact .inr ⟨_, by simp only [hc, nameless, if_true]; rfl, rfl⟩
        · refine .inl ⟨by simp only [hc, nameless]; rfl, identified, ?_⟩
          rintro _ ⟨⟩
          exact ⟨hc, by simpa [Option.isSome_iff_ne_none] using nameless⟩

theorem sound_of_valid (valid : d.validate = .ok ()) :
    (d.id = none → d.name.isSome) ∧ ∀ ms, d.mappers = some ms →
      checkMappersSupported d.providerId ms.length = .ok () ∧
        ∀ m ∈ ms, m.id = none → m.name.isSome := by
  rcases validate_cases d with ⟨-, sound⟩ | ⟨e, invalid, -⟩
  · exact sound
  · cases valid.symm.trans invalid

theorem validate_error {e : Failure} (h : d.validate = .error e) : e.isValidation = true := by
  rcases validate_cases d with ⟨valid, -⟩ | ⟨e', invalid, reason⟩
  · cases valid.symm.trans h
  · cases invalid.symm.trans h
    exact reason

/-! ### Changesets -/

theorem changed_or {α : Type} [DecidableEq α] (wanted current : Option α) :
    (Changeset.changed wanted current).or current = wanted.or current := by
  unfold Changeset.changed
  split
  · rename_i same
    subst same
    cases wanted <;> rfl
  · rfl

/-- The component that a federation is found with. -/
def foundComponent (before : Option Federation) : Component :=
  (before.map (·.component)).getD {}

/-- The mappers that a federation is found with. -/
def foundMappers (before : Option Federation) : List Component :=
  (before.map (·.mappers)).getD []

/-- The changes of a declaration, where the mappers become the given ones. -/
def changesWith (d : Declaration) (before : Option Federation) (mappers : Option (List Component)) :
    Changeset where
  id := Changeset.changed d.component.id (foundComponent before).id
  name := Changeset.changed d.component.name (foundComponent before).name
  providerId := Changeset.changed d.component.providerId (foundComponent before).providerId
  providerType := Changeset.changed d.component.providerType (foundComponent before).providerType
  parentId := Changeset.changed d.component.parentId (foundComponent before).parentId
  config := Changeset.changed (d.component.config.map (overlayConfig (foundComponent before).config))
    (foundComponent before).config
  mappers := mappers

/-- A config that is given is laid over the one that is there. -/
theorem or_config (base given : Component) :
    (given.config.map (overlayConfig base.config)).or base.config =
      (base.mergedWith given).config := by
  unfold Component.mergedWith
  cases given.config <;> rfl

theorem applyTo_changesWith (mappers : Option (List Component)) :
    (changesWith d before mappers).applyTo before =
      ⟨(foundComponent before).mergedWith d.component, mappers.getD (foundMappers before)⟩ := by
  have component : (before.getD {}).component = foundComponent before := by cases before <;> rfl
  have there : (before.getD {}).mappers = foundMappers before := by cases before <;> rfl
  simp only [Changeset.applyTo, component, there, changesWith, changed_or, or_config]
  rfl

/-- The changes of a declaration: the mappers are those to end up with, if any are declared. -/
theorem of_eq (d : Declaration) (before : Option Federation) :
    Changeset.of d before =
      match d.mapperComponents with
      | none => .ok (changesWith d before none)
      | some ds =>
        match checkMappersSupported (d.providerId.or (foundComponent before).providerId) ds.length,
          Mapper.target ds (foundMappers before) d.prune with
        | .error e, _ => .error e
        | .ok _, .error e => .error e
        | .ok _, .ok target => .ok (changesWith d before (some target)) := by
  unfold Changeset.of
  cases d.mapperComponents with
  | none => rfl
  | some ds =>
    have base : (before.map (·.component)).getD {} = foundComponent before := rfl
    have there : (before.map (·.mappers)).getD [] = foundMappers before := rfl
    simp only [base, there, bind, Except.bind]
    cases checkMappersSupported (d.providerId.or (foundComponent before).providerId) ds.length with
    | error e => rfl
    | ok _ => cases Mapper.target ds (foundMappers before) d.prune <;> rfl

theorem of_eq_ok {ds target : List Component} (declared : d.mapperComponents = some ds)
    (supported :
      checkMappersSupported (d.providerId.or (foundComponent before).providerId) ds.length = .ok ())
    (ok : Mapper.target ds (foundMappers before) d.prune = .ok target) :
    Changeset.of d before = .ok (changesWith d before (some target)) := by
  rw [of_eq, declared]
  simp only [supported, ok]

/-- The changes of a declaration lay it over what is found. -/
theorem applyTo_component (h : Changeset.of d before = .ok changes) :
    (changes.applyTo before).component = (foundComponent before).mergedWith d.component := by
  rw [of_eq] at h
  split at h
  · cases h
    rw [applyTo_changesWith]
  · split at h
    · cases h
    · cases h
    · cases h
      rw [applyTo_changesWith]

theorem applyTo_mappers_of_none (h : Changeset.of d before = .ok changes)
    (undeclared : d.mapperComponents = none) :
    (changes.applyTo before).mappers = foundMappers before := by
  rw [of_eq, undeclared] at h
  cases h
  rw [applyTo_changesWith]
  rfl

theorem applyTo_mappers_of_some (h : Changeset.of d before = .ok changes) {ds : List Component}
    (declared : d.mapperComponents = some ds) :
    checkMappersSupported (d.providerId.or (foundComponent before).providerId) ds.length = .ok () ∧
      Mapper.target ds (foundMappers before) d.prune = .ok (changes.applyTo before).mappers := by
  rw [of_eq, declared] at h
  simp only at h
  split at h
  · cases h
  · cases h
  · rename_i supported target
    cases h
    rw [applyTo_changesWith]
    exact ⟨supported, target⟩

/-- A declared config sets every key to one text. -/
theorem encode_single {config : DeclaredConfig} {values : List String}
    (h : config.encode.get? key = some values) : ∃ v, values = [v] := by
  rw [DeclaredConfig.encode, SortedMap.get?_filterMap] at h
  obtain ⟨value, -, h⟩ := Option.bind_eq_some_iff.mp h
  obtain ⟨scalar, -, rfl⟩ := Option.map_eq_some_iff.mp h
  exact ⟨_, rfl⟩

theorem declared_single {config : Option DeclaredConfig} {values : List String}
    (h : (config.map DeclaredConfig.encode).bind (·.get? key) = some values) :
    ∃ v, values = [v] := by
  cases config with
  | none => cases h
  | some config => exact encode_single h

/-! ### The normal form -/

theorem undoEcho_rest (c : Component) : c.undoEcho = { c with config := c.undoEcho.config } := rfl

theorem isSome_config_undoEcho : c.undoEcho.config.isSome = c.config.isSome := by
  change ((c.config.map _).map _).isSome = _
  simp

/-- Normalizing drops the time of the last synchronization, and a missing principal attribute counts
as an empty one. -/
theorem configList?_undoEcho :
    c.undoEcho.configList? key =
      if key = lastSyncKey then none
      else if key = principalKey ∧ c.config.isSome then some ((c.configList? key).getD [""])
      else c.configList? key := by
  unfold configList?
  change ((c.config.map EchoRule.emptyPrincipal.undoIn).map EchoRule.lastSync.undoIn).bind _ = _
  cases c.config with
  | none => simp
  | some config =>
    simp only [Option.map_some, Option.bind_some, EchoRule.undoIn, SortedMap.get?_erase,
      Option.isSome_some, and_true]
    by_cases hl : key = lastSyncKey
    · simp [hl]
    · rw [if_neg hl, if_neg hl]
      by_cases hp : key = principalKey
      · subst hp
        unfold SortedMap.contains
        cases hv : config.get? principalKey <;> simp [hv]
      · rw [if_neg hp]
        split
        · rfl
        · rw [SortedMap.get?_insert_of_ne _ _ hp]

theorem configList?_undoEcho_credential :
    c.undoEcho.configList? bindCredentialKey = c.configList? bindCredentialKey := by
  rw [configList?_undoEcho, if_neg (by decide), if_neg fun h => absurd h.1 (by decide)]

namespace Server

/-- The component `x` of the id `f` is what was accepted when `dc` was laid over a component. -/
structure Formed (dc : Component) (f : String) (x : Component) : Prop where
  id : x.id = some f
  given : dc.id.or (some f) = some f
  parentId : dc.parentId.or x.parentId = x.parentId
  form : ∃ (previous : Option Component) (base y : Component),
    Stamped (settle previous (base.mergedWith dc)) y ∧ x = { y with id := x.id, parentId := x.parentId }

/-- Each list of what was accepted is one of what it settled from, but for that of the last
synchronization. -/
theorem Formed.exists_settled {dc : Component} (h : Formed dc f x) :
    ∃ (previous : Option Component) (base : Component), ∀ key, key ≠ lastSyncKey →
      x.configList? key = (settle previous (base.mergedWith dc)).configList? key := by
  obtain ⟨previous, base, y, stamped, form⟩ := h.form
  refine ⟨previous, base, fun key hs => ?_⟩
  rw [← stamped.configList? hs]
  exact configList?_congr (by rw [form])

theorem Formed.isSome_config {dc : Component} (h : Formed dc f x) (there : dc.config.isSome) :
    x.config.isSome := by
  obtain ⟨previous, base, y, stamped, form⟩ := h.form
  have config : x.config = y.config := by rw [form]
  rw [config, stamped.isSome_config, isSome_config_settle, isSome_config_mergedWith, there]
  rfl

theorem isSome_of_configList? {values : List String} (h : c.configList? key = some values) :
    c.config.isSome := by
  unfold configList? at h
  cases hc : c.config with
  | none => simp [hc] at h
  | some config => rfl

/-- What `dc` sets is set in what was accepted; an empty principal attribute is dropped. -/
theorem Formed.configList? {dc : Component} (h : Formed dc f x) {values : List String}
    (hs : key ≠ lastSyncKey) (hb : key ≠ bindCredentialKey)
    (hv : dc.configList? key = some values) :
    x.configList? key = if key = principalKey then (some values).filter Filled else some values := by
  obtain ⟨previous, base, lists⟩ := h.exists_settled
  rw [lists key hs, configList?_settle, configList?_mergedWith, hv, Option.some_or]
  by_cases hp : key = principalKey
  · simp [hp]
  · simp [hp, hb]

/-- Laying the same component over once more changes no list but that of the bind credential. -/
theorem Formed.absorbs {dc : Component} (h : Formed dc f x)
    (unsynced : dc.configList? lastSyncKey = none)
    (single : ∀ values, dc.configList? principalKey = some values → ∃ v, values = [v])
    (hb : key ≠ bindCredentialKey) :
    ((redact x).undoEcho.mergedWith dc).configList? key = (redact x).undoEcho.configList? key := by
  rw [configList?_mergedWith]
  cases hv : dc.configList? key with
  | none => rfl
  | some values =>
    have hs : key ≠ lastSyncKey := by
      rintro rfl
      cases unsynced.symm.trans hv
    have there : (redact x).config.isSome := by
      rw [isSome_config_redact]
      exact h.isSome_config (isSome_of_configList? hv)
    have lists := h.configList? hs hb hv
    rw [configList?_undoEcho, if_neg hs, there, configList?_redact, if_neg hb, lists]
    by_cases hp : key = principalKey
    · subst hp
      obtain ⟨v, rfl⟩ := single values hv
      by_cases empty : v = ""
      · simp [empty, Filled, Option.filter]
      · simp [empty, Filled, Option.filter]
    · simp [hp]

theorem Formed.fields {dc : Component} (h : Formed dc f x) :
    (redact x).undoEcho.mergedWith dc =
      { (redact x).undoEcho with config := ((redact x).undoEcho.mergedWith dc).config } := by
  obtain ⟨previous, base, y, stamped, form⟩ := h.form
  have rest := stamped.rest
  have name : dc.name.or x.name = x.name := by
    have same : x.name = dc.name.or base.name := by
      rw [form, rest]
      rfl
    rw [same]
    cases dc.name <;> rfl
  have providerId : dc.providerId.or x.providerId = x.providerId := by
    have same : x.providerId = dc.providerId.or base.providerId := by
      rw [form, rest]
      rfl
    rw [same]
    cases dc.providerId <;> rfl
  have providerType : dc.providerType.or x.providerType = x.providerType := by
    have same : x.providerType = dc.providerType.or base.providerType := by
      rw [form, rest]
      rfl
    rw [same]
    cases dc.providerType <;> rfl
  have id : dc.id.or x.id = x.id := by rw [h.id, h.given]
  exact Component.ext id name providerId providerType h.parentId rfl rfl

theorem Formed.isSome_config_again {dc : Component} (h : Formed dc f x) :
    ((redact x).undoEcho.mergedWith dc).config.isSome = (redact x).undoEcho.config.isSome := by
  rw [isSome_config_mergedWith]
  cases hc : dc.config with
  | none => rfl
  | some config =>
    have there := h.isSome_config (by rw [hc]; rfl)
    rw [isSome_config_undoEcho, isSome_config_redact, there]
    rfl

theorem configList?_erase (c : Component) (dropped : String) :
    (c.mapConfig (·.erase dropped)).configList? key =
      if key = dropped then none else c.configList? key := by
  refine configList?_mapConfig (g := fun list => if key = dropped then none else list)
    (fun config => SortedMap.get?_erase _ _ _) (by simp)

/-- Without the bind credential, laying the same component over once more changes nothing. -/
theorem Formed.erased {dc : Component} (h : Formed dc f x)
    (unsynced : dc.configList? lastSyncKey = none)
    (single : ∀ values, dc.configList? principalKey = some values → ∃ v, values = [v]) :
    ((redact x).undoEcho.mergedWith dc).mapConfig (·.erase bindCredentialKey) =
      (redact x).undoEcho.mapConfig (·.erase bindCredentialKey) := by
  have config : (((redact x).undoEcho.mergedWith dc).mapConfig (·.erase bindCredentialKey)).config =
      ((redact x).undoEcho.mapConfig (·.erase bindCredentialKey)).config := by
    refine config_ext ?_ fun key => ?_
    · rw [isSome_config_mapConfig, isSome_config_mapConfig, h.isSome_config_again]
    · rw [configList?_erase, configList?_erase]
      split
      · rfl
      · rename_i hb
        exact h.absorbs unsynced single hb
  rw [h.fields] at config ⊢
  exact Component.ext rfl rfl rfl rfl rfl config rfl

/-- A federation that was formed by a declaration needs no update by it. -/
theorem Formed.needsUpdate (h : Formed d.component f x)
    (unsynced : d.component.configList? lastSyncKey = none)
    (credential : d.component.configList? bindCredentialKey = none ∨
      d.credentialPolicy = .onlyIndirect) (mappers : List Component) :
    Federation.needsUpdate ⟨(redact x).undoEcho.mergedWith d.component, mappers⟩
      ⟨(redact x).undoEcho, mappers⟩ d.credentialPolicy = false := by
  have single : ∀ values, d.component.configList? principalKey = some values →
      ∃ v, values = [v] := fun values hv => declared_single hv
  rcases credential with unset | indirect
  · have same : (redact x).undoEcho.mergedWith d.component = (redact x).undoEcho := by
      have config : ((redact x).undoEcho.mergedWith d.component).config =
          (redact x).undoEcho.config := by
        refine config_ext h.isSome_config_again fun key => ?_
        by_cases hb : key = bindCredentialKey
        · rw [configList?_mergedWith, hb, unset, Option.none_or]
        · exact h.absorbs unsynced single hb
      rw [h.fields, config]
    rw [same]
    cases d.credentialPolicy <;> simp [Federation.needsUpdate, Federation.Same]
  · rw [indirect]
    have same := h.erased unsynced single
    simp [Federation.needsUpdate, Federation.Same, Federation.withoutCredential, same]

/-- What was accepted holds no empty principal attribute. -/
theorem Formed.filled {dc : Component} (h : Formed dc f x) {values : List String}
    (hv : x.configList? principalKey = some values) : Filled values := by
  obtain ⟨previous, base, lists⟩ := h.exists_settled
  rw [lists _ principalKey_ne_lastSyncKey, configList?_settle, if_pos rfl,
    Option.filter_eq_some_iff] at hv
  exact hv.2

/-- A bind credential that is declared is there, unless only its mask is. -/
theorem Formed.credential {dc : Component} (h : Formed dc f x) {values : List String}
    (hv : dc.configList? bindCredentialKey = some values) (open_ : values.head? ≠ some secretMask) :
    x.configList? bindCredentialKey = some values := by
  obtain ⟨previous, base, lists⟩ := h.exists_settled
  rw [lists _ bindCredentialKey_ne_lastSyncKey, configList?_settle,
    if_neg principalKey_ne_bindCredentialKey.symm, configList?_mergedWith, hv, Option.some_or,
    if_neg]
  exact fun masked => open_ masked.2

/-- What a list becomes when the same component is accepted once more, as it is shown. -/
theorem Formed.settle_again {dc : Component} (h : Formed dc f x)
    (unsynced : dc.configList? lastSyncKey = none)
    (single : ∀ values, dc.configList? principalKey = some values → ∃ v, values = [v])
    {x' : Component} (there : x'.config.isSome = x.config.isSome) (hs : key ≠ lastSyncKey)
    (list : x'.configList? key =
      (settle (some x) ((redact x).undoEcho.mergedWith dc)).configList? key) :
    (redact x').undoEcho.configList? key = (redact x).undoEcho.configList? key := by
  have shown : ∀ key, key ≠ lastSyncKey → key ≠ principalKey →
      (redact x).undoEcho.configList? key = (redact x).configList? key := by
    intro key hs hp
    rw [configList?_undoEcho, if_neg hs, if_neg fun h => hp h.1]
  rw [configList?_undoEcho, if_neg hs, isSome_config_redact, there, configList?_redact, list,
    configList?_settle]
  by_cases hp : key = principalKey
  · subst hp
    have different := principalKey_ne_bindCredentialKey
    rw [h.absorbs unsynced single different, configList?_undoEcho, if_neg hs, isSome_config_redact,
      configList?_redact, if_neg different, if_neg different, if_pos rfl]
    by_cases some : x.config.isSome
    · simp only [some, and_self, if_true]
      cases hv : x.configList? principalKey with
      | none => simp [Option.filter, Filled]
      | some values => simp [Option.filter, h.filled hv]
    · have none : x.configList? principalKey = none := by
        cases hv : x.configList? principalKey with
        | none => rfl
        | some values => exact absurd (isSome_of_configList? hv) some
      simp [some, none]
  · rw [if_neg fun h => hp h.1, if_neg hp, shown key hs hp, configList?_redact]
    by_cases hb : key = bindCredentialKey
    · subst hb
      rw [if_pos rfl, if_pos rfl, configList?_mergedWith, shown _ hs hp, configList?_redact,
        if_pos rfl]
      cases hv : dc.configList? bindCredentialKey with
      | none => cases hx : x.configList? bindCredentialKey <;> simp [hx]
      | some values =>
        by_cases masked : values.head? = some secretMask
        · simp [masked]
        · simp [masked, h.credential hv masked]
    · rw [if_neg hb, if_neg fun h => hb h.1, if_neg hb, h.absorbs unsynced single hb,
        shown key hs hp, configList?_redact, if_neg hb]

/-- Accepting the same component once more changes nothing in what is shown and normalized. -/
theorem Formed.again {dc : Component} (h : Formed dc f x)
    (unsynced : dc.configList? lastSyncKey = none)
    (single : ∀ values, dc.configList? principalKey = some values → ∃ v, values = [v])
    {y x' : Component}
    (stamped : Stamped (settle (some x) ((redact x).undoEcho.mergedWith dc)) y)
    (form : x' = { y with
      parentId := ((redact x).undoEcho.mergedWith dc).parentId.or x.parentId }) :
    (redact x').undoEcho = (redact x).undoEcho := by
  have config : x'.config = y.config := by rw [form]
  have there : x'.config.isSome = x.config.isSome := by
    rw [config, stamped.isSome_config, isSome_config_settle, h.isSome_config_again,
      isSome_config_undoEcho, isSome_config_redact]
  have lists : ∀ key, key ≠ lastSyncKey → x'.configList? key =
      (settle (some x) ((redact x).undoEcho.mergedWith dc)).configList? key := by
    intro key hs
    rw [← stamped.configList? hs]
    exact configList?_congr config
  have configs : (redact x').undoEcho.config = (redact x).undoEcho.config := by
    refine config_ext ?_ fun key => ?_
    · rw [isSome_config_undoEcho, isSome_config_undoEcho, isSome_config_redact,
        isSome_config_redact, there]
    · by_cases hs : key = lastSyncKey
      · rw [configList?_undoEcho, configList?_undoEcho, if_pos hs, if_pos hs]
      · exact h.settle_again unsynced single there hs (lists key hs)
  have rest : x' = { x with config := x'.config } := by
    rw [form, stamped.rest]
    have fields := h.fields
    have parent : ((redact x).undoEcho.mergedWith dc).parentId.or x.parentId = x.parentId := by
      rw [fields]
      exact Option.or_self
    rw [parent]
    change { (redact x).undoEcho.mergedWith dc with config := y.config, parentId := x.parentId } = _
    rw [fields]
    rfl
  rw [undoEcho_rest, configs, rest]
  rfl

end Server

end UserFederation
