import Mathlib.Logic.Basic
import UserFederation.Server.Mutation

/-! What becomes of a component on a server. A config is known by the lists of its keys
(`config_ext`), and every operation on components says what it does to each list: laying a patch
over, hiding the credential, settling what is accepted, noting the time. Settling twice changes
nothing more (`settled_absorbs`). -/

namespace UserFederation

attribute [ext] Component

theorem principalKey_ne_bindCredentialKey : principalKey ≠ bindCredentialKey := by decide

theorem principalKey_ne_lastSyncKey : principalKey ≠ lastSyncKey := by decide

theorem bindCredentialKey_ne_lastSyncKey : bindCredentialKey ≠ lastSyncKey := by decide

namespace Component

variable {a b base patch c : Component} {key : String}

theorem Same.eq (h : a.Same b) (extra : a.extra = b.extra) : a = b := by
  have same : a.canonical = b.canonical := h
  have key : { a with extra := .empty } = { b with extra := .empty } :=
    congrArg (fun c : Component => { c with extra := .empty }) same
  obtain ⟨id, name, providerId, providerType, parentId, config, _⟩ := a
  obtain ⟨id', name', providerId', providerType', parentId', config', _⟩ := b
  simp only [Component.mk.injEq] at key extra ⊢
  simp [key, extra]

theorem Same.id (h : a.Same b) : a.id = b.id :=
  show a.canonical.id = b.canonical.id from congrArg Component.id h

/-- Two configs with the same lists are equal. -/
theorem config_ext (there : a.config.isSome = b.config.isSome)
    (lists : ∀ key, a.configList? key = b.configList? key) : a.config = b.config := by
  simp only [configList?] at lists
  cases ha : a.config <;> cases hb : b.config <;> simp [ha, hb] at there lists ⊢
  exact SortedMap.ext_get? lists

/-- A change of the config that treats the list of a key alone, and adds no list, does so to the
list of the component. -/
theorem configList?_congr (same : a.config = b.config) : a.configList? key = b.configList? key := by
  rw [configList?, configList?, same]

theorem configList?_mapConfig {f : WireConfig → WireConfig}
    {g : Option (List String) → Option (List String)}
    (hf : ∀ config, (f config).get? key = g (config.get? key)) (hg : g none = none) :
    (c.mapConfig f).configList? key = g (c.configList? key) := by
  unfold mapConfig configList?
  cases c.config with
  | none => exact hg.symm
  | some config => exact hf config

theorem isSome_config_mapConfig (f : WireConfig → WireConfig) :
    (c.mapConfig f).config.isSome = c.config.isSome := by
  simp [mapConfig]

/-- Laid over nothing, a component without other fields is itself. -/
theorem empty_mergedWith (h : patch.extra = .empty) :
    ({} : Component).mergedWith patch = patch := by
  refine Component.ext ?_ ?_ ?_ ?_ ?_ ?_ h.symm <;> simp only [mergedWith]
  · cases patch.id <;> rfl
  · cases patch.name <;> rfl
  · cases patch.providerId <;> rfl
  · cases patch.providerType <;> rfl
  · cases patch.parentId <;> rfl
  · cases patch.config with
    | none => rfl
    | some config =>
      refine congrArg some (SortedMap.ext_get? fun key => ?_)
      simp [overlayConfig, SortedMap.get?_overlay]

theorem configList?_mergedWith :
    (base.mergedWith patch).configList? key = (patch.configList? key).or (base.configList? key) := by
  simp only [mergedWith, configList?, overlayConfig]
  cases patch.config with
  | none => simp
  | some config =>
    simp only [Option.bind_some, SortedMap.get?_overlay]
    cases base.config <;> simp

theorem isSome_config_mergedWith :
    (base.mergedWith patch).config.isSome = (patch.config.isSome || base.config.isSome) := by
  simp only [mergedWith]
  cases patch.config <;> simp

end Component

namespace Server

open Component

variable {c p m : Component} {key : String} {supply : Supply} {s : Server}

/-! ### Hiding the credential -/

/-- A config with the mask in place of its bind credential. -/
def hideCredential (config : WireConfig) : WireConfig :=
  if config.contains bindCredentialKey then config.insert bindCredentialKey [secretMask]
  else config

theorem redact_eq (c : Component) : redact c = c.mapConfig hideCredential := rfl

theorem get?_hideCredential (config : WireConfig) :
    (hideCredential config).get? key =
      if key = bindCredentialKey then (config.get? key).map fun _ => [secretMask]
      else config.get? key := by
  unfold hideCredential SortedMap.contains
  by_cases hk : key = bindCredentialKey
  · subst hk
    cases hv : config.get? bindCredentialKey <;> simp [hv]
  · split <;> simp [SortedMap.get?_insert, hk]

theorem configList?_redact :
    (redact c).configList? key =
      if key = bindCredentialKey then (c.configList? key).map fun _ => [secretMask]
      else c.configList? key := by
  by_cases hk : key = bindCredentialKey
  · rw [redact_eq, configList?_mapConfig (g := Option.map fun _ => [secretMask]) _ rfl, if_pos hk]
    intro config
    rw [get?_hideCredential, if_pos hk]
  · rw [redact_eq, configList?_mapConfig (g := fun list => list) _ rfl, if_neg hk]
    intro config
    rw [get?_hideCredential, if_neg hk]

theorem isSome_config_redact : (redact c).config.isSome = c.config.isSome :=
  isSome_config_mapConfig _

/-! ### Settling -/

/-- Whether a list of values is more than empty texts. -/
def Filled (values : List String) : Bool := !values.all (· = "")

/-- A component as it is stored in place of a previous one. -/
def settle (previous : Option Component) (c : Component) : Component :=
  c.mapConfig fun config => keepCredential previous (dropEmptyPrincipal config)

theorem accept_eq_settle (h : s.ignoredKeys = []) (previous : Option Component) (c : Component) :
    s.accept previous c = settle previous c := by
  simp [accept, settle, h, keepIgnored]

/-- The ignored keys have the values that they had. -/
theorem get?_keepIgnored (keys : List String) (previous : Option Component)
    (config : WireConfig) :
    (keepIgnored keys previous config).get? key =
      if key ∈ keys then previous.bind (·.configList? key) else config.get? key := by
  induction keys generalizing config with
  | nil => rfl
  | cons k keys ih =>
    rw [keepIgnored, List.foldl_cons]
    refine (ih _).trans ?_
    by_cases later : key ∈ keys
    · rw [if_pos later, if_pos (List.mem_cons_of_mem _ later)]
    · rw [if_neg later]
      by_cases same : key = k
      · subst same
        rw [if_pos List.mem_cons_self]
        split
        · rename_i old there
          rw [SortedMap.get?_insert_self, there]
        · rename_i missing
          rw [SortedMap.get?_erase, if_pos rfl, missing]
      · rw [if_neg (List.not_mem_cons_of_ne_of_not_mem same later)]
        split
        · exact SortedMap.get?_insert_of_ne _ _ same
        · rw [SortedMap.get?_erase, if_neg same]

theorem get?_dropEmptyPrincipal (config : WireConfig) :
    (dropEmptyPrincipal config).get? key =
      if key = principalKey then (config.get? key).filter Filled else config.get? key := by
  unfold dropEmptyPrincipal
  by_cases hk : key = principalKey
  · subst hk
    cases hv : config.get? principalKey with
    | none => simp [hv]
    | some values =>
      by_cases empty : values.all (· = "") = true
      · simp only [empty, if_true, SortedMap.get?_erase, Option.filter, Filled, Bool.not_true,
          Bool.false_eq_true, if_false]
      · simp only [Bool.not_eq_true] at empty
        simp [empty, hv, Option.filter, Filled]
  · simp only [hk, if_false]
    split
    · split
      · simp [SortedMap.get?_erase, hk]
      · rfl
    · rfl

theorem get?_keepCredential (previous : Option Component) (config : WireConfig) :
    (keepCredential previous config).get? key =
      if key = bindCredentialKey ∧ (config.get? key).bind List.head? = some secretMask then
        previous.bind (·.configList? key)
      else config.get? key := by
  unfold keepCredential
  by_cases hk : key = bindCredentialKey
  · subst hk
    by_cases masked : (config.get? bindCredentialKey).bind List.head? = some secretMask
    · simp only [masked, if_true, true_and]
      split
      · rename_i secret hs
        simp [hs]
      · rename_i hs
        simp [hs, SortedMap.get?_erase]
    · simp [masked]
  · simp only [hk, false_and, if_false]
    split
    · split
      · simp [SortedMap.get?_insert, hk]
      · simp [SortedMap.get?_erase, hk]
    · rfl

theorem configList?_settle (previous : Option Component) :
    (settle previous c).configList? key =
      if key = principalKey then (c.configList? key).filter Filled
      else if key = bindCredentialKey ∧ (c.configList? key).bind List.head? = some secretMask then
        previous.bind (·.configList? key)
      else c.configList? key := by
  refine configList?_mapConfig (g := fun list =>
    if key = principalKey then list.filter Filled
    else if key = bindCredentialKey ∧ list.bind List.head? = some secretMask then
      previous.bind (·.configList? key)
    else list) (fun config => ?_) (by simp)
  rw [get?_keepCredential, get?_dropEmptyPrincipal]
  by_cases hk : key = principalKey
  · subst hk
    simp [principalKey_ne_bindCredentialKey]
  · simp [hk]

theorem isSome_config_settle (previous : Option Component) :
    (settle previous c).config.isSome = c.config.isSome := isSome_config_mapConfig _

/-- The lists of what is accepted in place of a previous component. -/
theorem configList?_accept (previous : Option Component) (c : Component) (key : String) :
    (s.accept previous c).configList? key = c.config.bind fun config =>
      let list := if key ∈ s.ignoredKeys then previous.bind (·.configList? key) else config.get? key
      if key = principalKey then list.filter Filled
      else if key = bindCredentialKey ∧ list.bind List.head? = some secretMask then
        previous.bind (·.configList? key)
      else list := by
  unfold accept mapConfig configList?
  cases c.config with
  | none => rfl
  | some config =>
    simp only [Option.map_some, Option.bind_some]
    rw [get?_keepCredential, get?_dropEmptyPrincipal, get?_keepIgnored]
    by_cases hk : key = principalKey
    · subst hk
      simp only [principalKey_ne_bindCredentialKey, false_and, if_true, if_false]
      rfl
    · simp only [hk, if_false]
      rfl

/-- What is shown is accepted as what is stored, whatever the server ignores, if its principal
attribute is not empty. -/
theorem accept_redact (filled : ∀ values, c.configList? principalKey = some values → Filled values) :
    s.accept (some c) (redact c) = c := by
  have config : (s.accept (some c) (redact c)).config = c.config := by
    refine config_ext (by rw [accept, isSome_config_mapConfig, isSome_config_redact]) fun key => ?_
    rw [configList?_accept]
    cases there : (redact c).config with
    | none =>
      have bare : c.config = none := Option.map_eq_none_iff.mp there
      rw [configList?, bare]
      rfl
    | some shown =>
      have list : shown.get? key = (redact c).configList? key := by
        rw [configList?, there, Option.bind_some]
      simp only [Option.bind_some, list, configList?_redact]
      by_cases hp : key = principalKey
      · subst hp
        simp only [if_true, principalKey_ne_bindCredentialKey, if_false, ite_self]
        cases hv : c.configList? principalKey with
        | none => rfl
        | some values => simp [Option.filter, filled values hv]
      · by_cases hb : key = bindCredentialKey
        · subst hb
          by_cases ignored : bindCredentialKey ∈ s.ignoredKeys <;>
            cases c.configList? bindCredentialKey <;> simp [hp, ignored]
        · simp [hp, hb]
  exact Component.ext rfl rfl rfl rfl rfl config rfl

theorem settle_redact (filled : ∀ values, c.configList? principalKey = some values → Filled values) :
    settle (some c) (redact c) = c :=
  (accept_eq_settle (s := {}) rfl _ _).symm.trans (accept_redact filled)

/-! ### Laying a declared mapper over a stored one -/

/-- The stored mapper `c` after `m`, laid over what is shown of it, is accepted in its place. -/
def revised (c m : Component) : Component := settle (some c) ((redact c).mergedWith m)

theorem isSome_config_revised :
    (revised c m).config.isSome = (m.config.isSome || c.config.isSome) := by
  rw [revised, isSome_config_settle, isSome_config_mergedWith, isSome_config_redact]

/-- What a list of a key becomes when a declared list is laid over the one that is shown and the
result settles. -/
def revisedList (key : String) (stored declared : Option (List String)) : Option (List String) :=
  if key = principalKey then (declared.or stored).filter Filled
  else if key = bindCredentialKey then
    if declared.bind List.head? = some secretMask then stored else declared.or stored
  else declared.or stored

theorem configList?_revised :
    (revised c m).configList? key = revisedList key (c.configList? key) (m.configList? key) := by
  rw [revised, configList?_settle, configList?_mergedWith, configList?_redact, revisedList]
  by_cases hp : key = principalKey
  · subst hp
    simp [principalKey_ne_bindCredentialKey]
  · by_cases hb : key = bindCredentialKey
    · subst hb
      simp only [hp, if_false, if_true, true_and, Option.bind_some]
      cases hm : m.configList? bindCredentialKey <;> cases hc : c.configList? bindCredentialKey <;>
        simp
    · simp [hp, hb]

/-- Laying the same list over again changes nothing more. -/
theorem revisedList_revisedList (stored declared : Option (List String)) :
    revisedList key (revisedList key stored declared) declared = revisedList key stored declared := by
  unfold revisedList
  split
  · cases declared with
    | some values => simp
    | none => simp
  · split
    · split
      · rfl
      · cases declared <;> simp
    · cases declared <;> simp

/-- A declared component that sets no bind credential and no empty principal attribute changes
nothing in what is shown once it was laid over a component and accepted. -/
theorem mergedWith_redact_settled (previous : Option Component) (base : Component) {x : Component}
    (hx : x = { settle previous (base.mergedWith m) with id := x.id, parentId := x.parentId })
    (hid : m.id.or x.id = x.id) (hparent : m.parentId.or x.parentId = x.parentId)
    (open_ : m.configList? bindCredentialKey = none)
    (filled : ∀ values, m.configList? principalKey = some values → Filled values) :
    (redact x).mergedWith m = redact x := by
  have lists : ∀ key, x.configList? key =
      (settle previous (base.mergedWith m)).configList? key := by
    intro key
    rw [hx]
    rfl
  have there : x.config.isSome = (m.config.isSome || base.config.isSome) := by
    rw [hx]
    exact (isSome_config_settle _).trans isSome_config_mergedWith
  have config : ((redact x).mergedWith m).config = (redact x).config := by
    refine config_ext ?_ fun key => ?_
    · rw [isSome_config_mergedWith, isSome_config_redact, there]
      cases m.config.isSome <;> rfl
    · rw [configList?_mergedWith]
      cases hm : m.configList? key with
      | none => rfl
      | some values =>
        have hb : key ≠ bindCredentialKey := by
          rintro rfl
          simp [open_] at hm
        rw [configList?_redact, if_neg hb, lists, configList?_settle, configList?_mergedWith, hm]
        by_cases hp : key = principalKey
        · subst hp
          simp [Option.filter, filled values hm]
        · simp [hp, hb]
  have name : m.name.or x.name = x.name := by
    rw [hx]
    change m.name.or (m.name.or base.name) = m.name.or base.name
    cases m.name <;> rfl
  have providerId : m.providerId.or x.providerId = x.providerId := by
    rw [hx]
    change m.providerId.or (m.providerId.or base.providerId) = m.providerId.or base.providerId
    cases m.providerId <;> rfl
  have providerType : m.providerType.or x.providerType = x.providerType := by
    rw [hx]
    change m.providerType.or (m.providerType.or base.providerType) =
      m.providerType.or base.providerType
    cases m.providerType <;> rfl
  exact Component.ext hid name providerId providerType hparent config rfl

/-! ### The time of the last synchronization -/

/-- `x` is `c`, or `c` with a time of the last synchronization if that is a federation's. -/
def Stamped (c x : Component) : Prop :=
  x = c ∨ c.providerType = some federationType ∧
    ∃ time, x = c.mapConfig (·.insert lastSyncKey [time])

theorem stamped_stamp (supply : Supply) (s : Server) (c : Component) :
    Stamped c (s.stamp supply c).1 := by
  unfold stamp
  split
  · rename_i h
    exact .inr ⟨h.1, _, rfl⟩
  · exact .inl rfl

theorem Stamped.eq {x : Component} (h : Stamped c x) (ht : c.providerType ≠ some federationType) :
    x = c := h.resolve_right fun hx => ht hx.1

theorem Stamped.rest {x : Component} (h : Stamped c x) : x = { c with config := x.config } := by
  rcases h with rfl | ⟨-, _, rfl⟩ <;> rfl

theorem Stamped.isSome_config {x : Component} (h : Stamped c x) :
    x.config.isSome = c.config.isSome := by
  rcases h with rfl | ⟨-, _, rfl⟩
  · rfl
  · exact isSome_config_mapConfig _

theorem Stamped.configList? {x : Component} (h : Stamped c x) (hk : key ≠ lastSyncKey) :
    x.configList? key = c.configList? key := by
  rcases h with rfl | ⟨-, time, rfl⟩
  · rfl
  · exact configList?_mapConfig (g := fun list => list)
      (fun config => SortedMap.get?_insert_of_ne _ _ hk) rfl

end Server

/-- What a mapper is set to: all but its id, its parent and what means nothing here. The time of the
last synchronization, which the server notes for federations, does not count. -/
def Component.settings (c : Component) : Component where
  name := c.name
  providerId := c.providerId
  providerType := c.providerType
  config :=
    if c.providerType = some federationType then c.config.map (·.erase lastSyncKey) else c.config

namespace Component

variable {a b c : Component}

/-- Two components are alike if they are set to the same. -/
def Alike (a b : Component) : Prop := a.settings = b.settings

theorem Alike.refl (a : Component) : Alike a a := rfl

theorem Alike.symm (h : Alike a b) : Alike b a := Eq.symm h

theorem Alike.trans (h : Alike a b) (h' : Alike b c) : Alike a c := Eq.trans h h'

theorem configList?_settings (key : String) :
    a.settings.configList? key =
      if a.providerType = some federationType ∧ key = lastSyncKey then none
      else a.configList? key := by
  by_cases ht : a.providerType = some federationType
  · simp only [settings, configList?, ht, if_true, true_and, Option.bind_map, Function.comp_def,
      SortedMap.get?_erase]
    cases a.config with
    | none => simp
    | some config => rfl
  · simp only [settings, configList?, ht, if_false, false_and]

theorem isSome_config_settings : a.settings.config.isSome = a.config.isSome := by
  unfold settings
  by_cases ht : a.providerType = some federationType <;> simp [ht]

theorem alike_of (name : a.name = b.name) (providerId : a.providerId = b.providerId)
    (providerType : a.providerType = b.providerType)
    (there : a.config.isSome = b.config.isSome)
    (lists : ∀ key, a.providerType ≠ some federationType ∨ key ≠ lastSyncKey →
      a.configList? key = b.configList? key) : Alike a b := by
  refine Component.ext rfl name providerId providerType rfl ?_ rfl
  refine config_ext (by rw [isSome_config_settings, isSome_config_settings, there]) fun key => ?_
  rw [configList?_settings, configList?_settings, ← providerType]
  split
  · rfl
  · rename_i h
    exact lists key (not_and_or.mp h)

theorem Alike.name (h : Alike a b) : a.name = b.name :=
  show a.settings.name = b.settings.name from congrArg Component.name h

theorem Alike.providerId (h : Alike a b) : a.providerId = b.providerId :=
  show a.settings.providerId = b.settings.providerId from congrArg Component.providerId h

theorem Alike.providerType (h : Alike a b) : a.providerType = b.providerType :=
  show a.settings.providerType = b.settings.providerType from congrArg Component.providerType h

theorem Alike.isSome_config (h : Alike a b) : a.config.isSome = b.config.isSome := by
  rw [← isSome_config_settings, ← isSome_config_settings (a := b),
    show a.settings = b.settings from h]

theorem Alike.configList? (h : Alike a b) {key : String}
    (hk : a.providerType ≠ some federationType ∨ key ≠ lastSyncKey) :
    a.configList? key = b.configList? key := by
  have lists := configList?_settings (a := a) key
  rw [show a.settings = b.settings from h, configList?_settings, ← h.providerType,
    if_neg (not_and_or.mpr hk), if_neg (not_and_or.mpr hk)] at lists
  exact lists.symm

end Component

namespace Server

open Component

variable {a b c m x : Component}

theorem Stamped.alike (h : Stamped c x) : Alike x c := by
  have hr := h.rest
  refine alike_of (by rw [hr]) (by rw [hr]) (by rw [hr]) h.isSome_config fun key hk => ?_
  rcases hk with ht | hk
  · have ht' : c.providerType ≠ some federationType := by rwa [hr] at ht
    rw [h.eq ht']
  · exact h.configList? hk

theorem redact_alike (h : Alike a b) : Alike (redact a) (redact b) := by
  refine alike_of h.name h.providerId h.providerType ?_ fun key hk => ?_
  · rw [isSome_config_redact, isSome_config_redact, h.isSome_config]
  · rw [configList?_redact, configList?_redact, h.configList? hk]

/-- Laying the same mapper over alike ones of its type has results that are alike. -/
theorem revised_alike (h : Alike a b) (ht : a.providerType = m.providerType) :
    Alike (revised a m) (revised b m) := by
  have name : (revised a m).name = (revised b m).name :=
    congrArg (m.name.or ·) h.name
  have providerId : (revised a m).providerId = (revised b m).providerId :=
    congrArg (m.providerId.or ·) h.providerId
  have providerType : (revised a m).providerType = (revised b m).providerType :=
    congrArg (m.providerType.or ·) h.providerType
  refine alike_of name providerId providerType ?_ fun key hk => ?_
  · rw [isSome_config_revised, isSome_config_revised, h.isSome_config]
  · have same : (revised a m).providerType = a.providerType := by
      change m.providerType.or a.providerType = a.providerType
      rw [← ht]
      cases a.providerType <;> rfl
    rw [same] at hk
    rw [configList?_revised, configList?_revised, h.configList? hk]

/-- Laying a mapper over once more changes nothing more. -/
theorem revised_revised_alike : Alike (revised (revised c m) m) (revised c m) := by
  refine alike_of ?_ ?_ ?_ ?_ fun key _ => ?_
  · change m.name.or (m.name.or c.name) = m.name.or c.name
    cases m.name <;> rfl
  · change m.providerId.or (m.providerId.or c.providerId) = m.providerId.or c.providerId
    cases m.providerId <;> rfl
  · change m.providerType.or (m.providerType.or c.providerType) = m.providerType.or c.providerType
    cases m.providerType <;> rfl
  · simp only [isSome_config_revised]
    cases m.config.isSome <;> rfl
  · simp only [configList?_revised, revisedList_revisedList]

end Server

end UserFederation
