import UserFederation.Proofs.Convergence

/-! What a server gives back of a component that it was sent. Accepting, stamping and showing a
component change it only in ways that are undone when it is read (`Faithful.undoEcho`), so what is
read after a creation or an update is what was sent, normalized (`echo_undone`). -/

namespace UserFederation.Server

open Component

variable {supply : Supply} {s s' t : Server} {c x y : Component} {realm id : String} {e : Stored}
  {previous : Option Component}

/-! ### Components -/

/-- A component of which a server keeps all that it is sent: its bind credential is not the mask,
and an empty principal attribute is given as one empty text. -/
structure Faithful (c : Component) : Prop where
  unmasked : c.configValue? bindCredentialKey ≠ some secretMask
  principal : ∀ values, c.configList? principalKey = some values →
    values = [""] ∨ ∃ v ∈ values, v ≠ ""

/-- Dropping an empty principal attribute is made up for. -/
theorem Faithful.principal_getD (faithful : Faithful c) :
    ((c.configList? principalKey).filter Filled).getD [""] =
      (c.configList? principalKey).getD [""] := by
  cases given : c.configList? principalKey with
  | none => rfl
  | some values =>
    rcases faithful.principal values given with rfl | ⟨v, member, full⟩
    · rfl
    · have filled : Filled values = true := by
        simp only [Filled, Bool.not_eq_true', List.all_eq_false, decide_eq_true_eq]
        exact ⟨v, member, full⟩
      rw [Option.filter_some, if_pos filled]

theorem Faithful.configList?_stamped (faithful : Faithful c)
    (stamped : Stamped (settle previous c) y) {key : String} (unsynced : key ≠ lastSyncKey) :
    y.configList? key =
      if key = principalKey then (c.configList? key).filter Filled else c.configList? key := by
  have open_ :
      ¬(key = bindCredentialKey ∧ (c.configList? key).bind List.head? = some secretMask) := by
    rintro ⟨rfl, masked⟩
    exact faithful.unmasked masked
  rw [stamped.configList? unsynced, configList?_settle, if_neg open_]

/-- What is shown of a component that was accepted and stamped is, normalized, what is shown of the
component that was sent. -/
theorem Faithful.undoEcho (faithful : Faithful c) (stamped : Stamped (settle previous c) y) :
    (redact y).undoEcho = (redact c).undoEcho := by
  have there : y.config.isSome = c.config.isSome :=
    stamped.isSome_config.trans (isSome_config_settle _)
  have lists : ∀ key,
      (redact y).undoEcho.configList? key = (redact c).undoEcho.configList? key := by
    intro key
    simp only [configList?_undoEcho, isSome_config_redact, there, configList?_redact]
    by_cases synced : key = lastSyncKey
    · rw [if_pos synced, if_pos synced]
    · rw [if_neg synced, if_neg synced, faithful.configList?_stamped stamped synced]
      by_cases principal : key = principalKey
      · subst principal
        simp only [principalKey_ne_bindCredentialKey, if_false, if_true, true_and,
          faithful.principal_getD]
        cases given : c.configList? principalKey with
        | none => rfl
        | some values => simp [isSome_of_configList? given]
      · simp only [principal, false_and, if_false]
  have config : (redact y).undoEcho.config = (redact c).undoEcho.config := by
    refine config_ext ?_ lists
    rw [isSome_config_undoEcho, isSome_config_undoEcho, isSome_config_redact, isSome_config_redact,
      there]
  rw [undoEcho_rest, config, stamped.rest]
  rfl

/-- What is shown of a component that is stored as it was sent, under an id and in a realm. -/
def echoed (realm id : String) (c : Component) : Component :=
  redact { c.withParent realm with id := some id }

theorem Faithful.undoEcho_echoed (faithful : Faithful c) (stamped : Stamped (settle previous c) y)
    (form : x = { y with id := some id, parentId := some (c.parentId.getD realm) }) :
    (redact x).undoEcho = (echoed realm id c).undoEcho := by
  have parent : some (c.parentId.getD realm) = c.parentId.or (some realm) := by
    cases c.parentId <;> rfl
  calc (redact x).undoEcho
      = { (redact y).undoEcho with id := some id, parentId := some (c.parentId.getD realm) } := by
        rw [form]
        rfl
    _ = { (redact c).undoEcho with id := some id, parentId := c.parentId.or (some realm) } := by
        rw [faithful.undoEcho stamped, parent]

theorem get_of_entry (entry : t.components.get? id = some e) (inRealm : e.realm = realm) :
    t.get id realm = some (redact e.component) := by
  rw [get, stored?_eq_some_iff.mpr ⟨entry, inRealm⟩, Option.map_some]

/-! ### Calls -/

/-- What a creation or an update gives back, and what is read later, is what was sent under its id,
normalized. -/
theorem echo_undone (unignored : s.ignoredKeys = [])
    (new : ∀ provider mappers, s.defaults.get? provider = some mappers → ∀ m ∈ mappers, m.id = none)
    (faithful : Faithful c) (realm : String) :
    ((∀ m n, supply.id m = supply.id n → m = n) → (∀ i, c.id = some i → Past supply s i) →
      s.failNext ≠ some .create → ∃ id created s', id = c.id.getD (supply.id s.idsIssued) ∧
        s.create supply c realm = (.ok created, s') ∧
        created.undoEcho = (echoed realm id c).undoEcho ∧
        ∀ t : Server, t.components.get? id = s'.components.get? id →
          (t.get id realm).map Component.undoEcho = some (echoed realm id c).undoEcho) ∧
    ∀ id, c.id = some id → c.parentId.isSome → (s.stored? id realm).isSome →
      s.failNext ≠ some .update → ∃ s', s.update supply c realm = (.ok (), s') ∧
        ∀ t : Server, t.components.get? id = s'.components.get? id →
          (t.get id realm).map Component.undoEcho = some (echoed realm id c).undoEcho := by
  constructor
  · intro injective given unarmed
    obtain ⟨id, x, s', sent, created⟩ :=
      create_succeeds unignored unarmed new injective given realm
    obtain ⟨y, stamped, form⟩ := created.form
    obtain ⟨e, stored, inRealm, component⟩ := created.stored
    have same := faithful.undoEcho_echoed stamped form
    refine ⟨id, redact x, s', created.id_eq, sent, same, fun t unchanged => ?_⟩
    rw [get_of_entry (unchanged.trans stored) inRealm, component]
    exact congrArg some same
  · intro id hid parent stored unarmed
    obtain ⟨e₀, found⟩ := Option.isSome_iff_exists.mp stored
    obtain ⟨p, given⟩ := Option.isSome_iff_exists.mp parent
    obtain ⟨s', updated⟩ := update_succeeds supply hid found unarmed
    obtain ⟨i, e, y, hi, -, inRealm, stamped, -, components⟩ := update_entry updated
    cases hid.symm.trans hi
    rw [accept_eq_settle unignored] at stamped
    have form : { y with parentId := c.parentId.or e.component.parentId } =
        { y with id := some id, parentId := some (c.parentId.getD realm) } := by
      have numbered : y.id = some id := by
        rw [stamped.rest, ← hid]
        rfl
      rw [← numbered, given, Option.some_or, Option.getD_some]
    refine ⟨s', updated, fun t unchanged => ?_⟩
    rw [components, SortedMap.get?_insert, if_pos rfl] at unchanged
    rw [get_of_entry unchanged inRealm]
    exact congrArg some (faithful.undoEcho_echoed stamped form)

namespace Sample

/-- A component with a credential and an empty principal attribute. -/
def bound : Component where
  id := some "people"
  providerId := some "ldap"
  providerType := some federationType
  parentId := some "master"
  config := some (.ofList [(bindCredentialKey, ["hush"]), (principalKey, [""])])

/-- A server with default mappers on which a federation is stored. -/
def furnished : Server := { opened with defaults := withLdapDefaults.defaults }

theorem faithful_bound : Faithful bound where
  unmasked := by decide
  principal values h := .inl (Option.some.inj (h.symm.trans rfl))

end Sample

open Server.Sample in
theorem bound_echo_undone :
    (∃ id created s', id = "people" ∧ furnished.create tally bound "master" = (.ok created, s') ∧
      created.undoEcho = (echoed "master" "people" bound).undoEcho ∧
      ∀ t : Server, t.components.get? id = s'.components.get? id →
        (t.get id "master").map Component.undoEcho =
          some (echoed "master" "people" bound).undoEcho) ∧
    ∃ s', furnished.update tally bound "master" = (.ok (), s') ∧
      ∀ t : Server, t.components.get? "people" = s'.components.get? "people" →
        (t.get "people" "master").map Component.undoEcho =
          some (echoed "master" "people" bound).undoEcho := by
  have unnamed : ∀ provider mappers, furnished.defaults.get? provider = some mappers →
      ∀ m ∈ mappers, m.id = none := by
    intro provider mappers h m hm
    have entries : furnished.defaults.entries = [("ldap", ldapDefaults)] := rfl
    have entry := SortedMap.get?_eq_some_iff.mp h
    rw [entries] at entry
    cases List.mem_singleton.mp entry
    have bare : ∀ m ∈ ldapDefaults, m.id = none := by decide
    exact bare m hm
  obtain ⟨created, updated⟩ :=
    @echo_undone tally furnished bound rfl unnamed faithful_bound "master"
  refine ⟨?_, updated "people" rfl rfl rfl nofun⟩
  obtain ⟨id, reply, s', hid, made, same, later⟩ := created tally_injective
    (fun i hi => past_tally (by cases hi; decide)) nofun
  cases hid
  exact ⟨_, reply, s', rfl, made, same, later⟩

end UserFederation.Server
