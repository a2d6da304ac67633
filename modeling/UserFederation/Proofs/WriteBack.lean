import UserFederation.Proofs.Atomicity
import UserFederation.Proofs.Convergence

/-! Writing back what was read. What a server shows of a component is accepted as the component
itself (`accept_redact`), with its bind credential and whatever the server ignores. So an update with
it leaves what is stored as it is and where it is, but for a new time of the last synchronization
(`write_back`). -/

namespace UserFederation.Server

variable {supply : Supply} {s s' : Server} {realm id : String} {c : Component} {e : Stored}

/-- A component as one of the calls for what is stored in a realm shows it. -/
inductive Told (s : Server) (realm : String) (c : Component) : Prop
  | got {id : String} (h : s.get id realm = some c)
  | found {type name : String} (h : c ∈ s.find realm type name)
  | child {parent : String} (h : c ∈ s.children parent realm)

theorem Told.exists_stored (told : s.Told realm c) (keyed : s.Keyed) :
    ∃ id e, c.id = some id ∧ s.stored? id realm = some e ∧ redact e.component = c := by
  have shown : ∀ {id e}, s.components.get? id = some e → e.realm = realm →
      redact e.component = c →
      ∃ id e, c.id = some id ∧ s.stored? id realm = some e ∧ redact e.component = c :=
    fun he hr hc => ⟨_, _, hc ▸ keyed _ _ he, stored?_eq_some_iff.mpr ⟨he, hr⟩, hc⟩
  cases told with
  | got h =>
    obtain ⟨e, stored, hc⟩ := Option.map_eq_some_iff.mp h
    obtain ⟨he, hr⟩ := stored?_eq_some_iff.mp stored
    exact shown he hr hc
  | found h =>
    obtain ⟨id, e, he, hr, -, -, hc⟩ := mem_find.mp h
    exact shown he hr hc
  | child h =>
    obtain ⟨id, e, he, hr, -, hc⟩ := mem_list.mp h
    exact shown he hr hc

/-- A component that takes its own place, with a new time if it is a federation that has one. -/
def renewed (supply : Supply) (s : Server) (e : Stored) : Stored :=
  { e with component := (s.renew supply e e.component).1 }

theorem renewed_eq_or (supply : Supply) (s : Server) (e : Stored) :
    s.renewed supply e = e ∨ e.component.providerType = some federationType ∧
      (e.component.configValue? lastSyncKey).isSome ∧
      s.renewed supply e = { e with
        component := e.component.mapConfig (·.insert lastSyncKey [supply.time s.timesIssued]) } := by
  unfold renewed renew stamp
  by_cases synced : (e.component.configValue? lastSyncKey).isSome = true
  · rw [if_pos synced]
    split
    · rename_i federation
      exact .inr ⟨federation.1, synced, rfl⟩
    · exact .inl rfl
  · rw [if_neg synced]
    exact .inl rfl

theorem supplant_renewed (supply : Supply) (s : Server) (e : Stored) (id : String) :
    ((s.renew supply e e.component).2.supplant id e (s.renew supply e e.component).1).components =
      s.components.insert id (s.renewed supply e) := by
  obtain ⟨n, timed⟩ := renew_server supply s e e.component
  have parent : (s.renew supply e e.component).1.parentId = e.component.parentId := by
    rw [(stamped_renew supply s e e.component).rest]
  rw [supplant, timed, parent, Option.or_self, renewed, ← parent]

/-- An update with what a call for a stored component showed leaves that component as it is, up to
the time of the last synchronization of a federation that has one, and in its place in every
listing, and nothing else changes. -/
theorem write_back (reachable : Reachable supply s) (unarmed : s.failNext = none)
    (stored : s.stored? id realm = some e)
    (filled : ∀ values, e.component.configList? principalKey = some values →
      ∃ value ∈ values, value ≠ "")
    (told : s.Told realm c) (own : c.id = some id) :
    ∃ e' s', s.update supply c realm = (.ok (), s') ∧
      (e' = e ∨ e.component.providerType = some federationType ∧
        (e.component.configValue? lastSyncKey).isSome ∧
        e' = { e with component :=
          e.component.mapConfig (·.insert lastSyncKey [supply.time s.timesIssued]) }) ∧
      (∀ k, s'.components.get? k = if k = id then some e' else s.components.get? k) ∧
      ∀ r, s'.visible r = (s.visible r).map (replaced id e') := by
  obtain ⟨id', e', own', stored', rfl⟩ := told.exists_stored reachable.keyed
  cases own.symm.trans own'
  cases stored.symm.trans stored'
  have accepted : s.accept (some e.component) (redact e.component) = e.component :=
    accept_redact fun values there => by simpa [Filled] using filled values there
  have written : s.update supply (redact e.component) realm = (.ok (),
      (s.renew supply e e.component).2.supplant id e (s.renew supply e e.component).1) := by
    rw [update_eq own, stored, attempt, unarmed, if_neg (Option.some_ne_none _).symm]
    simp only [accepted]
  have after := supplant_renewed supply s e id
  refine ⟨s.renewed supply e, _, written, renewed_eq_or supply s e, fun k => ?_, fun r => ?_⟩
  · rw [after, SortedMap.get?_insert]
  · exact reachable.keyed.visible_insert (stored?_eq_some_iff.mp stored).1 after r

namespace Sample

/-- A federation with a secret, a value that the server ignores and a time. -/
def synced : Component where
  id := some "people"
  providerType := some federationType
  parentId := some "master"
  config := some (.ofList [(bindCredentialKey, ["s3cret"]), ("vendor", ["ad"]),
    (principalKey, ["", "uid"]), (lastSyncKey, ["1"])])

/-- A server that ignores the secret and the vendor. -/
def ignoring : Server :=
  ((withoutDefaults.apply tally (.seed "master" synced)).apply tally
    (.ignoreKey "vendor")).apply tally (.ignoreKey bindCredentialKey)

end Sample

open Server.Sample in
theorem write_back_synced : ∃ s', ignoring.update tally (redact synced) "master" = (.ok (), s') ∧
    s'.rawConfigValue? "people" bindCredentialKey = some "s3cret" ∧
    s'.rawConfigValue? "people" "vendor" = some "ad" := by
  obtain ⟨e', s', written, same, components, -⟩ := @write_back tally ignoring "master" "people"
    (redact synced) ⟨"master", 1, synced⟩ (.apply _ (.apply _ (.apply _ .withoutDefaults))) rfl
    (by decide) (fun values there => ⟨"uid", by cases there; decide, by decide⟩)
    (@Told.got _ _ _ "people" (by decide)) rfl
  refine ⟨s', written, ?_⟩
  have entry := components "people"
  rw [if_pos rfl] at entry
  rw [rawConfigValue?, rawConfigValue?, entry]
  rcases same with rfl | ⟨-, -, rfl⟩ <;> decide

end UserFederation.Server
