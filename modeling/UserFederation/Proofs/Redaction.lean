import UserFederation.Proofs.Atomicity
import UserFederation.Proofs.Reachable
import UserFederation.Proofs.Transcript
import UserFederation.Server.Usage

/-! What a server tells of its bind credentials: nothing but whether they are there. Servers that
hold the same up to the values of bind credentials (`Server.SecretEquivalent`) are the same with the
mask in their place (`secretEquivalent_iff`). Such servers answer each use alike and stay alike
(`use_agree`), and so any sequence of uses (`redaction_noninterference`). -/

namespace UserFederation

open Component

/-- Two components agree up to the values of their bind credentials. -/
structure Component.SecretEquivalent (c c' : Component) : Prop where
  fields : { c with config := none } = { c' with config := none }
  config : c.config.isSome = c'.config.isSome
  values : ∀ key ≠ bindCredentialKey, c.configList? key = c'.configList? key
  credential : (c.configList? bindCredentialKey).isSome = (c'.configList? bindCredentialKey).isSome

/-- Two entries agree up to the values of bind credentials. -/
structure Stored.SecretEquivalent (e e' : Stored) : Prop where
  realm : e.realm = e'.realm
  order : e.order = e'.order
  component : e.component.SecretEquivalent e'.component

namespace SortedMap

/-- Maps with the same images of their values have related values under each key. -/
theorem mapValues_eq_iff {α β : Type} {f : α → β} {R : α → α → Prop}
    (same : ∀ {x y}, f x = f y ↔ R x y) {m n : SortedMap α} :
    m.mapValues f = n.mapValues f ↔ ∀ key, Option.Rel R (m.get? key) (n.get? key) := by
  have values : ∀ x y : Option α, x.map f = y.map f ↔ Option.Rel R x y := by
    intro x y
    cases x <;> cases y <;> simp [same]
  constructor
  · intro eq key
    rw [← values, ← get?_mapValues, eq, get?_mapValues]
  · intro related
    refine ext_get? fun key => ?_
    rw [get?_mapValues, get?_mapValues]
    exact (values _ _).mpr (related key)

end SortedMap

namespace Server

/-- Two servers agree up to the values of bind credentials, those of default mappers included. -/
structure SecretEquivalent (s t : Server) : Prop where
  components : ∀ id,
    Option.Rel Stored.SecretEquivalent (s.components.get? id) (t.components.get? id)
  defaults : ∀ provider, Option.Rel (List.Forall₂ Component.SecretEquivalent)
    (s.defaults.get? provider) (t.defaults.get? provider)
  rest : { s with components := .empty, defaults := .empty } =
    { t with components := .empty, defaults := .empty }

/-- An entry with the mask in place of its bind credential. -/
def conceal (e : Stored) : Stored := { e with component := redact e.component }

/-- A server with the mask in place of every bind credential. -/
def concealed (s : Server) : Server :=
  { s with
    components := s.components.mapValues conceal
    defaults := s.defaults.mapValues (·.map redact) }

variable {supply : Supply} {s t : Server} {c c' : Component} {realm id key : String}
  {previous previous' : Option Component}

/-! ### Equivalence -/

theorem redact_eq_iff : redact c = redact c' ↔ c.SecretEquivalent c' := by
  constructor
  · intro same
    have lists := fun key => congrArg (·.configList? key) same
    simp only [configList?_redact] at lists
    refine ⟨?_, ?_, fun key other => ?_, ?_⟩
    · exact congrArg (fun c : Component => { c with config := none }) same
    · rw [← isSome_config_redact, same, isSome_config_redact]
    · have list := lists key
      rwa [if_neg other, if_neg other] at list
    · have list := congrArg Option.isSome (lists bindCredentialKey)
      rwa [if_pos rfl, if_pos rfl, Option.isSome_map, Option.isSome_map] at list
  · rintro ⟨fields, config, values, credential⟩
    have config : (redact c).config = (redact c').config := by
      refine config_ext (by rw [isSome_config_redact, isSome_config_redact, config]) fun key => ?_
      rw [configList?_redact, configList?_redact]
      by_cases secret : key = bindCredentialKey
      · subst secret
        rw [if_pos rfl, if_pos rfl]
        revert credential
        cases c.configList? bindCredentialKey <;> cases c'.configList? bindCredentialKey <;> simp
      · rw [if_neg secret, if_neg secret, values key secret]
    have fields := Component.ext_iff.mp fields
    obtain ⟨id, name, providerId, providerType, parentId, -, extra⟩ := fields
    exact Component.ext id name providerId providerType parentId config extra

theorem conceal_eq_iff {e e' : Stored} : conceal e = conceal e' ↔ e.SecretEquivalent e' := by
  constructor
  · intro same
    obtain ⟨realm, order, component⟩ := Stored.mk.inj same
    exact ⟨realm, order, redact_eq_iff.mp component⟩
  · rintro ⟨realm, order, component⟩
    rw [conceal, conceal, realm, order, redact_eq_iff.mpr component]

theorem map_redact_eq_iff {cs cs' : List Component} :
    cs.map redact = cs'.map redact ↔ List.Forall₂ Component.SecretEquivalent cs cs' := by
  rw [← List.forall₂_eq_eq_eq, List.forall₂_map_left_iff, List.forall₂_map_right_iff]
  simp only [redact_eq_iff]

/-- Servers agree up to the values of bind credentials just if they are the same with the mask in
their place. -/
theorem secretEquivalent_iff : s.SecretEquivalent t ↔ s.concealed = t.concealed := by
  have whole : ∀ s : Server, s.concealed =
      { ({ s with components := .empty, defaults := .empty } : Server) with
        components := s.components.mapValues conceal
        defaults := s.defaults.mapValues (·.map redact) } := fun _ => rfl
  constructor
  · rintro ⟨components, defaults, rest⟩
    rw [whole s, whole t, rest, (SortedMap.mapValues_eq_iff conceal_eq_iff).mpr components,
      (SortedMap.mapValues_eq_iff map_redact_eq_iff).mpr defaults]
  · intro same
    refine ⟨?_, ?_, ?_⟩
    · exact (SortedMap.mapValues_eq_iff conceal_eq_iff).mp (congrArg Server.components same)
    · exact (SortedMap.mapValues_eq_iff map_redact_eq_iff).mp (congrArg Server.defaults same)
    · exact congrArg (fun s : Server => { s with components := .empty, defaults := .empty }) same

/-! ### What is shown -/

theorem get?_concealed (s : Server) (id : String) :
    s.concealed.components.get? id = (s.components.get? id).map conceal :=
  SortedMap.get?_mapValues _ _ _

theorem stored_congr (alike : s.concealed = t.concealed) (id : String) :
    (s.components.get? id).map conceal = (t.components.get? id).map conceal := by
  rw [← get?_concealed, alike, get?_concealed]

theorem stored?_congr (alike : s.concealed = t.concealed) (id realm : String) :
    (s.stored? id realm).map conceal = (t.stored? id realm).map conceal := by
  have concealed : ∀ s : Server, (s.stored? id realm).map conceal =
      ((s.components.get? id).map conceal).filter (·.realm = realm) := by
    intro s
    rw [stored?, Option.filter_map]
    rfl
  rw [concealed, concealed, stored_congr alike]

theorem visible_concealed (s : Server) (realm : String) :
    s.concealed.visible realm = (s.visible realm).map conceal := by
  have values : s.concealed.components.values = s.components.values.map conceal := by
    simp [SortedMap.values, concealed, SortedMap.mapValues]
  rw [visible, visible, values, List.filter_map]
  exact (List.map_mergeSort (r := fun a b => a.order ≤ b.order)
    (s := fun a b => a.order ≤ b.order) (f := conceal) fun _ _ _ _ => rfl).symm

theorem list_eq {p : Component → Bool} (hp : ∀ c, p (redact c) = p c) (s : Server)
    (realm : String) :
    s.list realm p = ((s.concealed.visible realm).map (·.component)).filter p := by
  rw [list, visible_concealed, List.map_map, List.filter_map, List.filter_map, List.map_map]
  refine congrArg _ (List.filter_congr fun e _ => ?_)
  exact (hp e.component).symm

theorem size_congr (alike : s.concealed = t.concealed) (realm : String) :
    s.size realm = t.size realm := by
  have concealed : ∀ s : Server, s.size realm = (s.concealed.visible realm).length := by
    intro s
    rw [visible_concealed, List.length_map, size]
  rw [concealed, alike, ← concealed]

theorem get_congr (alike : s.concealed = t.concealed) (id realm : String) :
    s.get id realm = t.get id realm := by
  have shown : ∀ s : Server,
      s.get id realm = ((s.stored? id realm).map conceal).map (·.component) := by
    intro s
    rw [Option.map_map]
    rfl
  rw [shown, stored?_congr alike, ← shown]

theorem find_congr (alike : s.concealed = t.concealed) (realm type name : String) :
    s.find realm type name = t.find realm type name := by
  rw [find, find, list_eq (fun _ => rfl), list_eq (fun _ => rfl), alike]

theorem children_congr (alike : s.concealed = t.concealed) (parent realm : String) :
    s.children parent realm = t.children parent realm := by
  rw [children, children, list_eq (fun _ => rfl), list_eq (fun _ => rfl), alike]

/-! ### What is below -/

theorem newChildren_conceal (entries : List (String × Stored)) (found : List String)
    (parent : String) :
    newChildren (entries.map fun e => (e.1, conceal e.2)) found parent =
      newChildren entries found parent := by
  rw [newChildren, newChildren, List.filter_map, List.map_map]
  rfl

theorem cascade_conceal (entries : List (String × Stored)) (found queue : List String) :
    cascade (entries.map fun e => (e.1, conceal e.2)) found queue =
      cascade entries found queue := by
  induction found, queue using cascade.induct entries with
  | case1 found => rw [cascade, cascade]
  | case2 found parent rest new ih =>
    rw [cascade, cascade, newChildren_conceal]
    exact ih

theorem descendants_congr (alike : s.concealed = t.concealed) (id : String) :
    s.descendants id = t.descendants id := by
  have concealed : ∀ s : Server, s.concealed.descendants id = s.descendants id :=
    fun s => cascade_conceal s.components.entries [] [id]
  rw [← concealed, alike, concealed]

/-! ### What is accepted -/

theorem previous_congr (same : previous.map redact = previous'.map redact) :
    (∀ key ≠ bindCredentialKey,
      previous.bind (·.configList? key) = previous'.bind (·.configList? key)) ∧
    (previous.bind (·.configList? bindCredentialKey)).isSome =
      (previous'.bind (·.configList? bindCredentialKey)).isSome := by
  cases previous with
  | none =>
    rw [Option.map_none, eq_comm, Option.map_eq_none_iff] at same
    rw [same]
    exact ⟨fun _ _ => rfl, rfl⟩
  | some c =>
    rw [Option.map_some, eq_comm, Option.map_eq_some_iff] at same
    obtain ⟨c', rfl, shown⟩ := same
    have equivalent := redact_eq_iff.mp shown.symm
    exact ⟨equivalent.values, equivalent.credential⟩

/-- What is accepted depends on the previous bind credential in its own bind credential only, and
whether it has one depends on whether there is a previous one. -/
theorem accept_congr (ignored : s.ignoredKeys = t.ignoredKeys)
    (same : previous.map redact = previous'.map redact) (c : Component) :
    redact (s.accept previous c) = redact (t.accept previous' c) := by
  obtain ⟨values, credential⟩ := previous_congr same
  refine redact_eq_iff.mpr ⟨rfl, ?_, fun key other => ?_, ?_⟩
  · rw [accept, accept, isSome_config_mapConfig, isSome_config_mapConfig]
  · rw [configList?_accept, configList?_accept, ignored, values key other]
  · rw [configList?_accept, configList?_accept, ignored]
    cases c.config with
    | none => rfl
    | some config =>
      simp only [Option.bind_some, principalKey_ne_bindCredentialKey.symm, if_false, true_and]
      -- Where the key is ignored, the previous credential is kept, mask or not.
      by_cases kept : bindCredentialKey ∈ t.ignoredKeys
      · simpa only [kept, if_true, ite_self] using credential
      · simp only [kept, if_false]
        split
        · exact credential
        · rfl

/-! ### What is stored -/

theorem put_concealed (supply : Supply) (s : Server) (realm : String) (c : Component) :
    (s.put supply realm c).2.concealed = (s.concealed.put supply realm (redact c)).2 := by
  simp only [put, concealed, SortedMap.mapValues_insert]
  rfl

theorem put_congr (alike : s.concealed = t.concealed) (same : redact c = redact c')
    (supply : Supply) (realm : String) :
    (s.put supply realm c).1 = (t.put supply realm c').1 ∧
      (s.put supply realm c).2.concealed = (t.put supply realm c').2.concealed := by
  have id : ∀ (s : Server) (c : Component),
      (s.put supply realm c).1 = (s.concealed.put supply realm (redact c)).1 := fun _ _ => rfl
  rw [id s, id t, put_concealed, put_concealed, alike, same]
  exact ⟨rfl, rfl⟩

theorem provision_congr {ms ms' : List Component} (alike : s.concealed = t.concealed)
    (same : ms.map redact = ms'.map redact) (supply : Supply) (realm parent : String) :
    (s.provision supply realm parent ms).concealed =
      (t.provision supply realm parent ms').concealed := by
  have image : ∀ (ms : List Component) (s : Server),
      (s.provision supply realm parent ms).concealed =
        s.concealed.provision supply realm parent (ms.map redact) := by
    intro ms
    induction ms with
    | nil => exact fun _ => rfl
    | cons m ms ih =>
      intro s
      rw [provision_cons, ih, List.map_cons, provision_cons, put_concealed]
      rfl
  rw [image, image, alike, same]

theorem redact_stamped (c : Component) (time : String) :
    redact (c.mapConfig (·.insert lastSyncKey [time])) =
      (redact c).mapConfig (·.insert lastSyncKey [time]) := by
  have hidden : ∀ config : WireConfig, hideCredential (config.insert lastSyncKey [time]) =
      (hideCredential config).insert lastSyncKey [time] := by
    intro config
    refine SortedMap.ext_get? fun key => ?_
    simp only [get?_hideCredential, SortedMap.get?_insert]
    by_cases noted : key = lastSyncKey
    · simp [noted, bindCredentialKey_ne_lastSyncKey.symm]
    · simp only [noted, if_false]
  rw [redact_eq, redact_eq]
  cases hc : c.config with
  | none => simp [mapConfig, hc]
  | some config => simp [mapConfig, hc, hidden]

theorem stamp_congr (alike : s.concealed = t.concealed) (same : redact c = redact c')
    (supply : Supply) :
    redact (s.stamp supply c).1 = redact (t.stamp supply c').1 ∧
      (s.stamp supply c).2.concealed = (t.stamp supply c').2.concealed := by
  have image : ∀ (s : Server) (c : Component),
      redact (s.stamp supply c).1 = (s.concealed.stamp supply (redact c)).1 ∧
        (s.stamp supply c).2.concealed = (s.concealed.stamp supply (redact c)).2 := by
    intro s c
    rw [stamp, stamp, redact_providerType, isSome_config_redact]
    split
    · exact ⟨redact_stamped _ _, rfl⟩
    · exact ⟨rfl, rfl⟩
  rw [(image s c).1, (image t c').1, (image s c).2, (image t c').2, alike, same]
  exact ⟨rfl, rfl⟩

theorem record_congr (alike : s.concealed = t.concealed) (same : redact c = redact c')
    (kind : MutationKind) : (s.record kind c).concealed = (t.record kind c').concealed := by
  change s.concealed.record kind (redact c) = t.concealed.record kind (redact c')
  rw [alike, same]

/-! ### Calls -/

/-- Two answers are the same, and the servers they come with look the same. -/
def Agree {α : Type} (x y : α × Server) : Prop := x.1 = y.1 ∧ x.2.concealed = y.2.concealed

/-- Two changes fail in the same way or agree. -/
def ChangesAgree {α : Type} (x y : Except Failure (α × Server)) : Prop :=
  (∃ e, x = .error e ∧ y = .error e) ∨ ∃ a b, x = .ok a ∧ y = .ok b ∧ Agree a b

theorem attempt_agree {α : Type} {x y : Except Failure (α × Server)}
    (alike : s.concealed = t.concealed) (kind : MutationKind) (changes : ChangesAgree x y) :
    Agree (s.attempt kind x) (t.attempt kind y) := by
  have due : s.failNext = t.failNext := (congrArg Server.failNext alike :)
  unfold attempt
  rw [due]
  split
  · exact ⟨rfl, congrArg (fun s : Server => { s with failNext := none }) alike⟩
  · rcases changes with ⟨e, rfl, rfl⟩ | ⟨a, b, rfl, rfl, agree⟩
    · exact ⟨rfl, alike⟩
    · exact ⟨congrArg Except.ok agree.1, agree.2⟩

theorem provided_congr (alike : s.concealed = t.concealed) (provider? : Option String) :
    ((provider?.bind s.defaults.get?).getD []).map redact =
      ((provider?.bind t.defaults.get?).getD []).map redact := by
  have image : ∀ s : Server, ((provider?.bind s.defaults.get?).getD []).map redact =
      (provider?.bind s.concealed.defaults.get?).getD [] := by
    intro s
    cases provider? with
    | none => rfl
    | some provider =>
      simp only [Option.bind_some, concealed, SortedMap.get?_mapValues]
      cases s.defaults.get? provider <;> rfl
  rw [image, alike, ← image]

theorem establish_agree (alike : s.concealed = t.concealed) (supply : Supply) (c : Component)
    (realm : String) : Agree (s.establish supply c realm) (t.establish supply c realm) := by
  have ignored : s.ignoredKeys = t.ignoredKeys := (congrArg Server.ignoredKeys alike :)
  have accepted : redact (s.accept none c) = redact (t.accept none c) :=
    accept_congr ignored rfl c
  obtain ⟨shown, clock⟩ := stamp_congr alike accepted supply
  obtain ⟨id, stored⟩ := put_congr clock shown supply realm
  refine ⟨id, ?_⟩
  simp only [establish, id]
  exact provision_congr stored (provided_congr stored c.providerId) supply realm _

theorem create_agree (alike : s.concealed = t.concealed) (supply : Supply) (c : Component)
    (realm : String) : Agree (s.create supply c realm) (t.create supply c realm) := by
  obtain ⟨e, hs, created⟩ := create_eq supply s c realm
  obtain ⟨e', ht, created'⟩ := create_eq supply t c realm
  obtain ⟨id, established⟩ := establish_agree alike supply c realm
  have same := stored_congr established (s.establish supply c realm).1
  rw [hs, id, ht, Option.map_some, Option.map_some, Option.some.injEq] at same
  have shown := (Stored.mk.inj same).2.2
  rw [created, created']
  exact attempt_agree alike .create
    (.inr ⟨_, _, rfl, rfl, shown, record_congr established shown .create⟩)

theorem renew_congr {e e' : Stored} (alike : s.concealed = t.concealed)
    (same : redact c = redact c') (stored : conceal e = conceal e') (supply : Supply) :
    redact (s.renew supply e c).1 = redact (t.renew supply e' c').1 ∧
      (s.renew supply e c).2.concealed = (t.renew supply e' c').2.concealed := by
  have equivalent := (conceal_eq_iff.mp stored).component
  rw [renew, renew, configValue?, configValue?,
    equivalent.values _ bindCredentialKey_ne_lastSyncKey.symm]
  split
  · exact stamp_congr alike same supply
  · exact ⟨same, alike⟩

theorem supplant_concealed (s : Server) (id : String) (e : Stored) (c : Component) :
    (s.supplant id e c).concealed = s.concealed.supplant id (conceal e) (redact c) := by
  simp only [supplant, concealed, SortedMap.mapValues_insert]
  rfl

theorem update_agree (alike : s.concealed = t.concealed) (supply : Supply) (c : Component)
    (realm : String) : Agree (s.update supply c realm) (t.update supply c realm) := by
  have ignored : s.ignoredKeys = t.ignoredKeys := (congrArg Server.ignoredKeys alike :)
  cases hid : c.id with
  | none =>
    unfold update
    rw [hid]
    exact attempt_agree alike .update (.inl ⟨_, rfl, rfl⟩)
  | some id =>
    rw [update_eq hid, update_eq hid]
    refine attempt_agree alike .update ?_
    have stored := stored?_congr alike id realm
    cases hs : s.stored? id realm <;> cases ht : t.stored? id realm <;>
      simp only [hs, ht, Option.map_none, Option.map_some, reduceCtorEq, Option.some.injEq]
        at stored ⊢
    · exact .inl ⟨_, rfl, rfl⟩
    · rename_i e e'
      have previous : (some e.component).map redact = (some e'.component).map redact :=
        congrArg some (Stored.mk.inj stored).2.2
      have accepted := accept_congr ignored previous c
      obtain ⟨shown, clock⟩ := renew_congr alike accepted stored supply
      refine .inr ⟨_, _, rfl, rfl, rfl, ?_⟩
      rw [supplant_concealed, supplant_concealed, clock, stored, shown]

theorem drop_concealed (s : Server) (gone : List String) :
    ({ s with
        components := s.components.filter fun id _ => !gone.contains id } : Server).concealed =
      { s.concealed with
        components := s.concealed.components.filter fun id _ => !gone.contains id } := by
  have components : (s.components.filter fun id _ => !gone.contains id).mapValues conceal =
      s.concealed.components.filter fun id _ => !gone.contains id := by
    refine SortedMap.ext_get? fun id => ?_
    rw [SortedMap.get?_mapValues, SortedMap.get?_filter, SortedMap.get?_filter, get?_concealed,
      Option.filter_map]
    rfl
  rw [concealed, components]
  rfl

theorem delete_agree (alike : s.concealed = t.concealed) (id realm : String) :
    Agree (s.delete id realm) (t.delete id realm) := by
  refine attempt_agree alike .delete ?_
  have stored := stored?_congr alike id realm
  cases hs : s.stored? id realm <;> cases ht : t.stored? id realm <;>
    simp only [hs, ht, Option.map_none, Option.map_some, reduceCtorEq, Option.some.injEq]
      at stored ⊢
  · exact .inl ⟨_, rfl, rfl⟩
  · have removed := (Stored.mk.inj stored).2.2
    refine .inr ⟨_, _, rfl, rfl, rfl, record_congr ?_ removed .delete⟩
    rw [descendants_congr alike]
    exact (drop_concealed s _).trans (by rw [alike]; exact (drop_concealed t _).symm)

/-- Servers that look the same answer each call alike and look the same afterwards. -/
theorem answer_agree (alike : s.concealed = t.concealed) (supply : Supply) (call : Call) :
    Agree (answer supply call s) (answer supply call t) := by
  cases call with
  | find realm type name => exact ⟨congrArg Except.ok (find_congr alike realm type name), alike⟩
  | get id realm => exact ⟨congrArg Except.ok (get_congr alike id realm), alike⟩
  | create c realm => exact create_agree alike supply c realm
  | update c realm => exact update_agree alike supply c realm
  | delete id realm => exact delete_agree alike id realm
  | children parent realm =>
    exact ⟨congrArg Except.ok (children_congr alike parent realm), alike⟩

/-! ### Uses -/

/-- A program hears the same from servers that look the same. -/
theorem run_agree {α : Type} (p : Dialogue α) (supply : Supply)
    (alike : s.concealed = t.concealed) :
    Agree (p.run (answer supply) s) (p.run (answer supply) t) ∧
      p.exchanges (answer supply) s = p.exchanges (answer supply) t := by
  induction p generalizing s t with
  | done | fail => exact ⟨⟨rfl, alike⟩, rfl⟩
  | ask call next ih =>
    have agree := answer_agree alike supply call
    rw [Dialogue.run_ask, Dialogue.run_ask, Dialogue.exchanges_ask, Dialogue.exchanges_ask]
    rcases hs : answer supply call s with ⟨x, s'⟩
    rcases ht : answer supply call t with ⟨x', t'⟩
    rw [hs, ht] at agree
    obtain ⟨same, after⟩ := agree
    -- The answers are the same, so both programs go on alike.
    cases same
    cases x with
    | error e => exact ⟨⟨rfl, after⟩, rfl⟩
    | ok reply =>
      obtain ⟨agree, exchanges⟩ := ih reply after
      exact ⟨agree, congrArg _ exchanges⟩

theorem use_agree (alike : s.concealed = t.concealed) (supply : Supply) (u : Use) :
    Agree (s.use supply u) (t.use supply u) := by
  cases u with
  | operation op =>
    cases op with
    | seed realm c => exact put_congr alike rfl supply realm
    | setDefaults provider ms =>
      have image : ∀ s : Server, (s.apply supply (.setDefaults provider ms)).concealed =
          { s.concealed with
            defaults := s.concealed.defaults.insert provider (ms.map redact) } := by
        intro s
        simp only [apply, concealed, SortedMap.mapValues_insert]
      exact ⟨rfl, by rw [use, use, image, image, alike]⟩
    | ignoreKey key =>
      exact ⟨rfl, congrArg (fun s : Server => s.apply supply (.ignoreKey key)) alike⟩
    | failNext kind =>
      exact ⟨rfl, congrArg (fun s : Server => s.apply supply (.failNext kind)) alike⟩
    | clearJournal => exact ⟨rfl, congrArg (fun s : Server => s.apply supply .clearJournal) alike⟩
    | call call => exact answer_agree alike supply call
  | size realm => exact ⟨size_congr alike realm, alike⟩
  | journal => exact ⟨(congrArg Server.journal alike :), alike⟩
  | resolve realm id name => exact (run_agree _ supply alike).1
  | reconcile d mode =>
    obtain ⟨⟨result, after⟩, exchanges⟩ := run_agree (reconcile d mode) supply alike
    refine ⟨?_, ?_⟩
    · simp only [use, Dialogue.runLogged_eq, result, exchanges]
    · simp only [use, Dialogue.runLogged_eq]
      exact after

theorem useAll_agree (alike : s.concealed = t.concealed) (supply : Supply) (uses : List Use) :
    Agree (s.useAll supply uses) (t.useAll supply uses) := by
  induction uses generalizing s t with
  | nil => exact ⟨rfl, alike⟩
  | cons u uses ih =>
    obtain ⟨same, after⟩ := use_agree alike supply u
    obtain ⟨rest, final⟩ := ih after
    have first : (⟨u, (s.use supply u).1⟩ : Σ u : Use, u.Answer) = ⟨u, (t.use supply u).1⟩ := by
      rw [same]
    exact ⟨congrArg₂ List.cons first rest, final⟩

/-! ### Default mappers -/

theorem run_defaults {α : Type} (p : Dialogue α) (supply : Supply) (s : Server) :
    (p.run (answer supply) s).2.defaults = s.defaults := by
  induction p generalizing s with
  | done | fail => rfl
  | ask call next ih =>
    have kept := answer_defaults supply s call
    rw [Dialogue.run_ask]
    rcases hs : answer supply call s with ⟨_ | reply, s'⟩ <;> rw [hs] at kept
    · exact kept
    · exact (ih reply s').trans kept

/-- Only setting them changes the default mappers. -/
theorem useAll_defaults (same : s.defaults = t.defaults) (supply : Supply) (uses : List Use) :
    (s.useAll supply uses).2.defaults = (t.useAll supply uses).2.defaults := by
  induction uses generalizing s t with
  | nil => exact same
  | cons u uses ih =>
    refine ih ?_
    cases u with
    | operation op =>
      cases op with
      | setDefaults provider ms => exact congrArg (·.insert provider ms) same
      | seed | ignoreKey | failNext | clearJournal => exact same
      | call call => exact (answer_defaults ..).trans (same.trans (answer_defaults ..).symm)
    | size | journal => exact same
    | resolve => exact (run_defaults ..).trans (same.trans (run_defaults ..).symm)
    | reconcile =>
      simp only [Dialogue.runLogged_eq]
      exact (run_defaults ..).trans (same.trans (run_defaults ..).symm)

end Server

/-- The components that a reply shows. -/
def Call.shown : (call : Call) → call.Reply → List Component
  | .find .., found => found
  | .get .., found => found.toList
  | .create .., created => [created]
  | .children .., found => found
  | .update .., _ | .delete .., _ => []

namespace Server

/-- Whatever a server shows, it has redacted. -/
theorem exists_of_shown {call : Call} {reply : call.Reply}
    (h : (answer supply call s).1 = .ok reply) (hc : c ∈ call.shown reply) : ∃ x, redact x = c := by
  cases call with
  | find realm type name =>
    cases h
    obtain ⟨id, e, -, -, -, -, same⟩ := mem_find.mp hc
    exact ⟨e.component, same⟩
  | get id realm =>
    cases h
    obtain ⟨e, -, same⟩ := Option.map_eq_some_iff.mp (Option.mem_toList.mp hc)
    exact ⟨e.component, same⟩
  | create d realm =>
    cases List.mem_singleton.mp hc
    rcases hs : s.create supply d realm with ⟨x, s'⟩
    rw [answer, hs] at h
    cases h
    obtain ⟨e, -, same, -⟩ := create_ok hs
    exact ⟨e.component, same.symm⟩
  | children parent realm =>
    cases h
    obtain ⟨id, m, -, same⟩ := mem_children.mp hc
    exact ⟨m, same⟩
  | update | delete => cases hc

/-- Bind credentials cannot be told from what a server answers. Whatever servers that agree but for
their values are used for, the answers are the same and they agree but for their values afterwards;
and every bind credential that is shown is the mask. -/
theorem redaction_noninterference (supply : Supply) :
    (∀ (s t : Server) (uses : List Use), s.SecretEquivalent t →
      (s.useAll supply uses).1 = (t.useAll supply uses).1 ∧
      (s.useAll supply uses).2.SecretEquivalent (t.useAll supply uses).2 ∧
      (s.defaults = t.defaults →
        (s.useAll supply uses).2.defaults = (t.useAll supply uses).2.defaults)) ∧
    ∀ (s : Server) (call : Call) (reply : call.Reply), (answer supply call s).1 = .ok reply →
      ∀ c ∈ call.shown reply, ∀ values,
        c.configList? bindCredentialKey = some values → values = [secretMask] := by
  refine ⟨fun s t uses equivalent => ?_, fun s call reply h c hc values there => ?_⟩
  · obtain ⟨answers, alike⟩ := useAll_agree (secretEquivalent_iff.mp equivalent) supply uses
    exact ⟨answers, secretEquivalent_iff.mpr alike, fun same => useAll_defaults same supply uses⟩
  · obtain ⟨x, rfl⟩ := exists_of_shown h hc
    rw [configList?_redact, if_pos rfl, Option.map_eq_some_iff] at there
    obtain ⟨_, -, rfl⟩ := there
    rfl

namespace Sample

/-- A server with a federation that binds with a credential. -/
def binding (secret : String) : Server where
  components := .ofList [("people", {
    realm := "master"
    order := 1
    component := {
      id := some "people"
      name := some "people"
      providerType := some federationType
      config := some (.ofList [(bindCredentialKey, [secret])]) } })]
  insertions := 1

/-- Ids and times that tell nothing. -/
def mute : Supply := ⟨fun _ => "", fun _ => ""⟩

/-- Looks, sends the mask back, has the credential ignored, and looks again. -/
def probes : List Use :=
  [.operation (.call (.get "people" "master")),
    .operation (.call (.update { id := some "people", config := some (.ofList
      [(bindCredentialKey, [secretMask])]) } "master")),
    .operation (.ignoreKey bindCredentialKey), .journal,
    .resolve "master" none (some "people")]

end Sample

open Server.Sample in
theorem binding_untold : (binding "one").SecretEquivalent (binding "two") ∧
    (binding "one").rawConfigValue? "people" bindCredentialKey = some "one" ∧
    (binding "two").rawConfigValue? "people" bindCredentialKey = some "two" ∧
    ((binding "one").useAll mute probes).1 = ((binding "two").useAll mute probes).1 ∧
    ∃ c values, (binding "one").get "people" "master" = some c ∧
      c.configList? bindCredentialKey = some values ∧ values = [secretMask] := by
  have equivalent : (binding "one").SecretEquivalent (binding "two") :=
    secretEquivalent_iff.mpr (by decide)
  obtain ⟨untold, masked⟩ := redaction_noninterference mute
  obtain ⟨c, values, got, there⟩ : ∃ c values, (binding "one").get "people" "master" = some c ∧
      c.configList? bindCredentialKey = some values := ⟨_, _, rfl, rfl⟩
  have shown : c ∈ Call.shown (.get "people" "master") (some c) := List.mem_singleton.mpr rfl
  exact ⟨equivalent, by decide, by decide, (untold _ _ probes equivalent).1, c, values, got, there,
    masked (binding "one") (.get "people" "master") (some c) (congrArg Except.ok got) c shown
      values there⟩

end Server

end UserFederation
