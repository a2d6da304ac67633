import UserFederation.Proofs.Arrival

/-! What a server shows of a federation that it was told to change. Undoing the echo of the server
leads back to what was sent for the federation (`Updated.foretold`). Each of the mappers to end up
with lands somewhere (`Planned.exists_landed`) and nothing else is left (`Planned.exists_of_landed`),
so what is shown are these mappers in their order, except that a new one has an id and a parent by
then (`Planned.foretold`). -/

namespace UserFederation.Server

open Component Mapper

variable {supply : Supply} {s s₁ u : Server} {f key realm k k' : String} {c d m p x : Component}
  {e : Stored} {ds existing target : List Component} {prune : Bool} {plan : List Action}
  {ids : List String}

/-! ### What is shown of what was accepted -/

/-- What is accepted is shown as it was sent, if its principal attribute is not empty and its bind
credential is at most the mask of one that is stored. -/
theorem redact_settle {previous : Option Component}
    (filled : ∀ values, c.configList? principalKey = some values → Filled values)
    (masked : ∀ values, c.configList? bindCredentialKey = some values →
      values = [secretMask] ∧ (previous.bind (·.configList? bindCredentialKey)).isSome) :
    redact (settle previous c) = c := by
  have config : (redact (settle previous c)).config = c.config := by
    refine config_ext (by rw [isSome_config_redact, isSome_config_settle]) fun key => ?_
    rw [configList?_redact, configList?_settle]
    by_cases hp : key = principalKey
    · subst hp
      rw [if_neg principalKey_ne_bindCredentialKey, if_pos rfl]
      cases hv : c.configList? principalKey with
      | none => rfl
      | some values => simp [Option.filter, filled values hv]
    · by_cases hb : key = bindCredentialKey
      · subst hb
        rw [if_pos rfl, if_neg hp]
        cases hv : c.configList? bindCredentialKey with
        | none => simp
        | some values =>
          obtain ⟨rfl, there⟩ := masked values hv
          obtain ⟨secret, hs⟩ := Option.isSome_iff_exists.mp there
          simp [hs]
      · simp [hp, hb]
  exact Component.ext rfl rfl rfl rfl rfl config rfl

theorem redact_revised (visible : Visible d)
    (filled : ∀ values, p.configList? principalKey = some values → Filled values) :
    redact (revised p d) = (redact p).mergedWith d := by
  refine redact_settle (fun values hv => ?_) fun values hv => ?_
  · rw [configList?_mergedWith, configList?_redact, if_neg principalKey_ne_bindCredentialKey] at hv
    rcases Option.or_eq_some_iff.mp hv with given | ⟨-, stored⟩
    · exact visible.principal values given
    · exact filled values stored
  · rw [configList?_mergedWith, visible.credential, Option.none_or, configList?_redact, if_pos rfl,
      Option.map_eq_some_iff] at hv
    obtain ⟨secret, hs, rfl⟩ := hv
    exact ⟨rfl, by simp [hs]⟩

theorem redact_settle_none (visible : Visible d) : redact (settle none d) = d :=
  redact_settle visible.principal fun _ hv => nomatch visible.credential.symm.trans hv

theorem Visible.not_federation (visible : Visible d) (base : Component) :
    (base.mergedWith d).providerType ≠ some federationType := by
  obtain ⟨t, ht, other⟩ := visible.type
  change d.providerType.or _ ≠ _
  rw [ht, Option.some_or]
  exact fun same => other (Option.some.inj same)

/-! ### What is shown of the federation -/

/-- A principal attribute is shown as it was sent, if none that is stored is empty: one that is
dropped as empty is made up for. -/
theorem principal_foretold {stored declared : Option (List String)}
    (filled : ∀ values, stored = some values → Filled values)
    (single : ∀ values, declared = some values → ∃ v, values = [v]) :
    ((declared.or (some (stored.getD [""]))).filter Filled).getD [""] =
      declared.getD (stored.getD [""]) := by
  cases declared with
  | some values =>
    obtain ⟨v, rfl⟩ := single values rfl
    by_cases empty : v = "" <;> simp [empty, Filled, Option.filter]
  | none =>
    cases stored with
    | none => simp [Filled, Option.filter]
    | some values => simp [Option.filter, filled values rfl]

/-- A mask is shown where a credential was sent, or the mask for one that is stored. -/
theorem credential_foretold {stored declared : Option (List String)}
    (single : ∀ values, declared = some values → ∃ v, values = [v])
    (unmasked : declared ≠ some [secretMask]) :
    let sent := declared.or (stored.map fun _ => [secretMask])
    (if sent.bind List.head? = some secretMask then stored else sent).map (fun _ => [secretMask]) =
      sent.map fun _ => [secretMask] := by
  intro sent
  cases declared with
  | some values =>
    obtain ⟨v, rfl⟩ := single values rfl
    have other : v ≠ secretMask := fun same => unmasked (by rw [same])
    simp [sent, other]
  | none => cases stored <;> simp [sent]

/-- What is accepted for a federation is shown as it was sent, once the echo of the server is
undone. -/
theorem settle_foretold (sized : p.config.isSome)
    (filled : ∀ values, p.configList? principalKey = some values → Filled values)
    (single : ∀ key values, d.configList? key = some values → ∃ v, values = [v])
    (unmasked : d.configList? bindCredentialKey ≠ some [secretMask])
    (there : x.config.isSome) (hs : key ≠ lastSyncKey)
    (list : x.configList? key =
      (settle (some p) ((redact p).undoEcho.mergedWith d)).configList? key) :
    (redact (redact x).undoEcho).configList? key =
      (redact ((redact p).undoEcho.mergedWith d)).configList? key := by
  have undone : ∀ c : Component, c.config.isSome → (redact c).undoEcho.configList? key =
      if key = principalKey then some ((c.configList? principalKey).getD [""])
      else (redact c).configList? key := by
    intro c some
    rw [configList?_undoEcho, if_neg hs, isSome_config_redact, some]
    by_cases hp : key = principalKey
    · subst hp
      rw [if_pos ⟨rfl, rfl⟩, if_pos rfl, configList?_redact,
        if_neg principalKey_ne_bindCredentialKey]
    · rw [if_neg fun h => hp h.1, if_neg hp]
  rw [configList?_redact, configList?_redact, configList?_mergedWith, undone x there,
    undone p sized]
  rw [configList?_settle, configList?_mergedWith, undone p sized] at list
  by_cases hp : key = principalKey
  · subst hp
    rw [if_pos rfl, if_pos rfl] at list
    rw [if_neg principalKey_ne_bindCredentialKey, if_neg principalKey_ne_bindCredentialKey,
      if_pos rfl, if_pos rfl, list, principal_foretold filled (single principalKey)]
    cases d.configList? principalKey <;> rfl
  · rw [if_neg hp, if_neg hp] at list
    rw [if_neg hp, if_neg hp, configList?_redact, list]
    by_cases hb : key = bindCredentialKey
    · subst hb
      have shown := @credential_foretold (p.configList? bindCredentialKey) _ (single _) unmasked
      simpa only [configList?_redact, if_true, true_and, Option.bind_some, Option.map_map,
        Function.comp_def] using shown
    · simp [hb, configList?_redact]

/-- What an update stores is shown as it was sent, once the echo of the server is undone. -/
theorem Updated.foretold
    (updated : Updated s ((redact e.component).undoEcho.mergedWith d) f e x s₁)
    (sized : e.component.config.isSome)
    (filled : ∀ values, e.component.configList? principalKey = some values → Filled values)
    (single : ∀ key values, d.configList? key = some values → ∃ v, values = [v])
    (unsynced : d.configList? lastSyncKey = none)
    (unmasked : d.configList? bindCredentialKey ≠ some [secretMask]) :
    redact (redact x).undoEcho = redact ((redact e.component).undoEcho.mergedWith d) := by
  obtain ⟨y, stamped, form⟩ := updated.form
  have sent : ((redact e.component).undoEcho.mergedWith d).config.isSome := by
    rw [isSome_config_mergedWith, isSome_config_undoEcho, isSome_config_redact, sized]
    exact Bool.or_true _
  have stored : x.config.isSome := by
    rw [form]
    change y.config.isSome
    rw [stamped.isSome_config, isSome_config_settle, sent]
  have config : (redact (redact x).undoEcho).config =
      (redact ((redact e.component).undoEcho.mergedWith d)).config := by
    refine config_ext ?_ fun key => ?_
    · rw [isSome_config_redact, isSome_config_undoEcho, isSome_config_redact, stored,
        isSome_config_redact, sent]
    · by_cases hs : key = lastSyncKey
      · subst hs
        have gone : ∀ c : Component, c.undoEcho.configList? lastSyncKey = none :=
          fun c => configList?_undoEcho.trans (if_pos rfl)
        rw [configList?_redact, configList?_redact, configList?_mergedWith, gone, gone, unsynced]
        rfl
      · refine settle_foretold sized filled single unmasked stored hs ?_
        rw [← stamped.configList? hs, form]
        rfl
  refine Component.ext ?_ ?_ ?_ ?_ updated.parentId config ?_ <;> rw [form, stamped.rest] <;> rfl

/-! ### Where mappers land -/

/-- The mapper `shown` is `m` as it was to be, or a new one that has its id and its parent. -/
def Foretold (s : Server) (f : String) (m shown : Component) : Prop :=
  shown = m ∨ ∃ k, s.components.get? k = none ∧ (m.id = none ∨ m.id = some k) ∧
    shown = { m with id := some k, parentId := some f }

theorem Foretold.name (h : Foretold s f m c) : c.nameOrEmpty = m.nameOrEmpty := by
  rcases h with rfl | ⟨k, -, -, rfl⟩ <;> rfl

/-- The mapper of the id `k` is what becomes of `m` when a plan changes the mappers of some ids. -/
def Lands (f : String) (plan : List Action) (ids : List String) (m : Component) (k : String) :
    Prop :=
  m.id = some k ∨ m.id = none ∧ (.create (m.withParent f), k) ∈ plan.zip ids

theorem Lands.unique (nodup : plan.Nodup) (h : Lands f plan ids m k) (h' : Lands f plan ids m k') :
    k = k' := by
  rcases h with hid | ⟨hid, hk⟩ <;> rcases h' with hid' | ⟨hid', hk'⟩
  · exact Option.some.inj (hid.symm.trans hid')
  · cases hid.symm.trans hid'
  · cases hid.symm.trans hid'
  · exact eq_of_mem_zip nodup hk hk'

/-- A plan for an existing federation that is carried out. -/
structure Planned (supply : Supply) (s u : Server) (f realm : String) (prune : Bool)
    (ds existing target : List Component) (ids : List String) : Prop where
  orderly : Orderly supply s
  declared : Declared supply s f realm ds
  visible : ∀ d ∈ ds, Visible d
  listing : existing.Perm (s.children f realm)
  ok : Mapper.target ds existing prune = .ok target
  carried : Carried supply f realm (planUpdate target existing f) ids s u
  /-- No mapper has an empty principal attribute. -/
  filled : ∀ k p values, s.mapper? f realm k = some p →
    p.configList? principalKey = some values → Filled values

namespace Planned

theorem distinct (h : Planned supply s u f realm prune ds existing target ids) :
    target.Pairwise Distinct := by
  obtain ⟨merged, resolved, rfl⟩ := target_eq_ok_iff.mp h.ok
  exact h.declared.target_distinct h.orderly.keyed h.listing resolved prune

theorem nodup (h : Planned supply s u f realm prune ds existing target ids) :
    (planUpdate target existing f).Nodup :=
  Action.nodup_of_apart (planUpdate_apart h.orderly.keyed h.listing h.distinct)

theorem left_alone (h : Planned supply s u f realm prune ds existing target ids) (hm : m ∈ target)
    (hid : m.id = some k) (idle : actionFor existing f m = none)
    (hp : s.mapper? f realm k = some p) : u.mapper? f realm k = some p := by
  rcases h.carried.kept_or_acted k with same | ⟨a, ha, acted⟩
  · exact same.trans hp
  · have member := (List.of_mem_zip ha).1
    rcases acted.named with ⟨given, -⟩ | ⟨-, new⟩
    · exact absurd given
        (planUpdate_leaves h.orderly.keyed h.listing h.distinct hm hid idle a member)
    · exact absurd (h.orderly.past_of_mapper? hp) new

/-- A mapper that an existing one is changed into lands in its place. -/
theorem landed_of_update (h : Planned supply s u f realm prune ds existing target ids)
    (hd : d ∈ ds) (refers : s.Refers f realm d k p)
    (planned : .update ((redact p).mergedWith d) ∈ planUpdate target existing f) :
    ∃ x, u.mapper? f realm k = some x ∧ redact x = (redact p).mergedWith d := by
  obtain ⟨k', hk'⟩ := h.carried.exists_id planned
  have acted := h.carried.acted hk'
  cases acted.id_eq (refers.merged_id h.orderly.keyed)
  obtain ⟨q, y, hq, stamped, hu⟩ := acted.does
  cases refers.1.symm.trans hq
  refine ⟨_, hu, ?_⟩
  have visible := h.visible d hd
  have parent : ((redact p).mergedWith d).parentId = some f := by
    change d.parentId.or p.parentId = some f
    rw [visible.parentId, Option.none_or, mapper?_parentId refers.1]
  have shown := redact_revised visible fun values hv => h.filled k p values refers.1 hv
  rw [stamped.eq (visible.not_federation _)]
  change { redact (revised p d) with parentId := some f } = _
  rw [shown, ← parent]

/-- A new mapper lands under its id, or one that was not given out yet. -/
theorem landed_of_create (h : Planned supply s u f realm prune ds existing target ids)
    (hd : d ∈ ds) (new : s.Unreferred f realm d)
    (planned : .create (d.withParent f) ∈ planUpdate target existing f) :
    ∃ k x, Lands f (planUpdate target existing f) ids d k ∧ u.mapper? f realm k = some x ∧
      Foretold s f d (redact x) := by
  obtain ⟨k, hk⟩ := h.carried.exists_id planned
  have acted := h.carried.acted hk
  obtain ⟨-, y, stamped, hu⟩ := acted.does
  have visible := h.visible d hd
  have other : (d.withParent f).providerType ≠ some federationType := by
    obtain ⟨t, ht, other⟩ := visible.type
    exact fun same => other (Option.some.inj (ht.symm.trans same))
  have given : d.id = none ∨ d.id = some k := acted.named.symm.imp And.left And.left
  have unstored : s.components.get? k = none := by
    rcases acted.named with ⟨given, -⟩ | ⟨-, fresh⟩
    · rcases h.declared.given d hd k given with there | ⟨-, none, -⟩
      · simp [new.1 k given] at there
      · exact none
    · exact h.orderly.get?_of_not_past fresh
  refine ⟨k, _, ?_, hu, .inr ⟨k, unstored, given, ?_⟩⟩
  · rcases given with none | some
    · exact .inr ⟨none, hk⟩
    · exact .inl some
  · rw [stamped.eq other]
    change { redact (settle none d) with id := some k, parentId := some f } = _
    rw [redact_settle_none visible]

/-- Each mapper to end up with lands somewhere. -/
theorem exists_landed (h : Planned supply s u f realm prune ds existing target ids)
    (hm : m ∈ target) : ∃ k x, Lands f (planUpdate target existing f) ids m k ∧
      u.mapper? f realm k = some x ∧ Foretold s f m (redact x) := by
  have keyed := h.orderly.keyed
  obtain ⟨merged, resolved, form⟩ := target_eq_ok_iff.mp h.ok
  rcases h.declared.of_mem_arranged keyed h.listing resolved (form ▸ hm) with
    ⟨d, hd, ⟨new, rfl⟩ | ⟨k, p, refers, rfl⟩⟩ | ⟨-, he⟩
  · have acted := actionFor_new keyed h.listing new
    exact h.landed_of_create hd new (mem_planUpdate.mpr (.inr ⟨m, hm, acted⟩))
  · have hid := refers.merged_id keyed
    have acted := actionFor_refers keyed h.listing refers
    by_cases same : (redact p).mergedWith d = redact p
    · rw [if_pos same] at acted
      exact ⟨k, p, .inl hid, h.left_alone hm hid acted refers.1, .inl same.symm⟩
    · rw [if_neg same] at acted
      obtain ⟨x, hx, shown⟩ :=
        h.landed_of_update hd refers (mem_planUpdate.mpr (.inr ⟨_, hm, acted⟩))
      exact ⟨k, x, .inl hid, hx, .inl shown⟩
  · obtain ⟨k, p, hp, rfl⟩ := (mem_listing h.listing).mp he
    have hid := keyed.shown_id hp
    exact ⟨k, p, .inl hid, h.left_alone hm hid (actionFor_existing he) hp, .inl rfl⟩

/-- Every mapper that is there in the end is what became of one to end up with. -/
theorem exists_of_landed (h : Planned supply s u f realm prune ds existing target ids)
    (hx : u.mapper? f realm k = some x) :
    ∃ m ∈ target, Lands f (planUpdate target existing f) ids m k := by
  have keyed := h.orderly.keyed
  rcases h.carried.kept_or_acted k with same | ⟨a, ha, acted⟩
  · by_contra none
    -- A mapper that is not one of these is deleted.
    have free : ∀ m ∈ target, m.id ≠ some k := fun m hm hid => none ⟨m, hm, .inl hid⟩
    have there : (s.mapper? f realm k).isSome := by
      rw [← same, hx]
      rfl
    obtain ⟨k', hk'⟩ :=
      h.carried.exists_id ((mem_planUpdate_delete keyed h.listing).mpr ⟨there, free⟩)
    have acted := h.carried.acted hk'
    cases acted.id_eq rfl
    cases acted.deleted.symm.trans hx
  · rcases mem_planUpdate.mp (List.of_mem_zip ha).1 with ⟨i, rfl, -⟩ | ⟨m, hm, made⟩
    · cases acted.deleted.symm.trans hx
    · refine ⟨m, hm, ?_⟩
      have named := acted.named
      rw [actionFor_id made] at named
      rcases named with ⟨given, -⟩ | ⟨none, fresh⟩
      · exact .inl given
      · rcases actionFor_eq_some made with rfl | rfl
        · obtain ⟨q, -, hq, -⟩ := acted.does
          exact absurd (h.orderly.past_of_mapper? hq) fresh
        · exact .inr ⟨none, ha⟩

/-- If the mappers to end up with have different names, they are shown one by one in the end. -/
theorem foretold (h : Planned supply s u f realm prune ds existing target ids)
    (names : target.Pairwise fun a b => a.nameOrEmpty ≠ b.nameOrEmpty) :
    List.Forall₂ (Foretold s f) target (sortByName (u.children f realm)) := by
  have keyed := h.carried.orderly.keyed
  have each : ∀ m ∈ target, ∃ c k x, Lands f (planUpdate target existing f) ids m k ∧
      u.mapper? f realm k = some x ∧ Foretold s f m (redact x) ∧ c = redact x := by
    intro m hm
    obtain ⟨k, x, lands, hx, told⟩ := h.exists_landed hm
    exact ⟨redact x, k, x, lands, hx, told, rfl⟩
  obtain ⟨shown, landed⟩ := exists_related each
  have told : List.Forall₂ (Foretold s f) target shown := by
    refine landed.imp ?_
    rintro m c ⟨k, x, -, -, told, rfl⟩
    exact told
  have sorted : target.Pairwise fun a b => a.nameOrEmpty ≤ b.nameOrEmpty := by
    obtain ⟨merged, -, rfl⟩ := target_eq_ok_iff.mp h.ok
    exact arranged_sorted existing merged prune
  have shown_sorted : shown.Pairwise fun a b => a.nameOrEmpty ≤ b.nameOrEmpty :=
    pairwise_of_related told sorted fun m _ m' _ c c' hc hc' le => by rwa [hc.name, hc'.name]
  have shown_names : shown.Pairwise fun a b => a.nameOrEmpty ≠ b.nameOrEmpty :=
    pairwise_of_related told names fun m _ m' _ c c' hc hc' ne => by rwa [hc.name, hc'.name]
  have nodup : shown.Nodup := shown_names.imp fun ne same => ne (by rw [same])
  have perm : shown.Perm (u.children f realm) := by
    have listed : (u.children f realm).Nodup := .of_map _ (keyed.children_nodup f realm)
    refine (List.perm_ext_iff_of_nodup nodup listed).mpr fun c => ?_
    rw [mem_children]
    constructor
    · intro hc
      obtain ⟨m, -, k, x, -, hx, -, rfl⟩ := exists_left_of_mem landed hc
      exact ⟨k, x, hx, rfl⟩
    · rintro ⟨k, x, hx, rfl⟩
      obtain ⟨m, hm, lands⟩ := h.exists_of_landed hx
      obtain ⟨c, hc, k', x', lands', hx', -, rfl⟩ := exists_right_of_mem landed hm
      cases lands.unique h.nodup lands'
      cases hx.symm.trans hx'
      exact hc
  have order := eq_of_sorted ((sortByName_perm _).trans perm.symm) (sortByName_sorted _)
    shown_sorted shown_names
  rwa [order]

end Planned

end UserFederation.Server
