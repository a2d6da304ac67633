import UserFederation.Proofs.Placement

/-! When the mappers of a federation are as declared, and what a plan makes of them then: nothing.
A plan that was carried out has brought them there (`Brought.fulfilled`), and laying the declared
mappers over such ones once more leads to the same mappers (`Fulfilled.target_perm`). -/

namespace UserFederation.Server

open Component Mapper

variable {supply : Supply} {s u : Server} {f realm k : String} {d p x : Component}
  {ds existing target : List Component} {prune : Bool}

/-- Each declared mapper is there as declared, each another one, and the others only if they are not
pruned. -/
structure Fulfilled (s : Server) (f realm : String) (prune : Bool) (ds : List Component) :
    Prop where
  there : ∀ d ∈ ds, ∃ k x, s.Refers f realm d k x ∧ (redact x).mergedWith d = redact x
  unshared : ∀ d ∈ ds, ∀ d' ∈ ds, ∀ k x, s.Refers f realm d k x → s.Refers f realm d' k x → d = d'
  swept : prune = true → ∀ k x, s.mapper? f realm k = some x → ∃ d ∈ ds, s.Refers f realm d k x

/-! ### What a plan has brought -/

/-- A declared mapper that can be seen to be there: it is no federation, and what it sets is
shown. -/
structure Visible (d : Component) : Prop where
  type : ∃ t, d.providerType = some t ∧ t ≠ federationType
  parentId : d.parentId = none
  credential : d.configList? bindCredentialKey = none
  principal : ∀ values, d.configList? principalKey = some values → Filled values

/-- A declared mapper that has its place changes nothing when it is laid over it once more. -/
theorem Placed.absorbs (h : Placed supply s f realm d k x) (visible : Visible d)
    (hid : x.id = some k) : (redact x).mergedWith d = redact x := by
  obtain ⟨t, ht, mapper⟩ := visible.type
  have type : ∀ base : Component, (base.mergedWith d).providerType ≠ some federationType := by
    intro base
    change d.providerType.or _ ≠ _
    rw [ht, Option.some_or]
    exact fun same => mapper (Option.some.inj same)
  have given : d.id = none ∨ d.id = some k → d.id.or x.id = x.id := by
    rintro (none | some)
    · rw [none, Option.none_or]
    · rw [some, hid, Option.some_or]
  have parent : d.parentId.or x.parentId = x.parentId := by rw [visible.parentId, Option.none_or]
  cases h with
  | kept _ same => exact same
  | @revised p y refers stamped form =>
    have hy := stamped.eq (type _)
    refine mergedWith_redact_settled (some p) (redact p) ?_ (given ?_) parent
      visible.credential visible.principal
    · rw [form, hy]
    · exact refers.2.symm.imp And.left fun h => h
  | @created base y _ _ how stamped form =>
    have hy := stamped.eq (type _)
    refine mergedWith_redact_settled none base ?_ (given ?_) parent
      visible.credential visible.principal
    · rw [form, hy]
    · exact how.symm.imp And.left fun h => h

/-- A declared mapper without an id that has its place refers to any mapper that had its name. -/
theorem Placed.refers_of_name (h : Placed supply s f realm d k x) (unnamed : d.id = none)
    (named : d.name.isSome) {k' : String} (hp : s.mapper? f realm k' = some p)
    (hn : p.name = d.name) : s.Refers f realm d k' p := by
  rcases h.refers_or with ⟨p', refers⟩ | ⟨new, -⟩
  · obtain ⟨there, given | ⟨-, -, -, only⟩⟩ := refers
    · cases unnamed.symm.trans given
    · refine ⟨hp, .inr ⟨unnamed, named, hn, fun j q hq same => ?_⟩⟩
      exact (only j q hq same).trans (only k' p hp hn).symm
  · exact absurd hn (new.2 unnamed named k' p hp)

/-- No two declared mappers are placed under one name. -/
theorem Placed.eq_of_name (declared : Declared supply s f realm ds) (hd : d ∈ ds)
    (h : Placed supply s f realm d k x) (unnamed : d.id = none) {d' q : Component} {k' : String}
    (hd' : d' ∈ ds) (h' : Placed supply s f realm d' k' q) (same : q.name = d.name) : d = d' := by
  have named := declared.identified d hd unnamed
  cases hn : d'.name with
  | some n =>
    have there : d'.name.isSome := by simp [hn]
    exact declared.names d hd d' hd' named (same.symm.trans (h'.name there))
  | none =>
    rcases h'.name_of_none hn with none | ⟨p, refers, before⟩
    · simp [← same, none] at named
    · have refers' := h.refers_of_name unnamed named refers.1 (before.trans same)
      exact declared.unshared d hd d' hd' k' p refers' refers

/-- A declared mapper refers to what was placed for it. -/
theorem Brought.refers (brought : Brought supply s u f realm prune ds)
    (declared : Declared supply s f realm ds) (hd : d ∈ ds) (hx : u.mapper? f realm k = some x)
    (placed : Placed supply s f realm d k x) : u.Refers f realm d k x := by
  refine ⟨hx, ?_⟩
  cases hid : d.id with
  | some i =>
    refine .inl ?_
    rcases placed.refers_or with ⟨p, -, given | ⟨none, -⟩⟩ | ⟨-, given | ⟨none, -⟩⟩
    · exact hid.symm.trans given
    · cases hid.symm.trans none
    · exact hid.symm.trans given
    · cases hid.symm.trans none
  | none =>
    have named := declared.identified d hd hid
    refine .inr ⟨rfl, named, placed.name named, fun k' q hq same => ?_⟩
    rcases brought.origin k' q hq with ⟨d', hd', placed'⟩ | ⟨-, before, free⟩
    · cases placed.eq_of_name declared hd hid hd' placed' same
      exact brought.once d hd k' q k x hq placed' hx placed
    · exact absurd (placed.refers_of_name hid named before same) (free d hd)

/-- A plan that was carried out leaves the mappers as declared. -/
theorem Brought.fulfilled (brought : Brought supply s u f realm prune ds)
    (declared : Declared supply s f realm ds) (keyed : u.Keyed) (visible : ∀ d ∈ ds, Visible d) :
    Fulfilled u f realm prune ds := by
  -- What a declared mapper refers to afterwards is what was placed for it.
  have place : ∀ d ∈ ds, ∀ k x, u.Refers f realm d k x → Placed supply s f realm d k x := by
    intro d hd k x refers
    obtain ⟨k', x', hx', placed⟩ := brought.placed d hd
    obtain ⟨rfl, rfl⟩ := refers.unique (brought.refers declared hd hx' placed)
    exact placed
  refine ⟨fun d hd => ?_, fun d hd d' hd' k x refers refers' => ?_, fun hprune k x hx => ?_⟩
  · obtain ⟨k, x, hx, placed⟩ := brought.placed d hd
    exact ⟨k, x, brought.refers declared hd hx placed,
      placed.absorbs (visible d hd) (keyed.mapper?_id hx)⟩
  · have placed := place d hd k x refers
    have placed' := place d' hd' k x refers'
    rcases refers.2 with hid | ⟨hid, -, same, -⟩ <;> rcases refers'.2 with hid' | ⟨hid', -, same', -⟩
    · exact declared.ids d hd d' hd' k hid hid'
    · exact (placed'.eq_of_name declared hd' hid' hd placed same').symm
    · exact placed.eq_of_name declared hd hid hd' placed' same
    · exact placed.eq_of_name declared hd hid hd' placed' same
  · rcases brought.origin k x hx with ⟨d, hd, placed⟩ | ⟨none, -⟩
    · exact ⟨d, hd, brought.refers declared hd hx placed⟩
    · cases hprune.symm.trans none

/-! ### Once more -/

/-- Each declared mapper is merged into the one that it refers to, and none is left out if mappers
are pruned. -/
theorem Fulfilled.exists_merged (h : Fulfilled s f realm prune ds) (keyed : s.Keyed)
    (nodup : ds.Nodup) (listing : existing.Perm (s.children f realm)) :
    ∃ merged, List.Forall₂ (fun d m => resolve existing d = .ok m) ds merged ∧ merged.Nodup ∧
      merged ⊆ existing ∧ (prune = true → existing ⊆ merged) := by
  have each : ∀ d ∈ ds, ∃ m, resolve existing d = .ok m ∧
      ∃ k x, s.Refers f realm d k x ∧ m = redact x := by
    intro d hd
    obtain ⟨k, x, refers, same⟩ := h.there d hd
    refine ⟨redact x, ?_, k, x, refers, rfl⟩
    exact resolve_eq_ok_iff.mpr ⟨_, refers.referent? keyed listing, same⟩
  obtain ⟨merged, resolved⟩ := exists_related each
  refine ⟨merged, resolved.imp fun _ _ => And.left, ?_, fun m hm => ?_, fun hprune m hm => ?_⟩
  · refine pairwise_of_related resolved nodup ?_
    rintro d hd d' hd' _ _ ⟨-, k, x, refers, rfl⟩ ⟨-, k', x', refers', rfl⟩ ne same
    have ids : (redact x).id = (redact x').id := by rw [same]
    rw [keyed.shown_id refers.1, keyed.shown_id refers'.1, Option.some.injEq] at ids
    subst ids
    cases refers.1.symm.trans refers'.1
    exact ne (h.unshared d hd d' hd' k x refers refers')
  · obtain ⟨d, -, -, k, x, refers, rfl⟩ := exists_left_of_mem resolved hm
    exact (mem_listing listing).mpr ⟨k, x, refers.1, rfl⟩
  · obtain ⟨k, x, hx, rfl⟩ := (mem_listing listing).mp hm
    obtain ⟨d, hd, refers⟩ := h.swept hprune k x hx
    obtain ⟨m, hm, -, k', x', refers', rfl⟩ := exists_right_of_mem resolved hd
    obtain ⟨rfl, rfl⟩ := refers.unique refers'
    exact hm

/-- Laying the declared mappers over those that are as declared leads to the same mappers. -/
theorem Fulfilled.target_perm (h : Fulfilled s f realm prune ds) (keyed : s.Keyed)
    (nodup : ds.Nodup) (listing : existing.Perm (s.children f realm)) :
    ∃ target, Mapper.target ds existing prune = .ok target ∧ target.Perm existing ∧
      target.Pairwise fun a b => a.nameOrEmpty ≤ b.nameOrEmpty := by
  obtain ⟨merged, resolved, distinct, sub, all⟩ := h.exists_merged keyed nodup listing
  have nodup' := keyed.listing_nodup listing
  have existing_nodup : existing.Nodup := .of_map _ nodup'
  refine ⟨arranged existing merged prune, target_eq_ok_iff.mpr ⟨merged, resolved, rfl⟩, ?_,
    arranged_sorted existing merged prune⟩
  refine (arranged_perm existing merged prune).trans ?_
  cases prune with
  | true =>
    rw [if_pos rfl, List.append_nil, List.perm_ext_iff_of_nodup distinct existing_nodup]
    exact fun m => ⟨fun hm => sub hm, fun hm => all rfl hm⟩
  | false =>
    have identified : ∀ b ∈ existing, b.id.isSome := by
      intro b hb
      obtain ⟨k, x, hx, rfl⟩ := (mem_listing listing).mp hb
      rw [keyed.shown_id hx]
      rfl
    exact perm_append_filter distinct existing_nodup sub fun m =>
      unlisted_iff identified nodup' sub

/-- If no two mappers share a name, these are the mappers in the same order. -/
theorem Fulfilled.target_eq (h : Fulfilled s f realm prune ds) (keyed : s.Keyed) (nodup : ds.Nodup)
    (listing : existing.Perm (s.children f realm))
    (sorted : existing.Pairwise fun a b => a.nameOrEmpty ≤ b.nameOrEmpty)
    (names : existing.Pairwise fun a b => a.nameOrEmpty ≠ b.nameOrEmpty) :
    Mapper.target ds existing prune = .ok existing := by
  obtain ⟨target, ok, perm, ordered⟩ := h.target_perm keyed nodup listing
  rw [ok, eq_of_sorted perm ordered sorted names]

/-- Nothing is planned for mappers that count as the same, in whatever order. -/
theorem planUpdate_eq_nil_of_canonical
    (same : (target.map canonical).Perm (existing.map canonical)) :
    planUpdate target existing f = [] := by
  have kept : (existing.filterMap (·.id)).filter (!(target.filterMap (·.id)).contains ·) = [] := by
    refine List.filter_eq_nil_iff.mpr fun i hi => ?_
    obtain ⟨e, he, hid⟩ := List.mem_filterMap.mp hi
    obtain ⟨m, hm, alike⟩ := List.mem_map.mp (same.mem_iff.mpr (List.mem_map_of_mem he))
    have listed : i ∈ target.filterMap (·.id) :=
      List.mem_filterMap.mpr ⟨m, hm, (Same.id alike).trans hid⟩
    simp [listed]
  have idle : target.filterMap (actionFor existing f) = [] := by
    refine List.filterMap_eq_nil_iff.mpr fun m hm => ?_
    obtain ⟨e, he, alike⟩ := List.mem_map.mp (same.mem_iff.mp (List.mem_map_of_mem hm))
    exact actionFor_same he alike
  simp only [planUpdate, kept, idle, List.map_nil, List.append_eq, List.append_nil]

/-- Nothing is planned for mappers that stay the same. -/
theorem planUpdate_eq_nil (perm : target.Perm existing) : planUpdate target existing f = [] :=
  planUpdate_eq_nil_of_canonical (perm.map _)

end UserFederation.Server
