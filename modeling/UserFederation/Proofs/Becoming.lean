import UserFederation.Proofs.Fulfilment

/-! What the mappers of a federation become, up to their ids. Each declared mapper has one result,
which depends only on the mapper that it refers to at first (`becomes`), and laying it over that
result once more changes nothing (`Shaped.again`). So it does not matter for the end where a plan
breaks off, if a new plan is made there and carried out (`Toward.reached`). -/

namespace UserFederation.Server

open Component Mapper

variable {supply : Supply} {s t u v w : Server} {f realm k : String} {c d p x y : Component}
  {o : Option Component} {ds existing target : List Component} {prune : Bool}
  {plan before : List Action} {ids : List String}

/-! ### Declared mappers that are known by their names -/

/-- Declared mappers that give no ids and no two of which share a name. -/
structure ByName (ds : List Component) : Prop where
  id : ∀ d ∈ ds, d.id = none
  parentId : ∀ d ∈ ds, d.parentId = none
  type : ∀ d ∈ ds, d.providerType.isSome
  extra : ∀ d ∈ ds, d.extra = .empty
  name : ∀ d ∈ ds, d.name.isSome
  names : ∀ d ∈ ds, ∀ d' ∈ ds, d.name = d'.name → d = d'
  nodup : ds.Nodup

theorem ByName.declared (h : ByName ds) (supply : Supply) (s : Server) (f realm : String) :
    Declared supply s f realm ds where
  extra := h.extra
  parentId := h.parentId
  identified d hd _ := h.name d hd
  nodup := h.nodup
  ids d hd _ _ i hi _ := by cases (h.id d hd).symm.trans hi
  names d hd d' hd' _ := h.names d hd d' hd'
  unshared d hd d' hd' k p refers refers' := by
    refine h.names d hd d' hd' ?_
    exact (refers.merged_name (h.id d hd)).symm.trans (refers'.merged_name (h.id d' hd'))
  given d hd i hi := by cases (h.id d hd).symm.trans hi

/-- What a declared mapper is about: the mapper that it refers to, or none. -/
inductive About (s : Server) (f realm : String) (d : Component) : Option Component → Prop
  | found {k : String} {p : Component} (refers : s.Refers f realm d k p) :
    About s f realm d (some p)
  | missing (new : s.Unreferred f realm d) : About s f realm d none

theorem About.unique {o' : Option Component} (h : s.About f realm d o)
    (h' : s.About f realm d o') : o = o' := by
  cases h with
  | found refers =>
    cases h' with
    | found refers' => rw [(refers.unique refers').2]
    | missing new => exact absurd refers new.not_refers
  | missing new =>
    cases h' with
    | found refers => exact absurd refers new.not_refers
    | missing => rfl

/-- A declared mapper that is about something can be resolved. -/
theorem About.resolve_ok (h : s.About f realm d o) (keyed : s.Keyed)
    (listing : existing.Perm (s.children f realm)) : ∃ m, resolve existing d = .ok m := by
  cases h with
  | found refers => exact ⟨_, resolve_eq_ok_iff.mpr ⟨_, refers.referent? keyed listing, rfl⟩⟩
  | missing new => exact ⟨_, resolve_eq_ok_iff.mpr ⟨_, new.referent? keyed listing, rfl⟩⟩

theorem Reason.about {a : Action} (h : s.Reason f realm d a) : ∃ o, s.About f realm d o := by
  cases h with
  | update refers => exact ⟨_, .found refers⟩
  | create new => exact ⟨_, .missing new⟩

/-- Declared mappers that a plan serves can be told apart. -/
theorem Serves.about (serves : s.Serves f realm prune ds plan) (hd : d ∈ ds) :
    ∃ o, s.About f realm d o := by
  rcases serves.complete d hd with ⟨a, -, reason⟩ | ⟨k, p, refers, -⟩
  · exact reason.about
  · exact ⟨_, .found refers⟩

/-! ### What a declared mapper becomes -/

/-- What a declared mapper becomes that is about a mapper, or about none. -/
def becomes (d : Component) : Option Component → Component
  | none => settle none d
  | some p => if (redact p).mergedWith d = redact p then p else revised p d

/-- Mappers that already are as declared are left alone by a plan, or lose nothing when they are
accepted once more. -/
def Spares (s : Server) (f realm : String) (ds : List Component) (plan : List Action) : Prop :=
  ∀ d ∈ ds, ∀ k p, s.Refers f realm d k p → (redact p).mergedWith d = redact p →
    (∀ a ∈ plan, a.id? ≠ some k) ∨ settle (some p) (redact p) = p

/-- A mapper that has the settings of what `d` becomes; one that is not changed is the same. -/
structure Shaped (d : Component) (o : Option Component) (x : Component) : Prop where
  alike : Alike x (becomes d o)
  same : ∀ p, o = some p → (redact p).mergedWith d = redact p →
    x = p ∨ settle (some p) (redact p) = p

theorem becomes_of_same (h : (redact p).mergedWith d = redact p) : becomes d (some p) = p :=
  if_pos h

theorem becomes_of_ne (h : (redact p).mergedWith d ≠ redact p) :
    becomes d (some p) = revised p d := if_neg h

/-- What was created for a declared mapper does not change when that is laid over it. -/
theorem revised_settle_alike : Alike (revised (settle none d) d) (settle none d) := by
  refine alike_of ?_ ?_ ?_ ?_ fun key _ => ?_
  · change d.name.or d.name = d.name
    exact Option.or_self
  · change d.providerId.or d.providerId = d.providerId
    exact Option.or_self
  · change d.providerType.or d.providerType = d.providerType
    exact Option.or_self
  · rw [isSome_config_revised, isSome_config_settle, Bool.or_self]
  · rw [configList?_revised, configList?_settle, revisedList]
    by_cases hp : key = principalKey
    · simp only [hp, if_true]
      cases hv : d.configList? principalKey with
      | none => rfl
      | some values => simp
    · by_cases hb : key = bindCredentialKey
      · subst hb
        simp only [principalKey_ne_bindCredentialKey.symm, if_false, if_true, true_and]
        split
        · rfl
        · exact Option.or_self
      · simp [hp, hb]

theorem providerType_revised (type : d.providerType.isSome) :
    (revised p d).providerType = d.providerType := by
  obtain ⟨t, ht⟩ := Option.isSome_iff_exists.mp type
  change d.providerType.or p.providerType = d.providerType
  rw [ht, Option.some_or]

theorem providerType_of_same (type : d.providerType.isSome)
    (h : (redact p).mergedWith d = redact p) : p.providerType = d.providerType := by
  have same : ((redact p).mergedWith d).providerType = p.providerType := by rw [h]; rfl
  exact same.symm.trans (providerType_revised type)

/-- Laying a declared mapper over its result once more leads to the same settings. -/
theorem Shaped.again (h : Shaped d o x) (type : d.providerType.isSome) :
    Alike (becomes d (some x)) (becomes d o) := by
  obtain ⟨alike, unchanged⟩ := h
  by_cases hx : (redact x).mergedWith d = redact x
  · rw [becomes_of_same hx]
    exact alike
  · rw [becomes_of_ne hx]
    cases o with
    | none =>
      have laid : Alike (revised x d) (revised (settle none d) d) :=
        revised_alike alike alike.providerType
      exact laid.trans revised_settle_alike
    | some p =>
      by_cases hp : (redact p).mergedWith d = redact p
      · rw [becomes_of_same hp] at alike ⊢
        rcases unchanged p rfl hp with rfl | settled
        · exact absurd hp hx
        · have laid : Alike (revised x d) (revised p d) :=
            revised_alike alike (alike.providerType.trans (providerType_of_same type hp))
          rwa [show revised p d = p by rw [revised, hp, settled]] at laid
      · rw [becomes_of_ne hp] at alike ⊢
        have laid : Alike (revised x d) (revised (revised p d) d) :=
          revised_alike alike (alike.providerType.trans (providerType_revised type))
        exact laid.trans revised_revised_alike

/-- What a part of a plan has put in the place of a declared mapper has the settings that this
becomes. -/
theorem Placed.shaped (placed : Placed supply s f realm d k x) (byName : ByName ds) (hd : d ∈ ds)
    (spares : s.Spares f realm ds plan) (part : ∀ a ∈ before, a ∈ plan)
    (o : Orderly supply s) (carried : Carried supply f realm before ids s v)
    (hx : v.mapper? f realm k = some x) : ∃ o, s.About f realm d o ∧ Shaped d o x := by
  cases placed with
  | kept refers same =>
    refine ⟨_, .found refers, ?_, fun q hq _ => ?_⟩
    · rw [becomes_of_same same]
      exact .refl x
    · cases hq
      exact .inl rfl
  | @revised p y refers stamped form =>
    refine ⟨_, .found refers, ?_⟩
    have alike : Alike x (Server.revised p d) := by
      rw [form]
      exact stamped.alike
    by_cases same : (redact p).mergedWith d = redact p
    · rcases spares d hd k p refers same with idle | settled
      · -- No action is about the mapper, so it is the one that it was.
        have kept : v.mapper? f realm k = s.mapper? f realm k := by
          refine (carried.kept_or_acted k).resolve_right ?_
          rintro ⟨a, ha, ⟨given, -⟩ | ⟨-, new⟩, -⟩
          · exact idle a (part a (List.of_mem_zip ha).1) given
          · exact new (o.past_of_mapper? refers.1)
        have unchanged : x = p := Option.some.inj (hx.symm.trans (kept.trans refers.1))
        refine ⟨?_, fun q hq _ => ?_⟩
        · rw [becomes_of_same same, unchanged]
          exact .refl p
        · cases hq
          exact .inl unchanged
      · refine ⟨?_, fun q hq _ => ?_⟩
        · rw [becomes_of_same same]
          rwa [show Server.revised p d = p by rw [Server.revised, same, settled]] at alike
        · cases hq
          exact .inr settled
    · refine ⟨?_, fun q hq absorbs => ?_⟩
      · rw [becomes_of_ne same]
        exact alike
      · cases hq
        exact absurd absorbs same
  | @created base y new ground _ stamped form =>
    refine ⟨_, .missing new, ?_, fun q hq => by cases hq⟩
    have bare : base = {} := by
      rcases ground with h | ⟨given, -⟩
      · exact h
      · simp [byName.id d hd] at given
    rw [bare, Component.empty_mergedWith (byName.extra d hd)] at stamped
    rw [form]
    exact stamped.alike

/-! ### On the way, and at the end -/

/-- A server to which a part of a plan has led: a declared mapper still is about what it was about,
or about its result; what is not declared is the same if it is not pruned. -/
structure Toward (s v : Server) (f realm : String) (prune : Bool) (ds : List Component) : Prop where
  each : ∀ d ∈ ds, ∃ o, s.About f realm d o ∧
    (v.About f realm d o ∨ ∃ x, v.About f realm d (some x) ∧ Shaped d o x)
  rest : prune = false → ∀ k x, (∀ d ∈ ds, x.name ≠ d.name) →
    (v.mapper? f realm k = some x ↔ s.mapper? f realm k = some x)

/-- A server to which a whole plan has led: each declared mapper has its result, and what is not
declared is the same, or gone if it is pruned. -/
structure Reached (s t : Server) (f realm : String) (prune : Bool) (ds : List Component) :
    Prop where
  each : ∀ d ∈ ds, ∃ o k x, s.About f realm d o ∧ t.Refers f realm d k x ∧
    Alike x (becomes d o)
  rest : ∀ k x, (∀ d ∈ ds, x.name ≠ d.name) →
    (t.mapper? f realm k = some x ↔ prune = false ∧ s.mapper? f realm k = some x)

/-- What is placed for another declared mapper has another name. -/
theorem Placed.eq_of_named (placed : Placed supply s f realm d k x) (byName : ByName ds)
    (hd : d ∈ ds) {d' : Component} (hd' : d' ∈ ds) (named : x.name = d'.name) : d = d' :=
  byName.names d hd d' hd' ((placed.name (byName.name d hd)).symm.trans named)

/-- A declared mapper refers to what has been placed for it. -/
theorem Underway.refers (underway : Underway supply s v f realm prune ds) (byName : ByName ds)
    (hd : d ∈ ds) (hx : v.mapper? f realm k = some x) (placed : Placed supply s f realm d k x) :
    v.Refers f realm d k x := by
  have unnamed := byName.id d hd
  have named := byName.name d hd
  refine ⟨hx, .inr ⟨unnamed, named, placed.name named, fun k' q hq same => ?_⟩⟩
  rcases underway.origin k' q hq with there | ⟨d', hd', placed'⟩
  · have refers := placed.refers_of_name unnamed named there same
    rcases placed.refers_or with ⟨p, refers'⟩ | ⟨new, -⟩
    · exact (refers.unique refers').1
    · exact absurd refers new.not_refers
  · cases placed'.eq_of_named byName hd' hd same
    exact underway.once d hd k' q k x hq placed' hx placed

/-- What is not declared is not changed on the way, if it is not pruned. -/
theorem Underway.rest_iff (underway : Underway supply s v f realm prune ds) (byName : ByName ds)
    (kept : prune = false) (free : ∀ d ∈ ds, x.name ≠ d.name) :
    v.mapper? f realm k = some x ↔ s.mapper? f realm k = some x := by
  constructor
  · intro hx
    rcases underway.origin k x hx with there | ⟨d, hd, placed⟩
    · exact there
    · exact absurd (placed.name (byName.name d hd)) (free d hd)
  · intro hx
    refine underway.rest kept byName.id k x hx fun d hd refers => ?_
    exact free d hd (refers.merged_name (byName.id d hd))

/-- A part of a plan leads towards its end. -/
theorem Serves.toward (serves : s.Serves f realm prune ds plan) (o : Orderly supply s)
    (byName : ByName ds) (spares : s.Spares f realm ds plan) {after : List Action}
    (parts : plan = before ++ after) (carried : Carried supply f realm before ids s v) :
    Toward s v f realm prune ds := by
  have declared := byName.declared supply s f realm
  have underway := serves.underway o declared parts carried
  refine ⟨fun d hd => ?_, fun kept k x free => underway.rest_iff byName kept free⟩
  have unnamed := byName.id d hd
  have named := byName.name d hd
  by_cases there : ∃ k x, v.mapper? f realm k = some x ∧ Placed supply s f realm d k x
  · obtain ⟨k, x, hx, placed⟩ := there
    have part : ∀ a ∈ before, a ∈ plan := fun a ha => parts ▸ List.mem_append_left _ ha
    obtain ⟨about, ho, shaped⟩ := placed.shaped byName hd spares part o carried hx
    exact ⟨about, ho, .inr ⟨x, .found (underway.refers byName hd hx placed), shaped⟩⟩
  · -- No mapper of the name has come about.
    have waiting := (underway.forward d hd).resolve_left there
    have old : ∀ k q, v.mapper? f realm k = some q → q.name = d.name →
        s.mapper? f realm k = some q := by
      intro k q hq same
      rcases underway.origin k q hq with before | ⟨d', hd', placed⟩
      · exact before
      · cases placed.eq_of_named byName hd' hd same
        exact absurd ⟨k, q, hq, placed⟩ there
    obtain ⟨about, ho⟩ := serves.about hd
    refine ⟨about, ho, .inl ?_⟩
    cases ho with
    | @found k p refers =>
      refine .found (k := k) ⟨waiting k p refers, .inr ⟨unnamed, named,
        refers.merged_name unnamed, fun k' q hq same => ?_⟩⟩
      rcases refers.2 with given | ⟨-, -, -, only⟩
      · cases unnamed.symm.trans given
      · exact only k' q (old k' q hq same) same
    | missing new =>
      refine .missing ⟨fun i hi => ?_, fun _ _ k q hq same => ?_⟩
      · cases unnamed.symm.trans hi
      · exact new.2 unnamed named k q (old k q hq same) same

/-- On the way, the declared mappers can still be told apart. -/
theorem Toward.target_ok (toward : Toward s v f realm prune ds) (keyed : v.Keyed)
    (listing : existing.Perm (v.children f realm)) (prune' : Bool) :
    ∃ target, Mapper.target ds existing prune' = .ok target := by
  have each : ∀ d ∈ ds, ∃ m, resolve existing d = .ok m := by
    intro d hd
    obtain ⟨o, -, about | ⟨x, about, -⟩⟩ := toward.each d hd
    · exact about.resolve_ok keyed listing
    · exact about.resolve_ok keyed listing
  obtain ⟨merged, resolved⟩ := exists_related each
  exact ⟨_, target_eq_ok_iff.mpr ⟨merged, resolved, rfl⟩⟩

/-- A whole plan leads to its end. -/
theorem Serves.reached (serves : s.Serves f realm prune ds plan) (o : Orderly supply s)
    (byName : ByName ds) (spares : s.Spares f realm ds plan)
    (carried : Carried supply f realm plan ids s t) : Reached s t f realm prune ds := by
  have declared := byName.declared supply s f realm
  have parts : plan = plan ++ [] := (List.append_nil plan).symm
  have underway := serves.underway o declared parts carried
  have brought := serves.brought o declared carried
  refine ⟨fun d hd => ?_, fun k x free => ⟨fun hx => ?_, fun ⟨kept, hx⟩ => ?_⟩⟩
  · obtain ⟨k, x, hx, placed⟩ := brought.placed d hd
    obtain ⟨about, ho, shaped⟩ := placed.shaped byName hd spares (fun a ha => ha) o carried hx
    exact ⟨about, k, x, ho, brought.refers declared hd hx placed, shaped.alike⟩
  · rcases brought.origin k x hx with ⟨d, hd, placed⟩ | ⟨kept, before, -⟩
    · exact absurd (placed.name (byName.name d hd)) (free d hd)
    · exact ⟨kept, before⟩
  · exact (underway.rest_iff byName kept free).mpr hx

/-- A new plan that is carried out from where an old one broke off leads to the same end. -/
theorem Toward.reached (toward : Toward s v f realm prune ds)
    (type : ∀ d ∈ ds, d.providerType.isSome) (reached : Reached v t f realm prune ds) :
    Reached s t f realm prune ds := by
  refine ⟨fun d hd => ?_, fun k x free => ?_⟩
  · obtain ⟨o, ho, how⟩ := toward.each d hd
    obtain ⟨o', k, x, ho', refers, alike⟩ := reached.each d hd
    refine ⟨o, k, x, ho, refers, ?_⟩
    rcases how with same | ⟨q, hq, shaped⟩
    · rwa [ho'.unique same] at alike
    · rw [ho'.unique hq] at alike
      exact alike.trans (shaped.again (type d hd))
  · rw [reached.rest k x free]
    exact and_congr_right fun kept => toward.rest kept k x free

/-- Where a plan starts makes no difference as long as the mappers are the same. -/
theorem Reached.congr (h : Reached s t f realm prune ds)
    (same : ∀ k, v.mapper? f realm k = s.mapper? f realm k) : Reached v t f realm prune ds := by
  have about : ∀ {d o}, s.About f realm d o → v.About f realm d o := by
    intro d o ho
    cases ho with
    | found refers => exact .found (by simpa only [Refers, same] using refers)
    | missing new => exact .missing (by simpa only [Unreferred, same] using new)
  refine ⟨fun d hd => ?_, fun k x free => ?_⟩
  · obtain ⟨o, k, x, ho, rest⟩ := h.each d hd
    exact ⟨o, k, x, about ho, rest⟩
  · rw [same]
    exact h.rest k x free

/-! ### The same settings -/

/-- What is not declared is shown as it was, unless mappers are pruned. -/
theorem Reached.undeclared (h : Reached s t f realm prune ds) (keyed : s.Keyed)
    (keyed' : t.Keyed) :
    ((t.children f realm).filter fun c => ∀ d ∈ ds, c.name ≠ d.name).Perm
      (if prune then [] else (s.children f realm).filter fun c => ∀ d ∈ ds, c.name ≠ d.name) := by
  have nodup : ∀ {v : Server}, v.Keyed →
      ((v.children f realm).filter fun c => ∀ d ∈ ds, c.name ≠ d.name).Nodup :=
    fun keyed => (List.Nodup.of_map _ (keyed.children_nodup f realm)).filter _
  cases prune with
  | true =>
    rw [if_pos rfl, List.perm_nil, List.filter_eq_nil_iff]
    intro c hc free
    obtain ⟨k, x, hx, rfl⟩ := mem_children.mp hc
    cases ((h.rest k x (of_decide_eq_true free)).mp hx).1
  | false =>
    refine (List.perm_ext_iff_of_nodup (nodup keyed') (nodup keyed)).mpr fun c => ?_
    simp only [List.mem_filter, mem_children, decide_eq_true_eq]
    refine and_congr_left fun free => exists_congr fun k => exists_congr fun x => ?_
    refine and_congr_left ?_
    rintro rfl
    exact (h.rest k x free).trans (and_iff_right rfl)

/-- What is shown of the mappers of a federation is the results of the declared ones and what is not
declared. -/
theorem Reached.listing (h : Reached s t f realm prune ds) (byName : ByName ds)
    (keyed : s.Keyed) (keyed' : t.Keyed) :
    ∃ xs, List.Forall₂ (fun d x => ∃ o, s.About f realm d o ∧ Alike x (becomes d o)) ds xs ∧
      (t.children f realm).Perm (xs.map redact ++ if prune then [] else
        (s.children f realm).filter fun c => ∀ d ∈ ds, c.name ≠ d.name) := by
  have each : ∀ d ∈ ds, ∃ x, (∃ o, s.About f realm d o ∧ Alike x (becomes d o)) ∧
      x.name = d.name ∧ ∃ k, t.Refers f realm d k x := by
    intro d hd
    obtain ⟨o, k, x, ho, refers, alike⟩ := h.each d hd
    exact ⟨x, ⟨o, ho, alike⟩, refers.merged_name (byName.id d hd), k, refers⟩
  obtain ⟨xs, related⟩ := exists_related each
  refine ⟨xs, related.imp fun _ _ => And.left, ?_⟩
  have distinct : (xs.map redact).Nodup := by
    refine List.Nodup.of_map Component.name ?_
    rw [List.map_map]
    refine List.pairwise_map.mpr (pairwise_of_related related byName.nodup ?_)
    rintro d hd d' hd' x x' ⟨-, named, -⟩ ⟨-, named', -⟩ ne same
    exact ne (byName.names d hd d' hd' (named.symm.trans (same.trans named')))
  have shown : xs.map redact ⊆ t.children f realm := by
    intro c hc
    obtain ⟨x, hx, rfl⟩ := List.mem_map.mp hc
    obtain ⟨d, -, -, -, k, refers⟩ := exists_left_of_mem related hx
    exact mem_children.mpr ⟨k, x, refers.1, rfl⟩
  -- What is shown under a declared name is the result for it.
  have free : ∀ c ∈ t.children f realm,
      decide (∀ d ∈ ds, c.name ≠ d.name) = true ↔ c ∉ xs.map redact := by
    intro c hc
    rw [decide_eq_true_eq]
    constructor
    · intro free own
      obtain ⟨x, hx, rfl⟩ := List.mem_map.mp own
      obtain ⟨d, hd, -, named, -⟩ := exists_left_of_mem related hx
      exact free d hd named
    · intro other d hd same
      obtain ⟨k, x, hx, rfl⟩ := mem_children.mp hc
      obtain ⟨x', hx', -, -, k', there, given | ⟨-, -, -, only⟩⟩ := exists_right_of_mem related hd
      · cases (byName.id d hd).symm.trans given
      · cases only k x hx same
        cases hx.symm.trans there
        exact other (List.mem_map_of_mem hx')
  have nodup : (t.children f realm).Nodup := .of_map _ (keyed'.children_nodup f realm)
  have parts := perm_append_filter distinct nodup shown free
  exact parts.symm.trans ((h.undeclared keyed keyed').append_left _)

/-- Two ways that lead to the end lead to mappers with the same settings. -/
theorem Reached.settings_perm (h : Reached s t f realm prune ds)
    (h' : Reached s u f realm prune ds) (byName : ByName ds) (keyed : s.Keyed) (keyed₁ : t.Keyed)
    (keyed₂ : u.Keyed) :
    ((t.children f realm).map settings).Perm ((u.children f realm).map settings) := by
  obtain ⟨xs, shaped, listed⟩ := h.listing byName keyed keyed₁
  obtain ⟨ys, shaped', listed'⟩ := h'.listing byName keyed keyed₂
  have same : (xs.map redact).map settings = (ys.map redact).map settings := by
    clear h h' byName listed listed'
    induction shaped generalizing ys with
    | nil =>
      cases shaped'
      rfl
    | cons first _ ih =>
      cases shaped' with
      | cons first' rest' =>
        obtain ⟨o, ho, alike⟩ := first
        obtain ⟨o', ho', alike'⟩ := first'
        rw [ho'.unique ho] at alike'
        have head := redact_alike (alike.trans alike'.symm)
        simp only [List.map_cons]
        rw [show settings _ = settings _ from head, ih _ rest']
  refine (listed.map settings).trans ?_
  rw [List.map_append, same, ← List.map_append]
  exact (listed'.map settings).symm

end UserFederation.Server
