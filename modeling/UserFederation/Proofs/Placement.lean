import UserFederation.Proofs.Serving

/-! What becomes of the mappers of a federation when a plan that serves the declared ones is carried
out. After a part of it each mapper is as it was, or what a declared one is to become (`Underway`);
after all of it each declared mapper has its place (`Brought`). -/

namespace UserFederation.Server

open Mapper

variable {supply : Supply} {s v u : Server} {f realm k : String} {d p x : Component}
  {ds : List Component} {prune : Bool} {plan : List Action}

/-- The mapper `x` of the id `k` is what becomes of the declared mapper `d`. -/
inductive Placed (supply : Supply) (s : Server) (f realm : String) (d : Component) (k : String)
    (x : Component) : Prop
  | kept (refers : s.Refers f realm d k x) (same : (redact x).mergedWith d = redact x)
  | revised {p y : Component} (refers : s.Refers f realm d k p)
    (stamped : Stamped (settle (some p) ((redact p).mergedWith d)) y)
    (form : x = { y with parentId := some f })
  | created {base y : Component} (new : s.Unreferred f realm d) (ground : s.Ground f realm d base)
    (given : d.id = some k ∨ d.id = none ∧ ¬Past supply s k)
    (stamped : Stamped (settle none (base.mergedWith d)) y)
    (form : x = { y with id := some k, parentId := some f })

theorem Stamped.withParent {c y : Component} {parent : String}
    (h : Stamped (settle none (c.withParent parent)) y) :
    ∃ z, Stamped (settle none c) z ∧ ∀ id parent', { z with id := id, parentId := parent' } =
      ({ y with id := id, parentId := parent' } : Component) := by
  rcases h with rfl | ⟨type, time, rfl⟩
  · exact ⟨_, .inl rfl, fun _ _ => rfl⟩
  · exact ⟨_, .inr ⟨type, time, rfl⟩, fun _ _ => rfl⟩

theorem mapper?_parentId (h : s.mapper? f realm k = some p) : p.parentId = some f := by
  obtain ⟨e, -, -, rfl, hp⟩ := mapper?_eq_some_iff.mp h
  exact hp

/-- What an action that sees to a declared mapper creates has the id that this gives. -/
theorem Ground.merged_id {base : Component} (h : s.Ground f realm d base) :
    (base.mergedWith d).id = d.id := by
  change d.id.or base.id = d.id
  rcases h with rfl | ⟨given, -⟩
  · cases d.id <;> rfl
  · obtain ⟨i, hi⟩ := Option.isSome_iff_exists.mp given
    rw [hi, Option.some_or]

/-- Every action of a plan that serves declared mappers can be carried out. -/
theorem Serves.apt (serves : s.Serves f realm prune ds plan) (keyed : s.Keyed)
    (declared : Declared supply s f realm ds) : ∀ a ∈ plan, a.Apt supply s f realm := by
  intro a ha
  rcases serves.actions a ha with ⟨d, hd, reason⟩ | ⟨i, rfl, there, -⟩
  · have orphan := declared.parentId d hd
    cases reason with
    | @update k p refers =>
      refine ⟨.inr ?_, k, refers.merged_id keyed, by simp [refers.1]⟩
      change d.parentId.or p.parentId = some f
      rw [orphan, Option.none_or, mapper?_parentId refers.1]
    | @create base new ground =>
      have parent : ((base.mergedWith d).withParent f).parentId = some f := by
        change (d.parentId.or base.parentId).or (some f) = some f
        rw [orphan, Option.none_or]
        rcases ground with rfl | ⟨-, -, k, p, hp, -, rfl⟩
        · rfl
        · rw [redact_parentId, mapper?_parentId hp, Option.some_or]
      refine ⟨parent, fun i hi => ?_⟩
      have hid : d.id = some i := ground.merged_id.symm.trans hi
      rcases declared.given d hd i hid with there | new'
      · simp [new.1 i hid] at there
      · exact new'
  · exact there

theorem eq_of_mem_zip {α β : Type} {l : List α} {l' : List β} (nodup : l.Nodup) {a : α} {b c : β}
    (hb : (a, b) ∈ l.zip l') (hc : (a, c) ∈ l.zip l') : b = c := by
  induction l generalizing l' with
  | nil => simp at hb
  | cons a' l ih =>
    cases l' with
    | nil => simp at hb
    | cons b' l' =>
      obtain ⟨fresh, nodup⟩ := List.nodup_cons.mp nodup
      simp only [List.zip_cons_cons, List.mem_cons, Prod.mk.injEq] at hb hc
      rcases hb with ⟨rfl, rfl⟩ | hb <;> rcases hc with ⟨same, rfl⟩ | hc
      · rfl
      · exact absurd (List.of_mem_zip hc).1 fresh
      · exact absurd (same ▸ (List.of_mem_zip hb).1) fresh
      · exact ih nodup hb hc

/-! ### One action -/

/-- An action of a plan and the id of the mapper that it changed. -/
structure Acted (supply : Supply) (s v : Server) (f realm : String) (a : Action) (k : String) :
    Prop where
  named : a.id? = some k ∧ Past supply s k ∨ a.id? = none ∧ ¬Past supply s k
  does : a.Does f k (s.mapper? f realm k) (v.mapper? f realm k)

theorem Carried.acted {ids : List String} (carried : Carried supply f realm plan ids s v)
    {a : Action} (h : (a, k) ∈ plan.zip ids) : Acted supply s v f realm a k :=
  have each := (List.forall₂_iff_zip.mp carried.does).2 h
  ⟨each.1, each.2⟩

theorem Carried.exists_id {ids : List String} (carried : Carried supply f realm plan ids s v)
    {a : Action} (ha : a ∈ plan) : ∃ k, (a, k) ∈ plan.zip ids := by
  obtain ⟨n, hn, rfl⟩ := List.mem_iff_getElem.mp ha
  have length := (List.forall₂_iff_zip.mp carried.does).1
  refine ⟨ids[n], List.mem_iff_getElem.mpr ⟨n, ?_, List.getElem_zip⟩⟩
  rw [List.length_zip]
  omega

theorem Carried.exists_action {ids : List String} (carried : Carried supply f realm plan ids s v)
    (hk : k ∈ ids) : ∃ a, (a, k) ∈ plan.zip ids := by
  obtain ⟨n, hn, rfl⟩ := List.mem_iff_getElem.mp hk
  have length := (List.forall₂_iff_zip.mp carried.does).1
  refine ⟨plan.get ⟨n, by omega⟩, List.mem_iff_getElem.mpr ⟨n, ?_, List.getElem_zip⟩⟩
  rw [List.length_zip]
  omega

/-- A plan leaves a mapper alone, or one of its actions acts on it. -/
theorem Carried.kept_or_acted {ids : List String} (carried : Carried supply f realm plan ids s v)
    (k : String) : v.mapper? f realm k = s.mapper? f realm k ∨
      ∃ a, (a, k) ∈ plan.zip ids ∧ Acted supply s v f realm a k := by
  by_cases hk : k ∈ ids
  · obtain ⟨a, ha⟩ := carried.exists_action hk
    exact .inr ⟨a, ha, carried.acted ha⟩
  · exact .inl (carried.others k hk)

theorem Acted.id_eq {a : Action} {i : String} (acted : Acted supply s v f realm a k)
    (hi : a.id? = some i) : i = k := by
  rcases acted.named with ⟨given, -⟩ | ⟨none, -⟩
  · exact Option.some.inj (hi.symm.trans given)
  · cases hi.symm.trans none

theorem Acted.deleted {i : String} (acted : Acted supply s v f realm (.delete i) k) :
    v.mapper? f realm k = none :=
  acted.does

/-- An action that sees to a declared mapper puts it in its place. -/
theorem Acted.placed {a : Action} (acted : Acted supply s v f realm a k) (keyed : s.Keyed)
    (reason : s.Reason f realm d a) :
    ∃ x, v.mapper? f realm k = some x ∧ Placed supply s f realm d k x := by
  cases reason with
  | @update k' p refers =>
    cases acted.id_eq (refers.merged_id keyed)
    obtain ⟨q, y, hq, stamped, hv⟩ := acted.does
    cases refers.1.symm.trans hq
    exact ⟨_, hv, .revised refers stamped rfl⟩
  | @create base new ground =>
    obtain ⟨named, -, y, stamped, hv⟩ := acted
    obtain ⟨z, stamped', same⟩ := stamped.withParent
    have hid : (Action.create ((base.mergedWith d).withParent f)).id? = d.id := ground.merged_id
    rw [hid] at named
    refine ⟨_, hv, .created new ground ?_ stamped' (same _ _).symm⟩
    exact named.imp And.left id

/-- An action that sees to a declared mapper and acts on one that was there acts on the one that is
referred to. -/
theorem Acted.refers {a : Action} (acted : Acted supply s v f realm a k) (keyed : s.Keyed)
    (reason : s.Reason f realm d a) (hp : s.mapper? f realm k = some p) :
    s.Refers f realm d k p := by
  cases reason with
  | @update k' p' refers =>
    cases acted.id_eq (refers.merged_id keyed)
    cases hp.symm.trans refers.1
    exact refers
  | create new =>
    obtain ⟨none, -⟩ := acted.does
    cases none.symm.trans hp

/-- A mapper that a declared one refers to is changed by nothing but the action that sees to it. -/
theorem Serves.reason_of_acted (serves : s.Serves f realm prune ds plan) (o : Orderly supply s)
    (declared : Declared supply s f realm ds) {a : Action} (ha : a ∈ plan)
    (acted : Acted supply s v f realm a k) (hd : d ∈ ds) (refers : s.Refers f realm d k p) :
    s.Reason f realm d a ∧ a.id? = some k := by
  have hid : a.id? = some k := by
    rcases acted.named with ⟨given, -⟩ | ⟨-, new⟩
    · exact given
    · exact absurd (o.past_of_mapper? refers.1) new
  refine ⟨?_, hid⟩
  rcases serves.actions a ha with ⟨d', hd', reason⟩ | ⟨i, rfl, -, free, -⟩
  · have refers' := acted.refers o.keyed reason refers.1
    cases declared.unshared d hd d' hd' k p refers refers'
    exact reason
  · cases hid
    exact absurd refers (free d hd p)

/-- How a server relates to the one that a plan was made for, while the plan is carried out. -/
structure Underway (supply : Supply) (s v : Server) (f realm : String) (prune : Bool)
    (ds : List Component) : Prop where
  origin : ∀ k x, v.mapper? f realm k = some x → s.mapper? f realm k = some x ∨
    ∃ d ∈ ds, Placed supply s f realm d k x
  forward : ∀ d ∈ ds, (∃ k x, v.mapper? f realm k = some x ∧ Placed supply s f realm d k x) ∨
    ∀ k p, s.Refers f realm d k p → v.mapper? f realm k = some p
  rest : prune = false → (∀ d ∈ ds, d.id = none) → ∀ k p, s.mapper? f realm k = some p →
    (∀ d ∈ ds, ¬s.Refers f realm d k p) → v.mapper? f realm k = some p
  once : ∀ d ∈ ds, ∀ k x k' x', v.mapper? f realm k = some x → Placed supply s f realm d k x →
    v.mapper? f realm k' = some x' → Placed supply s f realm d k' x' → k = k'

/-- A mapper that was made new was created for its declared one, by the one action that does so. -/
theorem Serves.action_of_created (serves : s.Serves f realm prune ds plan) (o : Orderly supply s)
    (declared : Declared supply s f realm ds) {before after : List Action}
    (parts : plan = before ++ after) {ids : List String}
    (carried : Carried supply f realm before ids s v) (hd : d ∈ ds)
    (hx : v.mapper? f realm k = some x) (new : ¬Past supply s k) (name : x.name = d.name) :
    (.create (d.withParent f), k) ∈ before.zip ids := by
  have unstored : s.mapper? f realm k = none := mapper?_of_unstored (o.get?_of_not_past new)
  obtain ⟨a, ha, named, does⟩ := (carried.kept_or_acted k).resolve_left fun same => by
    cases (same.trans unstored).symm.trans hx
  have hid : a.id? = none := by
    rcases named with ⟨-, past⟩ | ⟨none, -⟩
    · exact absurd past new
    · exact none
  have member : a ∈ plan := parts ▸ List.mem_append_left _ (List.of_mem_zip ha).1
  rcases serves.actions a member with ⟨d', hd', reason⟩ | ⟨i, rfl, -⟩
  · cases reason with
    | update refers =>
      obtain ⟨q, y, hq, -⟩ := does
      cases unstored.symm.trans hq
    | @create base _ ground =>
      have unnamed' : d'.id = none := ground.merged_id.symm.trans hid
      have base : base = {} := by
        rcases ground with h | ⟨given, -⟩
        · exact h
        · simp [unnamed'] at given
      subst base
      rw [Component.empty_mergedWith (declared.extra d' hd')] at does ha
      obtain ⟨-, y, stamped, hv⟩ := does
      cases hx.symm.trans hv
      have same : d'.name = d.name := by
        rw [← name, stamped.rest]
        rfl
      have named' := declared.identified d' hd' unnamed'
      rwa [declared.names d' hd' d hd named' same] at ha
  · cases hid

/-- A placed mapper has the name that is declared. -/
theorem Placed.name (h : Placed supply s f realm d k x) (named : d.name.isSome) :
    x.name = d.name := by
  obtain ⟨n, hn⟩ := Option.isSome_iff_exists.mp named
  cases h with
  | kept _ same =>
    have same : d.name.or x.name = x.name := congrArg Component.name same
    rw [← same, hn, Option.some_or]
  | revised _ stamped form =>
    rw [form, stamped.rest]
    change d.name.or _ = d.name
    rw [hn, Option.some_or]
  | created _ _ _ stamped form =>
    rw [form, stamped.rest]
    change d.name.or _ = d.name
    rw [hn, Option.some_or]

/-- If no name is declared, a placed mapper has that of the mapper that it was, if any. -/
theorem Placed.name_of_none (h : Placed supply s f realm d k x) (unnamed : d.name = none) :
    x.name = none ∨ ∃ p, s.Refers f realm d k p ∧ p.name = x.name := by
  cases h with
  | kept refers => exact .inr ⟨x, refers, rfl⟩
  | @revised p _ refers stamped form =>
    refine .inr ⟨p, refers, ?_⟩
    rw [form, stamped.rest]
    change p.name = d.name.or p.name
    rw [unnamed, Option.none_or]
  | @created base _ _ ground _ stamped form =>
    have bare : base = {} := by
      rcases ground with h | ⟨-, named, -⟩
      · exact h
      · simp [unnamed] at named
    rw [form, stamped.rest, bare]
    change d.name.or none = none ∨ _
    rw [unnamed]
    exact .inl rfl

theorem Placed.refers_or (h : Placed supply s f realm d k x) :
    (∃ p, s.Refers f realm d k p) ∨
      s.Unreferred f realm d ∧ (d.id = some k ∨ d.id = none ∧ ¬Past supply s k) := by
  cases h with
  | kept refers => exact .inl ⟨_, refers⟩
  | revised refers => exact .inl ⟨_, refers⟩
  | created new _ given => exact .inr ⟨new, given⟩

/-! ### A part of a plan -/

section Part

variable {before after : List Action} {ids : List String}

/-- A mapper that a declared one refers to is left alone by what does not see to that one. -/
theorem Serves.waiting (serves : s.Serves f realm prune ds plan) (o : Orderly supply s)
    (declared : Declared supply s f realm ds) (part : before ⊆ plan)
    (carried : Carried supply f realm before ids s v) (hd : d ∈ ds)
    (idle : ∀ a ∈ before, ¬s.Reason f realm d a) (refers : s.Refers f realm d k p) :
    v.mapper? f realm k = some p := by
  rcases carried.kept_or_acted k with same | ⟨a, ha, acted⟩
  · exact same.trans refers.1
  · have ha := (List.of_mem_zip ha).1
    exact absurd (serves.reason_of_acted o declared (part ha) acted hd refers).1 (idle a ha)

/-- A mapper is as it was, or what became of a declared one. -/
theorem Serves.origin (serves : s.Serves f realm prune ds plan) (keyed : s.Keyed)
    (part : before ⊆ plan) (carried : Carried supply f realm before ids s v)
    (hx : v.mapper? f realm k = some x) :
    s.mapper? f realm k = some x ∨ ∃ d ∈ ds, Placed supply s f realm d k x := by
  rcases carried.kept_or_acted k with same | ⟨a, ha, acted⟩
  · exact .inl (same.symm.trans hx)
  · rcases serves.actions a (part (List.of_mem_zip ha).1) with ⟨d, hd, reason⟩ | ⟨i, rfl, -⟩
    · obtain ⟨x', hx', placed⟩ := acted.placed keyed reason
      cases hx.symm.trans hx'
      exact .inr ⟨d, hd, placed⟩
    · cases acted.deleted.symm.trans hx

/-- Unless mappers are pruned or declared with an id, those that nothing refers to are left alone. -/
theorem Serves.unreferred (serves : s.Serves f realm prune ds plan) (keyed : s.Keyed)
    (part : before ⊆ plan) (carried : Carried supply f realm before ids s v)
    (unpruned : prune = false) (unnamed : ∀ d ∈ ds, d.id = none)
    (hp : s.mapper? f realm k = some p) (free : ∀ d ∈ ds, ¬s.Refers f realm d k p) :
    v.mapper? f realm k = some p := by
  rcases carried.kept_or_acted k with same | ⟨a, ha, acted⟩
  · exact same.trans hp
  · rcases serves.actions a (part (List.of_mem_zip ha).1) with
      ⟨d, hd, reason⟩ | ⟨i, rfl, -, -, pruned | ⟨d, hd, given⟩⟩
    · exact absurd (acted.refers keyed reason hp) (free d hd)
    · cases unpruned.symm.trans pruned
    · simp [unnamed d hd] at given

/-- There is one mapper at most that became of a declared one. -/
theorem Serves.once (serves : s.Serves f realm prune ds plan) (o : Orderly supply s)
    (declared : Declared supply s f realm ds) (parts : plan = before ++ after)
    (carried : Carried supply f realm before ids s v) (hd : d ∈ ds) {k' : String} {x' : Component}
    (hx : v.mapper? f realm k = some x) (placed : Placed supply s f realm d k x)
    (hx' : v.mapper? f realm k' = some x') (placed' : Placed supply s f realm d k' x') :
    k = k' := by
  rcases placed.refers_or with ⟨p, refers⟩ | ⟨new, given⟩ <;>
    rcases placed'.refers_or with ⟨p', refers'⟩ | ⟨new', given'⟩
  · exact (refers.unique refers').1
  · exact absurd refers new'.not_refers
  · exact absurd refers' new.not_refers
  · rcases given with hid | ⟨unnamed, past⟩ <;> rcases given' with hid' | ⟨unnamed', past'⟩
    · exact Option.some.inj (hid.symm.trans hid')
    · cases hid.symm.trans unnamed'
    · cases unnamed.symm.trans hid'
    · -- Both were created by the one action that does so, which acted once.
      have named := declared.identified d hd unnamed
      have nodup : before.Nodup := by
        have whole := Action.nodup_of_apart serves.apart
        rw [parts] at whole
        exact (List.nodup_append.mp whole).1
      exact eq_of_mem_zip nodup
        (serves.action_of_created o declared parts carried hd hx past (placed.name named))
        (serves.action_of_created o declared parts carried hd hx' past' (placed'.name named))

/-- A part of a plan that serves the declared mappers leads towards what is declared. -/
theorem Serves.underway (serves : s.Serves f realm prune ds plan) (o : Orderly supply s)
    (declared : Declared supply s f realm ds) (parts : plan = before ++ after)
    (carried : Carried supply f realm before ids s v) : Underway supply s v f realm prune ds := by
  have part : before ⊆ plan := parts ▸ List.subset_append_left before after
  refine ⟨fun k x hx => serves.origin o.keyed part carried hx, fun d hd => ?_,
    fun unpruned unnamed k p hp free =>
      serves.unreferred o.keyed part carried unpruned unnamed hp free,
    fun d hd k x k' x' hx placed hx' placed' =>
      serves.once o declared parts carried hd hx placed hx' placed'⟩
  by_cases busy : ∃ a ∈ before, s.Reason f realm d a
  · obtain ⟨a, ha, reason⟩ := busy
    obtain ⟨k, hz⟩ := carried.exists_id ha
    exact .inl ⟨k, (carried.acted hz).placed o.keyed reason⟩
  · have idle : ∀ a ∈ before, ¬s.Reason f realm d a := fun a ha reason => busy ⟨a, ha, reason⟩
    exact .inr fun k p refers => serves.waiting o declared part carried hd idle refers

end Part

/-- How a server relates to the one that a plan was made for, once the plan is carried out. -/
structure Brought (supply : Supply) (s u : Server) (f realm : String) (prune : Bool)
    (ds : List Component) : Prop where
  placed : ∀ d ∈ ds, ∃ k x, u.mapper? f realm k = some x ∧ Placed supply s f realm d k x
  origin : ∀ k x, u.mapper? f realm k = some x → (∃ d ∈ ds, Placed supply s f realm d k x) ∨
    prune = false ∧ s.mapper? f realm k = some x ∧ ∀ d ∈ ds, ¬s.Refers f realm d k x
  once : ∀ d ∈ ds, ∀ k x k' x', u.mapper? f realm k = some x → Placed supply s f realm d k x →
    u.mapper? f realm k' = some x' → Placed supply s f realm d k' x' → k = k'

/-- A plan that serves the declared mappers brings each of them to its place. -/
theorem Serves.brought (serves : s.Serves f realm prune ds plan) (o : Orderly supply s)
    (declared : Declared supply s f realm ds) {ids : List String}
    (carried : Carried supply f realm plan ids s u) : Brought supply s u f realm prune ds := by
  have keyed := o.keyed
  have parts : plan = plan ++ [] := (List.append_nil plan).symm
  have underway := serves.underway o declared parts carried
  have placed : ∀ d ∈ ds, ∃ k x, u.mapper? f realm k = some x ∧ Placed supply s f realm d k x := by
    intro d hd
    rcases serves.complete d hd with ⟨a, ha, reason⟩ | ⟨k, p, refers, same, free⟩
    · obtain ⟨k, hz⟩ := carried.exists_id ha
      exact ⟨k, (carried.acted hz).placed keyed reason⟩
    · refine ⟨k, p, ?_, .kept refers same⟩
      rcases carried.kept_or_acted k with same | ⟨a, hz, acted⟩
      · exact same.trans refers.1
      · have ha := (List.of_mem_zip hz).1
        exact absurd (serves.reason_of_acted o declared ha acted hd refers).2 (free a ha)
  refine ⟨placed, fun k x hx => ?_, underway.once⟩
  rcases underway.origin k x hx with hs | there
  · by_cases referred : ∃ d ∈ ds, s.Refers f realm d k x
    · obtain ⟨d, hd, refers⟩ := referred
      obtain ⟨k', x', hx', place⟩ := placed d hd
      rcases place.refers_or with ⟨p, refers'⟩ | ⟨new, -⟩
      · obtain ⟨rfl, -⟩ := refers.unique refers'
        cases hx.symm.trans hx'
        exact .inl ⟨d, hd, place⟩
      · exact absurd refers new.not_refers
    · have free : ∀ d ∈ ds, ¬s.Refers f realm d k x := fun d hd h => referred ⟨d, hd, h⟩
      refine .inr ⟨?_, hs, free⟩
      -- What nothing refers to is deleted if mappers are pruned.
      cases hprune : prune with
      | false => rfl
      | true =>
        obtain ⟨i, hz⟩ := carried.exists_id (serves.swept hprune k x hs free)
        have acted := carried.acted hz
        cases acted.id_eq rfl
        cases acted.deleted.symm.trans hx
  · exact .inl there

end UserFederation.Server
