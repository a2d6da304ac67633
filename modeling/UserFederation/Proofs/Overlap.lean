import UserFederation.Proofs.Adjustment

/-! Declared mappers that meet in one id. The mappers to end up with have different ids just if no two
declared ones give one id or refer to one existing mapper, and then no mapper is updated twice
(`target_ids_nodup_iff`). -/

namespace UserFederation

namespace Mapper

open Component

variable {ds existing merged target : List Component} {prune : Bool} {b d d' m m' : Component}
  {f i : String}

/-- Two declared mappers give one id, or refer to one existing mapper. -/
def Meets (existing : List Component) (d d' : Component) : Prop :=
  (∃ i, d.id = some i ∧ d'.id = some i) ∨
    ∃ b, referent? d existing = .ok (some b) ∧ referent? d' existing = .ok (some b)

theorem resolve_given (resolves : resolve existing d = .ok m) (given : d.id = some i) :
    m.id = some i := by
  obtain ⟨found, -, rfl⟩ := resolve_eq_ok_iff.mp resolves
  change d.id.or (found.getD {}).id = some i
  rw [given, Option.some_or]

/-- The id of a mapper to end up with is given, or that of the existing mapper that is referred to. -/
theorem given_or_refers (nodup : (existing.map (·.id)).Nodup) (resolves : resolve existing d = .ok m)
    (hi : m.id = some i) :
    (∃ b ∈ existing, b.id = some i ∧ referent? d existing = .ok (some b)) ∨
      (∀ b ∈ existing, b.id ≠ some i) ∧ d.id = some i := by
  by_cases known : ∃ b ∈ existing, b.id = some i
  · obtain ⟨b, hb, hbi⟩ := known
    exact .inl ⟨b, hb, hbi, referent?_of_id nodup resolves hb hbi hi⟩
  · have unknown : ∀ b ∈ existing, b.id ≠ some i := fun b hb hbi => known ⟨b, hb, hbi⟩
    refine .inr ⟨unknown, ?_⟩
    obtain ⟨_ | b, hr, rfl⟩ := resolve_eq_ok_iff.mp resolves
    · have hi : d.id.or none = some i := hi
      rwa [Option.or_none] at hi
    · rcases Option.or_eq_some_iff.mp (show d.id.or b.id = some i from hi) with given | ⟨-, hbi⟩
      · exact given
      · exact absurd hbi (unknown b (referent?_mem hr))

theorem share_iff_meets (identified : ∀ b ∈ existing, b.id.isSome)
    (nodup : (existing.map (·.id)).Nodup) (resolves : resolve existing d = .ok m)
    (resolves' : resolve existing d' = .ok m') :
    (∃ i, m.id = some i ∧ m'.id = some i) ↔ Meets existing d d' := by
  constructor
  · rintro ⟨i, hi, hi'⟩
    rcases given_or_refers nodup resolves hi with ⟨b, hb, hbi, refers⟩ | ⟨unknown, given⟩
    · exact .inr ⟨b, refers, referent?_of_id nodup resolves' hb hbi hi'⟩
    · refine .inl ⟨i, given, ?_⟩
      rcases given_or_refers nodup resolves' hi' with ⟨b, hb, hbi, -⟩ | ⟨-, given'⟩
      · exact absurd hbi (unknown b hb)
      · exact given'
  · rintro (⟨i, given, given'⟩ | ⟨b, refers, refers'⟩)
    · exact ⟨i, resolve_given resolves given, resolve_given resolves' given'⟩
    · obtain ⟨i, hi⟩ := Option.isSome_iff_exists.mp (identified b (referent?_mem refers))
      exact ⟨i, resolve_id resolves refers hi, resolve_id resolves' refers' hi⟩

theorem merged_ids_nodup_iff (identified : ∀ b ∈ existing, b.id.isSome)
    (nodup : (existing.map (·.id)).Nodup)
    (resolved : List.Forall₂ (fun d m => resolve existing d = .ok m) ds merged) :
    (merged.filterMap (·.id)).Nodup ↔ ds.Pairwise fun d d' => ¬Meets existing d d' := by
  rw [List.Nodup, List.pairwise_filterMap]
  refine pairwise_iff_of_related resolved fun d _ d' _ m m' resolves resolves' => ?_
  rw [← share_iff_meets identified nodup resolves resolves']
  constructor
  · rintro apart ⟨i, hi, hi'⟩
    exact apart i hi i hi' rfl
  · rintro apart i hi _ hi' rfl
    exact apart ⟨i, hi, hi'⟩

theorem arranged_ids_nodup_iff (nodup : (existing.map (·.id)).Nodup) :
    ((arranged existing merged prune).filterMap (·.id)).Nodup ↔
      (merged.filterMap (·.id)).Nodup := by
  rw [((arranged_perm existing merged prune).filterMap _).nodup_iff, List.filterMap_append,
    List.nodup_append]
  refine and_iff_left ⟨?_, ?_⟩
  · split
    · exact .nil
    · exact (ids_nodup nodup).sublist (List.filter_sublist.filterMap _)
  · rintro i hi _ hj rfl
    split at hj
    · cases hj
    · obtain ⟨b, hb, hbi⟩ := List.mem_filterMap.mp hj
      have unlisted := (List.mem_filter.mp hb).2
      simp [Mapper.unlisted, hbi, hi] at unlisted

/-- The mappers to end up with have different ids just if no two declared mappers meet. No mapper is
then updated twice. -/
theorem target_ids_nodup_iff (identified : ∀ b ∈ existing, b.id.isSome)
    (nodup : (existing.map (·.id)).Nodup)
    (ok : Mapper.target ds existing prune = .ok target) (f : String) :
    ((target.filterMap (·.id)).Nodup ↔ ds.Pairwise fun d d' => ¬Meets existing d d') ∧
      ((target.filterMap (·.id)).Nodup →
        ((planUpdate target existing f).filterMap Action.id?).Nodup) := by
  refine ⟨?_, planUpdate_ids_nodup nodup⟩
  obtain ⟨merged, resolved, rfl⟩ := target_eq_ok_iff.mp ok
  rw [arranged_ids_nodup_iff nodup, merged_ids_nodup_iff identified nodup resolved]

namespace Collection.Sample

/-- A setting that is laid over a mapper. -/
def setting (value : String) : Component :=
  { providerType := some mapperType, config := some (.ofList [("a", [value])]) }

/-- The existing mapper with the setting. -/
def revised (value : String) : Component := Federation.Sample.posted.mergedWith (setting value)

/-- One mapper is referred to by its name, and one by its id. -/
def several : List Component := [{ setting "1" with name := some "mail" }, { id := some "s" }]

/-- One mapper is referred to by its name and by its id. -/
def overlapping : Declaration where
  id := some "people"
  mappers := some [{ name := some "mail", config := some (.ofList [("a", some (.text "1"))]) },
    { id := some "m", config := some (.ofList [("a", some (.text "2"))]) }]

end Collection.Sample

open Collection.Sample Federation.Sample in
theorem several_updated_once : (∀ b ∈ [posted, spare], b.id.isSome) ∧
    ([posted, spare].map (·.id)).Nodup ∧
    Mapper.target several [posted, spare] true = .ok [revised "1", spare] ∧
    several.Pairwise (fun d d' => ¬Meets [posted, spare] d d') ∧
    ((planUpdate [revised "1", spare] [posted, spare] "people").filterMap Action.id?).Nodup := by
  have identified : ∀ b ∈ [posted, spare], b.id.isSome := by decide
  have nodup : ([posted, spare].map (·.id)).Nodup := by decide
  have ok : Mapper.target several [posted, spare] true = .ok [revised "1", spare] := by
    refine target_eq_ok_iff.mpr ⟨[revised "1", spare], .cons rfl (.cons rfl .nil), ?_⟩
    rw [arranged, if_pos rfl, sortByName_eq_self (by decide)]
  obtain ⟨apart, once⟩ := target_ids_nodup_iff identified nodup ok "people"
  exact ⟨identified, nodup, ok, apart.mp (by decide), once (by decide)⟩

open Collection.Sample Federation.Sample in
/-- The existing mapper is updated twice. -/
theorem overlapping_updates_twice : overlapping.validate = .ok () ∧
    (∀ b ∈ [posted], b.id.isSome) ∧ ([posted].map (·.id)).Nodup ∧
    ∃ ds, overlapping.mapperComponents = some ds ∧
      Mapper.target ds [posted] true = .ok [revised "1", revised "2"] ∧
      ¬([revised "1", revised "2"].filterMap (·.id)).Nodup ∧
      planUpdate [revised "1", revised "2"] [posted] "people" =
        [.update (revised "1"), .update (revised "2")] := by
  refine ⟨rfl, by decide, by decide, _, rfl,
    target_eq_ok_iff.mpr ⟨[revised "1", revised "2"], .cons rfl (.cons rfl .nil), ?_⟩,
    by decide, by decide⟩
  rw [arranged, if_pos rfl, sortByName_eq_self (by decide)]

end Mapper

end UserFederation
