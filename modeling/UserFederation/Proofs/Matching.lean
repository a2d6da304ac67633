import Mathlib.Data.List.Forall2
import Mathlib.Data.List.Pairwise
import Mathlib.Data.List.Sort
import UserFederation.Mapper.Matching
import UserFederation.Proofs.Listing
import UserFederation.Proofs.Settling

/-! Which mapper of a federation a declared one refers to. What is found in a listing of the mappers
is said of the stored ones (`referent?_ok`), so the order of the listing does not count. -/

namespace UserFederation

namespace Component

theorem sortByName_perm (cs : List Component) : (sortByName cs).Perm cs := List.mergeSort_perm _ _

theorem sortByName_sorted (cs : List Component) :
    (sortByName cs).Pairwise fun a b => a.nameOrEmpty ≤ b.nameOrEmpty := by
  have sorted : (sortByName cs).Pairwise fun a b => decide (a.nameOrEmpty ≤ b.nameOrEmpty) = true :=
    List.pairwise_mergeSort (fun a b c => by simpa using String.le_trans)
      (fun a b => by simpa using String.le_total ..) cs
  exact sorted.imp of_decide_eq_true

/-- What is in order stays as it is. -/
theorem sortByName_eq_self {cs : List Component}
    (h : cs.Pairwise fun a b => a.nameOrEmpty ≤ b.nameOrEmpty) : sortByName cs = cs :=
  List.mergeSort_of_pairwise (h.imp decide_eq_true)

theorem sortByName_sortByName (cs : List Component) :
    sortByName (sortByName cs) = sortByName cs := sortByName_eq_self (sortByName_sorted cs)

/-- Components of different names have one order by name. -/
theorem eq_of_sorted {cs cs' : List Component} (perm : cs.Perm cs')
    (ordered : cs.Pairwise fun a b => a.nameOrEmpty ≤ b.nameOrEmpty)
    (sorted : cs'.Pairwise fun a b => a.nameOrEmpty ≤ b.nameOrEmpty)
    (names : cs'.Pairwise fun a b => a.nameOrEmpty ≠ b.nameOrEmpty) : cs = cs' := by
  refine List.Perm.eq_of_pairwise (fun a b ha hb hab hba => ?_) ordered sorted perm
  have : Std.Symm fun a b : Component => a.nameOrEmpty ≠ b.nameOrEmpty := ⟨fun _ _ => Ne.symm⟩
  by_contra ne
  exact names.forall (perm.mem_iff.mp ha) hb ne (String.le_antisymm hab hba)

end Component

/-! ### Lists related item by item -/

/-- What is inside a list and what is left outside make up the list. -/
theorem perm_append_filter {α : Type} {inside whole : List α} {outside : α → Bool}
    (distinct : inside.Nodup) (nodup : whole.Nodup) (sub : inside ⊆ whole)
    (out : ∀ a ∈ whole, outside a = true ↔ a ∉ inside) :
    (inside ++ whole.filter outside).Perm whole := by
  have apart : (inside ++ whole.filter outside).Nodup := by
    refine List.nodup_append.mpr ⟨distinct, nodup.filter _, ?_⟩
    rintro a ha b hb rfl
    obtain ⟨there, free⟩ := List.mem_filter.mp hb
    exact (out a there).mp free ha
  refine (List.perm_ext_iff_of_nodup apart nodup).mpr fun a => ?_
  rw [List.mem_append, List.mem_filter]
  constructor
  · rintro (ha | ⟨ha, -⟩)
    · exact sub ha
    · exact ha
  · intro ha
    by_cases h : a ∈ inside
    · exact .inl h
    · exact .inr ⟨ha, (out a ha).mpr h⟩

section Related

variable {α β ε : Type} {R : α → β → Prop} {as : List α} {bs : List β}

theorem exists_right_of_mem (related : List.Forall₂ R as bs) {a : α} (ha : a ∈ as) :
    ∃ b ∈ bs, R a b := by
  induction related with
  | nil => simp at ha
  | cons hab _ ih =>
    rcases List.mem_cons.mp ha with rfl | ha
    · exact ⟨_, List.mem_cons_self, hab⟩
    · obtain ⟨b, hb, hab⟩ := ih ha
      exact ⟨b, List.mem_cons_of_mem _ hb, hab⟩

theorem exists_left_of_mem (related : List.Forall₂ R as bs) {b : β} (hb : b ∈ bs) :
    ∃ a ∈ as, R a b := exists_right_of_mem related.flip hb

theorem exists_related (h : ∀ a ∈ as, ∃ b, R a b) : ∃ bs, List.Forall₂ R as bs := by
  induction as with
  | nil => exact ⟨[], .nil⟩
  | cons a as ih =>
    obtain ⟨b, hab⟩ := h a List.mem_cons_self
    obtain ⟨bs, rest⟩ := ih fun a' ha' => h a' (List.mem_cons_of_mem _ ha')
    exact ⟨b :: bs, .cons hab rest⟩

theorem related_imp {S : α → β → Prop} (related : List.Forall₂ R as bs)
    (h : ∀ a ∈ as, ∀ b ∈ bs, R a b → S a b) : List.Forall₂ S as bs := by
  induction related with
  | nil => exact .nil
  | cons hab _ ih =>
    refine .cons (h _ List.mem_cons_self _ List.mem_cons_self hab) (ih fun a ha b hb => ?_)
    exact h a (List.mem_cons_of_mem _ ha) b (List.mem_cons_of_mem _ hb)

/-- The items of the second list are apart as those of the first are. -/
theorem pairwise_of_related {P : α → α → Prop} {Q : β → β → Prop} (related : List.Forall₂ R as bs)
    (apart : as.Pairwise P)
    (step : ∀ a ∈ as, ∀ a' ∈ as, ∀ b b', R a b → R a' b' → P a a' → Q b b') : bs.Pairwise Q := by
  induction related with
  | nil => exact .nil
  | @cons a b as bs hab rest ih =>
    obtain ⟨first, others⟩ := List.pairwise_cons.mp apart
    refine List.pairwise_cons.mpr ⟨fun b' hb' => ?_, ih others fun a ha a' ha' => ?_⟩
    · obtain ⟨a', ha', hab'⟩ := exists_left_of_mem rest hb'
      exact step a List.mem_cons_self a' (List.mem_cons_of_mem _ ha') b b' hab hab' (first a' ha')
    · exact step a (List.mem_cons_of_mem _ ha) a' (List.mem_cons_of_mem _ ha')

theorem pairwise_iff_of_related {P : α → α → Prop} {Q : β → β → Prop}
    (related : List.Forall₂ R as bs)
    (step : ∀ a ∈ as, ∀ a' ∈ as, ∀ b b', R a b → R a' b' → (Q b b' ↔ P a a')) :
    bs.Pairwise Q ↔ as.Pairwise P := by
  have members : List.Forall₂ (fun a b => a ∈ as ∧ R a b) as bs :=
    related_imp related fun a ha b _ h => ⟨ha, h⟩
  constructor
  · refine fun apart => pairwise_of_related
      (List.Forall₂.flip (R := fun b a => a ∈ as ∧ R a b) members) apart ?_
    rintro b - b' - a a' ⟨ha, h⟩ ⟨ha', h'⟩
    exact (step a ha a' ha' b b' h h').mp
  · refine fun apart => pairwise_of_related members apart ?_
    rintro a - a' - b b' ⟨ha, h⟩ ⟨ha', h'⟩
    exact (step a ha a' ha' b b' h h').mpr

theorem related_trans {γ : Type} {S : β → γ → Prop} {T : α → γ → Prop} {cs : List γ}
    (left_ : List.Forall₂ R as bs) (right_ : List.Forall₂ S bs cs)
    (both : ∀ a b c, R a b → S b c → T a c) : List.Forall₂ T as cs := by
  induction left_ generalizing cs with
  | nil =>
    cases right_
    exact .nil
  | cons hab _ ih =>
    obtain ⟨c, cs, hbc, rest, rfl⟩ := List.forall₂_cons_left_iff.mp right_
    exact .cons (both _ _ _ hab hbc) (ih rest)

/-- The part of a list that passes a test is related to a part of the other list. -/
theorem related_filter (related : List.Forall₂ R as bs) (p : α → Bool) :
    ∃ cs, cs.Sublist bs ∧ List.Forall₂ R (as.filter p) cs ∧
      ∀ b ∈ bs, b ∈ cs ∨ ∃ a, p a = false ∧ R a b := by
  induction related with
  | nil => exact ⟨[], .slnil, .nil, by simp⟩
  | @cons a b as bs hab _ ih =>
    obtain ⟨cs, sub, rest, all⟩ := ih
    cases hp : p a with
    | true =>
      rw [List.filter_cons_of_pos hp]
      refine ⟨b :: cs, sub.cons_cons b, .cons hab rest, List.forall_mem_cons.mpr
        ⟨.inl List.mem_cons_self, fun b' hb' => (all b' hb').imp_left (List.mem_cons_of_mem _)⟩⟩
    | false =>
      rw [List.filter_cons_of_neg (by simp [hp])]
      exact ⟨cs, sub.cons b, rest, List.forall_mem_cons.mpr ⟨.inr ⟨a, hp, hab⟩, all⟩⟩

/-- A list is related item by item where the items with an image are related by it, and the others
have a key. -/
theorem related_filterMap {γ : Type} {g : α → Option β} (key : α → Option γ) {S : β → γ → Prop}
    {cs : List γ} (related : List.Forall₂ S (as.filterMap g) cs)
    (keyed : ∀ a ∈ as, g a = none → (key a).isSome) :
    ∃ ks, ks.Perm (cs ++ (as.filter fun a => (g a).isNone).filterMap key) ∧
      List.Forall₂ (fun a k => (∃ b, g a = some b ∧ S b k) ∨ g a = none ∧ key a = some k) as ks := by
  induction as generalizing cs with
  | nil =>
    cases related
    exact ⟨[], .nil, .nil⟩
  | cons a as ih =>
    obtain ⟨first, keyed⟩ := List.forall_mem_cons.mp keyed
    cases ha : g a with
    | none =>
      obtain ⟨k, hk⟩ := Option.isSome_iff_exists.mp (first ha)
      rw [List.filterMap_cons_none ha] at related
      obtain ⟨ks, perm, rest⟩ := ih related keyed
      refine ⟨k :: ks, ?_, .cons (.inr ⟨ha, hk⟩) rest⟩
      rw [List.filter_cons_of_pos (by simp [ha]), List.filterMap_cons_some hk]
      exact (perm.cons k).trans List.perm_middle.symm
    | some b =>
      rw [List.filterMap_cons_some ha] at related
      obtain ⟨k, cs, hbk, others, rfl⟩ := List.forall₂_cons_left_iff.mp related
      obtain ⟨ks, perm, rest⟩ := ih others keyed
      refine ⟨k :: ks, ?_, .cons (.inl ⟨b, ha, hbk⟩) rest⟩
      rw [List.filter_cons_of_neg (by simp [ha])]
      exact perm.cons k

/-- A list of steps that all succeed. -/
theorem mapM_eq_ok_iff {f : α → Except ε β} :
    as.mapM f = .ok bs ↔ List.Forall₂ (fun a b => f a = .ok b) as bs := by
  induction as generalizing bs with
  | nil => simp [pure, Except.pure, eq_comm]
  | cons a as ih =>
    rw [List.mapM_cons, List.forall₂_cons_left_iff]
    cases ha : f a with
    | error e => simp [bind, Except.bind]
    | ok b =>
      cases has : as.mapM f with
      | error e =>
        have none : ∀ bs, ¬List.Forall₂ (fun a b => f a = .ok b) as bs := by
          intro bs h
          cases has.symm.trans ((@ih bs).mpr h)
        simp [bind, Except.bind, none]
      | ok bs' =>
        have only : ∀ bs, List.Forall₂ (fun a b => f a = .ok b) as bs ↔ bs' = bs := by
          intro bs
          rw [← ih, has, Except.ok.injEq]
        simp [bind, Except.bind, pure, Except.pure, only, eq_comm]

/-- Where a list of steps fails, one of them does. -/
theorem exists_of_mapM_error {f : α → Except ε β} {e : ε} (h : as.mapM f = .error e) :
    ∃ a ∈ as, f a = .error e := by
  induction as with
  | nil => cases h
  | cons a as ih =>
    rw [List.mapM_cons] at h
    cases ha : f a with
    | error e' =>
      rw [ha] at h
      cases h
      exact ⟨a, List.mem_cons_self, ha⟩
    | ok b =>
      cases has : as.mapM f with
      | error e' =>
        rw [ha, has] at h
        cases h
        obtain ⟨a', member, failed⟩ := ih has
        exact ⟨a', List.mem_cons_of_mem _ member, failed⟩
      | ok bs =>
        rw [ha, has] at h
        cases h

/-- A list of steps fails as the first one does that fails. -/
theorem mapM_eq_error_iff {f : α → Except ε β} {failure? : α → Option ε}
    (fails : ∀ a e, f a = .error e ↔ failure? a = some e) {e : ε} :
    as.mapM f = .error e ↔ as.findSome? failure? = some e := by
  induction as with
  | nil => simp [pure, Except.pure]
  | cons a as ih =>
    rw [List.mapM_cons, List.findSome?_cons]
    cases ha : f a with
    | error e' =>
      rw [(fails a e').mp ha]
      simp [bind, Except.bind]
    | ok b =>
      have none : failure? a = none := by
        cases hf : failure? a with
        | none => rfl
        | some e' => cases ha.symm.trans ((fails a e').mpr hf)
      rw [none, ← ih]
      cases as.mapM f <;> simp [bind, Except.bind, pure, Except.pure]

end Related

namespace Mapper

variable {existing : List Component} {n : String} {c : Component}

theorem withName?_ok {found : Option Component} (h : withName? n existing = .ok found) :
    (found = none ∧ ∀ e ∈ existing, e.name ≠ some n) ∨
      ∃ c ∈ existing, found = some c ∧ c.name = some n ∧
        ∀ e ∈ existing, e.name = some n → e = c := by
  have members : ∀ e, e ∈ existing.filter (·.name = some n) ↔
      e ∈ existing ∧ decide (e.name = some n) = true := fun e => List.mem_filter
  unfold withName? at h
  rcases hl : existing.filter (·.name = some n) with _ | ⟨c, _ | _⟩ <;>
    simp only [hl, Component.unique, Except.ok.injEq, reduceCtorEq] at h members
  · refine .inl ⟨h.symm, fun e he same => ?_⟩
    exact absurd ((members e).mpr ⟨he, decide_eq_true same⟩) List.not_mem_nil
  · obtain ⟨hc, same⟩ := (members c).mp List.mem_cons_self
    refine .inr ⟨c, hc, h.symm, of_decide_eq_true same, fun e he same => ?_⟩
    exact List.mem_singleton.mp ((members e).mpr ⟨he, decide_eq_true same⟩)

theorem withName?_of_unique (nodup : existing.Nodup) (hc : c ∈ existing) (hn : c.name = some n)
    (unique : ∀ e ∈ existing, e.name = some n → e = c) :
    withName? n existing = .ok (some c) := by
  have only : existing.filter (·.name = some n) = [c] := by
    refine List.perm_singleton.mp ((List.perm_ext_iff_of_nodup (nodup.filter _) (by simp)).mpr ?_)
    intro e
    simp only [List.mem_filter, decide_eq_true_eq, List.mem_singleton]
    constructor
    · exact fun h => unique e h.1 h.2
    · rintro rfl
      exact ⟨hc, hn⟩
  simp only [withName?, only, Component.unique]

theorem resolve_eq_ok_iff {d m : Component} :
    resolve existing d = .ok m ↔
      ∃ found, referent? d existing = .ok found ∧ (found.getD {}).mergedWith d = m := by
  unfold resolve
  cases referent? d existing with
  | error e => simp [bind, Except.bind]
  | ok found => simp [bind, Except.bind, pure, Except.pure]

/-- The merged mappers by name, with those that are not listed unless these are pruned. -/
def arranged (existing merged : List Component) (prune : Bool) : List Component :=
  if prune then Component.sortByName merged
  else Component.sortByName (Component.sortByName merged ++
    existing.filter (unlisted ((Component.sortByName merged).filterMap (·.id))))

theorem target_eq_ok_iff {declared target : List Component} {prune : Bool} :
    Mapper.target declared existing prune = .ok target ↔
      ∃ merged, List.Forall₂ (fun d m => resolve existing d = .ok m) declared merged ∧
        target = arranged existing merged prune := by
  simp only [Mapper.target, ← mapM_eq_ok_iff]
  cases declared.mapM (resolve existing) with
  | error e => simp [bind, Except.bind]
  | ok merged =>
    cases prune <;> simp [bind, Except.bind, pure, Except.pure, arranged, eq_comm]

theorem arranged_sorted (existing merged : List Component) (prune : Bool) :
    (arranged existing merged prune).Pairwise fun a b => a.nameOrEmpty ≤ b.nameOrEmpty := by
  unfold arranged
  split <;> exact Component.sortByName_sorted _

theorem unlisted_congr {ids ids' : List String} (h : ∀ i, i ∈ ids ↔ i ∈ ids') :
    unlisted ids = unlisted ids' := by
  funext m
  unfold unlisted
  split
  · simp [h]
  · rfl

/-- Of mappers with ids, those are unlisted that are not listed. -/
theorem unlisted_iff {listed : List Component} (identified : ∀ b ∈ existing, b.id.isSome)
    (nodup : (existing.map (·.id)).Nodup) (sub : listed ⊆ existing) (hc : c ∈ existing) :
    unlisted (listed.filterMap (·.id)) c = true ↔ c ∉ listed := by
  obtain ⟨i, hi⟩ := Option.isSome_iff_exists.mp (identified c hc)
  have known : i ∈ listed.filterMap (·.id) ↔ c ∈ listed := by
    rw [List.mem_filterMap]
    constructor
    · rintro ⟨b, hb, same⟩
      rwa [← List.inj_on_of_nodup_map nodup (sub hb) hc (same.trans hi.symm)]
    · exact fun member => ⟨c, member, hi⟩
  rw [← known]
  simp [unlisted, hi]

/-- Mappers with ids of their own have each id once. -/
theorem ids_nodup (nodup : (existing.map (·.id)).Nodup) : (existing.filterMap (·.id)).Nodup := by
  refine List.pairwise_filterMap.mpr ((List.pairwise_map.mp nodup).imp ?_)
  intro e e' ne i hi j hj same
  exact ne (hi.trans (same ▸ hj.symm))

theorem arranged_perm (existing merged : List Component) (prune : Bool) :
    (arranged existing merged prune).Perm
      (merged ++ if prune then [] else existing.filter (unlisted (merged.filterMap (·.id)))) := by
  have sorted := Component.sortByName_perm merged
  unfold arranged
  cases prune with
  | true => simpa using sorted
  | false =>
    have ids : ∀ i, i ∈ (Component.sortByName merged).filterMap (·.id) ↔
        i ∈ merged.filterMap (·.id) := fun i => (sorted.filterMap _).mem_iff
    simp only [Bool.false_eq_true, if_false, unlisted_congr ids]
    exact (Component.sortByName_perm _).trans (sorted.append_right _)

theorem referent?_mem {d p : Component} (h : referent? d existing = .ok (some p)) :
    p ∈ existing := by
  unfold referent? at h
  split at h
  · exact List.mem_of_find?_eq_some (Except.ok.inj h)
  · rcases withName?_ok h with ⟨none, -⟩ | ⟨c, hc, same, -⟩
    · cases none
    · cases same
      exact hc
  · cases h

/-- An id in a target is declared or that of an existing mapper. -/
theorem target_id {ds target : List Component} {m : Component} {prune : Bool} {i : String}
    (h : Mapper.target ds existing prune = .ok target) (hm : m ∈ target) (hid : m.id = some i) :
    (∃ d ∈ ds, d.id = some i) ∨ ∃ p ∈ existing, p.id = some i := by
  obtain ⟨merged, related, rfl⟩ := target_eq_ok_iff.mp h
  rcases List.mem_append.mp ((arranged_perm existing merged prune).mem_iff.mp hm) with hm | hm
  · obtain ⟨d, hd, resolved⟩ := exists_left_of_mem related hm
    obtain ⟨_ | p, hr, rfl⟩ := resolve_eq_ok_iff.mp resolved
    · refine .inl ⟨d, hd, ?_⟩
      have : d.id.or none = some i := hid
      rwa [Option.or_none] at this
    · rcases Option.or_eq_some_iff.mp (show d.id.or p.id = some i from hid) with given | ⟨-, same⟩
      · exact .inl ⟨d, hd, given⟩
      · exact .inr ⟨p, referent?_mem hr, same⟩
  · split at hm
    · cases hm
    · exact .inr ⟨m, (List.mem_filter.mp hm).1, hid⟩

end Mapper

namespace Server

open Mapper

variable {s : Server} {f realm k : String} {d p : Component} {existing : List Component}

/-- The mapper `p` of the id `k` is the one that `d` refers to: it has the id that `d` gives, or `d`
gives none and it is the only one with the name that `d` gives. -/
def Refers (s : Server) (f realm : String) (d : Component) (k : String) (p : Component) : Prop :=
  s.mapper? f realm k = some p ∧ (d.id = some k ∨ d.id = none ∧ d.name.isSome ∧ p.name = d.name ∧
    ∀ k' q, s.mapper? f realm k' = some q → q.name = d.name → k' = k)

/-- There is no mapper that `d` refers to. -/
def Unreferred (s : Server) (f realm : String) (d : Component) : Prop :=
  (∀ i, d.id = some i → s.mapper? f realm i = none) ∧
    (d.id = none → d.name.isSome → ∀ k q, s.mapper? f realm k = some q → q.name ≠ d.name)

theorem Refers.unique {k' : String} {p' : Component} (h : s.Refers f realm d k p)
    (h' : s.Refers f realm d k' p') : k = k' ∧ p = p' := by
  obtain ⟨there, how⟩ := h
  obtain ⟨there', how'⟩ := h'
  have same : k = k' := by
    rcases how with hid | ⟨hid, -, -, only⟩ <;> rcases how' with hid' | ⟨hid', -, hn, -⟩
    · exact Option.some.inj (hid.symm.trans hid')
    · cases hid.symm.trans hid'
    · cases hid.symm.trans hid'
    · exact (only k' p' there' hn).symm
  subst same
  exact ⟨rfl, Option.some.inj (there.symm.trans there')⟩

theorem Unreferred.not_refers (h : s.Unreferred f realm d) : ¬s.Refers f realm d k p := by
  rintro ⟨there, hid | ⟨hid, hn, same, -⟩⟩
  · cases (h.1 k hid).symm.trans there
  · exact h.2 hid hn k p there same

/-! ### In a listing -/

theorem mem_listing (listing : existing.Perm (s.children f realm)) {c : Component} :
    c ∈ existing ↔ ∃ k p, s.mapper? f realm k = some p ∧ redact p = c :=
  listing.mem_iff.trans mem_children

theorem Keyed.listing_nodup (keyed : s.Keyed) (listing : existing.Perm (s.children f realm)) :
    (existing.map (·.id)).Nodup :=
  (listing.map _).nodup_iff.mpr (keyed.children_nodup f realm)

/-- Looking up an id in a listing is looking it up in the store. -/
theorem Keyed.withId?_listing (keyed : s.Keyed) (listing : existing.Perm (s.children f realm)) :
    withId? k existing = (s.mapper? f realm k).map redact := by
  cases hm : s.mapper? f realm k with
  | none =>
    refine List.find?_eq_none.mpr fun c hc same => ?_
    obtain ⟨k', p, hp, rfl⟩ := (mem_listing listing).mp hc
    have hid : p.id = some k := of_decide_eq_true same
    cases (keyed.mapper?_id hp).symm.trans hid
    cases hm.symm.trans hp
  | some p =>
    have there : (withId? k existing).isSome := by
      refine List.find?_isSome.mpr ⟨redact p, (mem_listing listing).mpr ⟨k, p, hm, rfl⟩, ?_⟩
      exact decide_eq_true ((redact_id p).trans (keyed.mapper?_id hm))
    obtain ⟨c, hc⟩ := Option.isSome_iff_exists.mp there
    obtain ⟨k', q, hq, rfl⟩ := (mem_listing listing).mp (List.mem_of_find?_eq_some hc)
    have found := List.find?_some hc
    have hid : q.id = some k := of_decide_eq_true found
    cases (keyed.mapper?_id hq).symm.trans hid
    cases hm.symm.trans hq
    exact hc

/-- What is found by a name in a listing is the only stored mapper of the name. -/
theorem Keyed.withName?_listing (keyed : s.Keyed) (listing : existing.Perm (s.children f realm))
    {n : String} {found : Option Component} (h : withName? n existing = .ok found) :
    (found = none ∧ ∀ k q, s.mapper? f realm k = some q → q.name ≠ some n) ∨
      ∃ k p, found = some (redact p) ∧ s.mapper? f realm k = some p ∧ p.name = some n ∧
        ∀ k' q, s.mapper? f realm k' = some q → q.name = some n → k' = k := by
  rcases withName?_ok h with ⟨rfl, none⟩ | ⟨c, hc, rfl, hn, only⟩
  · exact .inl ⟨rfl, fun k q hq => none (redact q) ((mem_listing listing).mpr ⟨k, q, hq, rfl⟩)⟩
  · obtain ⟨k, p, hp, rfl⟩ := (mem_listing listing).mp hc
    refine .inr ⟨k, p, rfl, hp, hn, fun k' q hq same => ?_⟩
    have shown := only (redact q) ((mem_listing listing).mpr ⟨k', q, hq, rfl⟩) same
    have ids : (redact q).id = (redact p).id := congrArg Component.id shown
    rw [redact_id, redact_id, keyed.mapper?_id hq, keyed.mapper?_id hp] at ids
    exact Option.some.inj ids

/-- A declared mapper that can be told apart refers to no mapper or to one. -/
theorem Keyed.referent?_ok (keyed : s.Keyed) (listing : existing.Perm (s.children f realm))
    {found : Option Component} (h : referent? d existing = .ok found) :
    (found = none ∧ s.Unreferred f realm d) ∨
      ∃ k p, found = some (redact p) ∧ s.Refers f realm d k p := by
  unfold referent? at h
  cases hid : d.id with
  | some i =>
    simp only [hid, Except.ok.injEq, keyed.withId?_listing listing] at h
    cases hm : s.mapper? f realm i with
    | none =>
      refine .inl ⟨by rw [← h, hm]; rfl, fun j hj => ?_, fun none => ?_⟩
      · cases hid.symm.trans hj
        exact hm
      · cases hid.symm.trans none
    | some p => exact .inr ⟨i, p, by rw [← h, hm]; rfl, hm, .inl hid⟩
  | none =>
    cases hn : d.name with
    | none =>
      simp only [hid, hn, Except.ok.injEq] at h
      refine .inl ⟨h.symm, fun i hi => ?_, fun _ some => ?_⟩
      · cases hid.symm.trans hi
      · simp [hn] at some
    | some n =>
      simp only [hid, hn] at h
      rcases keyed.withName?_listing listing h with ⟨rfl, none⟩ | ⟨k, p, rfl, hp, same, only⟩
      · refine .inl ⟨rfl, fun i hi => ?_, fun _ _ => hn ▸ none⟩
        cases hid.symm.trans hi
      · exact .inr ⟨k, p, rfl, hp, .inr ⟨hid, by simp [hn], hn ▸ same, hn ▸ only⟩⟩

theorem Refers.referent? (h : s.Refers f realm d k p) (keyed : s.Keyed)
    (listing : existing.Perm (s.children f realm)) :
    Mapper.referent? d existing = .ok (some (redact p)) := by
  obtain ⟨there, hid | ⟨hid, hn, same, only⟩⟩ := h
  · simp only [Mapper.referent?, hid, keyed.withId?_listing listing, there, Option.map_some]
  · obtain ⟨n, hn⟩ := Option.isSome_iff_exists.mp hn
    simp only [Mapper.referent?, hid, hn]
    have nodup : existing.Nodup := List.Nodup.of_map _ (keyed.listing_nodup listing)
    refine withName?_of_unique nodup ((mem_listing listing).mpr ⟨k, p, there, rfl⟩)
      (same.trans hn) fun e he hen => ?_
    obtain ⟨k', q, hq, rfl⟩ := (mem_listing listing).mp he
    have : k' = k := only k' q hq (hen.trans hn.symm)
    subst this
    cases hq.symm.trans there
    rfl

theorem Unreferred.referent? (h : s.Unreferred f realm d) (keyed : s.Keyed)
    (listing : existing.Perm (s.children f realm)) : Mapper.referent? d existing = .ok none := by
  unfold Mapper.referent?
  cases hid : d.id with
  | some i => simp only [keyed.withId?_listing listing, h.1 i hid, Option.map_none]
  | none =>
    cases hn : d.name with
    | none => rfl
    | some n =>
      have none : existing.filter (·.name = some n) = [] := by
        refine List.filter_eq_nil_iff.mpr fun e he => ?_
        obtain ⟨k, q, hq, rfl⟩ := (mem_listing listing).mp he
        have ne := h.2 hid (by simp [hn]) k q hq
        exact fun same => ne (hn ▸ of_decide_eq_true same)
      simp only [withName?, none, Component.unique]

end Server

end UserFederation
