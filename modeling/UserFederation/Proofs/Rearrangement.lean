import UserFederation.Proofs.Satisfaction
import UserFederation.Proofs.Ways

/-! What a run makes of a federation that is as declared already. The mappers to end up with are
those that there are, but they are put together anew, declared ones first, and then sorted by name;
so mappers of the same name can come in another order, which counts as a change. `sortByName_eq_iff`
says which order comes out of the sort, and `idle_iff_of_holds` when the run has nothing to do. -/

namespace UserFederation

open Component Dialogue Reconcile

/-! ### The order of items in a list -/

section Order

variable {α : Type} {l r : List α} {a b x : α}

/-- In a list, `a` comes before `b`. -/
def Before (l : List α) (a b : α) : Prop := [a, b].Sublist l

theorem Before.left_mem (h : Before l a b) : a ∈ l := h.subset (by simp)

theorem Before.right_mem (h : Before l a b) : b ∈ l := h.subset (by simp)

theorem before_cons : Before (x :: l) a b ↔ a = x ∧ b ∈ l ∨ Before l a b := by
  unfold Before
  rw [List.sublist_cons_iff, or_comm]
  simp

theorem before_append : Before (l ++ r) a b ↔ Before l a b ∨ (a ∈ l ∧ b ∈ r) ∨ Before r a b := by
  induction l with
  | nil => simp [Before]
  | cons x l ih =>
    rw [List.cons_append, before_cons, before_cons, ih, List.mem_append, List.mem_cons]
    grind

theorem Before.asymm (nodup : l.Nodup) (h : Before l a b) : ¬Before l b a := by
  induction l with
  | nil => simp [Before] at h
  | cons x l ih =>
    obtain ⟨new, nodup⟩ := List.nodup_cons.mp nodup
    intro h'
    rcases before_cons.mp h with ⟨ha, hb⟩ | h <;> rcases before_cons.mp h' with ⟨hb', ha'⟩ | h'
    · exact new (hb' ▸ hb)
    · exact new (ha ▸ h'.right_mem)
    · exact new (hb' ▸ h.right_mem)
    · exact ih nodup h h'

theorem before_or_before (ha : a ∈ l) (hb : b ∈ l) (ne : a ≠ b) : Before l a b ∨ Before l b a := by
  induction l with
  | nil => cases ha
  | cons x l ih =>
    rw [before_cons, before_cons]
    rcases List.mem_cons.mp ha with first | ha <;> rcases List.mem_cons.mp hb with first' | hb
    · exact absurd (first.trans first'.symm) ne
    · exact .inl (.inl ⟨first, hb⟩)
    · exact .inr (.inl ⟨first', ha⟩)
    · exact (ih ha hb).imp .inr .inr

/-- A list without repetitions is known by its items and the order in which they come. -/
theorem eq_of_before {l' : List α} (nodup : l'.Nodup) (perm : l.Perm l')
    (order : ∀ a b, Before l a b → Before l' a b) : l = l' := by
  refine @List.Perm.eq_of_pairwise _ (Before l') _ _ ?_ ?_ ?_ perm
  · intro a b _ _ h h'
    exact absurd h' (h.asymm nodup)
  · exact List.pairwise_iff_forall_sublist.mpr (order _ _)
  · exact List.pairwise_iff_forall_sublist.mpr id

end Order

/-! ### Sorting by name -/

section Sorting

variable {l r sorted : List Component} {a b : Component}

theorem Before.sortByName (h : Before l a b) (le : a.nameOrEmpty ≤ b.nameOrEmpty) :
    Before (sortByName l) a b :=
  List.pair_sublist_mergeSort (fun a b c => by simpa using String.le_trans)
    (fun a b => by simpa using String.le_total ..) (decide_eq_true le) h

theorem Before.name_le (h : Before sorted a b)
    (ordered : sorted.Pairwise fun a b => a.nameOrEmpty ≤ b.nameOrEmpty) :
    a.nameOrEmpty ≤ b.nameOrEmpty := List.pairwise_iff_forall_sublist.mp ordered h

/-- Sorting leads to a list that is in order just if components of the same name come in the order
of that list before. -/
theorem sortByName_eq_iff (nodup : sorted.Nodup) (perm : l.Perm sorted)
    (ordered : sorted.Pairwise fun a b => a.nameOrEmpty ≤ b.nameOrEmpty) :
    sortByName l = sorted ↔
      ∀ a b, Before sorted a b → a.nameOrEmpty = b.nameOrEmpty → Before l a b := by
  have other : ∀ {l' : List Component}, l'.Perm sorted → ∀ {a b}, Before sorted a b →
      Before l' a b ∨ Before l' b a := by
    intro l' perm' a b h
    refine before_or_before (perm'.mem_iff.mpr h.left_mem) (perm'.mem_iff.mpr h.right_mem) ?_
    rintro rfl
    exact h.asymm nodup h
  constructor
  · rintro same a b h tie
    rcases other perm h with there | back
    · exact there
    · have sent := back.sortByName (tie ▸ String.le_refl _)
      rw [same] at sent
      exact absurd sent (h.asymm nodup)
  · intro ties
    have perm' : (sortByName l).Perm sorted := (sortByName_perm l).trans perm
    refine (eq_of_before (perm'.nodup_iff.mpr nodup) perm'.symm fun a b h => ?_).symm
    rcases other perm' h with there | back
    · exact there
    · -- Both orders can only come about if the names are the same, and then the sort keeps `l`.
      have tie := String.le_antisymm (h.name_le ordered) (back.name_le (sortByName_sorted l))
      exact (ties a b h tie).sortByName (h.name_le ordered)

/-- Sorting the beginning of a list first makes no difference. -/
theorem sortByName_sortByName_append (nodup : (l ++ r).Nodup) :
    sortByName (sortByName l ++ r) = sortByName (l ++ r) := by
  have perm : (sortByName l ++ r).Perm (l ++ r) := (sortByName_perm l).append_right r
  have sorted := sortByName_perm (l ++ r)
  have nodup' := sorted.nodup_iff.mpr nodup
  refine (sortByName_eq_iff nodup' (perm.trans sorted.symm) (sortByName_sorted _)).mpr ?_
  intro a b h tie
  have order := (sortByName_eq_iff nodup' sorted.symm (sortByName_sorted _)).mp rfl a b h tie
  rw [before_append] at order ⊢
  rcases order with inside | ⟨ha, hb⟩ | outside
  · exact .inl (inside.sortByName (tie ▸ String.le_refl _))
  · exact .inr (.inl ⟨(sortByName_perm l).mem_iff.mpr ha, hb⟩)
  · exact .inr (.inr outside)

end Sorting

/-! ### Putting the mappers together -/

namespace Mapper

variable {mappers selected ds target : List Component} {prune : Bool}

/-- Some of the mappers first, in an order of their own, then the others. -/
def rearranged (selected mappers : List Component) : List Component :=
  selected ++ mappers.filter (· ∉ selected)

theorem rearranged_perm (nodup : mappers.Nodup) (once : selected.Nodup) (sub : selected ⊆ mappers) :
    (rearranged selected mappers).Perm mappers :=
  perm_append_filter once nodup sub fun b _ => by simp

/-- Where each declared mapper changes nothing in the mapper that it refers to, those to end up with
are the ones there, with the selected ones first, sorted by name. -/
theorem target_selected (identified : ∀ b ∈ mappers, b.id.isSome)
    (nodup : (mappers.map (·.id)).Nodup) (once : selected.Nodup)
    (selects : List.Forall₂ (fun m b => resolve mappers m = .ok b) ds selected)
    (sub : selected ⊆ mappers) (all : prune = false ∨ mappers ⊆ selected) :
    Mapper.target ds mappers prune = .ok (sortByName (rearranged selected mappers)) := by
  refine target_eq_ok_iff.mpr ⟨selected, selects, ?_⟩
  have perm := rearranged_perm nodup.of_map once sub
  cases prune with
  | true =>
    have none : mappers.filter (· ∉ selected) = [] :=
      List.filter_eq_nil_iff.mpr fun b hb => by simpa using all.resolve_left Bool.false_ne_true.symm hb
    rw [arranged, if_pos rfl, rearranged, none, List.append_nil]
  | false =>
    have listed : ∀ b, b ∈ sortByName selected ↔ b ∈ selected :=
      fun b => (sortByName_perm selected).mem_iff
    have others : mappers.filter (unlisted ((sortByName selected).filterMap (·.id))) =
        mappers.filter (· ∉ selected) := by
      refine List.filter_congr fun b hb => ?_
      rw [Bool.eq_iff_iff, decide_eq_true_iff, ← listed]
      exact unlisted_iff identified nodup (fun b hb => sub ((listed b).mp hb)) hb
    rw [arranged, if_neg Bool.false_ne_true, others]
    exact (sortByName_sortByName_append (perm.nodup_iff.mpr nodup.of_map)).symm

end Mapper

/-! ### A federation that is as declared -/

variable {d : Declaration} {existing : Federation} {selected : List Component}

/-- All that a declaration asks for is there in a federation. Its mappers refer to the selected
ones, in their order. -/
structure Federation.Holds (existing : Federation) (d : Declaration) (selected : List Component) :
    Prop where
  config : existing.component.config.isSome
  sorted : existing.mappers.Pairwise fun a b => a.nameOrEmpty ≤ b.nameOrEmpty
  identified : ∀ b ∈ existing.mappers, b.id.isSome
  nodup : (existing.mappers.map (·.id)).Nodup
  valid : d.validate = .ok ()
  component : existing.component.Carries d.component
  selects : ∀ ds, d.mapperComponents = some ds → List.Forall₂ (fun m b =>
    Mapper.referent? m existing.mappers = .ok (some b) ∧ b.Carries m) ds selected
  once : selected.Nodup
  all : d.mapperComponents.isSome → d.prune = false ∨ existing.mappers ⊆ selected

/-- Putting the mappers together anew leaves a federation as it is: none gets a config that has
none, and mappers of the same name keep their order. -/
structure Federation.Stays (existing : Federation) (d : Declaration) (selected : List Component) :
    Prop where
  configs : ∀ ds, d.mapperComponents = some ds → ∀ m ∈ ds, ∀ b,
    Mapper.referent? m existing.mappers = .ok (some b) → m.config.isSome → b.config.isSome
  ties : d.mapperComponents.isSome → ∀ a b, Before existing.mappers a b →
    a.nameOrEmpty = b.nameOrEmpty → Before (Mapper.rearranged selected existing.mappers) a b

theorem supported_of_valid (valid : d.validate = .ok ()) {ds : List Component}
    (declared : d.mapperComponents = some ds) :
    checkMappersSupported d.providerId ds.length = .ok () := by
  obtain ⟨ms, hms, rfl⟩ := Option.map_eq_some_iff.mp declared
  rw [List.length_map]
  exact ((sound_of_valid valid).2 ms hms).1

namespace Federation.Holds

open Mapper

theorem selected_mem (h : existing.Holds d selected) {ds : List Component}
    (declared : d.mapperComponents = some ds) : selected ⊆ existing.mappers := by
  intro b hb
  obtain ⟨m, -, refers, -⟩ := exists_left_of_mem (h.selects ds declared) hb
  exact referent?_mem refers

/-- A declaration whose federation holds all that it asks for is turned down only for the provider
of that federation, where it gives none itself. -/
theorem supported (h : existing.Holds d selected) {ds : List Component}
    (declared : d.mapperComponents = some ds) :
    checkMappersSupported (d.providerId.or existing.component.providerId) ds.length = .ok () ∨
      d.providerId = none ∧ ∃ p ∈ mapperlessProviders, existing.component.providerId = some p ∧
        checkMappersSupported (d.providerId.or existing.component.providerId) ds.length =
          .error (.invalid (.mappersUnsupported p)) := by
  cases given : d.providerId with
  | some p =>
    rw [Option.some_or, ← given]
    exact .inl (supported_of_valid h.valid declared)
  | none =>
    rw [Option.none_or]
    cases found : existing.component.providerId with
    | none => exact .inl rfl
    | some p =>
      by_cases bad : 0 < ds.length ∧ mapperlessProviders.contains p
      · refine .inr ⟨rfl, p, by simpa using bad.2, rfl, ?_⟩
        rw [checkMappersSupported, if_pos bad]
      · refine .inl ?_
        rw [checkMappersSupported, if_neg bad]

theorem rearranged_perm (h : existing.Holds d selected) {ds : List Component}
    (declared : d.mapperComponents = some ds) :
    (rearranged selected existing.mappers).Perm existing.mappers :=
  Mapper.rearranged_perm h.nodup.of_map h.once (h.selected_mem declared)

theorem target_ok (h : existing.Holds d selected) {ds : List Component}
    (declared : d.mapperComponents = some ds) :
    ∃ target, Mapper.target ds existing.mappers d.prune = .ok target := by
  have resolved : ∀ m ∈ ds, ∃ t, Mapper.resolve existing.mappers m = .ok t := by
    intro m hm
    obtain ⟨b, -, hb, -⟩ := exists_right_of_mem (h.selects ds declared) hm
    exact ⟨_, resolve_eq_ok_iff.mpr ⟨_, hb, rfl⟩⟩
  obtain ⟨merged, hmerged⟩ := exists_related resolved
  exact ⟨_, target_eq_ok_iff.mpr ⟨merged, hmerged, rfl⟩⟩

/-- Where no mapper is given a config that it lacks, the mappers to end up with are the ones there,
sorted anew. -/
theorem target_eq (h : existing.Holds d selected) {ds : List Component}
    (declared : d.mapperComponents = some ds)
    (configs : ∀ m ∈ ds, ∀ b, referent? m existing.mappers = .ok (some b) → m.config.isSome →
      b.config.isSome) :
    Mapper.target ds existing.mappers d.prune =
      .ok (sortByName (rearranged selected existing.mappers)) := by
  have unchanged := related_imp (h.selects ds declared) fun m hm b _ hmb =>
    resolve_eq_ok_iff.mpr ⟨some b, hmb.1, mergedWith_eq_self.mpr ⟨hmb.2, configs m hm b hmb.1⟩⟩
  exact target_selected h.identified h.nodup h.once unchanged (h.selected_mem declared)
    (h.all (by rw [declared]; rfl))

/-- The mappers to end up with are those that there are just if the federation stays as it is. -/
theorem target_same_iff (h : existing.Holds d selected) {ds target : List Component}
    (declared : d.mapperComponents = some ds)
    (ok : Mapper.target ds existing.mappers d.prune = .ok target) :
    List.Forall₂ Component.Same target existing.mappers ↔ existing.Stays d selected := by
  have perm := h.rearranged_perm declared
  have order := sortByName_eq_iff h.nodup.of_map perm h.sorted
  constructor
  · intro same
    have configs : ∀ m ∈ ds, ∀ b, referent? m existing.mappers = .ok (some b) →
        m.config.isSome → b.config.isSome := by
      intro m hm b hb
      obtain ⟨b', -, hb', laid⟩ := (target_same h.identified h.nodup ok same).1 m hm
      cases hb.symm.trans hb'
      exact (mergedWith_eq_self.mp laid).2
    cases ok.symm.trans (h.target_eq declared configs)
    -- Now only the order may differ, and a mapper is known by its id.
    have equal : sortByName (rearranged selected existing.mappers) = existing.mappers := by
      rw [← List.forall₂_eq_eq_eq]
      refine related_imp same fun t ht b hb alike => ?_
      have member := perm.mem_iff.mp ((sortByName_perm _).mem_iff.mp ht)
      exact List.inj_on_of_nodup_map h.nodup member hb alike.id
    refine ⟨fun ds' declared' => ?_, fun _ => order.mp equal⟩
    cases declared.symm.trans declared'
    exact configs
  · intro stays
    cases ok.symm.trans (h.target_eq declared (stays.configs ds declared))
    rw [order.mpr (stays.ties (by rw [declared]; rfl))]
    exact List.forall₂_same.mpr fun _ _ => rfl

theorem component_same (h : existing.Holds d selected) (policy : CredentialPolicy) :
    (policy.counted (existing.component.mergedWith d.component)).Same
      (policy.counted existing.component) := by
  refine CredentialPolicy.counted_mergedWith_same.mpr (CredentialPolicy.counted_mergedWith.mpr ?_)
  exact ⟨h.component.toHasFields, fun key _ => h.component.lists key, fun _ => h.config⟩

/-- Unless the provider has no mappers, there is nothing to do just if the federation stays as it
is. -/
theorem changes (h : existing.Holds d selected)
    (supported : ∀ ds, d.mapperComponents = some ds →
      checkMappersSupported (d.providerId.or existing.component.providerId) ds.length = .ok ()) :
    ∃ changes, Changeset.of d (some existing) = .ok changes ∧ ∀ policy,
      (changes.applyTo (some existing)).needsUpdate existing policy = false ↔
        existing.Stays d selected := by
  have found : foundMappers (some existing) = existing.mappers := rfl
  have component : foundComponent (some existing) = existing.component := rfl
  rw [of_eq, found, component]
  cases declared : d.mapperComponents with
  | none =>
    refine ⟨_, rfl, fun policy => ?_⟩
    rw [needsUpdate_eq_false, applyTo_changesWith]
    have stays : existing.Stays d selected :=
      ⟨fun _ hds => absurd (declared.symm.trans hds) nofun,
        fun given => absurd given (by simp [declared])⟩
    have mappers : List.Forall₂ Component.Same existing.mappers existing.mappers :=
      List.forall₂_same.mpr fun _ _ => rfl
    exact iff_of_true ⟨h.component_same policy, mappers⟩ stays
  | some ds =>
    obtain ⟨target, ok⟩ := h.target_ok declared
    simp only [supported ds declared, ok]
    refine ⟨_, rfl, fun policy => ?_⟩
    rw [needsUpdate_eq_false, applyTo_changesWith, ← h.target_same_iff declared ok]
    exact ⟨And.right, fun same => ⟨h.component_same policy, same⟩⟩

end Federation.Holds

/-! ### The run -/

variable {mode : RunMode} {desired : Federation} {outcome : Outcome} {σ : Type}
  {service : Service σ}

/-- An update changes nothing just if it is a dry run, has no id to go by or finds nothing to do. -/
theorem update_reads_iff (s : σ) :
    (∀ x ∈ (update d mode existing desired outcome).exchanges service s,
        x.call.isMutation = false) ↔
      mode.dryRun = true ∨ existing.component.id = none ∨
        desired.needsUpdate existing d.credentialPolicy = false := by
  cases hid : existing.component.id with
  | none =>
    have stuck : update d mode existing desired outcome = .fail (.remote .existingWithoutId) := by
      unfold update Component.existingId
      rw [hid]
      rfl
    simp [stuck]
  | some f =>
    cases need : desired.needsUpdate existing d.credentialPolicy with
    | false => simp [update_idle hid need]
    | true =>
      cases dry : mode.dryRun with
      | true =>
        obtain ⟨o, silent, -⟩ : ∃ o, update d mode existing desired outcome = .done o ∧
          o.endState = desired.render := update_dry hid dry
        simp [silent]
      | false =>
        rw [update_busy hid dry need, exchanges_ask]
        simp [Call.isMutation]

theorem survey_run_found {s s' : σ} {found : Federation} {changes : Changeset}
    (valid : d.validate = .ok ())
    (resolved : (Federation.resolve d.realm d.id d.name).run service s = (.ok (some found), s'))
    (changed : Changeset.of d (some found.undoEcho) = .ok changes) :
    (survey d).run service s = (.ok (some found.undoEcho, changes), s') := by
  have same : (some found).map Federation.undoEcho = some found.undoEcho := rfl
  simp only [survey, run_bind, run_lift, valid, resolved, same, changed, run_done]

/-- A declaration whose federation holds all that it asks for is turned down for the provider of the
federation, or else nothing has to be done just if the federation stays as it is. Then a run makes
no call that changes anything, and only then if it is no dry run. -/
theorem idle_iff_of_holds (h : existing.Holds d selected) :
    (d.providerId = none ∧ ∃ p ∈ mapperlessProviders, existing.component.providerId = some p ∧
        Changeset.of d (some existing) = .error (.invalid (.mappersUnsupported p))) ∨
      ∃ changes, Changeset.of d (some existing) = .ok changes ∧
        (∀ policy, (changes.applyTo (some existing)).needsUpdate existing policy = false ↔
          existing.Stays d selected) ∧
        ∀ {σ : Type} (service : Service σ) (s s' : σ) (found : Federation) (mode : RunMode),
          (Federation.resolve d.realm d.id d.name).run service s = (.ok (some found), s') →
          found.undoEcho = existing → d.state = .present →
          ((∀ x ∈ (reconcile d mode).exchanges service s, x.call.isMutation = false) ↔
            mode.dryRun = true ∨ existing.component.id = none ∨ existing.Stays d selected) := by
  by_cases supported : ∀ ds, d.mapperComponents = some ds →
    checkMappersSupported (d.providerId.or existing.component.providerId) ds.length = .ok ()
  · obtain ⟨changes, changed, idle⟩ := h.changes supported
    refine .inr ⟨changes, changed, idle, ?_⟩
    rintro σ service s s' found mode resolved rfl present
    have way : conclude d mode (some found.undoEcho) changes =
        update d mode found.undoEcho (changes.applyTo (some found.undoEcho))
          (report (some found.undoEcho) changes) := by
      simp only [conclude, present]
    rw [reconcile_eq, exchanges_bind, survey_run_found h.valid resolved changed, ← idle,
      ← update_reads_iff s', ← way, List.forall_mem_append]
    exact and_iff_right ((survey_reads d).exchanges s)
  · push Not at supported
    obtain ⟨ds, declared, unsupported⟩ := supported
    obtain ⟨given, p, hp, found, refused⟩ := (h.supported declared).resolve_left unsupported
    refine .inl ⟨given, p, hp, found, ?_⟩
    have component : foundComponent (some existing) = existing.component := rfl
    simp only [of_eq, declared, component, refused]

namespace Federation.Sample

theorem provided_holds : provided.Holds asked [posted] where
  config := rfl
  sorted := List.pairwise_singleton _ _
  identified := by decide
  nodup := by decide
  valid := rfl
  component := ⟨provided_fields, fun key values hv => by
    obtain ⟨v, given, rfl⟩ := configList?_component.mp hv
    exact provided_lists given⟩
  selects ds declared := by
    cases declared
    have fields : posted.HasFields { name := some "mail", providerType := some mapperType } :=
      ⟨.none, fun _ h => h, .none, fun _ h => h, .none⟩
    exact .cons ⟨rfl, fields, fun _ => .none⟩ .nil
  once := List.nodup_singleton _
  all _ := .inr fun _ h => h

end Federation.Sample

open Federation.Sample in
theorem provided_idle : provided.Holds asked [posted] ∧ provided.Stays asked [posted] ∧
    ∃ changes, Changeset.of asked (some provided) = .ok changes ∧
      ∀ policy, (changes.applyTo (some provided)).needsUpdate provided policy = false := by
  have stays : provided.Stays asked [posted] := by
    refine ⟨fun ds declared m hm b _ => ?_, fun _ a b h => ?_⟩
    · cases declared
      cases List.mem_singleton.mp hm
      exact nofun
    · simp [Before, provided] at h
  refine ⟨provided_holds, stays, ?_⟩
  rcases idle_iff_of_holds provided_holds with ⟨-, p, -, found, -⟩ | ⟨changes, changed, idle, -⟩
  · cases found
  · exact ⟨changes, changed, fun policy => (idle policy).mpr stays⟩

namespace Federation.Sample

def twin (id : String) : Component :=
  { id := some id, name := some "x", providerType := some mapperType }

/-- A federation with two mappers of one name. -/
def twins : Federation := ⟨provided.component, [twin "a", twin "b"]⟩

/-- Both mappers are declared by their ids, the second one first. -/
def swapped : Declaration :=
  { id := some "people", mappers := some [{ id := some "b" }, { id := some "a" }] }

theorem twins_hold : twins.Holds swapped [twin "b", twin "a"] where
  config := rfl
  sorted := by simp [twins, twin, nameOrEmpty]
  identified := by decide
  nodup := by decide
  valid := rfl
  component := ⟨⟨fun _ h => h, .none, .none, fun _ h => h, .none⟩, fun _ => .none⟩
  selects ds declared := by
    cases declared
    have fields : ∀ id, (twin id).HasFields { id := some id, providerType := some mapperType } :=
      fun id => ⟨fun _ h => h, .none, .none, fun _ h => h, .none⟩
    exact .cons ⟨rfl, fields "b", fun _ => .none⟩ (.cons ⟨rfl, fields "a", fun _ => .none⟩ .nil)
  once := by decide
  all _ := .inr (by decide)

end Federation.Sample

open Federation.Sample in
theorem swapped_twins_update : twins.Holds swapped [twin "b", twin "a"] ∧
    ∃ changes, Changeset.of swapped (some twins) = .ok changes ∧
      ∀ policy, (changes.applyTo (some twins)).needsUpdate twins policy = true := by
  obtain ⟨changes, changed, idle⟩ := twins_hold.changes fun _ _ => rfl
  refine ⟨twins_hold, changes, changed, fun policy => ?_⟩
  have moved : ¬twins.Stays swapped [twin "b", twin "a"] := by
    intro stays
    have order := stays.ties rfl (twin "a") (twin "b") (List.Sublist.refl _) rfl
    exact absurd order (by unfold Before; decide)
  simpa using (idle policy).not.mpr moved

end UserFederation
