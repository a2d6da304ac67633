import UserFederation.Proofs.Arrival
import UserFederation.Proofs.Becoming
import UserFederation.Proofs.Interruption

/-! Running a declaration again after a run broke off in its plan. The federation is stored as
declared then, so the new run finds it; either it changes nothing and fails, or it brings the mappers
to where the old plan would have brought them (`Broken.retry`). -/

namespace UserFederation.Server

open Dialogue Mapper Reconcile

variable {supply : Supply} {s s₁ u v w : Server} {d : Declaration} {f k k' : String} {e e' : Stored}
  {changes : Changeset} {mode : RunMode} {o : Outcome} {ds : List Component} {fault : Fault}
  {n : Nat} {past rest plan : List Action}

/-- What a server and a declaration have to be like for a run to be resumed where it broke off. -/
structure Resumable (supply : Supply) (s : Server) (d : Declaration) : Prop where
  reachable : Reachable supply s
  unignored : s.ignoredKeys = []
  unarmed : s.failNext = none
  /-- Default mappers get new ids, and lose nothing when they are accepted once more. -/
  defaults : ∀ provider mappers, s.defaults.get? provider = some mappers → ∀ m ∈ mappers,
    m.id = none ∧ ∀ values, m.configList? principalKey = some values → Filled values
  fresh : Fresh supply s d
  valid : d.validate = .ok ()
  present : d.state = .present
  /-- The federation is found again. -/
  type : d.id.isSome ∨ d.providerType = federationType
  mappers : ∀ ds, d.mapperComponents = some ds → ∀ m ∈ ds, m.id = none ∧ m.parentId = none
  names : ∀ ds, d.mapperComponents = some ds → ds.Pairwise fun m n => m.name ≠ n.name
  /-- The federation is not its own parent. -/
  rootless : ∀ f e, s.Found d f e → e.component.parentId ≠ some f ∧ d.parentId ≠ some f
  rootless_new : s.Unfound d → d.id ≠ some (d.parentId.getD d.realm)
  /-- Mappers that wait for the federation lose nothing when they are accepted once more. -/
  orphans : s.Unfound d → ∀ f, d.id = some f → ∀ k p, s.mapper? f d.realm k = some p →
    ∀ values, p.configList? principalKey = some values → Filled values

theorem Resumable.orderly (h : Resumable supply s d) : Orderly supply s :=
  h.reachable.orderly h.fresh h.unignored h.unarmed fun provider mappers hd m hm =>
    (h.defaults provider mappers hd m hm).1

theorem Resumable.byName (h : Resumable supply s d) (hds : d.mapperComponents = some ds) :
    ByName ds := by
  have named : ∀ m ∈ ds, m.name.isSome := fun m hm =>
    identified_of_valid h.valid hds m hm (h.mappers ds hds m hm).1
  have names := h.names ds hds
  have symm : Std.Symm fun m n : Component => m.name ≠ n.name := ⟨fun _ _ => Ne.symm⟩
  refine ⟨fun m hm => (h.mappers ds hds m hm).1, fun m hm => (h.mappers ds hds m hm).2,
    fun m hm => ?_, fun m hm => (mapperComponents_eq_some hds hm).1, named,
    fun m hm n hn same => ?_, names.imp fun {m n} ne same => ne (congrArg Component.name same)⟩
  · obtain ⟨t, ht⟩ := (mapperComponents_eq_some hds hm).2
    simp [ht]
  · by_contra ne
    exact names.forall hm hn ne same

theorem ByName.nil : ByName [] := by
  constructor <;> simp

/-- The federation that a run is about: the one that is found, or the one to be created. -/
def Subject (supply : Supply) (s : Server) (d : Declaration) (f : String) : Prop :=
  (∃ e, s.Found d f e) ∨ s.Unfound d ∧ f = d.id.getD (supply.id s.idsIssued)

/-- A run from which a part is left: a plan for the mappers of a federation that is stored as
declared, carried out up to `v`; carried out to its end it would lead to `u`. -/
structure Broken (supply : Supply) (d : Declaration) (f : String) (e : Stored)
    (ds : List Component) (s₁ v u : Server) (past rest : List Action) : Prop where
  begun : Begun supply s₁ d f e
  declared : d.mapperComponents.getD [] = ds
  supported : ∀ ds, d.mapperComponents = some ds →
    checkMappersSupported (d.providerId.or e.component.providerId) ds.length = .ok ()
  byName : ByName ds
  serves : s₁.Serves f d.realm d.prune ds (past ++ rest)
  spares : s₁.Spares f d.realm ds (past ++ rest)
  whole : Steps supply f d.realm (past ++ rest) s₁ u
  done : Steps supply f d.realm past s₁ v
  left : Steps supply f d.realm rest v u

/-! ### A run that breaks off -/

/-- A run that was carried out to its end, and the part of it until it was interrupted. -/
theorem Steps.split (steps : Steps supply f d.realm (past ++ rest) s₁ u)
    (run : (execute d.realm past).run (answer supply) s₁ = (.ok (), v)) :
    Steps supply f d.realm past s₁ v ∧ Steps supply f d.realm rest v u := by
  obtain ⟨v', done, left⟩ := steps.of_append
  cases done.run.symm.trans run
  exact ⟨done, left⟩

/-- The mappers of a federation that was just created lose nothing when they are accepted once
more. -/
theorem Resumable.settled (h : Resumable supply s d) (unfound : s.Unfound d)
    (created : Created supply s d.component d.realm f e.component s₁)
    (hf : f = d.id.getD (supply.id s.idsIssued)) (begun : Begun supply s₁ d f e) {p : Component}
    (hp : s₁.mapper? f d.realm k = some p) : settle (some p) (redact p) = p := by
  refine settle_redact fun values hv => ?_
  obtain ⟨e', he, hr, rfl, own⟩ := mapper?_eq_some_iff.mp hp
  have other : k ≠ f := begun.rooted.ne_of_mapper (by simp [hp])
  rcases created.added k e' other he with old | ⟨-, -, -, provider, mappers, m, hd, hm, form⟩
  · cases hid : d.id with
    | some i =>
      rw [hid, Option.getD_some] at hf
      subst hf
      exact h.orphans unfound f hid k e'.component
        (mapper?_eq_some_iff.mpr ⟨e', old, hr, rfl, own⟩) values hv
    | none =>
      rw [hid, Option.getD_none] at hf
      exact absurd hf.symm
        (h.orderly.parents k e' f old own s.idsIssued (Nat.le_refl _))
  · refine (h.defaults provider mappers hd m hm).2 values ?_
    rw [← hv, form]
    rfl

theorem get?_ne_none_of_get (there : (u.get f d.realm).isSome) : u.components.get? f ≠ none := by
  intro none
  simp [get, stored?, none] at there

/-- An update that is interrupted in its plan. -/
theorem Resumable.broken_updated (h : Resumable supply s d) (found : s.Found d f e)
    (changed : Changeset.of d (some (s.normalized d.realm f e)) = .ok changes)
    (update : s.update supply (changes.applyTo (some (s.normalized d.realm f e))).component
      d.realm = (.ok (), s₁))
    (split : planUpdate (changes.applyTo (some (s.normalized d.realm f e))).mappers
      (s.normalized d.realm f e).mappers f = past ++ rest) (some : rest ≠ [])
    (run : (execute d.realm (past ++ rest)).run (answer supply) s₁ = (.ok (), u))
    (there : (u.get f d.realm).isSome)
    (part : (execute d.realm past).run (answer supply) s₁ = (.ok (), v)) :
    ∃ e' ds, Broken supply d f e' ds s₁ v u past rest := by
  obtain ⟨x, updated, begun, listing⟩ :=
    found.opened h.orderly h.fresh (h.rootless f e found) changed update
  cases hds : d.mapperComponents with
  | none =>
    rw [applyTo_mappers_of_none changed hds] at split
    have idle : past ++ rest = [] := split.symm.trans (planUpdate_eq_nil (.refl _))
    exact absurd (List.append_eq_nil_iff.mp idle).2 some
  | some ds =>
    have byName := h.byName hds
    have declared := byName.declared supply s₁ f d.realm
    have keyed := begun.orderly.keyed
    have target := (applyTo_mappers_of_some changed hds).2
    have serves := planUpdate_serves declared keyed listing target
    have spares : s₁.Spares f d.realm ds (past ++ rest) := fun m hm k p refers same =>
      .inl (split ▸ planUpdate_spares declared keyed listing target hm refers same)
    rw [split] at serves
    have steps := execute_effect begun.orderly begun.rooted (serves.apt keyed declared)
      (Action.distinct_of_apart serves.apart) run (get?_ne_none_of_get there)
    obtain ⟨done, left⟩ := steps.split part
    exact ⟨_, ds, begun, by rw [hds]; rfl, fun _ => updated.supported changed, byName, serves,
      spares, steps, done, left⟩

/-- A creation that is interrupted in its plan. -/
theorem Resumable.broken_created (h : Resumable supply s d) (unfound : s.Unfound d)
    (changed : Changeset.of d none = .ok changes) {c : Component}
    (create : s.create supply (changes.applyTo none).component d.realm = (.ok c, s₁))
    (hid : c.id = some f)
    (planned : planAfterCreation (changes.applyTo none).mappers (s₁.children f d.realm) f d.prune =
      .ok (past ++ rest))
    (run : (execute d.realm (past ++ rest)).run (answer supply) s₁ = (.ok (), u))
    (there : (u.get f d.realm).isSome)
    (part : (execute d.realm past).run (answer supply) s₁ = (.ok (), v)) :
    ∃ e' ds, Broken supply d f e' ds s₁ v u past rest := by
  obtain ⟨e, created, begun, hf⟩ :=
    h.fresh.opened h.orderly (h.rootless_new unfound) changed create hid
  obtain ⟨ds, hds⟩ : ∃ ds, d.mapperComponents.getD [] = ds := ⟨_, rfl⟩
  have perm := applyTo_none_mappers_perm changed
  rw [hds] at perm
  have byName : ByName ds := by
    cases hm : d.mapperComponents with
    | none =>
      rw [hm, Option.getD_none] at hds
      exact hds ▸ .nil
    | some ds' =>
      rw [hm, Option.getD_some] at hds
      exact hds ▸ h.byName hm
  have declared := byName.declared supply s₁ f d.realm
  have keyed := begun.orderly.keyed
  have given : ∀ m ∈ ds, ∀ i, m.id = some i → s₁.mapper? f d.realm i = none := by
    intro m hm i hi
    cases (byName.id m hm).symm.trans hi
  have serves := planAfterCreation_serves declared keyed (.refl _) given perm planned
  have steps := execute_effect begun.orderly begun.rooted (serves.apt keyed declared)
    (Action.distinct_of_apart serves.apart) run (get?_ne_none_of_get there)
  obtain ⟨done, left⟩ := steps.split part
  exact ⟨e, ds, begun, hds, fun _ => created.supported changed, byName, serves,
    fun m _ k p refers _ => .inr (h.settled unfound created hf begun refers.1), steps, done, left⟩

/-- A run that is interrupted has done nothing, or it breaks off in its plan. -/
theorem Resumable.broken (h : Resumable supply s d) (subject : Subject supply s d f)
    (apply : mode.dryRun = false)
    (run : (reconcile d mode).run (answer supply) s = (.ok o, u))
    (there : (u.get f d.realm).isSome) {r : Except Failure Outcome}
    (interrupted : (reconcile d mode).run ((answer supply).failingAt fault) (some n, s) =
      (r, none, v)) :
    n = 0 ∧ v = s ∨
      0 < n ∧ ∃ e ds s₁ past a rest, Broken supply d f e ds s₁ v u past (a :: rest) := by
  have keyed := h.orderly.keyed
  obtain ⟨before, changes', surveyed, concluded⟩ := interrupted_run interrupted
  obtain ⟨-, changed', how⟩ := keyed.surveyed_eq_ok surveyed
  cases run_present keyed h.present apply run with
  | @idle f' e changes found changed same =>
    rcases how with ⟨rfl, unfound⟩ | ⟨f'', e', found', rfl⟩
    · exact absurd found unfound.not_found
    · obtain ⟨rfl, rfl⟩ := found.unique found'
      cases changed.symm.trans changed'
      simp only [conclude, h.present] at concluded
      obtain ⟨busy, -⟩ := update_interrupted apply (normalized_id keyed found.1 d.realm) concluded
      cases same.symm.trans busy
  | @updated f' e changes s₁ _ found changed update plan alive =>
    rcases how with ⟨rfl, unfound⟩ | ⟨f'', e', found', rfl⟩
    · exact absurd found unfound.not_found
    · obtain ⟨rfl, rfl⟩ := found.unique found'
      cases changed.symm.trans changed'
      have same : f' = f := by
        rcases subject with ⟨e', found'⟩ | ⟨unfound, -⟩
        · exact (found.unique found').1
        · exact absurd found unfound.not_found
      subst same
      simp only [conclude, h.present] at concluded
      rcases (update_interrupted apply (normalized_id keyed found.1 d.realm) concluded).2 with
        start | ⟨m, s₁', past, a, rest, rfl, update', split, -, part⟩
      · exact .inl start
      · cases update.symm.trans update'
        rw [split] at plan
        obtain ⟨e', ds, broken⟩ :=
          h.broken_updated found changed update split (by simp) plan there part
        exact .inr ⟨Nat.succ_pos m, e', ds, s₁, past, a, rest, broken⟩
  | @created f' changes c plan s₁ _ unfound changed create hid planned executed =>
    rcases how with ⟨rfl, -⟩ | ⟨f'', e', found', rfl⟩
    · cases changed.symm.trans changed'
      simp only [conclude, h.present] at concluded
      rcases create_interrupted apply concluded with
        start | ⟨m, c', s₁', f'', plan', past, a, rest, rfl, create', hid', planned', rfl, -, part⟩
      · exact .inl start
      · cases create.symm.trans create'
        cases hid.symm.trans hid'
        cases planned.symm.trans planned'
        have same : f' = f := by
          obtain ⟨-, -, -, hf⟩ :=
            h.fresh.opened h.orderly (h.rootless_new unfound) changed create hid
          rcases subject with ⟨e', found'⟩ | ⟨-, hf'⟩
          · exact absurd found' unfound.not_found
          · exact hf.trans hf'.symm
        subst same
        obtain ⟨e', ds, broken⟩ :=
          h.broken_created unfound changed create hid planned executed there part
        exact .inr ⟨Nat.succ_pos m, e', ds, s₁, past, a, rest, broken⟩
    · exact absurd found' unfound.not_found

/-! ### The next run -/

theorem Begun.not_unfound (begun : Begun supply s d f e)
    (type : d.id.isSome ∨ d.providerType = federationType) : ¬s.Unfound d := by
  rintro ⟨given, named⟩
  cases hid : d.id with
  | some i =>
    have same : d.id.or (some f) = some f := begun.formed.given
    rw [hid, Option.some_or, Option.some.injEq] at same
    subst same
    cases (given i hid).symm.trans (stored?_eq_some_iff.mpr ⟨begun.stored, begun.realm⟩)
  | none =>
    have federation : d.providerType = federationType := type.resolve_left (by simp [hid])
    refine (named hid).2 f e begun.stored begun.realm (begun.formed.type ?_)
      (begun.formed.name (named hid).1)
    exact congrArg some federation

/-- The federation that is stored as declared is the one that is found. -/
theorem Begun.found_eq (begun : Begun supply s d f e)
    (type : d.id.isSome ∨ d.providerType = federationType) (found : s.Found d k e') :
    k = f ∧ e' = e := by
  have same : k = f := by
    rcases found.2.2 with hid | ⟨hid, -, named, -, only⟩
    · have given : d.id.or (some f) = some f := begun.formed.given
      rw [hid, Option.some_or] at given
      exact Option.some.inj given
    · have federation : d.providerType = federationType := type.resolve_left (by simp [hid])
      refine (only f e begun.stored begun.realm (begun.formed.type ?_)
        (begun.formed.name named)).symm
      exact congrArg some federation
  subst same
  exact ⟨rfl, Option.some.inj (found.1.symm.trans begun.stored)⟩

/-- An update that keeps the parent keeps what is below what. -/
theorem Updated.below {c x : Component} (updated : Updated s c f e x s₁)
    (he : s.components.get? f = some e) (parent : x.parentId = e.component.parentId)
    (below : s₁.Below k k') : s.Below k k' := by
  refine Relation.TransGen.mono (fun a b link => ?_) _ _ below
  obtain ⟨e', he', hp⟩ := link
  rw [updated.get?] at he'
  split at he'
  · rename_i ha
    cases he'
    exact ⟨e, ha ▸ he, parent ▸ hp⟩
  · exact ⟨e', he', hp⟩

/-- What is below a mapper that the new plan deletes is not the federation: the old plan would have
deleted that mapper as well. -/
theorem Broken.safe (h : Broken supply d f e ds s₁ v u past rest) {p : Component}
    (pruned : d.prune = true) (hp : v.mapper? f d.realm k = some p)
    (free : ∀ m ∈ ds, ∀ p, ¬v.Refers f d.realm m k p) : ¬v.Below f k := by
  have o := h.begun.orderly
  obtain ⟨ids, carried⟩ := h.done.carried o
  have declared := h.byName.declared supply s₁ f d.realm
  have underway := h.serves.underway o declared rfl carried
  have toward := h.serves.toward o h.byName h.spares rfl carried
  have old : s₁.mapper? f d.realm k = some p := by
    rcases underway.origin k p hp with old | ⟨m, hm, placed⟩
    · exact old
    · exact absurd (underway.refers h.byName hm hp placed) (free m hm p)
  have unreferred : ∀ m ∈ ds, ¬s₁.Refers f d.realm m k p := by
    intro m hm refers
    obtain ⟨about, ho, how⟩ := toward.each m hm
    have there : ∃ x, v.About f d.realm m (some x) := by
      rcases how with same | ⟨x, hx, -⟩
      · exact ⟨p, ho.unique (.found refers) ▸ same⟩
      · exact ⟨x, hx⟩
    obtain ⟨x, hx⟩ := there
    cases hx with
    | @found k' _ refers' =>
      rcases refers'.2 with given | ⟨unnamed, named, same, only⟩
      · cases (h.byName.id m hm).symm.trans given
      · have only' := only k p hp (refers.merged_name unnamed)
        subst only'
        exact free m hm x refers'
  have swept := h.serves.swept pruned k p old unreferred
  rcases List.mem_append.mp swept with done | left
  · obtain ⟨i, hi⟩ := carried.exists_id done
    have acted := carried.acted hi
    cases acted.id_eq rfl
    cases acted.deleted.symm.trans hp
  · exact h.left.not_below carried.orderly k left

theorem Broken.mapperComponents_eq (h : Broken supply d f e ds s₁ v u past rest)
    {ds' : List Component} (hds : d.mapperComponents = some ds') : ds' = ds := by
  rw [← h.declared, hds, Option.getD_some]

theorem Broken.begun_again (h : Broken supply d f e ds s₁ v u past rest) : Begun supply v d f e := by
  obtain ⟨ids, carried⟩ := h.done.carried h.begun.orderly
  exact ⟨carried.orderly, carried.federation.trans h.begun.stored, h.begun.realm, h.begun.formed,
    h.begun.rootless⟩

/-- What a run leaves that starts where another one broke off: the mappers as the old plan would
have left them, or as they are if none are declared. -/
def Resumed (d : Declaration) (f : String) (v w : Server) : Prop :=
  match d.mapperComponents with
  | none => ∀ k, w.mapper? f d.realm k = v.mapper? f d.realm k
  | some ds => Reached v w f d.realm d.prune ds

/-- If nothing has to be done, the mappers count as the same. -/
theorem mappers_of_same {desired existing : Federation} {policy : CredentialPolicy}
    (same : desired.needsUpdate existing policy = false) :
    desired.mappers.map Component.canonical = existing.mappers.map Component.canonical := by
  cases policy with
  | always =>
    have alike : desired.canonical = existing.canonical := not_not.mp (of_decide_eq_false same)
    exact congrArg Federation.mappers alike
  | onlyIndirect =>
    have alike : desired.withoutCredential.canonical = existing.withoutCredential.canonical :=
      not_not.mp (of_decide_eq_false same)
    exact congrArg Federation.mappers alike

/-- The new run leaves the mappers alone, if nothing has to be done. -/
theorem Broken.idle (h : Broken supply d f e ds s₁ v u past rest)
    (changed : Changeset.of d (some (v.normalized d.realm f e)) = .ok changes)
    (same : (changes.applyTo (some (v.normalized d.realm f e))).needsUpdate
      (v.normalized d.realm f e) d.credentialPolicy = false) : Resumed d f v v := by
  have begun := h.begun_again
  have o := begun.orderly
  unfold Resumed
  cases hds : d.mapperComponents with
  | none => exact fun _ => rfl
  | some ds' =>
    cases h.mapperComponents_eq hds
    have declared := h.byName.declared supply v f d.realm
    have listing := normalized_listing v d.realm f e
    have target := (applyTo_mappers_of_some changed hds).2
    have serves := planUpdate_serves declared o.keyed listing target
    have idle : planUpdate (changes.applyTo (some (v.normalized d.realm f e))).mappers
        (v.normalized d.realm f e).mappers f = [] :=
      planUpdate_eq_nil_of_canonical (.of_eq (mappers_of_same same))
    exact serves.reached o h.byName (fun m hm k p refers absorbs =>
      .inl (planUpdate_spares declared o.keyed listing target hm refers absorbs))
      (idle ▸ Carried.nil o)

/-- What the plan of a new run deletes is a mapper that the federation is not below. -/
theorem Broken.deletes_safe (h : Broken supply d f e ds s₁ v u past rest)
    (serves : v.Serves f d.realm d.prune ds plan) {i : String} (hi : .delete i ∈ plan) :
    ¬v.Below f i := by
  rcases serves.actions _ hi with ⟨m, -, reason⟩ | ⟨j, same, there, free, pruned⟩
  · cases reason
  · cases same
    obtain ⟨p, hp⟩ := Option.isSome_iff_exists.mp there
    have always : d.prune = true := by
      rcases pruned with pruned | ⟨m, hm, given⟩
      · exact pruned
      · simp [h.byName.id m hm] at given
    exact h.safe always hp free

/-- Once a new run has updated the federation with what it is already, its plan for the mappers can
be carried out, and resumes the old one. -/
theorem Broken.replan (h : Broken supply d f e ds s₁ v u past rest) {x : Component} {v₁ : Server}
    (changed : Changeset.of d (some (v.normalized d.realm f e)) = .ok changes)
    (updated : Updated v ((redact e.component).undoEcho.mergedWith d.component) f e x v₁)
    (begun₁ : Begun supply v₁ d f { e with component := x }) :
    ∃ w, Steps supply f d.realm (planUpdate
      (changes.applyTo (some (v.normalized d.realm f e))).mappers
      (v.normalized d.realm f e).mappers f) v₁ w ∧ Resumed d f v w := by
  have begun := h.begun_again
  have o := begun.orderly
  have mappers := fun k => updated.mapper? begun.stored begun.rootless begun₁.rootless d.realm k
  unfold Resumed
  cases hds : d.mapperComponents with
  | none =>
    rw [applyTo_mappers_of_none changed hds]
    have idle : planUpdate (foundMappers (some (v.normalized d.realm f e)))
      (v.normalized d.realm f e).mappers f = [] := planUpdate_eq_nil (.refl _)
    rw [idle]
    exact ⟨v₁, .nil, mappers⟩
  | some ds' =>
    cases h.mapperComponents_eq hds
    have declared := h.byName.declared supply v f d.realm
    have listing := normalized_listing v d.realm f e
    have target := (applyTo_mappers_of_some changed hds).2
    have serves := planUpdate_serves declared o.keyed listing target
    have declared₁ := h.byName.declared supply v₁ f d.realm
    have keyed₁ := begun₁.orderly.keyed
    have listing₁ := updated.children o.keyed begun.stored begun.rootless begun₁.rootless d.realm ▸
      listing
    have serves₁ := planUpdate_serves declared₁ keyed₁ listing₁ target
    obtain ⟨w, steps⟩ := execute_safe begun₁.orderly begun₁.rooted (serves₁.apt keyed₁ declared₁)
      (Action.distinct_of_apart serves₁.apart) fun i hi below =>
        -- The parent that is declared is the one that is stored.
        have parent := updated.parentId.trans begun.formed.parentId
        h.deletes_safe serves hi (updated.below begun.stored parent below)
    obtain ⟨ids, carried⟩ := steps.carried begun₁.orderly
    have reached := serves₁.reached begun₁.orderly h.byName (fun m hm k p refers same =>
      .inl (planUpdate_spares declared₁ keyed₁ listing₁ target hm refers same)) carried
    exact ⟨w, steps, reached.congr fun k => (mappers k).symm⟩

/-- The new run updates the federation with what it is already, and then its mappers. -/
theorem Broken.resume (h : Broken supply d f e ds s₁ v u past rest)
    (apply : mode.dryRun = false) (found : v.Found d f e)
    (changed : Changeset.of d (some (v.normalized d.realm f e)) = .ok changes)
    (busy : (changes.applyTo (some (v.normalized d.realm f e))).needsUpdate
      (v.normalized d.realm f e) d.credentialPolicy = true) {outcome : Outcome} :
    ∃ o w, (Reconcile.update d mode (v.normalized d.realm f e)
      (changes.applyTo (some (v.normalized d.realm f e))) outcome).run (answer supply) v =
        (.ok o, w) ∧ Resumed d f v w := by
  have begun := h.begun_again
  have o := begun.orderly
  have parent := fun p => begun.formed.parent o begun.stored begun.rootless (p := p)
  obtain ⟨x, v₁, hv₁, updated, begun₁⟩ := found.update o parent begun.rootless
  obtain ⟨w, steps, resumed⟩ := h.replan changed updated begun₁
  obtain ⟨ids, carried⟩ := steps.carried begun₁.orderly
  have shown : w.get f d.realm = some (redact x) := by
    rw [get, stored?_eq_some_iff.mpr ⟨carried.federation.trans begun₁.stored, begun₁.realm⟩]
    rfl
  rw [update_run apply (normalized_id o.keyed begun.stored d.realm) busy, desired_component changed,
    hv₁]
  simp only [steps.run, shown]
  exact ⟨_, w, rfl, resumed⟩

/-- A new run that finds the federation succeeds and resumes the old one. -/
theorem Broken.retry_found (h : Broken supply d f e ds s₁ v u past rest)
    (present : d.state = .present) (apply : mode.dryRun = false) (found : v.Found d f e)
    (surveyed : v.surveyed d = .ok (some (v.normalized d.realm f e), changes))
    (changed : Changeset.of d (some (v.normalized d.realm f e)) = .ok changes) :
    ∃ o w, (reconcile d mode).run (answer supply) v = (.ok o, w) ∧ Resumed d f v w := by
  have keyed := h.begun_again.orderly.keyed
  simp only [reconcile_run, surveyed, conclude, present]
  cases busy : (changes.applyTo (some (v.normalized d.realm f e))).needsUpdate
    (v.normalized d.realm f e) d.credentialPolicy with
  | false =>
    rw [update_idle (normalized_id keyed found.1 d.realm) busy, run_done]
    exact ⟨_, v, rfl, h.idle changed busy⟩
  | true => exact h.resume apply found changed busy

/-- A new run that finds the federation can tell the declared mappers apart. -/
theorem Broken.changed (h : Broken supply d f e ds s₁ v u past rest) :
    ∃ changes, Changeset.of d (some (v.normalized d.realm f e)) = .ok changes := by
  have o := h.begun.orderly
  obtain ⟨ids, carried⟩ := h.done.carried o
  have toward := h.serves.toward o h.byName h.spares rfl carried
  rw [of_eq]
  cases hds : d.mapperComponents with
  | none => exact ⟨_, rfl⟩
  | some ds' =>
    cases h.mapperComponents_eq hds
    have supported : checkMappersSupported (d.providerId.or
        (foundComponent (some (v.normalized d.realm f e))).providerId) ds.length = .ok () :=
      h.supported ds hds
    have found : foundMappers (some (v.normalized d.realm f e)) =
        (v.normalized d.realm f e).mappers := rfl
    obtain ⟨target, ok⟩ := toward.target_ok carried.orderly.keyed
      (normalized_listing v d.realm f e) d.prune
    simp only [supported, found, ok]
    exact ⟨_, rfl⟩

/-- A run that finds the federation again succeeds. -/
theorem Broken.succeeds (h : Broken supply d f e ds s₁ v u past rest) (valid : d.validate = .ok ())
    (present : d.state = .present) (apply : mode.dryRun = false) (found : v.Found d f e) :
    ∃ o w, (reconcile d mode).run (answer supply) v = (.ok o, w) := by
  obtain ⟨changes, changed⟩ := h.changed
  have surveyed := found.surveyed_ok h.begun_again.orderly.keyed valid changed
  obtain ⟨o, w, run, -⟩ := h.retry_found present apply found surveyed changed
  exact ⟨o, w, run⟩

/-- The new run fails and changes nothing, or succeeds and resumes the old one. -/
theorem Broken.retry (h : Broken supply d f e ds s₁ v u past rest) (present : d.state = .present)
    (type : d.id.isSome ∨ d.providerType = federationType) (apply : mode.dryRun = false)
    {r : Except Failure Outcome} (run : (reconcile d mode).run (answer supply) v = (r, w)) :
    (∃ e, r = .error e ∧ w = v) ∨ ∃ o, r = .ok o ∧ Resumed d f v w := by
  have begun := h.begun_again
  cases surveyed : v.surveyed d with
  | error e =>
    rw [reconcile_run, surveyed] at run
    cases run
    exact .inl ⟨e, rfl, rfl⟩
  | ok result =>
    obtain ⟨before, changes⟩ := result
    obtain ⟨-, changed, ⟨rfl, unfound⟩ | ⟨f', e', found, rfl⟩⟩ :=
      begun.orderly.keyed.surveyed_eq_ok surveyed
    · exact absurd unfound (begun.not_unfound type)
    · obtain ⟨rfl, rfl⟩ := begun.found_eq type found
      obtain ⟨o, w', run', resumed⟩ := h.retry_found present apply found surveyed changed
      cases run'.symm.trans run
      exact .inr ⟨o, rfl, resumed⟩

end UserFederation.Server
