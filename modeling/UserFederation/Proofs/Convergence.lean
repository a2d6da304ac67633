import UserFederation.Proofs.Arrival

/-! Running a declaration twice: the second run finds what the first has left, and changes nothing
(`rerun_changes_nothing`). The exceptions are a federation that is created above its own parent
(`rerun_bare_creates_again`), and mappers of one name that come in another order than the server lists
them, with which the federation is sent again (`rerun_swapped_sends_again`). -/

namespace UserFederation.Server

open Dialogue Mapper Reconcile

variable {supply : Supply} {s u : Server} {d : Declaration} {f : String} {mode : RunMode}
  {o : Outcome}

/-- Running a declaration again changes nothing, if the federation, where it is created, is not above
its own parent. A run of changes then succeeds and reports no change; unless two mappers share a name
and may come in another order, no run makes a call that changes anything. -/
theorem rerun_changes_nothing (h : Convergent supply s d)
    (above : s.Unfound d → ∀ id, d.id = some id → ¬s.Below (d.parentId.getD d.realm) id)
    (apply : mode.dryRun = false)
    (first : (reconcile d mode).run (answer supply) s = (.ok o, u)) :
    (∀ again : RunMode, again.dryRun = false → ∃ o' u',
      (reconcile d again).run (answer supply) u = (.ok o', u') ∧ o'.changed = false) ∧
    ((∀ f e, d.mapperComponents.isSome → u.Found d f e →
        (u.children f d.realm).Pairwise fun a b => a.nameOrEmpty ≠ b.nameOrEmpty) →
      ∀ again : RunMode, ∃ f o', (reconcile d again).run (answer supply) u = (.ok o', u) ∧
        o'.changed = false ∧ o'.message = "No changes required to user federation " ++ f ++ "." ∧
          ∀ x ∈ (reconcile d again).exchanges (answer supply) u, x.call.isMutation = false) := by
  have keyed := h.orderly.keyed
  have settled : (∃ f e, Converged supply u d f e) ∨ ∀ again : RunMode, ∃ f o',
      (reconcile d again).run (answer supply) u = (.ok o', u) ∧ o'.changed = false ∧
        o'.message = "No changes required to user federation " ++ f ++ "." ∧
          ∀ x ∈ (reconcile d again).exchanges (answer supply) u, x.call.isMutation = false := by
    cases run_present keyed h.present apply first with
    | idle found changed same =>
      refine .inr fun again => ?_
      obtain ⟨run, reads⟩ := run_up_to_date keyed h.valid h.present found changed same
      exact ⟨_, _, run, rfl, rfl, reads⟩
    | updated found changed update plan there =>
      exact .inl ⟨_, h.converged_updated found changed update plan there⟩
    | created unfound changed create hid planned plan =>
      exact .inl ⟨_, h.converged_created unfound (above unfound) changed create hid planned plan⟩
  rcases settled with ⟨f, e, converged⟩ | idle
  · refine ⟨fun again apply => converged.run_again h.present h.unsynced apply,
      fun names again => ?_⟩
    obtain ⟨o', run, report⟩ := converged.run_idle h.present h.unsynced h.credential
      (fun declared => names f e declared converged.found) again
    exact ⟨f, o', run, report⟩
  · refine ⟨fun again _ => ?_, fun _ => idle⟩
    obtain ⟨f, o', run, unchanged, -⟩ := idle again
    exact ⟨o', u, run, unchanged⟩

/-! ### Samples -/

/-- A supply of ids that are longer and longer rows of one mark. -/
def tally : Supply := ⟨fun n => String.ofList (List.replicate (n + 1) '~'), fun _ => ""⟩

theorem tally_injective (m n : Nat) (h : tally.id m = tally.id n) : m = n := by
  have lengths := congrArg (fun id => id.toList.length) h
  simpa [tally] using lengths

theorem past_tally {id : String} (h : id.toList.head? ≠ some '~') : Past tally s id := by
  rintro n - rfl
  simp [tally, List.replicate_succ] at h

/-- The ids of `tally` are fresh where no id begins with its mark. -/
theorem fresh_tally (realm : d.realm.toList.head? ≠ some '~')
    (stored : ∀ entry ∈ s.components.entries,
      ∀ id ∈ entry.1 :: entry.2.component.parentId.toList, id.toList.head? ≠ some '~')
    (given : ∀ id ∈ d.id.toList ++ d.parentId.toList ++
      (d.mapperComponents.getD []).filterMap (·.id), id.toList.head? ≠ some '~') :
    Fresh tally s d where
  injective := tally_injective
  stored id e he :=
    past_tally (stored (id, e) (SortedMap.get?_eq_some_iff.mp he) id List.mem_cons_self)
  parents id e parent he hp := by
    have entry := stored (id, e) (SortedMap.get?_eq_some_iff.mp he)
    exact past_tally (entry parent (by simp [hp]))
  realm := past_tally realm
  id id hid := past_tally (given id (by simp [hid]))
  parentId parent hp := past_tally (given parent (by simp [hp]))
  mappers ms hms m hm id hid := by
    refine past_tally (given id ?_)
    rw [hms, Option.getD_some]
    exact List.mem_append_right _ (List.mem_filterMap.mpr ⟨m, hm, hid⟩)

theorem target_singleton {m : Component} (bare : m.extra = .empty) (prune : Bool) :
    Mapper.target [m] [] prune = .ok [m] := by
  cases prune <;>
    simp [Mapper.target, Bind.bind, Except.bind, Pure.pure, Except.pure, Component.sortByName,
      resolve_nil, Component.empty_mergedWith bare]

/-- The listing of a server that stores its components in the order of their ids. -/
theorem children_of_values {realm : String} (stored : List Stored)
    (values : s.components.values = stored)
    (ordered : (stored.filter (·.realm = realm)).Pairwise fun a b => a.order ≤ b.order) :
    s.children f realm = ((((stored.filter (·.realm = realm)).map (·.component)).filter
      fun c => c.parentId = some f).map redact) := by
  unfold children list visible
  rw [values, List.mergeSort_of_pairwise]
  simpa using ordered

namespace Sample

/-- A federation as it is stored when only its id is declared. -/
def people : Component :=
  { id := some "people", providerType := some federationType, parentId := some "master" }

def mail : Component := { name := some "mail", providerType := some mapperType }

/-- A federation with one mapper. -/
def withMail : Declaration := { id := some "people", mappers := some [{ name := some "mail" }] }

/-- The federation before its mapper is created. -/
def opened : Server where
  components := .ofList [("people", ⟨"master", 1, people⟩)]
  insertions := 1
  journal := [⟨.create, "people", none⟩]

/-- The federation and its mapper. -/
def mailed : Server where
  components := .ofList [("people", ⟨"master", 1, people⟩),
    ("~", ⟨"master", 2, { mail with id := some "~", parentId := some "people" }⟩)]
  insertions := 2
  journal := [⟨.create, "people", none⟩, ⟨.create, "~", some "mail"⟩]
  idsIssued := 1

theorem convergent_withMail : Convergent tally withoutDefaults withMail where
  reachable := .withoutDefaults
  unignored := rfl
  unarmed := rfl
  defaults _ _ h := by cases h
  fresh := fresh_tally (by decide) (by decide) (by decide)
  valid := rfl
  present := rfl
  type := rfl
  unsynced := rfl
  credential := .inl rfl
  mappers ds h m hm := by
    cases h
    cases List.mem_singleton.mp hm
    exact ⟨rfl, by decide, rfl, fun _ hv => by cases hv⟩
  distinct ds h := by
    cases h
    exact List.pairwise_singleton _ _
  unshared ds h _ _ _ := by
    cases h
    exact List.pairwise_singleton _ _
  given ds h m hm id hid := by
    cases h
    cases List.mem_singleton.mp hm
    cases hid
  rootless _ _ h := by cases h.1
  rootless_new _ := by decide
  parentId _ h := by cases h

theorem withMail_changed :
    Changeset.of withMail none = .ok (changesWith withMail none (some [mail])) :=
  of_eq_ok rfl rfl (target_singleton rfl _)

theorem withMail_surveyed : withoutDefaults.surveyed withMail =
    .ok (none, changesWith withMail none (some [mail])) :=
  congrArg (Except.map fun changes => (none, changes)) withMail_changed

theorem withMail_created : withoutDefaults.create tally withMail.component withMail.realm =
    (.ok people, opened) := rfl

theorem withMail_planned :
    planAfterCreation [mail] (opened.children "people" withMail.realm) "people" withMail.prune =
      .ok [.create (mail.withParent "people")] := by
  have listed : opened.children "people" withMail.realm = [] :=
    children_of_values [⟨"master", 1, people⟩] rfl (by decide)
  rw [listed]
  rfl

theorem mailed_children : mailed.children "people" "master" =
    [{ mail with id := some "~", parentId := some "people" }] :=
  children_of_values [⟨"master", 1, people⟩,
    ⟨"master", 2, { mail with id := some "~", parentId := some "people" }⟩] rfl (by decide)

theorem withMail_run : ∃ o, (reconcile withMail {}).run (answer tally) withoutDefaults =
    (.ok o, mailed) := by
  have apply : ({} : RunMode).dryRun = false := rfl
  have executed : (execute withMail.realm [.create (mail.withParent "people")]).run (answer tally)
      opened = (.ok (), mailed) := rfl
  obtain ⟨o, run, -⟩ := run_created opened people rfl apply withMail_surveyed withMail_created rfl
    withMail_planned executed
  exact ⟨o, run⟩

end Sample

open Server.Sample in
theorem rerun_withMail_changes_nothing :
    ∃ o u, (reconcile withMail {}).run (answer tally) withoutDefaults = (.ok o, u) ∧
      ∀ again : RunMode, ∃ f o', (reconcile withMail again).run (answer tally) u = (.ok o', u) ∧
        o'.changed = false ∧ o'.message = "No changes required to user federation " ++ f ++ "." ∧
          ∀ x ∈ (reconcile withMail again).exchanges (answer tally) u, x.call.isMutation = false := by
  obtain ⟨o, run⟩ := withMail_run
  have above : withoutDefaults.Unfound withMail → ∀ id, withMail.id = some id →
      ¬withoutDefaults.Below (withMail.parentId.getD withMail.realm) id := by
    rintro - id - below
    obtain ⟨-, ⟨e, he, -⟩, -⟩ := Relation.TransGen.head'_iff.mp below
    cases he
  refine ⟨o, mailed, run, (rerun_changes_nothing convergent_withMail above rfl run).2 ?_⟩
  rintro f e - ⟨-, -, given | ⟨none, -⟩⟩
  · cases given
    exact mailed_children ▸ List.pairwise_singleton _ _
  · cases none

namespace Sample

/-- A federation of which only the id is declared. -/
def bare : Declaration := { id := some "people" }

/-- A component with the id of the realm, below the federation. -/
def realmEntry : Stored := ⟨"master", 1, { id := some "master", parentId := some "people" }⟩

def looped : Server := { components := .ofList [("master", realmEntry)], insertions := 1 }

/-- The federation is below a mapper of its own. -/
def cyclic : Server where
  components := .ofList [("master", realmEntry), ("people", ⟨"master", 2, people⟩)]
  insertions := 2
  journal := [⟨.create, "people", none⟩]

/-- The mapper is deleted, and with it what is below it. -/
def emptied : Server where
  insertions := 2
  journal := [⟨.create, "people", none⟩, ⟨.delete, "master", none⟩]

def recreated : Server where
  components := .ofList [("people", ⟨"master", 3, people⟩)]
  insertions := 3
  journal := [⟨.create, "people", none⟩, ⟨.delete, "master", none⟩, ⟨.create, "people", none⟩]

theorem convergent_bare : Convergent tally looped bare where
  reachable := .apply (.seed "master" realmEntry.component) .withoutDefaults
  unignored := rfl
  unarmed := rfl
  defaults _ _ h := by cases h
  fresh := fresh_tally (by decide) (by decide) (by decide)
  valid := rfl
  present := rfl
  type := rfl
  unsynced := rfl
  credential := .inl rfl
  mappers ds h := by cases h
  distinct ds h := by cases h
  unshared ds h := by cases h
  given ds h := by cases h
  rootless f e h := by
    obtain ⟨he, -, given | ⟨none, -⟩⟩ := h
    · cases given
      cases he
    · cases none
  rootless_new _ := by decide
  parentId _ h := by cases h

end Sample

open Server.Sample in
/-- A federation that is above its own parent goes with the mapper that is pruned after its creation,
so the next run creates it again. -/
theorem rerun_bare_creates_again : Convergent tally looped bare ∧
    ∃ o u o' u', (reconcile bare {}).run (answer tally) looped = (.ok o, u) ∧
      (reconcile bare {}).run (answer tally) u = (.ok o', u') ∧ o'.changed = true := by
  have listed : cyclic.children "people" bare.realm = [realmEntry.component] :=
    children_of_values [realmEntry, ⟨"master", 2, people⟩] rfl (by decide)
  have planned : planAfterCreation [] (cyclic.children "people" bare.realm) "people" bare.prune =
      .ok [.delete "master"] := by
    rw [listed]
    rfl
  have below : cyclic.descendants "master" = ["people", "master"] := by
    have entries : cyclic.components.entries =
        [("master", realmEntry), ("people", ⟨"master", 2, people⟩)] := rfl
    simp [descendants, entries, cascade, newChildren, people, realmEntry]
  have deleted : cyclic.delete "master" bare.realm = (.ok (), emptied) := by
    unfold Server.delete
    rw [below]
    rfl
  have executed : (execute bare.realm [.delete "master"]).run (answer tally) cyclic =
      (.ok (), emptied) := by
    simp only [run_execute_cons, Action.call, answer, deleted]
    rfl
  have alone : recreated.children "people" bare.realm = [] :=
    children_of_values [⟨"master", 3, people⟩] rfl (by decide)
  have idle : planAfterCreation [] (recreated.children "people" bare.realm) "people" bare.prune =
      .ok [] := by
    rw [alone]
    rfl
  have apply : ({} : RunMode).dryRun = false := rfl
  have surveyed : looped.surveyed bare = .ok (none, changesWith bare none none) := rfl
  have created : looped.create tally bare.component bare.realm = (.ok people, cyclic) := rfl
  have resurveyed : emptied.surveyed bare = .ok (none, changesWith bare none none) := rfl
  have recreates : emptied.create tally bare.component bare.realm = (.ok people, recreated) := rfl
  obtain ⟨o, run, -⟩ := run_created cyclic people rfl apply surveyed created rfl planned executed
  obtain ⟨o', run', changed⟩ :=
    run_created recreated people rfl apply resurveyed recreates rfl idle rfl
  exact ⟨convergent_bare, o, emptied, o', recreated, run, run', changed⟩

namespace Sample

/-- A mapper with the name that both mappers of `paired` have. -/
def twin (id : String) : Component :=
  { id := some id, name := some "x", providerType := some mapperType, parentId := some "people" }

/-- A federation with two mappers of one name. -/
def paired (journal : List Mutation) : Server where
  components := .ofList [("a", ⟨"master", 1, twin "a"⟩), ("b", ⟨"master", 2, twin "b"⟩),
    ("people", ⟨"master", 3, people⟩)]
  insertions := 3
  journal := journal

/-- Both mappers are declared by their ids, the second one first. -/
def swapped : Declaration :=
  { id := some "people", mappers := some [{ id := some "b" }, { id := some "a" }] }

theorem paired_children (journal : List Mutation) :
    (paired journal).children "people" "master" = [twin "a", twin "b"] :=
  children_of_values [⟨"master", 1, twin "a"⟩, ⟨"master", 2, twin "b"⟩, ⟨"master", 3, people⟩] rfl
    (by decide)

theorem paired_normalized (journal : List Mutation) :
    (paired journal).normalized "master" "people" ⟨"master", 3, people⟩ =
      ⟨people, [twin "a", twin "b"]⟩ := by
  have sorted : Component.sortByName [twin "a", twin "b"] = [twin "a", twin "b"] :=
    Component.sortByName_eq_self (by simp [twin, Component.nameOrEmpty])
  refine congrArg (Federation.mk people) ((normalized_mappers (paired journal) "master" "people"
    ⟨"master", 3, people⟩).trans ?_)
  rw [paired_children, sorted]

theorem paired_found (journal : List Mutation) :
    (paired journal).Found swapped "people" ⟨"master", 3, people⟩ :=
  ⟨rfl, rfl, .inl rfl⟩

theorem target_swapped {ds : List Component} (hds : swapped.mapperComponents = some ds) :
    Mapper.target ds [twin "a", twin "b"] swapped.prune = .ok [twin "b", twin "a"] := by
  cases hds
  refine target_eq_ok_iff.mpr ⟨[twin "b", twin "a"], .cons rfl (.cons rfl .nil), ?_⟩
  exact (Component.sortByName_eq_self (by simp [twin, Component.nameOrEmpty])).symm

theorem convergent_swapped : Convergent tally (paired []) swapped where
  reachable := .apply (.seed "master" people)
    (.apply (.seed "master" (twin "b")) (.apply (.seed "master" (twin "a")) .withoutDefaults))
  unignored := rfl
  unarmed := rfl
  defaults _ _ h := by cases h
  fresh := fresh_tally (by decide) (by decide) (by decide)
  valid := rfl
  present := rfl
  type := rfl
  unsynced := rfl
  credential := .inl rfl
  mappers ds h m hm := by
    cases h
    rcases List.mem_pair.mp hm with rfl | rfl <;>
      exact ⟨rfl, by decide, rfl, fun _ hv => by cases hv⟩
  distinct ds h := by
    cases h
    exact List.pairwise_pair.mpr (by decide)
  unshared ds h f e found := by
    obtain ⟨-, -, given | ⟨none, -⟩⟩ := found
    · cases given
      cases h
      refine List.pairwise_pair.mpr fun c hb ha => ?_
      change referent? _ ((paired []).children "people" "master") = _ at ha hb
      rw [paired_children] at ha hb
      have same : twin "a" = twin "b" := Option.some.inj (Except.ok.inj (ha.trans hb.symm))
      exact absurd same (by decide)
    · cases none
  given ds h m hm id hid := by
    cases h
    rcases List.mem_pair.mp hm with rfl | rfl <;> cases hid <;>
      exact ⟨by decide, .inr ⟨"people", _, paired_found [], rfl⟩⟩
  rootless f e h := by
    obtain ⟨he, -, given | ⟨none, -⟩⟩ := h
    · cases given
      cases he
      exact ⟨by decide, by decide⟩
    · cases none
  rootless_new _ := by decide
  parentId _ h := by cases h

end Sample

open Server.Sample in
/-- Mappers of one name come in the order in which they are declared. The server lists them in
another one, so every run sends the federation again, as it is. -/
theorem rerun_swapped_sends_again : Convergent tally (paired []) swapped ∧
    ∀ journal, ∃ o, (reconcile swapped {}).run (answer tally) (paired journal) =
        (.ok o, paired (journal ++ [⟨.update, "people", none⟩])) ∧ o.changed = false := by
  refine ⟨convergent_swapped, fun journal => ?_⟩
  let existing : Federation := ⟨people, [twin "a", twin "b"]⟩
  let desired : Federation := ⟨people.mergedWith swapped.component, [twin "b", twin "a"]⟩
  let sent := paired (journal ++ [⟨.update, "people", none⟩])
  have keyed : (paired journal).Keyed := convergent_swapped.orderly.keyed
  have changed : Changeset.of swapped (some existing) =
      .ok (changesWith swapped (some existing) (some desired.mappers)) :=
    of_eq_ok rfl rfl (target_swapped rfl)
  have leads : (changesWith swapped (some existing) (some desired.mappers)).applyTo
      (some existing) = desired := applyTo_changesWith _
  have need : desired.needsUpdate existing swapped.credentialPolicy = true := by decide
  have update : (paired journal).update tally desired.component "master" = (.ok (), sent) := rfl
  have done : (execute "master" (planUpdate desired.mappers existing.mappers "people")).run
      (answer tally) sent = (.ok (), sent) := by
    rw [planUpdate_eq_nil (.swap _ _ _)]
    rfl
  have again : (sent.shown "master" "people" (redact people)).undoEcho = existing :=
    paired_normalized _
  refine ⟨_, (paired_found journal).run_updated keyed rfl rfl rfl (paired_normalized journal)
    changed leads need update done rfl, ?_⟩
  change decide (_ ≠ ((sent.shown "master" "people" (redact people)).undoEcho.render.canonical)) = _
  rw [again]
  exact decide_eq_false fun different => different rfl

end UserFederation.Server
